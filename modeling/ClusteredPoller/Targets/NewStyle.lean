import ClusteredPoller.Library.Outcome
import ClusteredPoller.Poller.Targets
import ClusteredPoller.RtgconfFile

/-!
# New-style targets files

`read_new_style_targets` and the two readers below it.  One turn of a reading
loop reads a directive with its argument and then acts on it; the model keeps
the two halves of a turn apart.
-/

namespace ClusteredPoller.Targets

open Poller
open Library.Outcome (bind_eq_ok)

/-- What C leaves to the compiler and to chance. -/
structure Unspecified where
  /-- `(unsigned) 10e9`, which does not fit. -/
  castOf10e9 : UInt32
  /-- An `unsigned long long` that nothing was stored in, at a place in a file. -/
  unset : List Char → UInt64

/-- `nhosts` is the length of `hosts`. -/
structure Rtgtargets where
  hosts : List Queryhost
  ntargets : UInt32
  deriving DecidableEq

def rtgtargetsCreate : Rtgtargets where
  hosts := []
  ntargets := 0

def Rtgtargets.pushHost (targets : Rtgtargets) (host : Queryhost) : Rtgtargets where
  hosts := targets.hosts ++ [host]
  ntargets := targets.ntargets + UInt32.ofNat host.rows.length

/-! ## Words -/

def strtolower (str : CString) : CString := str.toLower

def strclean (str : CString) : CString := str.endAt ';'

namespace Keyword

def host : CString := CString.ofString "host"
def community : CString := CString.ofString "community"
def snmpver : CString := CString.ofString "snmpver"
def target : CString := CString.ofString "target"
def bits : CString := CString.ofString "bits"
def table : CString := CString.ofString "table"
def id : CString := CString.ofString "id"
def speed : CString := CString.ofString "speed"
def close : CString := CString.ofString "\x7d"

end Keyword

/-- The token that starts a turn of each reading loop. -/
def scanWord (stream : List Char) : Option (CString × List Char) :=
  (scanString 512 stream).map fun read =>
    (strclean (strtolower (CString.ofMemory read.1)), read.2)

def isComment (word : CString) : Bool := word.chars.head? = some '#'

/-- An argument read into `buffer`; at the end of the file the buffer stays as
it is, with nothing stored in it. -/
def scanArgument (stream : List Char) : Option CString × List Char :=
  match scanString 128 stream with
  | some (item, rest) => (some (strclean (CString.ofMemory item)), rest)
  | none => (none, [])

/-- `strdup` of the buffer that an argument was read into. -/
def strdupArgument : Option CString → Except Fault CString
  | some text => .ok text
  | none => .error .uninitialised

theorem scanWord_shorter {stream rest : List Char} {word : CString}
    (hscan : scanWord stream = some (word, rest)) : rest.length < stream.length := by
  obtain ⟨read, hread, heq⟩ := Option.map_eq_some_iff.mp hscan
  cases heq
  exact scanString_shorter (by decide) hread

theorem scanArgument_le (stream : List Char) : (scanArgument stream).2.length ≤ stream.length := by
  unfold scanArgument
  split
  · next hscan => exact Nat.le_of_lt (scanString_shorter (by decide) hscan)
  · exact Nat.zero_le _

/-! ## `read_row` -/

inductive RowDirective where
  | bits (value : Option UInt32)
  | table (text : Option CString)
  | id (value : Option UInt32)
  | speed (maxCounterDiff : UInt64)
  /-- A comment or a word without meaning. -/
  | other
  deriving DecidableEq

/-- The directive that a word starts, and what is left behind its argument; no
directive stands for the closing brace. -/
def rowTurn (unspecified : Unspecified) (word : CString) (rest : List Char) :
    Option RowDirective × List Char :=
  if isComment word then (some .other, skipLine rest)
  else if word = Keyword.bits then
    (some (.bits (scanUnsigned rest).1), (scanUnsigned rest).2)
  else if word = Keyword.table then
    (some (.table (scanArgument rest).1), (scanArgument rest).2)
  else if word = Keyword.id then
    (some (.id (scanUnsigned rest).1), (scanUnsigned rest).2)
  else if word = Keyword.speed then
    (some (.speed ((scanUnsignedLongLong rest).1.getD (unspecified.unset rest))),
      (scanUnsignedLongLong rest).2)
  else if word = Keyword.close then (none, rest)
  else (some .other, rest)

/-- The reading half of a turn. -/
def scanRow (unspecified : Unspecified) (stream : List Char) :
    Option (Option RowDirective × List Char) :=
  (scanWord stream).map fun read => rowTurn unspecified read.1 read.2

/-- The acting half of a turn. -/
def RowDirective.apply (conf : Rtgconf) (row : Queryrow) : RowDirective → Except Fault Queryrow
  | .bits value => .ok { row with bits := value.getD row.bits }
  | .table text => do
      let table ← strdupArgument text
      return { row with table := some table }
  | .id value => .ok { row with id := value.getD row.id }
  | .speed maxCounterDiff =>
      if row.bits = 0 then .ok { row with speed := maxCounterDiff }
      else if conf.interval = 0 then .error .divisionByZero
      else .ok { row with speed := maxCounterDiff / conf.interval.toUInt64 }
  | .other => .ok row

theorem scanRow_shorter {unspecified : Unspecified} {stream rest : List Char}
    {directive : Option RowDirective}
    (hscan : scanRow unspecified stream = some (directive, rest)) :
    rest.length < stream.length := by
  obtain ⟨⟨word, after⟩, hword, heq⟩ := Option.map_eq_some_iff.mp hscan
  have hafter := scanWord_shorter hword
  have hline := skipLine_le after
  have hinteger := scanInteger_le after
  have hargument := scanArgument_le after
  have hrest := congrArg (fun read => read.2.length) heq
  dsimp only at hrest
  rw [← hrest, rowTurn]
  split_ifs <;> dsimp only [scanUnsigned, scanUnsignedLongLong] <;> omega

/-- The loop of `read_row`. -/
def rowLoop (unspecified : Unspecified) (conf : Rtgconf) (row : Queryrow) (stream : List Char) :
    Except Fault (Queryrow × List Char) :=
  match _hscan : scanRow unspecified stream with
  | none => .ok (row, [])
  | some (none, rest) => .ok (row, rest)
  | some (some directive, rest) => do
      let row ← directive.apply conf row
      rowLoop unspecified conf row rest
termination_by stream.length
decreasing_by exact scanRow_shorter _hscan

section RowLoop

variable {unspecified : Unspecified} {conf : Rtgconf} {row : Queryrow} {stream rest : List Char}

theorem rowLoop_end (hscan : scanRow unspecified stream = none) :
    rowLoop unspecified conf row stream = .ok (row, []) := by
  rw [rowLoop]
  split <;> simp_all

theorem rowLoop_close (hscan : scanRow unspecified stream = some (none, rest)) :
    rowLoop unspecified conf row stream = .ok (row, rest) := by
  rw [rowLoop]
  split <;> simp_all

theorem rowLoop_step {directive : RowDirective}
    (hscan : scanRow unspecified stream = some (some directive, rest)) :
    rowLoop unspecified conf row stream =
      (directive.apply conf row >>= fun row => rowLoop unspecified conf row rest) := by
  rw [rowLoop]
  split <;> simp_all

theorem rowLoop_le {final : Queryrow}
    (hread : rowLoop unspecified conf row stream = .ok (final, rest)) :
    rest.length ≤ stream.length := by
  induction row, stream using rowLoop.induct unspecified with
  | case1 row stream hscan =>
      rw [rowLoop_end hscan] at hread
      cases hread
      exact Nat.zero_le _
  | case2 row stream after hscan =>
      rw [rowLoop_close hscan] at hread
      cases hread
      exact Nat.le_of_lt (scanRow_shorter hscan)
  | case3 row stream directive after hscan ih =>
      rw [rowLoop_step hscan] at hread
      obtain ⟨next, -, hnext⟩ := bind_eq_ok.mp hread
      exact Nat.le_trans (ih next hnext) (Nat.le_of_lt (scanRow_shorter hscan))

end RowLoop

def readRow (unspecified : Unspecified) (conf : Rtgconf) (oid : CString) (stream : List Char) :
    Except Fault (Queryrow × List Char) :=
  rowLoop unspecified conf { queryrowCreate with oid := some oid } stream

/-! ## `read_host` -/

/-- `!strcmp` of both strings of two rows, in the order of `check_for_duplicate`. -/
def checkForDuplicate : List Queryrow → Queryrow → Except Fault Bool
  | [], _ => .ok false
  | itRow :: itRows, row => do
      if ← strcmpEqual itRow.oid row.oid then
        return true
      else if (← strcmpEqual itRow.table row.table) && itRow.id == row.id then
        return true
      else checkForDuplicate itRows row

inductive HostDirective where
  | community (text : Option CString)
  | snmpver (value : Option Int)
  /-- A target's OID; the row follows. -/
  | target (oid : Option CString)
  | other
  deriving DecidableEq

def hostTurn (word : CString) (rest : List Char) : Option HostDirective × List Char :=
  if isComment word then (some .other, skipLine rest)
  else if word = Keyword.community then
    (some (.community (scanArgument rest).1), (scanArgument rest).2)
  else if word = Keyword.snmpver then
    (some (.snmpver (scanInt rest).1), (scanInt rest).2)
  else if word = Keyword.target then
    (some (.target (scanArgument rest).1), (scanArgument rest).2)
  else if word = Keyword.close then (none, rest)
  else (some .other, rest)

def scanHost (stream : List Char) : Option (Option HostDirective × List Char) :=
  (scanWord stream).map fun read => hostTurn read.1 read.2

theorem scanHost_shorter {stream rest : List Char} {directive : Option HostDirective}
    (hscan : scanHost stream = some (directive, rest)) : rest.length < stream.length := by
  obtain ⟨⟨word, after⟩, hword, heq⟩ := Option.map_eq_some_iff.mp hscan
  have hafter := scanWord_shorter hword
  have hline := skipLine_le after
  have hinteger := scanInteger_le after
  have hargument := scanArgument_le after
  have hrest := congrArg (fun read => read.2.length) heq
  dsimp only at hrest
  rw [← hrest, hostTurn]
  split_ifs <;> dsimp only [scanInt] <;> omega

def pushRow (host : Queryhost) (row : Queryrow) : Queryhost :=
  { host with rows := host.rows ++ [row] }

/-- A row that was read is pushed unless it repeats one. -/
def addTarget (host : Queryhost) (row : Queryrow) : Except Fault Queryhost := do
  if ← checkForDuplicate host.rows row then
    return host
  else return pushRow host row

/-- The loop of `read_host`. -/
def hostLoop (unspecified : Unspecified) (conf : Rtgconf) (host : Queryhost)
    (stream : List Char) : Except Fault (Queryhost × List Char) :=
  match _hscan : scanHost stream with
  | none => .ok (host, [])
  | some (none, rest) => .ok (host, rest)
  | some (some (.community text), rest) => do
      let community ← strdupArgument text
      hostLoop unspecified conf { host with community := some community } rest
  | some (some (.snmpver value), rest) =>
      hostLoop unspecified conf { host with snmpver := value.getD host.snmpver } rest
  | some (some (.target text), rest) => do
      let oid ← strdupArgument text
      match _hrow : readRow unspecified conf oid rest with
      | .error fault => .error fault
      | .ok (row, rest) => do
          let host ← addTarget host row
          hostLoop unspecified conf host rest
  | some (some .other, rest) => hostLoop unspecified conf host rest
termination_by stream.length
decreasing_by
  all_goals
    have hscan := scanHost_shorter _hscan
    try have hrow := rowLoop_le _hrow
    omega

section HostLoop

variable {unspecified : Unspecified} {conf : Rtgconf} {host : Queryhost} {stream rest : List Char}

theorem hostLoop_end (hscan : scanHost stream = none) :
    hostLoop unspecified conf host stream = .ok (host, []) := by
  rw [hostLoop]
  split <;> simp_all

theorem hostLoop_close (hscan : scanHost stream = some (none, rest)) :
    hostLoop unspecified conf host stream = .ok (host, rest) := by
  rw [hostLoop]
  split <;> simp_all

theorem hostLoop_community {text : Option CString}
    (hscan : scanHost stream = some (some (.community text), rest)) :
    hostLoop unspecified conf host stream =
      (strdupArgument text >>= fun community =>
        hostLoop unspecified conf { host with community := some community } rest) := by
  rw [hostLoop]
  split <;> simp_all

theorem hostLoop_snmpver {value : Option Int}
    (hscan : scanHost stream = some (some (.snmpver value), rest)) :
    hostLoop unspecified conf host stream =
      hostLoop unspecified conf { host with snmpver := value.getD host.snmpver } rest := by
  rw [hostLoop]
  split <;> simp_all

theorem hostLoop_target {text : Option CString}
    (hscan : scanHost stream = some (some (.target text), rest)) :
    hostLoop unspecified conf host stream =
      (strdupArgument text >>= fun oid =>
        readRow unspecified conf oid rest >>= fun read =>
          addTarget host read.1 >>= fun host => hostLoop unspecified conf host read.2) := by
  rw [hostLoop]
  split <;> simp_all
  obtain ⟨rfl, rfl⟩ := hscan
  refine bind_congr fun oid => ?_
  split <;> simp_all

theorem hostLoop_other (hscan : scanHost stream = some (some .other, rest)) :
    hostLoop unspecified conf host stream = hostLoop unspecified conf host rest := by
  rw [hostLoop]
  split <;> simp_all

theorem hostLoop_le {final : Queryhost}
    (hread : hostLoop unspecified conf host stream = .ok (final, rest)) :
    rest.length ≤ stream.length := by
  induction host, stream using hostLoop.induct unspecified conf with
  | case1 host stream hscan =>
      rw [hostLoop_end hscan] at hread
      cases hread
      exact Nat.zero_le _
  | case2 host stream after hscan =>
      rw [hostLoop_close hscan] at hread
      cases hread
      exact Nat.le_of_lt (scanHost_shorter hscan)
  | case3 host stream text after hscan ih =>
      rw [hostLoop_community hscan] at hread
      obtain ⟨community, -, hnext⟩ := bind_eq_ok.mp hread
      exact Nat.le_trans (ih community hnext) (Nat.le_of_lt (scanHost_shorter hscan))
  | case4 host stream value after hscan ih =>
      rw [hostLoop_snmpver hscan] at hread
      exact Nat.le_trans (ih hread) (Nat.le_of_lt (scanHost_shorter hscan))
  | case5 host stream text after hscan ih =>
      rw [hostLoop_target hscan] at hread
      obtain ⟨oid, -, hread⟩ := bind_eq_ok.mp hread
      obtain ⟨⟨row, behind⟩, hrow, hread⟩ := bind_eq_ok.mp hread
      obtain ⟨next, -, hnext⟩ := bind_eq_ok.mp hread
      exact Nat.le_trans (ih oid row behind hrow next hnext)
        (Nat.le_trans (rowLoop_le hrow) (Nat.le_of_lt (scanHost_shorter hscan)))
  | case6 host stream after hscan ih =>
      rw [hostLoop_other hscan] at hread
      exact Nat.le_trans (ih hread) (Nat.le_of_lt (scanHost_shorter hscan))

end HostLoop

def readHost (unspecified : Unspecified) (conf : Rtgconf) (name : CString) (stream : List Char) :
    Except Fault (Queryhost × List Char) :=
  hostLoop unspecified conf { queryhostCreate with host := some name } stream

/-! ## `read_new_style_targets` -/

/-- The name behind `host`; at the end of the file `token` still holds `host`
itself. -/
def scanName (word : CString) (stream : List Char) : CString × List Char :=
  match scanString 512 stream with
  | some (token, rest) => (CString.ofMemory token, rest)
  | none => (word, [])

/-- The name of the host that a word starts, if it does. -/
def topTurn (word : CString) (rest : List Char) : Option CString × List Char :=
  if isComment word then (none, skipLine rest)
  else if word = Keyword.host then
    (some (scanName word rest).1, (scanName word rest).2)
  else (none, rest)

def scanTop (stream : List Char) : Option (Option CString × List Char) :=
  (scanWord stream).map fun read => topTurn read.1 read.2

theorem scanName_le (word : CString) (stream : List Char) :
    (scanName word stream).2.length ≤ stream.length := by
  unfold scanName
  split
  · next hscan => exact Nat.le_of_lt (scanString_shorter (by decide) hscan)
  · exact Nat.zero_le _

theorem scanTop_shorter {stream rest : List Char} {name : Option CString}
    (hscan : scanTop stream = some (name, rest)) : rest.length < stream.length := by
  obtain ⟨⟨word, after⟩, hword, heq⟩ := Option.map_eq_some_iff.mp hscan
  have hafter := scanWord_shorter hword
  have hline := skipLine_le after
  have hname := scanName_le word after
  have hrest := congrArg (fun read => read.2.length) heq
  dsimp only at hrest
  rw [← hrest, topTurn]
  split_ifs <;> dsimp only <;> omega

/-- The loop of `read_new_style_targets`. -/
def targetsLoop (unspecified : Unspecified) (conf : Rtgconf) (targets : Rtgtargets)
    (stream : List Char) : Except Fault Rtgtargets :=
  match _hscan : scanTop stream with
  | none => .ok targets
  | some (none, rest) => targetsLoop unspecified conf targets rest
  | some (some name, rest) =>
      match _hhost : readHost unspecified conf name rest with
      | .error fault => .error fault
      | .ok (host, rest) => targetsLoop unspecified conf (targets.pushHost host) rest
termination_by stream.length
decreasing_by
  all_goals
    have hscan := scanTop_shorter _hscan
    try have hhost := hostLoop_le _hhost
    omega

section TargetsLoop

variable {unspecified : Unspecified} {conf : Rtgconf} {targets : Rtgtargets}
  {stream rest : List Char}

theorem targetsLoop_end (hscan : scanTop stream = none) :
    targetsLoop unspecified conf targets stream = .ok targets := by
  rw [targetsLoop]
  split <;> simp_all

theorem targetsLoop_other (hscan : scanTop stream = some (none, rest)) :
    targetsLoop unspecified conf targets stream =
      targetsLoop unspecified conf targets rest := by
  rw [targetsLoop]
  split <;> simp_all

theorem targetsLoop_host {name : CString} (hscan : scanTop stream = some (some name, rest)) :
    targetsLoop unspecified conf targets stream =
      (readHost unspecified conf name rest >>= fun read =>
        targetsLoop unspecified conf (targets.pushHost read.1) read.2) := by
  rw [targetsLoop]
  split <;> simp_all
  obtain ⟨rfl, rfl⟩ := hscan
  split <;> simp_all

end TargetsLoop

def readNewStyleTargets (unspecified : Unspecified) (file : File) (conf : Rtgconf) :
    Except Fault Rtgtargets :=
  match file with
  | none => .ok rtgtargetsCreate
  | some text => targetsLoop unspecified conf rtgtargetsCreate text

end ClusteredPoller.Targets
