import ClusteredPoller.Targets.NewStyle

/-!
# Old-style targets files

`read_old_style_targets`: a row in each line, and the rows of a host gathered
under it.  A host pointer is the number of the host in the list.
-/

namespace ClusteredPoller.Targets

open Poller

def strunc (str : CString) : CString := str.endAt '#'

/-- The first host with a name.  `read_old_style_targets` has this search
written out. -/
def rtgtargetsFindHost : List Queryhost → Option CString → Except Fault (Option Nat)
  | [], _ => .ok none
  | host :: hosts, name => do
      if ← strcmpEqual name host.host then
        return some 0
      else
        let found ← rtgtargetsFindHost hosts name
        return found.map (· + 1)

/-- The fields of a line that has at least six. -/
structure Fields where
  host : CString
  oid : CString
  bits : CString
  community : CString
  table : CString
  id : CString
  deriving DecidableEq

/-- `strunc`, `strtok` and the test of `nbr_tokens`. -/
def fieldsOf (line : List Char) : Option Fields :=
  match strtok ['\t'] (strunc (CString.ofMemory line)) with
  | host :: oid :: bits :: community :: table :: id :: _ =>
      some { host, oid, bits, community, table, id }
  | _ => none

/-- The locals of `read_old_style_targets`. -/
structure OldReader where
  targets : Rtgtargets
  currentHost : Option Nat
  deriving DecidableEq

/-- The host of the row before, if it is this row's host, too. -/
def OldReader.sameHost (reader : OldReader) (name : CString) : Except Fault (Option Nat) :=
  match reader.currentHost with
  | none => .ok none
  | some index => do
      let current := (reader.targets.hosts[index]?).bind Queryhost.host
      if ← strcmpEqual current (some name) then return some index else return none

/-- The host of a row: the current one, one with its name, or a new one. -/
def OldReader.hostOf (reader : OldReader) (fields : Fields) : Except Fault (Rtgtargets × Nat) := do
  match ← reader.sameHost fields.host with
  | some index => return (reader.targets, index)
  | none =>
      match ← rtgtargetsFindHost reader.targets.hosts (some fields.host) with
      | some index => return (reader.targets, index)
      | none =>
          let host : Queryhost :=
            { queryhostCreate with
              host := some fields.host
              community := some fields.community
              snmpver := 2 }
          return (reader.targets.pushHost host, reader.targets.hosts.length)

/-- `row->speed`, in `unsigned` arithmetic. -/
def oldSpeed (unspecified : Unspecified) (conf : Rtgconf) : Except Fault UInt64 :=
  if conf.interval = 0 then .error .divisionByZero
  else .ok (unspecified.castOf10e9 / 8 / conf.interval).toUInt64

def oldRow (fields : Fields) (speed : UInt64) : Queryrow :=
  { queryrowCreate with
    oid := some fields.oid
    table := some fields.table
    id := UInt32.ofInt (atoi fields.id)
    bits := UInt32.ofInt (atoi fields.bits)
    speed := speed }

/-- `queryhost_push_row`, and the new row counted. -/
def Rtgtargets.addRow (targets : Rtgtargets) (index : Nat) (row : Queryrow) : Rtgtargets where
  hosts := targets.hosts.modify index fun host => pushRow host row
  ntargets := targets.ntargets + 1

/-- One turn of the loop. -/
def OldReader.readLine (unspecified : Unspecified) (conf : Rtgconf) (reader : OldReader)
    (line : List Char) : Except Fault OldReader :=
  match fieldsOf line with
  | none => .ok reader
  | some fields => do
      let found ← reader.hostOf fields
      let speed ← oldSpeed unspecified conf
      return {
        targets := found.1.addRow found.2 (oldRow fields speed)
        currentHost := some found.2 }

/-- The lines of the file, as they come into the buffer. -/
def recordLines (text : List Char) : List (List Char) := fgetsAll 256 (by decide) text

def readOldStyleTargets (unspecified : Unspecified) (file : File) (conf : Rtgconf) :
    Except Fault Rtgtargets :=
  match file with
  | none => .ok rtgtargetsCreate
  | some text => do
      let reader ← (recordLines text).foldlM (OldReader.readLine unspecified conf)
        { targets := rtgtargetsCreate, currentHost := none }
      return reader.targets

/-! ## `rtgtargets_parse` -/

def rtgtargetsParse (unspecified : Unspecified) (file : File) (conf : Rtgconf) :
    Except Fault Rtgtargets := do
  let targets ← readNewStyleTargets unspecified file conf
  if targets.hosts.length = 0 then readOldStyleTargets unspecified file conf
  else return targets

/-! ## `rtgtargets_copy_cache` -/

def rtgtargetsFindRow : List Queryrow → Option CString → Except Fault (Option Nat)
  | [], _ => .ok none
  | row :: rows, oid => do
      if ← strcmpEqual oid row.oid then
        return some 0
      else
        let found ← rtgtargetsFindRow rows oid
        return found.map (· + 1)

def copyCache (dest src : Queryrow) : Queryrow :=
  { dest with cachedTime := src.cachedTime, cachedCounter := src.cachedCounter }

/-- The loop over the rows of a host. -/
def copyRows (dest : List Queryrow) : List Queryrow → Except Fault (List Queryrow)
  | [] => .ok dest
  | src :: rest => do
      match ← rtgtargetsFindRow dest src.oid with
      | some index => copyRows (dest.modify index fun row => copyCache row src) rest
      | none => copyRows dest rest

/-- The loop over the hosts. -/
def copyHosts (dest : List Queryhost) : List Queryhost → Except Fault (List Queryhost)
  | [] => .ok dest
  | src :: rest => do
      match ← rtgtargetsFindHost dest src.host with
      | some index => do
          let rows ← copyRows ((dest[index]?).elim [] Queryhost.rows) src.rows
          copyHosts (dest.modify index fun host => { host with rows := rows }) rest
      | none => copyHosts dest rest

def rtgtargetsCopyCache (dest src : Rtgtargets) : Except Fault Rtgtargets := do
  let hosts ← copyHosts dest.hosts src.hosts
  return { dest with hosts := hosts }

end ClusteredPoller.Targets
