import ClusteredPoller.Targets.NewStyle

/-!
# The blocks of a new-style targets file

What a file says, apart from what the readers make of it: the hosts with their
directives, and in them the targets with theirs.  Reading a file is evaluating
its blocks.
-/

namespace ClusteredPoller.Targets

open Poller
open Library.Outcome (bind_eq_ok ok_bind)

inductive HostItem where
  | community (text : Option CString)
  | snmpver (value : Option Int)
  | target (oid : Option CString) (directives : List RowDirective)
  deriving DecidableEq

structure HostBlock where
  name : CString
  items : List HostItem
  deriving DecidableEq

/-! ## From the text to the blocks -/

/-- The directives up to a closing brace or the end, and what is left. -/
def rowDirectives (unspecified : Unspecified) (stream : List Char) :
    List RowDirective × List Char :=
  match _hscan : scanRow unspecified stream with
  | none => ([], [])
  | some (none, rest) => ([], rest)
  | some (some directive, rest) =>
      (directive :: (rowDirectives unspecified rest).1, (rowDirectives unspecified rest).2)
termination_by stream.length
decreasing_by all_goals exact scanRow_shorter _hscan

section Rows

variable {unspecified : Unspecified} {conf : Rtgconf} {stream rest : List Char}

theorem rowDirectives_end (hscan : scanRow unspecified stream = none) :
    rowDirectives unspecified stream = ([], []) := by
  rw [rowDirectives]
  split <;> simp_all

theorem rowDirectives_close (hscan : scanRow unspecified stream = some (none, rest)) :
    rowDirectives unspecified stream = ([], rest) := by
  rw [rowDirectives]
  split <;> simp_all

theorem rowDirectives_step {directive : RowDirective}
    (hscan : scanRow unspecified stream = some (some directive, rest)) :
    rowDirectives unspecified stream =
      (directive :: (rowDirectives unspecified rest).1, (rowDirectives unspecified rest).2) := by
  rw [rowDirectives]
  split <;> simp_all

theorem rowDirectives_le (unspecified : Unspecified) (stream : List Char) :
    (rowDirectives unspecified stream).2.length ≤ stream.length := by
  induction stream using rowDirectives.induct unspecified with
  | case1 stream hscan => simp [rowDirectives_end hscan]
  | case2 stream rest hscan =>
      rw [rowDirectives_close hscan]
      exact Nat.le_of_lt (scanRow_shorter hscan)
  | case3 stream directive rest hscan ih =>
      rw [rowDirectives_step hscan]
      exact Nat.le_trans ih (Nat.le_of_lt (scanRow_shorter hscan))

end Rows

/-- The items of a host up to a closing brace or the end, and what is left. -/
def hostItems (unspecified : Unspecified) (stream : List Char) : List HostItem × List Char :=
  match _hscan : scanHost stream with
  | none => ([], [])
  | some (none, rest) => ([], rest)
  | some (some (.community text), rest) =>
      (.community text :: (hostItems unspecified rest).1, (hostItems unspecified rest).2)
  | some (some (.snmpver value), rest) =>
      (.snmpver value :: (hostItems unspecified rest).1, (hostItems unspecified rest).2)
  | some (some (.target oid), rest) =>
      let row := rowDirectives unspecified rest
      (.target oid row.1 :: (hostItems unspecified row.2).1, (hostItems unspecified row.2).2)
  | some (some .other, rest) => hostItems unspecified rest
termination_by stream.length
decreasing_by
  all_goals first
    | exact scanHost_shorter _hscan
    | exact Nat.lt_of_le_of_lt (rowDirectives_le _ _) (scanHost_shorter _hscan)

section Items

variable {unspecified : Unspecified} {stream rest : List Char}

theorem hostItems_end (hscan : scanHost stream = none) :
    hostItems unspecified stream = ([], []) := by
  rw [hostItems]
  split <;> simp_all

theorem hostItems_close (hscan : scanHost stream = some (none, rest)) :
    hostItems unspecified stream = ([], rest) := by
  rw [hostItems]
  split <;> simp_all

theorem hostItems_community {text : Option CString}
    (hscan : scanHost stream = some (some (.community text), rest)) :
    hostItems unspecified stream =
      (.community text :: (hostItems unspecified rest).1, (hostItems unspecified rest).2) := by
  rw [hostItems]
  split <;> simp_all

theorem hostItems_snmpver {value : Option Int}
    (hscan : scanHost stream = some (some (.snmpver value), rest)) :
    hostItems unspecified stream =
      (.snmpver value :: (hostItems unspecified rest).1, (hostItems unspecified rest).2) := by
  rw [hostItems]
  split <;> simp_all

theorem hostItems_target {oid : Option CString}
    (hscan : scanHost stream = some (some (.target oid), rest)) :
    hostItems unspecified stream =
      (.target oid (rowDirectives unspecified rest).1 ::
          (hostItems unspecified (rowDirectives unspecified rest).2).1,
        (hostItems unspecified (rowDirectives unspecified rest).2).2) := by
  rw [hostItems]
  split <;> simp_all

theorem hostItems_other (hscan : scanHost stream = some (some .other, rest)) :
    hostItems unspecified stream = hostItems unspecified rest := by
  rw [hostItems]
  split <;> simp_all

theorem hostItems_le (unspecified : Unspecified) (stream : List Char) :
    (hostItems unspecified stream).2.length ≤ stream.length := by
  induction stream using hostItems.induct unspecified with
  | case1 stream hscan => simp [hostItems_end hscan]
  | case2 stream rest hscan =>
      rw [hostItems_close hscan]
      exact Nat.le_of_lt (scanHost_shorter hscan)
  | case3 stream text rest hscan ih =>
      rw [hostItems_community hscan]
      exact Nat.le_trans ih (Nat.le_of_lt (scanHost_shorter hscan))
  | case4 stream value rest hscan ih =>
      rw [hostItems_snmpver hscan]
      exact Nat.le_trans ih (Nat.le_of_lt (scanHost_shorter hscan))
  | case5 stream oid rest hscan row ih =>
      rw [hostItems_target hscan]
      exact Nat.le_trans ih (Nat.le_trans (rowDirectives_le unspecified rest)
        (Nat.le_of_lt (scanHost_shorter hscan)))
  | case6 stream rest hscan ih =>
      rw [hostItems_other hscan]
      exact Nat.le_trans ih (Nat.le_of_lt (scanHost_shorter hscan))

end Items

/-- The hosts of a file. -/
def hostBlocks (unspecified : Unspecified) (stream : List Char) : List HostBlock :=
  match _hscan : scanTop stream with
  | none => []
  | some (none, rest) => hostBlocks unspecified rest
  | some (some name, rest) =>
      let items := hostItems unspecified rest
      { name := name, items := items.1 } :: hostBlocks unspecified items.2
termination_by stream.length
decreasing_by
  all_goals first
    | exact scanTop_shorter _hscan
    | exact Nat.lt_of_le_of_lt (hostItems_le _ _) (scanTop_shorter _hscan)

section Blocks

variable {unspecified : Unspecified} {stream rest : List Char}

theorem hostBlocks_end (hscan : scanTop stream = none) : hostBlocks unspecified stream = [] := by
  rw [hostBlocks]
  split <;> simp_all

theorem hostBlocks_other (hscan : scanTop stream = some (none, rest)) :
    hostBlocks unspecified stream = hostBlocks unspecified rest := by
  rw [hostBlocks]
  split <;> simp_all

theorem hostBlocks_host {name : CString} (hscan : scanTop stream = some (some name, rest)) :
    hostBlocks unspecified stream =
      { name := name, items := (hostItems unspecified rest).1 } ::
        hostBlocks unspecified (hostItems unspecified rest).2 := by
  rw [hostBlocks]
  split <;> simp_all

end Blocks

/-! ## What the blocks mean -/

/-- The row of a target. -/
def evalRow (conf : Rtgconf) (oid : CString) (directives : List RowDirective) :
    Except Fault Queryrow :=
  directives.foldlM (RowDirective.apply conf) { queryrowCreate with oid := some oid }

/-- What an item of a host does to it. -/
def HostItem.apply (conf : Rtgconf) (host : Queryhost) : HostItem → Except Fault Queryhost
  | .community text => do
      let community ← strdupArgument text
      return { host with community := some community }
  | .snmpver value => .ok { host with snmpver := value.getD host.snmpver }
  | .target text directives => do
      let oid ← strdupArgument text
      let row ← evalRow conf oid directives
      addTarget host row

/-- What an item that ends well has done to its host. -/
inductive HostItem.Applied (conf : Rtgconf) (host : Queryhost) : HostItem → Queryhost → Prop where
  | community (text : CString) :
      HostItem.Applied conf host (.community (some text)) { host with community := some text }
  | snmpver (value : Option Int) :
      HostItem.Applied conf host (.snmpver value) { host with snmpver := value.getD host.snmpver }
  | target {oid : CString} {directives : List RowDirective} {row : Queryrow} {next : Queryhost}
      (hrow : evalRow conf oid directives = .ok row) (hadd : addTarget host row = .ok next) :
      HostItem.Applied conf host (.target (some oid) directives) next

theorem HostItem.applied {conf : Rtgconf} {host next : Queryhost} {item : HostItem}
    (happly : item.apply conf host = .ok next) : item.Applied conf host next := by
  cases item with
  | community text =>
      obtain ⟨community, htext, hnext⟩ := bind_eq_ok.mp happly
      cases hnext
      cases text with
      | none => cases htext
      | some text =>
          cases htext
          exact .community _
  | snmpver value =>
      cases happly
      exact .snmpver value
  | target text directives =>
      obtain ⟨oid, htext, hnext⟩ := bind_eq_ok.mp happly
      obtain ⟨row, hrow, hadd⟩ := bind_eq_ok.mp hnext
      cases text with
      | none => cases htext
      | some text =>
          cases htext
          exact .target hrow hadd

def HostBlock.eval (conf : Rtgconf) (block : HostBlock) : Except Fault Queryhost :=
  block.items.foldlM (HostItem.apply conf) { queryhostCreate with host := some block.name }

/-- The hosts of some blocks, pushed one after another. -/
def evalBlocks (conf : Rtgconf) (targets : Rtgtargets) (blocks : List HostBlock) :
    Except Fault Rtgtargets :=
  blocks.foldlM (fun targets block => do
    let host ← block.eval conf
    return targets.pushHost host) targets

/-! ## Reading is evaluating -/

section Reading

variable {unspecified : Unspecified} {conf : Rtgconf}

theorem rowLoop_eq (row : Queryrow) (stream : List Char) :
    rowLoop unspecified conf row stream =
      ((rowDirectives unspecified stream).1.foldlM (RowDirective.apply conf) row >>= fun row =>
        .ok (row, (rowDirectives unspecified stream).2)) := by
  induction row, stream using rowLoop.induct unspecified with
  | case1 row stream hscan =>
      rw [rowLoop_end hscan, rowDirectives_end hscan]
      rfl
  | case2 row stream rest hscan =>
      rw [rowLoop_close hscan, rowDirectives_close hscan]
      rfl
  | case3 row stream directive rest hscan ih =>
      rw [rowLoop_step hscan, rowDirectives_step hscan, List.foldlM_cons, bind_assoc]
      exact bind_congr fun next => ih next

theorem readRow_eq (oid : CString) (stream : List Char) :
    readRow unspecified conf oid stream =
      (evalRow conf oid (rowDirectives unspecified stream).1 >>= fun row =>
        .ok (row, (rowDirectives unspecified stream).2)) :=
  rowLoop_eq _ stream

theorem hostLoop_eq (host : Queryhost) (stream : List Char) :
    hostLoop unspecified conf host stream =
      ((hostItems unspecified stream).1.foldlM (HostItem.apply conf) host >>= fun host =>
        .ok (host, (hostItems unspecified stream).2)) := by
  induction hlength : stream.length using Nat.strongRecOn generalizing host stream with
  | ind length ih =>
      cases hscan : scanHost stream with
      | none =>
          rw [hostLoop_end hscan, hostItems_end hscan]
          rfl
      | some read =>
          obtain ⟨directive, rest⟩ := read
          have hshorter : rest.length < length := hlength ▸ scanHost_shorter hscan
          cases directive with
          | none =>
              rw [hostLoop_close hscan, hostItems_close hscan]
              rfl
          | some directive =>
              cases directive with
              | community text =>
                  rw [hostLoop_community hscan, hostItems_community hscan, List.foldlM_cons,
                    HostItem.apply, bind_assoc, bind_assoc]
                  exact bind_congr fun community => ih rest.length hshorter _ rest rfl
              | snmpver value =>
                  rw [hostLoop_snmpver hscan, hostItems_snmpver hscan]
                  exact ih rest.length hshorter _ rest rfl
              | target text =>
                  have hrow := rowDirectives_le unspecified rest
                  rw [hostLoop_target hscan, hostItems_target hscan, List.foldlM_cons,
                    HostItem.apply, bind_assoc, bind_assoc]
                  refine bind_congr fun oid => ?_
                  rw [readRow_eq, bind_assoc, bind_assoc]
                  refine bind_congr fun row => ?_
                  rw [ok_bind]
                  exact bind_congr fun next =>
                    ih _ (Nat.lt_of_le_of_lt hrow hshorter) next _ rfl
              | other =>
                  rw [hostLoop_other hscan, hostItems_other hscan]
                  exact ih rest.length hshorter host rest rfl

theorem readHost_eq (name : CString) (stream : List Char) :
    readHost unspecified conf name stream =
      (HostBlock.eval conf { name := name, items := (hostItems unspecified stream).1 } >>=
        fun host => .ok (host, (hostItems unspecified stream).2)) :=
  hostLoop_eq _ stream

theorem targetsLoop_eq (targets : Rtgtargets) (stream : List Char) :
    targetsLoop unspecified conf targets stream =
      evalBlocks conf targets (hostBlocks unspecified stream) := by
  induction hlength : stream.length using Nat.strongRecOn generalizing targets stream with
  | ind length ih =>
      cases hscan : scanTop stream with
      | none =>
          rw [targetsLoop_end hscan, hostBlocks_end hscan]
          rfl
      | some read =>
          obtain ⟨name, rest⟩ := read
          have hshorter : rest.length < length := hlength ▸ scanTop_shorter hscan
          cases name with
          | none =>
              rw [targetsLoop_other hscan, hostBlocks_other hscan]
              exact ih rest.length hshorter targets rest rfl
          | some name =>
              have hitems := hostItems_le unspecified rest
              rw [targetsLoop_host hscan, hostBlocks_host hscan, evalBlocks, List.foldlM_cons,
                readHost_eq, bind_assoc, bind_assoc]
              refine bind_congr fun host => ?_
              rw [ok_bind]
              exact ih _ (Nat.lt_of_le_of_lt hitems hshorter) _ _ rfl

/-- `read_new_style_targets` evaluates the blocks of the file. -/
theorem readNewStyleTargets_eq (text : List Char) :
    readNewStyleTargets unspecified (some text) conf =
      evalBlocks conf rtgtargetsCreate (hostBlocks unspecified text) :=
  targetsLoop_eq _ text

end Reading

end ClusteredPoller.Targets
