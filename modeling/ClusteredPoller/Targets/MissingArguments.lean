import ClusteredPoller.Library.Greedy
import ClusteredPoller.Targets.Duplicates
import ClusteredPoller.Targets.Speeds

/-!
# Missing arguments

No reading loop looks at what `fscanf` returns.  A width or a number of a row
that is not there leaves the row as it was, but a speed then comes from a
variable, and a community, a table or an OID from a buffer, that nothing was
stored in.
-/

namespace ClusteredPoller.Targets

open Poller
open Library.Greedy (keepUnless)
open Library.Outcome (FailsIn Follows bind_eq_ok forall_mem_of_foldlM)

/-! ## What a file says -/

/-- Readings that find the least and the greatest number where nothing was
stored. -/
def lowest : Unspecified := ⟨0, fun _ => 0⟩

def highest : Unspecified := ⟨0, fun _ => 18446744073709551615⟩

/-- What both readings find; they differ in a speed without a number. -/
def said (low high : RowDirective) : Option RowDirective := if low = high then some low else none

inductive SaidItem where
  | community (text : Option CString)
  | snmpver (value : Option Int)
  | target (oid : Option CString) (directives : List (Option RowDirective))
  deriving DecidableEq

structure SaidBlock where
  name : CString
  items : List SaidItem
  deriving DecidableEq

def saidItem : HostItem → HostItem → SaidItem
  | .target oid low, .target _ high => .target oid (List.zipWith said low high)
  | .target oid low, _ => .target oid (low.map some)
  | .community text, _ => .community text
  | .snmpver value, _ => .snmpver value

def saidBlock (low high : HostBlock) : SaidBlock where
  name := low.name
  items := List.zipWith saidItem low.items high.items

/-- The hosts of a file, with their directives as far as it has them. -/
def saidBlocks (text : List Char) : List SaidBlock :=
  List.zipWith saidBlock (hostBlocks lowest text) (hostBlocks highest text)

/-! ## Keeping the previous value -/

/-- A directive without its argument does nothing. -/
def SaidItem.kept : SaidItem → HostItem
  | .community text => .community text
  | .snmpver value => .snmpver value
  | .target oid directives => .target oid (directives.map (·.getD .other))

def SaidBlock.kept (block : SaidBlock) : HostBlock where
  name := block.name
  items := block.items.map SaidItem.kept

/-- `rtgtargets_parse`, if a speed without a number left the row as it is. -/
def keptParse (unspecified : Unspecified) (text : List Char) (conf : Rtgconf) :
    Except Fault Rtgtargets :=
  if saidBlocks text = [] then readOldStyleTargets unspecified (some text) conf
  else evalBlocks conf rtgtargetsCreate ((saidBlocks text).map SaidBlock.kept)

/-- Nothing is taken from where nothing was stored: no string, and no number,
so that a field without an argument keeps its value. -/
structure TakesStored (conf : Rtgconf) (text : List Char) : Prop where
  strings : ∀ unspecified, rtgtargetsParse unspecified (some text) conf ≠ .error .uninitialised
  numbers : ∀ unspecified targets, rtgtargetsParse unspecified (some text) conf = .ok targets →
    keptParse unspecified text conf = .ok targets

/-! ## When arguments are there -/

/-- A row as far as it is compared with others, and whether the last number
for its speed was there. -/
structure SaidRow where
  row : Queryrow
  speedGiven : Bool

def SaidRow.pass (said : SaidRow) : Option RowDirective → SaidRow
  | none => { said with speedGiven := false }
  | some (.speed _) => { said with speedGiven := true }
  | some (.table text) => { said with row := { said.row with table := text } }
  | some (.id value) => { said with row := { said.row with id := value.getD said.row.id } }
  | some (.bits _) => said
  | some .other => said

def saidRow (oid : Option CString) (directives : List (Option RowDirective)) : SaidRow :=
  directives.foldl SaidRow.pass
    { row := { queryrowCreate with oid := oid }, speedGiven := true }

def SaidRow.clashes (earlier said : SaidRow) : Bool := repeats earlier.row said.row

/-- The targets that no kept one clashes with are kept. -/
def keepTarget (kept : List SaidRow) : SaidItem → List SaidRow
  | .target oid directives => keepUnless SaidRow.clashes kept (saidRow oid directives)
  | _ => kept

def SaidBlock.rows (block : SaidBlock) : List SaidRow := block.items.foldl keepTarget []

/-- No string is missing. -/
def SaidItem.complete : SaidItem → Bool
  | .community text => text.isSome
  | .snmpver _ => true
  | .target oid directives => oid.isSome && !directives.contains (some (.table none))

/-- All strings are there, and for each row that is kept the last number for
its speed. -/
structure SaidBlock.Given (block : SaidBlock) : Prop where
  strings : ∀ item ∈ block.items, item.complete = true
  numbers : ∀ said ∈ block.rows, said.speedGiven = true

instance (block : SaidBlock) : Decidable block.Given :=
  decidable_of_iff ((∀ item ∈ block.items, item.complete = true) ∧
    ∀ said ∈ block.rows, said.speedGiven = true)
    ⟨fun both => ⟨both.1, both.2⟩, fun given => ⟨given.strings, given.numbers⟩⟩

def Given (text : List Char) : Prop := ∀ block ∈ saidBlocks text, block.Given

instance (text : List Char) : Decidable (Given text) :=
  inferInstanceAs (Decidable (∀ block ∈ saidBlocks text, block.Given))

/-! ## A reading of what is said -/

section Reading

variable (unspecified : Unspecified)

/-- A directive as it was said, or a speed from where nothing was stored. -/
inductive ReadsAs : RowDirective → Option RowDirective → Prop
  | said (directive : RowDirective) : ReadsAs directive (some directive)
  | unset (place : List Char) : ReadsAs (.speed (unspecified.unset place)) none

inductive HostItem.ReadsAs : HostItem → SaidItem → Prop
  | community (text : Option CString) : ReadsAs (.community text) (.community text)
  | snmpver (value : Option Int) : ReadsAs (.snmpver value) (.snmpver value)
  | target (oid : Option CString) {directives : List RowDirective}
      {said : List (Option RowDirective)}
      (hsaid : List.Forall₂ (ClusteredPoller.Targets.ReadsAs unspecified) directives said) :
      ReadsAs (.target oid directives) (.target oid said)

structure HostBlock.ReadsAs (block : HostBlock) (said : SaidBlock) : Prop where
  name : block.name = said.name
  items : List.Forall₂ (HostItem.ReadsAs unspecified) block.items said.items

variable {unspecified}

/-- Two readings of a directive find the same, or nothing was stored for it. -/
def BothRead (one two : Unspecified) (first second : RowDirective) : Prop :=
  first = second ∨
    ∃ place, first = .speed (one.unset place) ∧ second = .speed (two.unset place)

theorem readsAs_said {low high directive : RowDirective}
    (hboth : BothRead lowest highest low high) (hlow : BothRead lowest unspecified low directive)
    (hhigh : BothRead highest unspecified high directive) :
    ReadsAs unspecified directive (said low high) := by
  rcases hboth with rfl | ⟨_, hzero, hmost⟩
  · rw [said, if_pos rfl]
    rcases hlow with rfl | ⟨place, hzero, hread⟩
    · exact .said _
    · rcases hhigh with rfl | ⟨other, hmost, -⟩
      · exact .said _
      · -- No number is both the least and the greatest.
        simp [hzero, lowest, highest] at hmost
  · have hne : low ≠ high := by simp [hzero, hmost, lowest, highest]
    rw [said, if_neg hne]
    rcases hlow with rfl | ⟨place, -, hread⟩
    · rcases hhigh with heq | ⟨place, -, hread⟩
      · exact absurd heq.symm hne
      · rw [hread]
        exact .unset place
    · rw [hread]
      exact .unset place

/-- Three lists of which each two are related. -/
theorem forall₂_zipWith {α β γ δ : Type} {Both : α → β → Prop} {First : α → γ → Prop}
    {Second : β → γ → Prop} {Result : γ → δ → Prop} {combine : α → β → δ}
    (hcombine : ∀ first second item, Both first second → First first item → Second second item →
      Result item (combine first second))
    {firsts : List α} {seconds : List β} {items : List γ} (hboth : List.Forall₂ Both firsts seconds)
    (hfirst : List.Forall₂ First firsts items) (hsecond : List.Forall₂ Second seconds items) :
    List.Forall₂ Result items (List.zipWith combine firsts seconds) := by
  induction hboth generalizing items with
  | nil =>
      cases hfirst
      exact .nil
  | cons hhead _ ih =>
      cases hfirst with
      | cons hone hones =>
          cases hsecond with
          | cons htwo htwos => exact .cons (hcombine _ _ _ hhead hone htwo) (ih hones htwos)

theorem readsAs_saidItem {low high item : HostItem}
    (hboth : low.Linked (BothRead lowest highest) high)
    (hlow : low.Linked (BothRead lowest unspecified) item)
    (hhigh : high.Linked (BothRead highest unspecified) item) :
    item.ReadsAs unspecified (saidItem low high) := by
  cases hboth with
  | community text =>
      cases hlow
      exact .community text
  | snmpver value =>
      cases hlow
      exact .snmpver value
  | target oid hboth =>
      cases hlow with
      | target _ hlow =>
          cases hhigh with
          | target _ hhigh =>
              refine .target oid (forall₂_zipWith ?_ hboth hlow hhigh)
              exact fun _ _ _ => readsAs_said

/-- The blocks of a reading are what is said. -/
theorem hostBlocks_said (unspecified : Unspecified) (text : List Char) :
    List.Forall₂ (HostBlock.ReadsAs unspecified) (hostBlocks unspecified text)
      (saidBlocks text) := by
  have hlinked : ∀ one two : Unspecified,
      List.Forall₂ (HostBlock.Linked (BothRead one two)) (hostBlocks one text)
        (hostBlocks two text) := fun one two =>
    hostBlocks_linked (fun _ => Or.inl rfl) (fun place => Or.inr ⟨place, rfl, rfl⟩) text
  refine forall₂_zipWith (fun low high block hboth hlow hhigh => ?_) (hlinked lowest highest)
    (hlinked lowest unspecified) (hlinked highest unspecified)
  constructor
  · exact hlow.name.symm
  · refine forall₂_zipWith ?_ hboth.items hlow.items hhigh.items
    exact fun _ _ _ => readsAs_saidItem

end Reading

/-! ## Reading and keeping side by side -/

section Keeping

/-- A row that was read, and the one that keeps its values: they differ at most
in a speed for which nothing was stored. -/
structure RowRead (Unset : UInt64 → Prop) (said : SaidRow) (row kept : Queryrow) : Prop where
  alike : RowAlike row kept
  oid : row.oid = said.row.oid
  table : row.table = said.row.table
  id : row.id = said.row.id
  given : said.speedGiven = true → row.speed = kept.speed
  missing : said.speedGiven = false → Unset row.speed

/-- The hosts differ at most in such speeds. -/
structure HostRead (Unset : UInt64 → Prop) (said : List SaidRow) (host kept : Queryhost) :
    Prop where
  alike : HostAlike host kept
  rows : ∃ pairs : List (Queryrow × Queryrow), host.rows = pairs.map Prod.fst ∧
    kept.rows = pairs.map Prod.snd ∧
    List.Forall₂ (fun said pair => RowRead Unset said pair.1 pair.2) said pairs

structure TargetsRead (Unset : UInt64 → Prop) (said : List (List SaidRow))
    (targets kept : Rtgtargets) : Prop where
  alike : TargetsAlike targets kept
  hosts : ∃ pairs : List (Queryhost × Queryhost), targets.hosts = pairs.map Prod.fst ∧
    kept.hosts = pairs.map Prod.snd ∧
    List.Forall₂ (fun said pair => HostRead Unset said pair.1 pair.2) said pairs

variable {unspecified : Unspecified} {conf : Rtgconf} {Unset : UInt64 → Prop}
  (hunset : ∀ place, Unset (unspecified.unset place) ∧
    (conf.interval ≠ 0 → Unset (unspecified.unset place / conf.interval.toUInt64)))

include hunset

theorem apply_read {said : SaidRow} {row kept : Queryrow} {directive : RowDirective}
    {found : Option RowDirective} (hrow : RowRead Unset said row kept)
    (hreads : ReadsAs unspecified directive found) :
    Follows (RowRead Unset (said.pass found)) (directive.apply conf row)
      ((found.getD .other).apply conf kept) := by
  have hbits : row.bits = kept.bits := by rw [← hrow.alike]
  have hid : row.id = kept.id := by rw [← hrow.alike]
  cases hreads with
  | unset place =>
      simp only [RowDirective.apply, Option.getD_none]
      split_ifs with hzero hinterval
      · refine .ok ⟨by rw [← hrow.alike]; rfl, hrow.oid, hrow.table, hrow.id, ?_, ?_⟩
        · intro impossible
          cases impossible
        · exact fun _ => (hunset place).1
      · exact .error
      · refine .ok ⟨by rw [← hrow.alike]; rfl, hrow.oid, hrow.table, hrow.id, ?_, ?_⟩
        · intro impossible
          cases impossible
        · exact fun _ => (hunset place).2 hinterval
  | said =>
      cases directive with
      | bits value =>
          exact .ok ⟨by rw [← hrow.alike]; rfl, hrow.oid, hrow.table, hrow.id, hrow.given,
            hrow.missing⟩
      | table text =>
          cases text with
          | none => exact .error
          | some text =>
              exact .ok ⟨by rw [← hrow.alike]; rfl, hrow.oid, rfl, hrow.id, hrow.given,
                hrow.missing⟩
      | id value =>
          refine .ok ⟨by rw [← hrow.alike]; rfl, hrow.oid, hrow.table, ?_, hrow.given,
            hrow.missing⟩
          simp [SaidRow.pass, hrow.id]
      | speed maxCounterDiff =>
          simp only [RowDirective.apply, Option.getD_some, ← hbits]
          split_ifs
          · refine .ok ⟨by rw [← hrow.alike]; rfl, hrow.oid, hrow.table, hrow.id, fun _ => rfl, ?_⟩
            intro impossible
            cases impossible
          · exact .error
          · refine .ok ⟨by rw [← hrow.alike]; rfl, hrow.oid, hrow.table, hrow.id, fun _ => rfl, ?_⟩
            intro impossible
            cases impossible
      | other => exact .ok hrow

theorem evalRow_read (oid : CString) {directives : List RowDirective}
    {found : List (Option RowDirective)}
    (hreads : List.Forall₂ (ReadsAs unspecified) directives found) :
    Follows (RowRead Unset (saidRow (some oid) found)) (evalRow conf oid directives)
      (evalRow conf oid (found.map (·.getD .other))) := by
  rw [evalRow, evalRow, List.foldlM_map]
  refine Follows.foldlM_along hreads (fun _ _ _ _ _ hrow hread => apply_read hunset hrow hread) ?_
  refine ⟨rfl, rfl, rfl, rfl, fun _ => rfl, fun impossible => ?_⟩
  cases impossible

omit hunset in
/-- Rows repeat each other as they do by what is said of them. -/
theorem RowRead.repeats_eq {said other : SaidRow} {row kept next nextKept : Queryrow}
    (hrow : RowRead Unset said row kept) (hnext : RowRead Unset other next nextKept) :
    repeats row next = said.clashes other ∧ repeats kept nextKept = said.clashes other := by
  constructor
  · simp only [repeats, SaidRow.clashes, hrow.oid, hrow.table, hrow.id, hnext.oid, hnext.table,
      hnext.id]
  · rw [← hrow.alike, ← hnext.alike]
    simp only [repeats, SaidRow.clashes, hrow.oid, hrow.table, hrow.id, hnext.oid, hnext.table,
      hnext.id]

omit hunset in
theorem any_repeats {said : List SaidRow} {pairs : List (Queryrow × Queryrow)} {next : SaidRow}
    {row kept : Queryrow} (hrow : RowRead Unset next row kept)
    (hpairs : List.Forall₂ (fun said pair => RowRead Unset said pair.1 pair.2) said pairs) :
    ((pairs.map Prod.fst).any fun earlier => repeats earlier row) =
        (said.any fun earlier => earlier.clashes next) ∧
      ((pairs.map Prod.snd).any fun earlier => repeats earlier kept) =
        said.any fun earlier => earlier.clashes next := by
  induction hpairs with
  | nil => exact ⟨rfl, rfl⟩
  | cons hpair _ ih =>
      obtain ⟨hread, hkept⟩ := hpair.repeats_eq hrow
      simp only [List.map_cons, List.any_cons, hread, hkept, ih, and_self]

omit hunset in
theorem addTarget_read {said : List SaidRow} {host kept : Queryhost} {next : SaidRow}
    {row keptRow : Queryrow} (hhost : HostRead Unset said host kept)
    (hrow : RowRead Unset next row keptRow) :
    Follows (HostRead Unset (keepUnless SaidRow.clashes said next)) (addTarget host row)
      (addTarget kept keptRow) := by
  intro final hadd
  obtain ⟨pairs, hrows, hkeptRows, hpairs⟩ := hhost.rows
  obtain ⟨hany, hanyKept⟩ := any_repeats hrow hpairs
  have hagree := addTarget_alike hhost.alike hrow.alike
  cases hkept : addTarget kept keptRow with
  | error fault =>
      rw [hadd, hkept] at hagree
      cases hagree
  | ok finalKept =>
      refine ⟨finalKept, rfl, hagree.of_ok hadd hkept, ?_⟩
      rw [addTarget_ok hadd, addTarget_ok hkept, addRow, addRow, hrows, hkeptRows, hany, hanyKept,
        keepUnless]
      split
      · exact ⟨pairs, hrows, hkeptRows, hpairs⟩
      · refine ⟨pairs ++ [(row, keptRow)], ?_, ?_, ?_⟩
        · simp [pushRow, hrows]
        · simp [pushRow, hkeptRows]
        · exact List.rel_append hpairs (.cons hrow .nil)

theorem HostItem.apply_read {said : List SaidRow} {host kept : Queryhost} {item : HostItem}
    {found : SaidItem} (hhost : HostRead Unset said host kept)
    (hreads : item.ReadsAs unspecified found) :
    Follows (HostRead Unset (keepTarget said found)) (item.apply conf host)
      (found.kept.apply conf kept) := by
  have halike := hhost.alike
  cases hreads with
  | community text =>
      refine Follows.refl.bind fun community _ hsame => ?_
      rw [hsame]
      exact .ok ⟨⟨halike.host, rfl, halike.snmpver, halike.rows⟩, hhost.rows⟩
  | snmpver value =>
      refine .ok ⟨⟨halike.host, halike.community, ?_, halike.rows⟩, hhost.rows⟩
      simp [halike.snmpver]
  | target text hsaid =>
      cases text with
      | none => exact .error
      | some oid =>
          change Follows _ (evalRow conf oid _ >>= fun row => addTarget host row)
            (evalRow conf oid _ >>= fun row => addTarget kept row)
          exact (evalRow_read hunset oid hsaid).bind fun row keptRow hrow =>
            addTarget_read hhost hrow

theorem HostBlock.eval_read {block : HostBlock} {found : SaidBlock}
    (hreads : block.ReadsAs unspecified found) :
    Follows (HostRead Unset found.rows) (block.eval conf) (found.kept.eval conf) := by
  rw [HostBlock.eval, HostBlock.eval, hreads.name, SaidBlock.kept, List.foldlM_map]
  refine Follows.foldlM_along hreads.items (fun _ _ _ _ _ hhost hitem => ?_) ?_
  · exact HostItem.apply_read hunset hhost hitem
  · exact ⟨⟨rfl, rfl, rfl, .nil⟩, [], rfl, rfl, .nil⟩

theorem evalBlocks_read {blocks : List HostBlock} {found : List SaidBlock}
    (hreads : List.Forall₂ (HostBlock.ReadsAs unspecified) blocks found) :
    Follows (TargetsRead Unset (found.map SaidBlock.rows))
      (evalBlocks conf rtgtargetsCreate blocks)
      (evalBlocks conf rtgtargetsCreate (found.map SaidBlock.kept)) := by
  have hnotes : found.map SaidBlock.rows =
      found.foldl (fun said block => said ++ [block.rows]) [] := by
    rw [List.foldl_append_eq_append, List.nil_append, ← List.flatMap_def, ← List.map_eq_flatMap]
  rw [hnotes, evalBlocks, evalBlocks, List.foldlM_map]
  refine Follows.foldlM_along hreads (fun said one two block other htargets hblock => ?_) ?_
  · refine (HostBlock.eval_read hunset hblock).bind fun host kept hhost => .ok ?_
    obtain ⟨pairs, hhosts, hkept, hpairs⟩ := htargets.hosts
    have halike := htargets.alike
    constructor
    · refine ⟨List.rel_append halike.hosts (.cons hhost.alike .nil), ?_⟩
      simp [Rtgtargets.pushHost, halike.ntargets, hhost.alike.rows.length_eq]
    · refine ⟨pairs ++ [(host, kept)], ?_, ?_, ?_⟩
      · simp [Rtgtargets.pushHost, hhosts]
      · simp [Rtgtargets.pushHost, hkept]
      · exact List.rel_append hpairs (.cons hhost .nil)
  · exact ⟨⟨.nil, rfl⟩, [], rfl, rfl, .nil⟩

end Keeping

/-! ## Strings -/

/-- The strings of the item were stored. -/
def HostItem.Stored : HostItem → Prop
  | .community text => text.isSome
  | .snmpver _ => True
  | .target oid directives => oid.isSome ∧ ∀ directive ∈ directives, directive ≠ .table none

theorem forall_mem_iff {α β : Type} {Related : α → β → Prop} {First : α → Prop}
    {Second : β → Prop} {firsts : List α} {seconds : List β}
    (hlists : List.Forall₂ Related firsts seconds)
    (hboth : ∀ first second, Related first second → (First first ↔ Second second)) :
    (∀ first ∈ firsts, First first) ↔ ∀ second ∈ seconds, Second second := by
  induction hlists with
  | nil => simp
  | cons hhead _ ih => rw [List.forall_mem_cons, List.forall_mem_cons, hboth _ _ hhead, ih]

section Strings

variable {unspecified : Unspecified} {conf : Rtgconf}

theorem stored_iff {item : HostItem} {found : SaidItem}
    (hreads : item.ReadsAs unspecified found) : item.Stored ↔ found.complete = true := by
  cases hreads with
  | community text => exact Iff.rfl
  | snmpver value => exact ⟨fun _ => rfl, fun _ => trivial⟩
  | @target oid directives found hfound =>
      have hdirectives := @forall_mem_iff _ _ _ (· ≠ .table none) (· ≠ some (.table none)) _ _
        hfound fun directive said hread => by cases hread <;> simp
      rw [HostItem.Stored, SaidItem.complete, Bool.and_eq_true, Bool.not_eq_true',
        ← Bool.not_eq_true, List.contains_iff_mem, hdirectives]
      exact and_congr_right' ⟨fun hall hmem => hall _ hmem rfl,
        fun hnone directive hmem heq => hnone (heq ▸ hmem)⟩

theorem blocks_stored_iff (text : List Char) :
    (∀ block ∈ hostBlocks unspecified text, ∀ item ∈ block.items, item.Stored) ↔
      ∀ block ∈ saidBlocks text, ∀ item ∈ block.items, item.complete = true :=
  forall_mem_iff (hostBlocks_said unspecified text) fun _ _ hblock =>
    forall_mem_iff hblock.items fun _ _ => stored_iff

theorem HostItem.Stored.fails {item : HostItem} (stored : item.Stored) (host : Queryhost) :
    FailsIn (· ≠ .uninitialised) (item.apply conf host) := by
  cases item with
  | community text =>
      obtain ⟨community, rfl⟩ := Option.isSome_iff_exists.mp stored
      exact FailsIn.ok _
  | snmpver value => exact FailsIn.ok _
  | target text directives =>
      obtain ⟨hoid, htexts⟩ := stored
      obtain ⟨oid, rfl⟩ := Option.isSome_iff_exists.mp hoid
      have hrow : FailsIn (· = .divisionByZero) (evalRow conf oid directives) :=
        (evalRow_yields fun hmem => htexts _ hmem rfl).fails
      refine (hrow.mono fun fault heq => ?_).bind fun row => ?_
      · rw [heq]
        decide
      · refine (addTarget_fails host row).mono fun fault heq => ?_
        rw [heq]
        decide

theorem stored_of_apply {item : HostItem} {host next : Queryhost}
    (happly : item.apply conf host = .ok next) : item.Stored := by
  cases HostItem.applied happly with
  | community text => rfl
  | snmpver value => trivial
  | target heval hadd =>
      exact ⟨rfl, fun directive hmem heq => evalRow_texts heval (heq ▸ hmem)⟩

theorem evalBlocks_fails {blocks : List HostBlock} {targets : Rtgtargets}
    (stored : ∀ block ∈ blocks, ∀ item ∈ block.items, item.Stored) :
    FailsIn (· ≠ .uninitialised) (evalBlocks conf targets blocks) := by
  refine FailsIn.foldlM_mem fun block hblock targets => FailsIn.bind ?_ fun host => FailsIn.ok _
  exact FailsIn.foldlM_mem fun item hitem host => (stored block hblock item hitem).fails host

theorem stored_of_evalBlocks {blocks : List HostBlock} {targets final : Rtgtargets}
    (heval : evalBlocks conf targets blocks = .ok final) :
    ∀ block ∈ blocks, ∀ item ∈ block.items, item.Stored := by
  refine forall_mem_of_foldlM (fun targets block next hnext => ?_) heval
  obtain ⟨host, hhost, -⟩ := bind_eq_ok.mp hnext
  exact forall_mem_of_foldlM (fun _ _ _ => stored_of_apply) hhost

end Strings

/-! ## Numbers -/

theorem map_fst_eq_map_snd {α β : Type} {Related : α → β × β → Prop} {Good : α → Prop}
    {items : List α} {pairs : List (β × β)} (hlists : List.Forall₂ Related items pairs)
    (hgood : ∀ item ∈ items, Good item)
    (hsame : ∀ item pair, Related item pair → Good item → pair.1 = pair.2) :
    pairs.map Prod.fst = pairs.map Prod.snd := by
  induction hlists with
  | nil => rfl
  | cons hhead _ ih =>
      obtain ⟨hitem, hitems⟩ := List.forall_mem_cons.mp hgood
      rw [List.map_cons, List.map_cons, hsame _ _ hhead hitem, ih hitems]

theorem forall_mem_of_both {α β : Type} {One Two : α → β → Prop} {Good : α → Prop} {items : List α}
    {others : List β} (hone : List.Forall₂ One items others)
    (htwo : List.Forall₂ Two items others)
    (hgood : ∀ item other, One item other → Two item other → Good item) :
    ∀ item ∈ items, Good item := by
  induction hone with
  | nil => exact List.forall_mem_nil _
  | cons hhead _ ih =>
      cases htwo with
      | cons hother hothers =>
          exact List.forall_mem_cons.mpr ⟨hgood _ _ hhead hother, ih hothers⟩

section Numbers

variable {Unset : UInt64 → Prop}

theorem RowRead.eq {said : SaidRow} {row kept : Queryrow} (hread : RowRead Unset said row kept)
    (hgiven : said.speedGiven = true) : row = kept := by
  rw [← hread.alike, ← hread.given hgiven]

theorem HostRead.eq {said : List SaidRow} {host kept : Queryhost}
    (hread : HostRead Unset said host kept) (hgiven : ∀ row ∈ said, row.speedGiven = true) :
    host = kept := by
  obtain ⟨pairs, hrows, hkept, hpairs⟩ := hread.rows
  have hsame : host.rows = kept.rows := by
    rw [hrows, hkept]
    exact map_fst_eq_map_snd hpairs hgiven fun _ _ => RowRead.eq
  obtain ⟨hhost, hcommunity, hsnmpver, -⟩ := hread.alike
  cases host
  cases kept
  cases hhost
  cases hcommunity
  cases hsnmpver
  cases hsame
  rfl

theorem TargetsRead.eq {said : List (List SaidRow)} {targets kept : Rtgtargets}
    (hread : TargetsRead Unset said targets kept)
    (hgiven : ∀ rows ∈ said, ∀ row ∈ rows, row.speedGiven = true) : targets = kept := by
  obtain ⟨pairs, hhosts, hkept, hpairs⟩ := hread.hosts
  have hsame : targets.hosts = kept.hosts := by
    rw [hhosts, hkept]
    exact map_fst_eq_map_snd hpairs hgiven fun _ _ => HostRead.eq
  obtain ⟨-, hcount⟩ := hread.alike
  cases targets
  cases kept
  cases hsame
  cases hcount
  rfl

/-- The rows of which the last number for the speed is missing. -/
theorem TargetsRead.missing {said : List (List SaidRow)} {targets kept : Rtgtargets}
    (hread : TargetsRead Unset said targets kept) :
    List.Forall₂ (fun said (host : Queryhost) =>
      List.Forall₂ (fun said (row : Queryrow) => said.speedGiven = false → Unset row.speed)
        said host.rows) said targets.hosts := by
  obtain ⟨pairs, hhosts, -, hpairs⟩ := hread.hosts
  rw [hhosts, List.forall₂_map_right_iff]
  refine hpairs.imp fun said pair hhost => ?_
  obtain ⟨rows, hrows, -, hall⟩ := hhost.rows
  rw [hrows, List.forall₂_map_right_iff]
  exact hall.imp fun said pair hrow => hrow.missing

end Numbers

theorem hostBlocks_eq_nil {unspecified : Unspecified} {text : List Char} :
    hostBlocks unspecified text = [] ↔ saidBlocks text = [] := by
  rw [← List.length_eq_zero_iff, ← List.length_eq_zero_iff,
    (hostBlocks_said unspecified text).length_eq]

section Parse

variable {conf : Rtgconf} {text : List Char}

theorem rtgtargetsParse_said (unspecified : Unspecified) :
    rtgtargetsParse unspecified (some text) conf =
      if saidBlocks text = [] then readOldStyleTargets unspecified (some text) conf
      else evalBlocks conf rtgtargetsCreate (hostBlocks unspecified text) := by
  rw [rtgtargetsParse_blocks]
  simp only [fileBlocks, Option.elim_some, hostBlocks_eq_nil]

/-- A parse that ends well, beside one that keeps the values. -/
theorem rtgtargetsParse_read {unspecified : Unspecified} {Unset : UInt64 → Prop}
    (hunset : ∀ place, Unset (unspecified.unset place) ∧
      (conf.interval ≠ 0 → Unset (unspecified.unset place / conf.interval.toUInt64)))
    (hblocks : saidBlocks text ≠ []) {targets : Rtgtargets}
    (hparse : rtgtargetsParse unspecified (some text) conf = .ok targets) :
    ∃ kept, keptParse unspecified text conf = .ok kept ∧
      TargetsRead Unset ((saidBlocks text).map SaidBlock.rows) targets kept := by
  rw [rtgtargetsParse_said, if_neg hblocks] at hparse
  rw [keptParse, if_neg hblocks]
  exact evalBlocks_read hunset (hostBlocks_said unspecified text) targets hparse

theorem takesStored_of_given (hgiven : Given text) : TakesStored conf text := by
  constructor
  · intro unspecified hfault
    rw [rtgtargetsParse_said] at hfault
    split at hfault
    · have hdivides := (readOldStyleTargets_pollable unspecified (some text) conf).fails _ hfault
      cases hdivides
    · refine evalBlocks_fails ?_ _ hfault rfl
      exact (blocks_stored_iff text).mpr fun block hblock => (hgiven block hblock).strings
  · intro unspecified targets hparse
    by_cases hblocks : saidBlocks text = []
    · rw [rtgtargetsParse_said, if_pos hblocks] at hparse
      rw [keptParse, if_pos hblocks, hparse]
    · have hany : ∀ _ : List Char, True ∧ (conf.interval ≠ 0 → True) :=
        fun _ => ⟨trivial, fun _ => trivial⟩
      obtain ⟨kept, hkept, hread⟩ := @rtgtargetsParse_read conf text unspecified (fun _ => True)
        hany hblocks targets hparse
      rw [hkept, hread.eq]
      exact List.forall_mem_map.mpr fun block hblock => (hgiven block hblock).numbers

theorem lowest_zero (place : List Char) :
    lowest.unset place = 0 ∧
      (conf.interval ≠ 0 → lowest.unset place / conf.interval.toUInt64 = 0) := by
  refine ⟨rfl, fun _ => ?_⟩
  rw [← UInt64.toNat_inj, UInt64.toNat_div]
  exact Nat.zero_div _

/-- No interval divides the greatest number down to zero. -/
theorem highest_ne_zero (place : List Char) :
    highest.unset place ≠ 0 ∧
      (conf.interval ≠ 0 → highest.unset place / conf.interval.toUInt64 ≠ 0) := by
  refine ⟨by simp [highest], fun hinterval heq => ?_⟩
  have hpos : 0 < conf.interval.toNat :=
    Nat.pos_of_ne_zero fun hzero => hinterval (UInt32.toNat_inj.mp hzero)
  have hbound := conf.interval.toNat_lt
  rw [← UInt64.toNat_inj, UInt64.toNat_div, UInt32.toNat_toUInt64] at heq
  have hquotient : 0 < 18446744073709551615 / conf.interval.toNat :=
    Nat.div_pos (by omega) hpos
  exact absurd heq (Nat.ne_of_gt hquotient)

/-- If what is stored decides, then arguments were there. -/
theorem given_of_takesStored
    (hreader : ∀ unspecified fault,
      rtgtargetsParse unspecified (some text) conf = .error fault → fault = .uninitialised)
    (stored : TakesStored conf text) : Given text := by
  have hreads : ∀ unspecified, ∃ targets,
      rtgtargetsParse unspecified (some text) conf = .ok targets := by
    intro unspecified
    cases hparse : rtgtargetsParse unspecified (some text) conf with
    | ok targets => exact ⟨targets, rfl⟩
    | error fault =>
        rw [hreader unspecified fault hparse] at hparse
        exact absurd hparse (stored.strings unspecified)
  obtain ⟨low, hlow⟩ := hreads lowest
  obtain ⟨high, hhigh⟩ := hreads highest
  by_cases hblocks : saidBlocks text = []
  · simp [Given, hblocks]
  obtain ⟨kept, hkept, hreadLow⟩ := @rtgtargetsParse_read conf text lowest (· = 0) lowest_zero
    hblocks low hlow
  obtain ⟨keptHigh, hkeptHigh, hreadHigh⟩ :=
    @rtgtargetsParse_read conf text highest (· ≠ 0) highest_ne_zero hblocks high hhigh
  -- Both readings are what is kept, so the same.
  have hsame : high = low := by
    have hlow := stored.numbers lowest low hlow
    have hhigh := stored.numbers highest high hhigh
    rw [keptParse, if_neg hblocks] at hlow hhigh
    rw [hlow] at hhigh
    cases hhigh
    rfl
  rw [hsame] at hreadHigh
  have hnumbers : ∀ rows ∈ (saidBlocks text).map SaidBlock.rows,
      ∀ row ∈ rows, row.speedGiven = true := by
    refine forall_mem_of_both hreadLow.missing hreadHigh.missing fun rows host hzero hnonzero => ?_
    refine forall_mem_of_both hzero hnonzero fun said row hzero hnonzero => ?_
    by_contra hmissing
    rw [Bool.not_eq_true] at hmissing
    exact hnonzero hmissing (hzero hmissing)
  rw [rtgtargetsParse_said, if_neg hblocks] at hlow
  have hstrings := (blocks_stored_iff text).mp (stored_of_evalBlocks hlow)
  exact fun block hblock =>
    ⟨hstrings block hblock, List.forall_mem_map.mp hnumbers block hblock⟩

end Parse

/-- Nothing is taken from where nothing was stored if all strings are there, and
for each kept row the last number for its speed; and, unless the reader stops
elsewhere, only then. -/
theorem takesStored_iff (conf : Rtgconf) (text : List Char) :
    (Given text → TakesStored conf text) ∧
    ((∀ unspecified fault,
        rtgtargetsParse unspecified (some text) conf = .error fault → fault = .uninitialised) →
      (TakesStored conf text ↔ Given text)) :=
  ⟨takesStored_of_given, fun hreader => ⟨given_of_takesStored hreader, takesStored_of_given⟩⟩

/-- A speed behind a word that is no number. -/
def givenText : List Char :=
  "host h \x7b community c; target .1 \x7b table t; speed x; speed 7; id 1; \x7d; \x7d".toList

theorem takesStored_givenText : TakesStored defaultRtgconf givenText :=
  (takesStored_iff defaultRtgconf givenText).1 (by decide +kernel)

/-- The only speed is no number. -/
def speedlessText : List Char :=
  "host h \x7b community c; target .1 \x7b table t; speed x; id 1; \x7d; \x7d".toList

/-- A file that breaks off behind a directive. -/
def brokenText : List Char := "host h \x7b community".toList

/-- The speed of the first row. -/
def firstSpeed (outcome : Except Fault Rtgtargets) : Option UInt64 :=
  outcome.toOption.bind fun targets => targets.hosts.head?.bind fun host =>
    host.rows.head?.map Queryrow.speed

/-- A row has the speed that a variable happened to hold, and a community comes
from a buffer that holds nothing. -/
theorem unset_reaches_fields :
    ¬ TakesStored defaultRtgconf speedlessText ∧ ¬ TakesStored defaultRtgconf brokenText := by
  constructor
  · intro stored
    have hread : firstSpeed (rtgtargetsParse ⟨0, fun _ => 42⟩ (some speedlessText)
        defaultRtgconf) = some 42 := by decide +kernel
    have hkept : firstSpeed (keptParse ⟨0, fun _ => 42⟩ speedlessText defaultRtgconf) =
        some 0 := by decide +kernel
    cases hparse : rtgtargetsParse ⟨0, fun _ => 42⟩ (some speedlessText) defaultRtgconf with
    | error fault =>
        rw [hparse] at hread
        cases hread
    | ok targets =>
        rw [stored.numbers _ targets hparse, ← hparse, hread] at hkept
        exact absurd hkept (by decide)
  · intro stored
    have hread : rtgtargetsParse ⟨0, fun _ => 0⟩ (some brokenText) defaultRtgconf =
        .error .uninitialised := by decide +kernel
    exact stored.strings _ hread

end ClusteredPoller.Targets
