import ClusteredPoller.Targets.Hosts
import ClusteredPoller.Targets.Records

/-!
# What is unspecified reaches the speeds only

Two readings of a file may differ where C leaves something open, but only in
the speeds of the rows.
-/

namespace ClusteredPoller.Targets

open Poller
open Library.Outcome (Agree)

/-! ## The blocks -/

/-- The same but for a speed. -/
inductive RowDirective.Alike : RowDirective → RowDirective → Prop
  | speed (first second : UInt64) : Alike (.speed first) (.speed second)
  | same (directive : RowDirective) : Alike directive directive

inductive HostItem.Alike : HostItem → HostItem → Prop
  | target (oid : Option CString) {first second : List RowDirective}
      (directives : List.Forall₂ RowDirective.Alike first second) :
      Alike (.target oid first) (.target oid second)
  | same (item : HostItem) : Alike item item

structure HostBlock.Alike (first second : HostBlock) : Prop where
  name : first.name = second.name
  items : List.Forall₂ HostItem.Alike first.items second.items

/-- The same but for directives that are related. -/
inductive HostItem.Linked (Related : RowDirective → RowDirective → Prop) :
    HostItem → HostItem → Prop
  | community (text : Option CString) : Linked Related (.community text) (.community text)
  | snmpver (value : Option Int) : Linked Related (.snmpver value) (.snmpver value)
  | target (oid : Option CString) {first second : List RowDirective}
      (directives : List.Forall₂ Related first second) :
      Linked Related (.target oid first) (.target oid second)

structure HostBlock.Linked (Related : RowDirective → RowDirective → Prop)
    (first second : HostBlock) : Prop where
  name : first.name = second.name
  items : List.Forall₂ (HostItem.Linked Related) first.items second.items

section Blocks

variable {Related : RowDirective → RowDirective → Prop} {one two : Unspecified}
  (hsame : ∀ directive, Related directive directive)
  (hspeed : ∀ place, Related (.speed (one.unset place)) (.speed (two.unset place)))
  (stream : List Char)

include hsame hspeed

/-- Two readings of a word differ in the speed that a number is missing for. -/
theorem rowTurn_linked (word : CString) (rest : List Char) :
    Option.Rel Related (rowTurn one word rest).1 (rowTurn two word rest).1 ∧
      (rowTurn one word rest).2 = (rowTurn two word rest).2 := by
  unfold rowTurn
  split_ifs
  · exact ⟨.some (hsame _), rfl⟩
  · exact ⟨.some (hsame _), rfl⟩
  · exact ⟨.some (hsame _), rfl⟩
  · exact ⟨.some (hsame _), rfl⟩
  · cases (scanUnsignedLongLong rest).1 with
    | none => exact ⟨.some (hspeed rest), rfl⟩
    | some value => exact ⟨.some (hsame _), rfl⟩
  · exact ⟨.none, rfl⟩
  · exact ⟨.some (hsame _), rfl⟩

theorem scanRow_linked :
    (scanRow one stream = none ∧ scanRow two stream = none) ∨
      (∃ rest, scanRow one stream = some (none, rest) ∧ scanRow two stream = some (none, rest)) ∨
        ∃ first second rest, scanRow one stream = some (some first, rest) ∧
          scanRow two stream = some (some second, rest) ∧ Related first second := by
  cases hword : scanWord stream with
  | none =>
      left
      simp [scanRow, hword]
  | some read =>
      right
      obtain ⟨hturn, hrest⟩ := rowTurn_linked hsame hspeed read.1 read.2
      simp only [scanRow, hword, Option.map_some]
      cases hone : rowTurn one read.1 read.2 with
      | mk first rest =>
          cases htwo : rowTurn two read.1 read.2 with
          | mk second other =>
              simp only [hone, htwo] at hturn hrest
              subst hrest
              cases hturn with
              | none => exact Or.inl ⟨rest, rfl, rfl⟩
              | some hrelated => exact Or.inr ⟨_, _, rest, rfl, rfl, hrelated⟩

theorem rowDirectives_linked :
    List.Forall₂ Related (rowDirectives one stream).1 (rowDirectives two stream).1 ∧
      (rowDirectives one stream).2 = (rowDirectives two stream).2 := by
  induction stream using rowDirectives.induct one with
  | case1 stream hscan =>
      rcases scanRow_linked hsame hspeed stream with ⟨-, htwo⟩ | ⟨rest, hone, -⟩ |
        ⟨first, second, rest, hone, -⟩
      · simp [rowDirectives_end hscan, rowDirectives_end htwo]
      · simp [hscan] at hone
      · simp [hscan] at hone
  | case2 stream rest hscan =>
      rcases scanRow_linked hsame hspeed stream with ⟨hone, -⟩ | ⟨other, hone, htwo⟩ |
        ⟨first, second, other, hone, -⟩
      · simp [hscan] at hone
      · obtain rfl : rest = other := by simpa [hscan] using hone
        simp [rowDirectives_close hscan, rowDirectives_close htwo]
      · simp [hscan] at hone
  | case3 stream directive rest hscan ih =>
      rcases scanRow_linked hsame hspeed stream with ⟨hone, -⟩ | ⟨other, hone, -⟩ |
        ⟨first, second, other, hone, htwo, hrelated⟩
      · simp [hscan] at hone
      · simp [hscan] at hone
      · obtain ⟨rfl, rfl⟩ : directive = first ∧ rest = other := by simpa [hscan] using hone
        rw [rowDirectives_step hscan, rowDirectives_step htwo]
        exact ⟨List.Forall₂.cons hrelated ih.1, ih.2⟩

theorem hostItems_linked :
    List.Forall₂ (HostItem.Linked Related) (hostItems one stream).1 (hostItems two stream).1 ∧
      (hostItems one stream).2 = (hostItems two stream).2 := by
  induction stream using hostItems.induct one with
  | case1 stream hscan => simp [hostItems_end hscan]
  | case2 stream rest hscan => simp [hostItems_close hscan]
  | case3 stream text rest hscan ih =>
      simp only [hostItems_community hscan]
      exact ⟨List.Forall₂.cons (.community text) ih.1, ih.2⟩
  | case4 stream value rest hscan ih =>
      simp only [hostItems_snmpver hscan]
      exact ⟨List.Forall₂.cons (.snmpver value) ih.1, ih.2⟩
  | case5 stream oid rest hscan row ih =>
      obtain ⟨hdirectives, hrest⟩ := rowDirectives_linked hsame hspeed rest
      simp only [hostItems_target hscan, ← hrest]
      exact ⟨List.Forall₂.cons (.target oid hdirectives) ih.1, ih.2⟩
  | case6 stream rest hscan ih =>
      simp only [hostItems_other hscan]
      exact ih

theorem hostBlocks_linked :
    List.Forall₂ (HostBlock.Linked Related) (hostBlocks one stream) (hostBlocks two stream) := by
  induction stream using hostBlocks.induct one with
  | case1 stream hscan => simp [hostBlocks_end hscan]
  | case2 stream rest hscan ih => simpa [hostBlocks_other hscan] using ih
  | case3 stream name rest hscan items ih =>
      obtain ⟨hitems, hrest⟩ := hostItems_linked hsame hspeed rest
      rw [hostBlocks_host hscan, hostBlocks_host hscan, ← hrest]
      exact List.Forall₂.cons ⟨rfl, hitems⟩ ih

end Blocks

theorem HostItem.Linked.alike {first second : HostItem}
    (hlinked : first.Linked RowDirective.Alike second) : first.Alike second := by
  cases hlinked with
  | community text => exact .same _
  | snmpver value => exact .same _
  | target oid directives => exact .target oid directives

/-- Any two readings are the same but for speeds. -/
theorem hostBlocks_alike (one two : Unspecified) (stream : List Char) :
    List.Forall₂ HostBlock.Alike (hostBlocks one stream) (hostBlocks two stream) := by
  have hlinked := @hostBlocks_linked _ one two RowDirective.Alike.same
    (fun place => .speed _ _) stream
  refine hlinked.imp fun first second hblock => ⟨hblock.name, ?_⟩
  exact hblock.items.imp fun _ _ hitem => hitem.alike

/-! ## Hosts and rows -/

/-- The same but for the speed. -/
def RowAlike (first second : Queryrow) : Prop := { first with speed := second.speed } = second

structure HostAlike (first second : Queryhost) : Prop where
  host : first.host = second.host
  community : first.community = second.community
  snmpver : first.snmpver = second.snmpver
  rows : List.Forall₂ RowAlike first.rows second.rows

structure TargetsAlike (first second : Rtgtargets) : Prop where
  hosts : List.Forall₂ HostAlike first.hosts second.hosts
  ntargets : first.ntargets = second.ntargets

variable {conf : Rtgconf}

theorem apply_alike {first second : Queryrow} {directive twin : RowDirective}
    (hrows : RowAlike first second) (hdirectives : directive.Alike twin) :
    Agree RowAlike (directive.apply conf first) (twin.apply conf second) := by
  have hbits : second.bits = first.bits := by rw [← hrows]
  have hid : second.id = first.id := by rw [← hrows]
  cases hdirectives with
  | speed one two =>
      simp only [RowDirective.apply, hbits]
      split_ifs
      · exact .ok (by rw [← hrows]; rfl)
      · exact .error _
      · exact .ok (by rw [← hrows]; rfl)
  | same =>
      cases directive with
      | bits value => exact .ok (by rw [← hrows]; rfl)
      | table text =>
          cases text with
          | none => exact .error _
          | some text => exact .ok (by rw [← hrows]; rfl)
      | id value => exact .ok (by rw [← hrows]; rfl)
      | speed maxCounterDiff =>
          simp only [RowDirective.apply, hbits]
          split_ifs
          · exact .ok (by rw [← hrows]; rfl)
          · exact .error _
          · exact .ok (by rw [← hrows]; rfl)
      | other => exact .ok hrows

theorem evalRow_alike {first second : List RowDirective} (oid : CString)
    (hdirectives : List.Forall₂ RowDirective.Alike first second) :
    Agree RowAlike (evalRow conf oid first) (evalRow conf oid second) :=
  Agree.foldlM hdirectives (fun _ _ _ _ hrows hdirective => apply_alike hrows hdirective) rfl

theorem checkForDuplicate_alike {rows others : List Queryrow} {row other : Queryrow}
    (hrows : List.Forall₂ RowAlike rows others) (hrow : RowAlike row other) :
    checkForDuplicate rows row = checkForDuplicate others other := by
  induction hrows with
  | nil => rfl
  | cons hearlier _ ih =>
      rw [checkForDuplicate, checkForDuplicate, ih, ← hearlier, ← hrow]

theorem addTarget_alike {first second : Queryhost} {row other : Queryrow}
    (hhosts : HostAlike first second) (hrow : RowAlike row other) :
    Agree HostAlike (addTarget first row) (addTarget second other) := by
  rw [addTarget, addTarget, checkForDuplicate_alike hhosts.rows hrow]
  refine Agree.refl.bind fun duplicate _ hsame => ?_
  rw [hsame]
  split
  · exact .ok hhosts
  · refine .ok ⟨hhosts.host, hhosts.community, hhosts.snmpver, ?_⟩
    exact List.rel_append hhosts.rows (.cons hrow .nil)

theorem HostItem.apply_alike {first second : Queryhost} {item other : HostItem}
    (hhosts : HostAlike first second) (hitems : item.Alike other) :
    Agree HostAlike (item.apply conf first) (other.apply conf second) := by
  cases hitems with
  | target oid hdirectives =>
      refine Agree.refl.bind fun text _ hsame => ?_
      rw [hsame]
      exact (evalRow_alike _ hdirectives).bind fun row other hrow => addTarget_alike hhosts hrow
  | same =>
      cases item with
      | community text =>
          refine Agree.refl.bind fun community _ hsame => ?_
          rw [hsame]
          exact .ok ⟨hhosts.host, rfl, hhosts.snmpver, hhosts.rows⟩
      | snmpver value =>
          refine .ok ⟨hhosts.host, hhosts.community, ?_, hhosts.rows⟩
          simp [hhosts.snmpver]
      | target text directives =>
          refine Agree.refl.bind fun oid _ hsame => ?_
          rw [hsame]
          refine Agree.refl.bind fun row _ hsame => ?_
          rw [hsame]
          exact addTarget_alike hhosts rfl

theorem HostBlock.eval_alike {first second : HostBlock} (hblocks : first.Alike second) :
    Agree HostAlike (first.eval conf) (second.eval conf) := by
  rw [HostBlock.eval, HostBlock.eval, hblocks.name]
  refine Agree.foldlM hblocks.items (fun _ _ _ _ hhosts hitem => ?_) ?_
  · exact HostItem.apply_alike hhosts hitem
  · exact ⟨rfl, rfl, rfl, .nil⟩

theorem evalBlocks_alike {first second : List HostBlock}
    (hblocks : List.Forall₂ HostBlock.Alike first second) :
    Agree TargetsAlike (evalBlocks conf rtgtargetsCreate first)
      (evalBlocks conf rtgtargetsCreate second) := by
  refine Agree.foldlM hblocks (fun one two block other htargets hblock => ?_) ⟨.nil, rfl⟩
  refine (HostBlock.eval_alike hblock).bind fun host another hhosts => .ok ?_
  constructor
  · exact List.rel_append htargets.hosts (.cons hhosts .nil)
  · simp [Rtgtargets.pushHost, htargets.ntargets, hhosts.rows.length_eq]

theorem oldTargets_alike (one two : UInt64) (records : List Fields) :
    TargetsAlike (oldTargets one records) (oldTargets two records) := by
  constructor
  · simp only [oldTargets, List.forall₂_map_left_iff, List.forall₂_map_right_iff]
    refine List.forall₂_same.mpr fun group _ => ⟨rfl, rfl, rfl, ?_⟩
    simp only [oldHost, List.forall₂_map_left_iff, List.forall₂_map_right_iff]
    exact List.forall₂_same.mpr fun fields _ => rfl
  · rfl

/-- Two readings of a file agree in all but the speeds. -/
theorem rtgtargetsParse_alike (one two : Unspecified) (file : File) (conf : Rtgconf) :
    Agree TargetsAlike (rtgtargetsParse one file conf) (rtgtargetsParse two file conf) := by
  cases file with
  | none => exact .ok ⟨.nil, rfl⟩
  | some text =>
      have hblocks := hostBlocks_alike one two text
      have hempty : hostBlocks one text = [] ↔ hostBlocks two text = [] := by
        rw [← List.length_eq_zero_iff, ← List.length_eq_zero_iff, hblocks.length_eq]
      rw [rtgtargetsParse_blocks, rtgtargetsParse_blocks]
      by_cases hnone : hostBlocks two text = []
      · simp only [fileBlocks, Option.elim_some, hempty, hnone, if_true]
        by_cases hinterval : conf.interval = 0
        · by_cases hrecords : recordsOf text = []
          · rw [readOldStyleTargets_nothing hrecords, readOldStyleTargets_nothing hrecords]
            exact .ok ⟨.nil, rfl⟩
          · rw [readOldStyleTargets_divides hinterval hrecords,
              readOldStyleTargets_divides hinterval hrecords]
            exact .error _
        · rw [readOldStyleTargets_eq (if_neg hinterval), readOldStyleTargets_eq (if_neg hinterval)]
          exact .ok (oldTargets_alike _ _ _)
      · simp only [fileBlocks, Option.elim_some, hempty, hnone, if_false]
        exact evalBlocks_alike hblocks

end ClusteredPoller.Targets
