import ClusteredPoller.Database.Clgstr
import ClusteredPoller.Library.GrowingArray
import ClusteredPoller.Library.Outcome
import ClusteredPoller.Poller.Clinsert
import ClusteredPoller.Targets.NewStyle

/-!
# Arrays and strings in memory

The pushes of `clinsert.c` and `rtgtargets.c` with the memory that they write.
Where other modules have lists, the source has allocations of at first eight
elements, which `xrealloc` replaces by ones that are half as large again.
Allocations do not fail.
-/

namespace ClusteredPoller.Growth

open Database
open Library (GrowingArray)
open Library.GrowingArray (Grows Pushed create_holds)
open Library.Outcome (foldlM_appends)
open Poller (ClinsertValue Queryrow grownSpace)
open Targets (pushRow)

/-- What the three pushes have in common. -/
def pushElement {Element : Type} (array : GrowingArray Element) (element : Element) :
    Except Fault (GrowingArray Element) :=
  array.push grownSpace .outOfBounds element

/-! ## The three arrays -/

/-- `values` stands for the fields `values`, `nvalues` and `allocated_space`. -/
structure Clinsert where
  table : Option CString
  values : GrowingArray ClinsertValue
  deriving DecidableEq

def clinsertCreate (table : Option CString) : Clinsert where
  table := table
  values := .create 8

def clinsertPushValue (insert : Clinsert) (value : ClinsertValue) : Except Fault Clinsert := do
  let values ← pushElement insert.values value
  return { insert with values := values }

/-- `rows` stands for the fields `rows`, `nrows` and `allocated_rowspace`. -/
structure Queryhost where
  host : Option CString
  community : Option CString
  snmpver : Int
  rows : GrowingArray Queryrow
  deriving DecidableEq

def queryhostCreate : Queryhost where
  host := none
  community := none
  snmpver := 0
  rows := .create 8

def queryhostPushRow (host : Queryhost) (row : Queryrow) : Except Fault Queryhost := do
  let rows ← pushElement host.rows row
  return { host with rows := rows }

/-- `hosts` stands for the fields `hosts`, `nhosts` and `allocated_space`. -/
structure Rtgtargets where
  hosts : GrowingArray Queryhost
  ntargets : UInt32
  deriving DecidableEq

def rtgtargetsCreate : Rtgtargets where
  hosts := .create 8
  ntargets := 0

def rtgtargetsPushHost (targets : Rtgtargets) (host : Queryhost) : Except Fault Rtgtargets := do
  let hosts ← pushElement targets.hosts host
  return { hosts := hosts, ntargets := targets.ntargets + host.rows.count }

/-! ## The capacities -/

/-- The new capacity is the product that the code computes. -/
theorem grownSpace_toNat {space : UInt32} (hspace : space.toNat < 2 ^ 31) :
    (grownSpace space).toNat = timesOneAndHalf space.toNat := by
  rw [timesOneAndHalf_exact (by omega), grownSpace]
  exact Nat.mod_eq_of_lt (by omega)

/-- From two elements on it is a larger one. -/
theorem grownSpace_grows : Grows grownSpace 8 (2 ^ 31) := by
  intro space hleast hlimit
  rw [UInt32.le_iff_toNat_le] at hleast
  rw [UInt32.lt_iff_toNat_lt, grownSpace_toNat hlimit, timesOneAndHalf_exact (by omega)]
  change 8 ≤ space.toNat at hleast
  omega

/-- A push in bounds, with the product computed in `double` as the new capacity
of an array that was full. -/
structure PushedInBounds {Element : Type} (before after : GrowingArray Element)
    (elements : List Element) (element : Element) : Prop
    extends Pushed grownSpace before after elements element where
  product : after.allocated.toNat =
    if before.count = before.allocated then timesOneAndHalf before.allocated.toNat
    else before.allocated.toNat

section Push

variable {Element : Type} {array : GrowingArray Element} {elements : List Element}

/-- An array of at least eight elements that holds fewer than so many takes one more. -/
theorem pushElement_holds (holds : array.Holds elements) (hleast : 8 ≤ array.allocated)
    (hlimit : elements.length < 2 ^ 31) (element : Element) :
    ∃ after, pushElement array element = .ok after ∧
      PushedInBounds array after elements element ∧ 8 ≤ after.allocated := by
  obtain ⟨after, hafter, pushed, hroom⟩ :=
    @Library.GrowingArray.Holds.push_grows _ _ _ Fault.outOfBounds _ _ _ _ grownSpace_grows holds
      hleast hlimit element
  refine ⟨after, hafter, ⟨pushed, ?_⟩, hroom⟩
  rw [pushed.capacity]
  split
  · next hfull =>
      refine grownSpace_toNat ?_
      rw [← hfull, holds.count_eq]
      exact hlimit
  · rfl

/-- Any number of pushes, up to the limit, from a new array on. -/
theorem pushes_in_bounds {Record Element : Type} (array : Record → GrowingArray Element)
    {push : Record → Element → Except Fault Record}
    (hpush : ∀ record element elements, pushElement (array record) element = .ok elements →
      ∃ next, push record element = .ok next ∧ array next = elements)
    {start : Record} (hstart : array start = .create 8) (elements : List Element)
    (element : Element) (hfew : elements.length + 1 < 2 ^ 31) :
    ∃ before after, elements.foldlM push start = .ok before ∧ push before element = .ok after ∧
      PushedInBounds (array before) (array after) elements element := by
  have hstep : ∀ (record : Record) (elements : List Element) (element : Element),
      ((array record).Holds elements ∧ 8 ≤ (array record).allocated) → elements.length < 2 ^ 31 →
        ∃ next, push record element = .ok next ∧
          PushedInBounds (array record) (array next) elements element ∧
            8 ≤ (array next).allocated := by
    intro record elements element hrecord hlimit
    obtain ⟨after, hafter, pushed, hroom⟩ :=
      pushElement_holds hrecord.1 hrecord.2 hlimit element
    obtain ⟨next, hnext, harray⟩ := hpush record element after hafter
    rw [← harray] at pushed hroom
    exact ⟨next, hnext, pushed, hroom⟩
  have hnew : (array start).Holds [] ∧ 8 ≤ (array start).allocated := by
    rw [hstart]
    exact ⟨create_holds 8, UInt32.le_refl 8⟩
  obtain ⟨before, hbefore, hholds⟩ :=
    @foldlM_appends _ _ _ (fun record elements => (array record).Holds elements ∧
      8 ≤ (array record).allocated) push start (2 ^ 31) (fun record elements element hrecord
      hlimit => by
        obtain ⟨next, hnext, pushed, hroom⟩ := hstep record elements element hrecord hlimit
        exact ⟨next, hnext, pushed.heldAfter, hroom⟩) hnew elements (by omega)
  obtain ⟨after, hafter, pushed, -⟩ := hstep before elements element hholds (by omega)
  exact ⟨before, after, hbefore, hafter, pushed⟩

end Push

/-! ## What the lists of the other modules stand for -/

/-- The values of an insert are in its array. -/
structure Clinsert.Represents (memory : Clinsert) (insert : Poller.Clinsert) : Prop where
  table : memory.table = insert.table
  values : memory.values.Holds insert.values
  allocated : memory.values.allocated = insert.allocatedSpace
  least : 8 ≤ memory.values.allocated

/-- The rows of a host are in its array. -/
structure Queryhost.Represents (memory : Queryhost) (host : Poller.Queryhost) : Prop where
  name : memory.host = host.host
  community : memory.community = host.community
  snmpver : memory.snmpver = host.snmpver
  rows : memory.rows.Holds host.rows
  least : 8 ≤ memory.rows.allocated

/-- So are the hosts, each with its rows. -/
structure Rtgtargets.Represents (memory : Rtgtargets) (targets : Targets.Rtgtargets) : Prop where
  hosts : ∃ stored, memory.hosts.Holds stored ∧
    List.Forall₂ Queryhost.Represents stored targets.hosts
  ntargets : memory.ntargets = targets.ntargets
  least : 8 ≤ memory.hosts.allocated

theorem clinsertCreate_represents (table : Option CString) :
    (clinsertCreate table).Represents (Poller.clinsertCreate table) :=
  ⟨rfl, create_holds 8, rfl, UInt32.le_refl 8⟩

theorem queryhostCreate_represents : queryhostCreate.Represents Poller.queryhostCreate :=
  ⟨rfl, rfl, rfl, create_holds 8, UInt32.le_refl 8⟩

theorem rtgtargetsCreate_represents : rtgtargetsCreate.Represents Targets.rtgtargetsCreate :=
  ⟨⟨[], create_holds 8, .nil⟩, rfl, UInt32.le_refl 8⟩

theorem clinsertPushValue_represents {memory : Clinsert} {insert : Poller.Clinsert}
    (represents : memory.Represents insert) (hlimit : insert.values.length < 2 ^ 31)
    (value : ClinsertValue) :
    ∃ after, clinsertPushValue memory value = .ok after ∧
      PushedInBounds memory.values after.values insert.values value ∧
        after.Represents (Poller.clinsertPushValue insert value) := by
  obtain ⟨values, hvalues, pushed, hroom⟩ :=
    pushElement_holds represents.values represents.least hlimit value
  refine ⟨{ memory with values := values }, ?_, pushed, represents.table, pushed.heldAfter, ?_,
    hroom⟩
  · rw [clinsertPushValue, hvalues]
    rfl
  · have hfull : memory.values.count = memory.values.allocated ↔
        insert.values.length = insert.allocatedSpace.toNat := by
      rw [← UInt32.toNat_inj, represents.values.count_eq, represents.allocated]
    change values.allocated = _
    rw [pushed.capacity, Poller.clinsertPushValue, represents.allocated]
    simp only [← represents.allocated, hfull]

theorem queryhostPushRow_represents {memory : Queryhost} {host : Poller.Queryhost}
    (represents : memory.Represents host) (hlimit : host.rows.length < 2 ^ 31) (row : Queryrow) :
    ∃ after, queryhostPushRow memory row = .ok after ∧
      PushedInBounds memory.rows after.rows host.rows row ∧
        after.Represents (pushRow host row) := by
  obtain ⟨rows, hrows, pushed, hroom⟩ :=
    pushElement_holds represents.rows represents.least hlimit row
  refine ⟨{ memory with rows := rows }, ?_, pushed, represents.name, represents.community,
    represents.snmpver, pushed.heldAfter, hroom⟩
  rw [queryhostPushRow, hrows]
  rfl

theorem rtgtargetsPushHost_represents {memory : Rtgtargets} {targets : Targets.Rtgtargets}
    (represents : memory.Represents targets) (hlimit : targets.hosts.length < 2 ^ 31)
    {stored : Queryhost} {host : Poller.Queryhost} (hstored : stored.Represents host) :
    ∃ after, rtgtargetsPushHost memory stored = .ok after ∧
      after.Represents (targets.pushHost host) := by
  obtain ⟨earlier, holds, hearlier⟩ := represents.hosts
  obtain ⟨hosts, hhosts, pushed, hroom⟩ :=
    pushElement_holds holds represents.least (by rwa [hearlier.length_eq]) stored
  refine ⟨{ hosts := hosts, ntargets := memory.ntargets + stored.rows.count }, ?_, ?_, ?_, hroom⟩
  · rw [rtgtargetsPushHost, hhosts]
    rfl
  · refine ⟨earlier ++ [stored], pushed.heldAfter, ?_⟩
    exact List.rel_append hearlier (.cons hstored .nil)
  · have hcount : stored.rows.count = UInt32.ofNat host.rows.length := by
      rw [← hstored.rows.count_eq, UInt32.ofNat_toNat]
    change memory.ntargets + _ = _
    rw [hcount, represents.ntargets]
    rfl

/-! ## Strings -/

/-- What some appends make of a new string. -/
structure Appended (gs : Clgstr) (preallocate : Nat) (strs : List CString) : Prop where
  length_eq : gs.length = (strs.map fun str => str.chars.length).sum
  content : strs ≠ [] → gs.length + 1 ≤ gs.allocated ∧
    ∃ rest, gs.string = (strs.map CString.chars).flatten ++ '\x00' :: rest
  size : gs.allocated ≤ max preallocate (4 * (gs.length + 1))

section Strings

variable {gs : Clgstr} {preallocate : Nat} {strs : List CString}

theorem append_appended {text : CString} (holds : gs.Holds text)
    (htext : text.chars = (strs.map CString.chars).flatten)
    (appended : Appended gs preallocate strs) (str : CString) :
    ∃ after, clgstrAppend gs (some str) = .ok after ∧ after.Holds (text ++ str) ∧
      Appended after preallocate (strs ++ [str]) := by
  obtain ⟨after, hafter, terminated⟩ := Clgstr.append_holds holds str
  have hlength : after.length = gs.length + str.chars.length := by
    rw [terminated.length_eq, holds.length_eq, CString.append_chars, List.length_append]
  have hallocated : after.allocated = (gs.reserve str.chars.length).allocated := by
    unfold clgstrAppend at hafter
    dsimp only at hafter
    split at hafter
    · cases hafter
      rfl
    · cases hafter
  refine ⟨after, hafter, terminated.toHolds, ?_, fun _ => ⟨terminated.room, ?_⟩, ?_⟩
  · rw [hlength, appended.length_eq]
    simp
  · obtain ⟨rest, hstring⟩ := terminated.ends
    refine ⟨rest, ?_⟩
    rw [hstring, CString.append_chars, htext]
    simp
  · have hreserved := gs.reserve_allocated str.chars.length
    have hsize := appended.size
    rw [hallocated, hlength]
    omega

/-- Any appends to a new string. -/
theorem appends_appended (preallocate : Nat) (strs : List CString) :
    ∃ gs, strs.foldlM (fun gs str => clgstrAppend gs (some str)) (clgstrCreate preallocate) =
      .ok gs ∧ Appended gs preallocate strs := by
  have hnew : Appended (clgstrCreate preallocate) preallocate [] :=
    ⟨rfl, fun hne => absurd rfl hne, Nat.le_max_left _ _⟩
  obtain ⟨gs, hgs, -, -, appended⟩ :=
    @foldlM_appends _ _ _ (fun gs strs => ∃ text : CString, (gs.Holds text ∧
      text.chars = (strs.map CString.chars).flatten) ∧ Appended gs preallocate strs)
      (fun gs str => clgstrAppend gs (some str)) (clgstrCreate preallocate) strs.length
      (fun gs strs str hgs _ => by
        obtain ⟨text, ⟨holds, htext⟩, appended⟩ := hgs
        obtain ⟨after, hafter, hholds, hall⟩ := append_appended holds htext appended str
        exact ⟨after, hafter, text ++ str, ⟨hholds, by simp [CString.append_chars, htext]⟩, hall⟩)
      ⟨_, ⟨Clgstr.create_holds preallocate, rfl⟩, hnew⟩ strs (Nat.le_refl _)
  exact ⟨gs, hgs, appended⟩

end Strings

/-- Strings and arrays grow in time: what is appended or pushed is written
inside the allocation, behind what is there, for every string below `2 ^ 52`
characters and every array below `2 ^ 31` elements; and no size of a string is
too large for a `size_t`. -/
theorem growth_in_bounds :
    (∀ (preallocate : Nat) (strs : List CString),
      (strs.map fun str => str.chars.length).sum < 2 ^ 52 →
        ∃ gs, strs.foldlM (fun gs str => clgstrAppend gs (some str)) (clgstrCreate preallocate) =
          .ok gs ∧ Appended gs preallocate strs ∧ gs.allocated ≤ max preallocate (2 ^ 54)) ∧
    (∀ (table : Option CString) (values : List ClinsertValue) (value : ClinsertValue),
      values.length + 1 < 2 ^ 31 → ∃ before after,
        values.foldlM clinsertPushValue (clinsertCreate table) = .ok before ∧
          clinsertPushValue before value = .ok after ∧
            PushedInBounds before.values after.values values value) ∧
    (∀ (rows : List Queryrow) (row : Queryrow), rows.length + 1 < 2 ^ 31 → ∃ before after,
      rows.foldlM queryhostPushRow queryhostCreate = .ok before ∧
        queryhostPushRow before row = .ok after ∧
          PushedInBounds before.rows after.rows rows row) ∧
    (∀ (hosts : List Queryhost) (host : Queryhost), hosts.length + 1 < 2 ^ 31 → ∃ before after,
      hosts.foldlM rtgtargetsPushHost rtgtargetsCreate = .ok before ∧
        rtgtargetsPushHost before host = .ok after ∧
          PushedInBounds before.hosts after.hosts hosts host) := by
  refine ⟨fun preallocate strs hshort => ?_, fun table values value hfew => ?_,
    fun rows row hfew => ?_, fun hosts host hfew => ?_⟩
  · obtain ⟨gs, hgs, appended⟩ := appends_appended preallocate strs
    refine ⟨gs, hgs, appended, ?_⟩
    have hsize := appended.size
    rw [← appended.length_eq] at hshort
    omega
  · refine pushes_in_bounds Clinsert.values (fun insert value elements hpush => ?_) rfl
      values value hfew
    exact ⟨{ insert with values := elements }, by rw [clinsertPushValue, hpush]; rfl, rfl⟩
  · refine pushes_in_bounds Queryhost.rows (fun host row elements hpush => ?_) rfl rows row hfew
    exact ⟨{ host with rows := elements }, by rw [queryhostPushRow, hpush]; rfl, rfl⟩
  · refine pushes_in_bounds Rtgtargets.hosts (fun targets host elements hpush => ?_) rfl
      hosts host hfew
    refine ⟨{ hosts := elements, ntargets := targets.ntargets + host.rows.count }, ?_, rfl⟩
    rw [rtgtargetsPushHost, hpush]
    rfl

def someValue : ClinsertValue := ⟨7, 1500, 5, 1300, 0⟩

def shortStrings : List CString := [⟨['a', 'b'], by decide⟩, ⟨['c'], by decide⟩]

/-- A string without a preallocation, a value that finds an insert full, and the
first row and host. -/
theorem growth_in_bounds_ninth :
    (∃ gs, shortStrings.foldlM (fun gs str => clgstrAppend gs (some str)) (clgstrCreate 0) =
      .ok gs ∧ gs.length = 3 ∧ 4 ≤ gs.allocated) ∧
    (∃ before after, (List.replicate 8 someValue).foldlM clinsertPushValue (clinsertCreate none) =
      .ok before ∧ clinsertPushValue before someValue = .ok after ∧
        before.values.count.toNat < after.values.allocated.toNat) ∧
    (∃ before after, [].foldlM queryhostPushRow queryhostCreate = .ok before ∧
      queryhostPushRow before Poller.queryrowCreate = .ok after ∧
        before.rows.count.toNat < after.rows.allocated.toNat) ∧
    ∃ before after, [].foldlM rtgtargetsPushHost rtgtargetsCreate = .ok before ∧
      rtgtargetsPushHost before queryhostCreate = .ok after ∧
        before.hosts.count.toNat < after.hosts.allocated.toNat := by
  obtain ⟨hstrings, hvalues, hrows, hhosts⟩ := growth_in_bounds
  obtain ⟨gs, hgs, appended, -⟩ := hstrings 0 shortStrings (by decide)
  have hlength : gs.length = 3 := appended.length_eq
  have hroom := (appended.content (by decide)).1
  obtain ⟨before, after, hbefore, hafter, pushed⟩ :=
    hvalues none (List.replicate 8 someValue) someValue (by decide)
  obtain ⟨host, pushedHost, hhost, hpushedHost, hrow⟩ :=
    hrows [] Poller.queryrowCreate (by decide)
  obtain ⟨targets, pushedTargets, htargets, hpushedTargets, hadded⟩ :=
    hhosts [] queryhostCreate (by decide)
  exact ⟨⟨gs, hgs, hlength, by omega⟩, ⟨before, after, hbefore, hafter, pushed.inBounds⟩,
    ⟨host, pushedHost, hhost, hpushedHost, hrow.inBounds⟩,
    targets, pushedTargets, htargets, hpushedTargets, hadded.inBounds⟩

end ClusteredPoller.Growth
