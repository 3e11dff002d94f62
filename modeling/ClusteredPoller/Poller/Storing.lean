import ClusteredPoller.Poller.Clustering

/-!
# Storing whatever is accepted

Samples are stored in slots from the front, one for each table.  A row may name
no table, and nothing limits the tables of a host, so storing can fail in two
ways.
-/

namespace ClusteredPoller.Poller

open Library.Grouping (grouped length_grouped_eq_card foldl_place_nil)
open Library.Outcome

/-- The number of tables of the samples in front of the first sample of a row
that names no table. -/
def tableCount (samples : List Push) : Nat :=
  ((samples.takeWhile fun push => push.1.isSome).map Prod.fst).toFinset.card

/-! ## Slots filled from the front -/

/-- The first slots are taken, and the others are empty. -/
structure Filled (inserts : Inserts) (count : Nat) : Prop where
  slots : inserts.map Option.isSome =
    List.replicate count true ++ List.replicate (maxTables - count) false
  room : count ≤ maxTables

namespace Filled

variable {inserts : Inserts} {count : Nat}

theorem of_stores {groups : List (Library.Grouping.KeyGroup Push)}
    (stores : Stores inserts groups) : Filled inserts groups.length where
  slots := by
    have hslots := congrArg (List.map Option.isSome) stores.slots
    rw [List.map_map, slotsOf, List.map_append, List.map_map, List.map_replicate] at hslots
    simpa [Function.comp_def, List.map_const'] using hslots
  room := stores.room

theorem length (filled : Filled inserts count) : inserts.length = maxTables := by
  have hlength := congrArg List.length filled.slots
  have hroom := filled.room
  simp only [List.length_map, List.length_append, List.length_replicate] at hlength
  omega

theorem none_mem_iff (filled : Filled inserts count) : none ∈ inserts ↔ count < maxTables := by
  have hfalse : none ∈ inserts ↔ false ∈ inserts.map Option.isSome := by
    simp
  have hroom := filled.room
  rw [hfalse, filled.slots]
  simp [List.mem_replicate]
  omega

theorem countP (filled : Filled inserts count) : inserts.countP Option.isSome = count := by
  have hcount : inserts.countP Option.isSome = (inserts.map Option.isSome).countP id := by
    rw [List.countP_map]
    rfl
  rw [hcount, filled.slots]
  simp [List.countP_append, List.countP_replicate]

end Filled

/-! ## Samples without a table -/

/-- A table name is compared with `NULL`. -/
theorem storeValue_null {insert : Clinsert} {rest : Inserts} {table : Option CString}
    (hnull : insert.table = none ∨ table = none) (value : ClinsertValue) :
    storeValue (some insert :: rest) table value = .error .nullString := by
  have hcompare : strcmpEqual insert.table table = .error .nullString := by
    rcases hnull with hnull | hnull <;> rw [hnull]
    · rfl
    · cases insert.table <;> rfl
  rw [storeValue, clinsertForTable, hcompare]
  rfl

/-- Storing samples fails the assertion, hands `NULL` to `strcmp` because a
sample has no table, or fills a slot for each table. -/
inductive Storing (samples : List Push) : Except Fault Inserts → Prop where
  | overflow (many : maxTables < tableCount samples) : Storing samples (.error .assertion)
  | null (few : tableCount samples ≤ maxTables) (nameless : ∃ push ∈ samples, push.1 = none) :
      Storing samples (.error .nullString)
  | named {inserts : Inserts} (filled : Filled inserts (tableCount samples))
      (named : ∀ push ∈ samples, push.1.isSome) : Storing samples (.ok inserts)
  | nameless {inserts : Inserts} (filled : Filled inserts 1) (few : tableCount samples < maxTables)
      (alone : samples.length = 1) : Storing samples (.ok inserts)

theorem tableCount_split {front : List Push} (hnamed : ∀ push ∈ front, push.1.isSome)
    {back : List Push} (hback : ∀ push ∈ back.head?, push.1 = none) :
    tableCount (front ++ back) = (grouped Prod.fst front).length := by
  have hnone : back.takeWhile (fun push => push.1.isSome) = [] := by
    cases back with
    | nil => rfl
    | cons push more =>
        refine List.takeWhile_cons_of_neg ?_
        rw [hback push rfl]
        exact Bool.false_ne_true
  rw [tableCount, List.takeWhile_append_of_pos hnamed, hnone, List.append_nil,
    length_grouped_eq_card]

/-- A list is its longest front of samples with tables, and the rest. -/
theorem exists_named_front (samples : List Push) :
    ∃ front back, samples = front ++ back ∧ (∀ push ∈ front, push.1.isSome) ∧
      ∀ push ∈ back.head?, push.1 = none := by
  induction samples with
  | nil => exact ⟨[], [], rfl, by simp, by simp⟩
  | cons push samples ih =>
      cases htable : push.1 with
      | none => exact ⟨[], push :: samples, rfl, by simp, by simpa using htable⟩
      | some table =>
          obtain ⟨front, back, rfl, hfront, hback⟩ := ih
          refine ⟨push :: front, back, rfl, List.forall_mem_cons.mpr ⟨?_, hfront⟩, hback⟩
          rw [htable]
          rfl

/-- A sample without a table comes first: it gets a slot, and no other sample
can follow it. -/
theorem storing_null_first {push : Push} (hpush : push.1 = none) (more : List Push) :
    Storing (push :: more) (storeAll noInserts (push :: more)) := by
  have hstored : storeValue noInserts none push.2 =
      .ok (some (clinsertPushValue (clinsertCreate none) push.2) :: List.replicate 63 none) := rfl
  have hcount : tableCount (push :: more) = 0 := by
    have hsplit := @tableCount_split [] (by simp) (push :: more) (by simpa using hpush)
    simpa [grouped] using hsplit
  rw [storeAll, hpush, hstored, ok_bind]
  cases more with
  | nil =>
      refine .nameless ⟨rfl, by decide⟩ ?_ rfl
      rw [hcount]
      decide
  | cons next others =>
      rw [storeAll, storeValue_null (Or.inl rfl)]
      refine .null ?_ ⟨push, List.mem_cons_self, hpush⟩
      rw [hcount]
      exact Nat.zero_le _

/-- A sample without a table comes behind others, and is compared with the first
of their tables. -/
theorem storing_null_later {first push : Push} {front more : List Push} (hpush : push.1 = none)
    (hfew : tableCount (first :: front ++ push :: more) ≤ maxTables) {inserts : Inserts}
    (stores : Stores inserts (grouped Prod.fst (first :: front))) :
    Storing (first :: front ++ push :: more) (storeAll inserts (push :: more)) := by
  have hslots := stores.slots
  rw [grouped] at hslots
  cases inserts with
  | nil => cases hslots
  | cons slot rest =>
      obtain ⟨insert, rfl, _⟩ := Option.map_eq_some_iff.mp (List.cons.inj hslots).1
      rw [storeAll, storeValue_null (Or.inr hpush)]
      exact .null hfew ⟨push, List.mem_append_right _ List.mem_cons_self, hpush⟩

theorem storing (samples : List Push) : Storing samples (storeAll noInserts samples) := by
  obtain ⟨front, back, rfl, hnamed, hback⟩ := exists_named_front samples
  have hcount := tableCount_split hnamed hback
  have hcases := stores_noInserts.storeAll_cases hnamed
  rw [foldl_place_nil, ← hcount] at hcases
  rcases hcases with ⟨hfew, inserts, hstored, stores⟩ | ⟨hmany, herror⟩
  · cases back with
    | nil =>
        rw [List.append_nil] at hcount ⊢
        rw [hstored]
        refine .named ?_ hnamed
        rw [hcount]
        exact Filled.of_stores stores
    | cons push more =>
        cases front with
        | nil => exact storing_null_first (hback push rfl) more
        | cons first front =>
            rw [storeAll_append, hstored]
            exact storing_null_later (hback push rfl) hfew stores
  · rw [storeAll_append, herror]
    exact .overflow hmany

/-- A sample that follows another one names its table, as does that one, and
there are no more tables than slots. -/
def Storable (samples : List Push) : Prop :=
  (1 < samples.length → ∀ push ∈ samples, push.1.isSome) ∧
    (samples.map Prod.fst).toFinset.card ≤ maxTables

theorem storeAll_ok_iff {samples : List Push} :
    (∃ inserts, storeAll noInserts samples = .ok inserts) ↔ Storable samples := by
  constructor
  · rintro ⟨inserts, hstored⟩
    have hstoring := storing samples
    rw [hstored] at hstoring
    cases hstoring with
    | named filled hnamed =>
        refine ⟨fun _ => hnamed, ?_⟩
        have hroom := filled.room
        rw [tableCount, List.takeWhile_eq_self_iff.mpr hnamed] at hroom
        exact hroom
    | nameless filled few alone =>
        refine ⟨fun hmore => absurd alone (Nat.ne_of_gt hmore), ?_⟩
        have hcard := (samples.map Prod.fst).toFinset_card_le
        rw [List.length_map, alone] at hcard
        exact Nat.le_trans hcard (by decide)
  · rintro ⟨hnamed, hfew⟩
    rw [← length_grouped_eq_card] at hfew
    obtain ⟨inserts, hstored, -⟩ := storeAll_slots hnamed hfew
    exact ⟨inserts, hstored⟩

end ClusteredPoller.Poller
