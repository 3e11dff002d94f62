import ClusteredPoller.Poller.Slots
import Mathlib.Algebra.BigOperators.Group.Multiset.Basic
import Mathlib.Data.List.ReduceOption

/-!
# The samples in inserts

A list of inserts holds a bag of samples, each under its table.  Storing a value
adds one sample to the bag, in whichever slot it ends up.
-/

namespace ClusteredPoller.Poller

open Library.Outcome (bind_eq_ok)

/-- The values of an insert, each under its table. -/
def Clinsert.samples (insert : Clinsert) : Multiset Push :=
  (insert.values.map (Prod.mk insert.table) : List Push)

def samplesIn (inserts : List Clinsert) : Multiset Push := (inserts.map Clinsert.samples).sum

theorem samplesIn_nil : samplesIn [] = 0 := rfl

theorem samplesIn_cons (insert : Clinsert) (inserts : List Clinsert) :
    samplesIn (insert :: inserts) = insert.samples + samplesIn inserts := rfl

theorem samplesIn_append (first second : List Clinsert) :
    samplesIn (first ++ second) = samplesIn first + samplesIn second := by
  rw [samplesIn, List.map_append, List.sum_append]
  rfl

theorem samples_create (table : Option CString) : (clinsertCreate table).samples = 0 := rfl

theorem samples_push (insert : Clinsert) (value : ClinsertValue) :
    (clinsertPushValue insert value).samples = (insert.table, value) ::ₘ insert.samples := by
  have happend : (clinsertPushValue insert value).values.map (Prod.mk insert.table) =
      insert.values.map (Prod.mk insert.table) ++ [(insert.table, value)] := List.map_append
  rw [Clinsert.samples, show (clinsertPushValue insert value).table = insert.table from rfl,
    happend, ← Multiset.coe_add, Multiset.add_comm]
  rfl

/-! ## Slots filled from the front -/

/-- The slots hold the inserts, and the others are `NULL`. -/
def slots (inserts : List Clinsert) : Inserts :=
  inserts.map some ++ List.replicate (maxTables - inserts.length) none

theorem slots_nil : slots [] = noInserts := rfl

/-- The insert for a table is there, or made behind the others. -/
inductive ForTable (inserts : List Clinsert) (table : Option CString) :
    List Clinsert → Nat → Prop where
  | found (before : List Clinsert) (insert : Clinsert) (after : List Clinsert)
      (hinserts : inserts = before ++ insert :: after) (htable : insert.table = table) :
      ForTable inserts table inserts before.length
  | made : ForTable inserts table (inserts ++ [clinsertCreate table]) inserts.length

theorem forTable_ok {inserts : List Clinsert} {table : Option CString} {free : Nat}
    {result : Inserts × Nat}
    (hfind : clinsertForTable (inserts.map some ++ List.replicate free none) table = .ok result) :
    ∃ after, ForTable inserts table after result.2 ∧ after.length ≤ inserts.length + free ∧
      result.1 = after.map some ++
        List.replicate (inserts.length + free - after.length) none := by
  induction inserts generalizing result with
  | nil =>
      cases free with
      | zero => cases hfind
      | succ free =>
          cases hfind
          exact ⟨[clinsertCreate table], .made, Nat.le_add_left 1 _, by simp⟩
  | cons insert inserts ih =>
      obtain ⟨equal, hequal, hrest⟩ := bind_eq_ok.mp hfind
      cases equal with
      | true =>
          cases hrest
          have htable := of_decide_eq_true (strcmpEqual_ok hequal).symm
          refine ⟨insert :: inserts, .found [] insert inserts rfl htable, Nat.le_add_right _ _, ?_⟩
          simp
      | false =>
          obtain ⟨⟨list, slot⟩, hfound, hresult⟩ := bind_eq_ok.mp hrest
          cases hresult
          obtain ⟨after, hafter, hlength, hslots⟩ := ih hfound
          refine ⟨insert :: after, ?_, by simpa [Nat.add_right_comm] using hlength, ?_⟩
          · cases hafter with
            | found before other behind hinserts htable =>
                exact .found (insert :: before) other behind (by rw [hinserts]; rfl) htable
            | made => exact .made
          · rw [hslots]
            simp [Nat.add_right_comm]

/-- Another value in the slot of an insert. -/
theorem samplesIn_pushAt {before after : List Clinsert} {insert : Clinsert} {free : Nat}
    (value : ClinsertValue) :
    pushAt ((before ++ insert :: after).map some ++ List.replicate free none) before.length value =
      (before ++ clinsertPushValue insert value :: after).map some ++ List.replicate free none ∧
    samplesIn (before ++ clinsertPushValue insert value :: after) =
      (insert.table, value) ::ₘ samplesIn (before ++ insert :: after) := by
  constructor
  · have hmodify := Library.Grouping.modify_append_cons (before.map some) (some insert)
      (after.map some ++ List.replicate free none)
      (Option.map fun insert => clinsertPushValue insert value)
    rw [List.length_map] at hmodify
    rw [pushAt, List.map_append, List.map_cons, List.append_assoc, List.cons_append, hmodify]
    simp
  · rw [samplesIn_append, samplesIn_append, samplesIn_cons, samplesIn_cons, samples_push,
      Multiset.cons_add, Multiset.add_cons]

/-- A stored value is one more sample. -/
theorem storeValue_samples {inserts : List Clinsert} {table : Option CString}
    {value : ClinsertValue} {stored : Inserts} (hroom : inserts.length ≤ maxTables)
    (hstore : storeValue (slots inserts) table value = .ok stored) :
    ∃ after, stored = slots after ∧ after.length ≤ maxTables ∧
      samplesIn after = (table, value) ::ₘ samplesIn inserts := by
  obtain ⟨⟨list, slot⟩, hfind, hstored⟩ := bind_eq_ok.mp hstore
  cases hstored
  obtain ⟨middle, hmiddle, hlength, hslots⟩ := forTable_ok hfind
  dsimp only at hmiddle hslots ⊢
  have hmax : inserts.length + (maxTables - inserts.length) = maxTables := by omega
  rw [hmax] at hlength hslots
  rw [hslots]
  cases hmiddle with
  | found before insert behind hinserts htable =>
      subst hinserts
      obtain ⟨hpush, hsamples⟩ := @samplesIn_pushAt before behind insert
        (maxTables - (before ++ insert :: behind).length) value
      refine ⟨before ++ clinsertPushValue insert value :: behind, ?_, ?_, htable ▸ hsamples⟩
      · rw [hpush, slots]
        simp
      · simpa using hlength
  | made =>
      obtain ⟨hpush, hsamples⟩ := @samplesIn_pushAt inserts [] (clinsertCreate table)
        (maxTables - (inserts ++ [clinsertCreate table]).length) value
      refine ⟨inserts ++ [clinsertPushValue (clinsertCreate table) value], ?_, ?_, ?_⟩
      · rw [hpush, slots]
        simp
      · simpa using hlength
      · rw [hsamples, samplesIn_append, samplesIn_cons, samples_create, samplesIn_nil, add_zero,
          add_zero]
        rfl

/-- The sample that a pass of the loop body stores. -/
def storedSamples (number : Nat) (row : Queryrow) (reply : Reply) (progress : Progress) :
    List Push :=
  match pollRow number row reply progress, replyValue row reply with
  | .ok _, .ok value => (value.map (Prod.mk row.table)).toList
  | _, _ => []

theorem pushesOf_rowEvents (number : Nat) (row : Queryrow) {reply : Reply}
    {value : Option ClinsertValue} (hvalue : replyValue row reply = .ok value) :
    pushesOf (rowEvents number row reply value) = (value.map (Prod.mk row.table)).toList := by
  cases reply with
  | none =>
      cases hvalue
      rfl
  | some sample =>
      cases value with
      | none => rfl
      | some value => rfl

/-- A pass of the loop body adds what it stores. -/
theorem pollRow_samples {number : Nat} {row polledRow : Queryrow} {reply : Reply}
    {progress polled : Progress} {inserts : List Clinsert}
    (hslots : progress.inserts = slots inserts) (hroom : inserts.length ≤ maxTables)
    (hpoll : pollRow number row reply progress = .ok (polledRow, polled)) :
    ∃ after, polled.inserts = slots after ∧ after.length ≤ maxTables ∧
      samplesIn after = storedSamples number row reply progress + samplesIn inserts := by
  obtain ⟨value, hvalue, -, -, hstore⟩ := pollRow_cases hpoll
  rw [pushesOf_rowEvents number row hvalue, hslots] at hstore
  have hstored : storedSamples number row reply progress =
      (value.map (Prod.mk row.table)).toList := by
    rw [storedSamples, hpoll, hvalue]
  rw [hstored]
  cases value with
  | none => exact ⟨inserts, (Except.ok.inj hstore).symm, hroom, (zero_add _).symm⟩
  | some value =>
      change storeAll (slots inserts) [(row.table, value)] = .ok polled.inserts at hstore
      rw [storeAll_singleton] at hstore
      exact storeValue_samples hroom hstore

/-- The count is that of the inserts, and the read stays in the slots, if some
slot is empty. -/
theorem clinsertCount_slots {inserts : List Clinsert} {free : Nat} {count : UInt32}
    (hcount : clinsertCount (inserts.map some ++ List.replicate free none) = .ok count) :
    count = UInt32.ofNat inserts.length := by
  induction inserts generalizing count with
  | nil =>
      cases free with
      | zero => cases hcount
      | succ free =>
          cases hcount
          rfl
  | cons insert inserts ih =>
      obtain ⟨behind, hbehind, hsum⟩ := bind_eq_ok.mp hcount
      cases hsum
      rw [ih hbehind]
      exact (UInt32.ofNat_add inserts.length 1).symm

theorem reduceOption_inserts (inserts : List Clinsert) :
    (inserts.map some).reduceOption = inserts := by
  induction inserts with
  | nil => rfl
  | cons insert inserts ih => rw [List.map_cons, List.reduceOption_cons_of_some, ih]

theorem reduceOption_slots (inserts : List Clinsert) : (slots inserts).reduceOption = inserts := by
  rw [slots, List.reduceOption_append, reduceOption_inserts, List.reduceOption_replicate_none,
    List.append_nil]

/-- What `process_queries` takes from the list. -/
theorem taken_slots {inserts : List Clinsert} {count : UInt32}
    (hroom : inserts.length ≤ maxTables) (hcount : clinsertCount (slots inserts) = .ok count) :
    ((slots inserts).take count.toNat).reduceOption = inserts := by
  have hlength : count.toNat = (inserts.map some).length := by
    rw [clinsertCount_slots hcount, UInt32.toNat_ofNat', List.length_map]
    exact Nat.mod_eq_of_lt (Nat.lt_of_le_of_lt hroom (by decide))
  rw [slots, hlength, List.take_left]
  exact reduceOption_inserts inserts

end ClusteredPoller.Poller
