import Mathlib.Data.List.Nodup
import Mathlib.Logic.Function.Basic

/-!
# Tables that are set and replaced

A table has one value for each of its keys.  Values are set one at a time, and
now and then the whole table gives way to one with other keys, which takes over
the values of those that stay.  What it says of a key then depends on nothing
but what has happened to that key.
-/

namespace ClusteredPoller.Library.Table

variable {Key Value : Type}

inductive Event (Key Value : Type) where
  | set (key : Key) (value : Value)
  /-- A new table, with these keys. -/
  | replaced (keys : List Key)
  deriving DecidableEq

section Remembered

variable [DecidableEq Key] (fresh : Value)

/-- What an event does to the value of a key. -/
def remember (key : Key) (value : Value) : Event Key Value → Value
  | .set other new => if other = key then new else value
  | .replaced keys => if key ∈ keys then value else fresh

/-- The value that a key was set to last, unless a table without it came in
between. -/
def remembered (events : List (Event Key Value)) (key : Key) : Value :=
  events.foldl (remember fresh key) fresh

theorem remembered_set (events : List (Event Key Value)) (key : Key) (value : Value) :
    remembered fresh (events ++ [.set key value]) =
      Function.update (remembered fresh events) key value := by
  funext other
  rw [remembered, List.foldl_append, List.foldl_cons, List.foldl_nil, remember]
  by_cases heq : key = other
  · subst heq
    rw [if_pos rfl, Function.update_self]
  · rw [if_neg heq, Function.update_of_ne fun hsame => heq hsame.symm]
    rfl

theorem remembered_replaced (events : List (Event Key Value)) (keys : List Key) :
    remembered fresh (events ++ [.replaced keys]) =
      fun key => if key ∈ keys then remembered fresh events key else fresh := by
  funext key
  rw [remembered, List.foldl_append]
  rfl

end Remembered

/-- The function says what the table says, and nothing of other keys. -/
structure Tabulates (fresh : Value) (table : List (Key × Value)) (values : Key → Value) :
    Prop where
  entries : ∀ entry ∈ table, entry.2 = values entry.1
  others : ∀ key, key ∉ table.map Prod.fst → values key = fresh

variable {fresh : Value} {values : Key → Value}

theorem tabulates_nil : Tabulates fresh ([] : List (Key × Value)) fun _ => fresh :=
  ⟨fun _ hentry => (List.not_mem_nil hentry).elim, fun _ _ => rfl⟩

variable [DecidableEq Key]

theorem Tabulates.set {before after : List (Key × Value)} {key : Key} {old new : Value}
    (tabulates : Tabulates fresh (before ++ (key, old) :: after) values)
    (hdistinct : ((before ++ (key, old) :: after).map Prod.fst).Nodup) :
    Tabulates fresh (before ++ (key, new) :: after) (Function.update values key new) := by
  rw [List.map_append, List.map_cons, List.nodup_middle, List.nodup_cons, ← List.map_append]
    at hdistinct
  constructor
  · intro entry hentry
    rw [List.mem_append, List.mem_cons, or_left_comm] at hentry
    rcases hentry with rfl | hentry
    · exact (Function.update_self key new values).symm
    · have hmem : entry ∈ before ++ after := List.mem_append.mpr hentry
      have hne : entry.1 ≠ key := by
        intro hsame
        exact hdistinct.1 (List.mem_map.mpr ⟨entry, hmem, hsame⟩)
      rw [Function.update_of_ne hne]
      refine tabulates.entries entry ?_
      rw [List.mem_append, List.mem_cons, or_left_comm]
      exact Or.inr hentry
  · intro other hother
    rw [List.map_append, List.map_cons] at hother
    have hne : other ≠ key := by
      rintro rfl
      exact hother (List.mem_append_right _ List.mem_cons_self)
    rw [Function.update_of_ne hne]
    refine tabulates.others other ?_
    rw [List.map_append, List.map_cons]
    exact hother

/-- A table that takes over what the one before has of its keys. -/
theorem Tabulates.replace {table next : List (Key × Value)}
    (tabulates : Tabulates fresh table values)
    (hnext : ∀ entry ∈ next, entry ∈ table ∨ (entry.1 ∉ table.map Prod.fst ∧ entry.2 = fresh)) :
    Tabulates fresh next fun key => if key ∈ next.map Prod.fst then values key else fresh := by
  constructor
  · intro entry hentry
    rw [if_pos (List.mem_map_of_mem hentry)]
    rcases hnext entry hentry with hold | ⟨hnew, hfresh⟩
    · exact tabulates.entries entry hold
    · rw [hfresh, tabulates.others entry.1 hnew]
  · intro key hkey
    exact if_neg hkey

end ClusteredPoller.Library.Table
