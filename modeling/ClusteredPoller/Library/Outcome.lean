import Mathlib.Data.List.Forall2
import Mathlib.Data.List.Induction

/-!
# Sequencing fallible steps

When a sequence of fallible steps ends well, each of its steps did; when it
fails, one of its steps failed and those before it did not.
-/

namespace ClusteredPoller.Library.Outcome

variable {ε α β : Type}

theorem bind_eq_ok {first : Except ε α} {next : α → Except ε β} {result : β} :
    (first >>= next) = .ok result ↔ ∃ value, first = .ok value ∧ next value = .ok result := by
  cases first with
  | error fault =>
      constructor
      · intro impossible; cases impossible
      · rintro ⟨value, impossible, _⟩; cases impossible
  | ok value =>
      constructor
      · exact fun hnext => ⟨value, rfl, hnext⟩
      · rintro ⟨other, heq, hnext⟩
        cases heq
        exact hnext

/-- A sequence fails in the first of its steps that fails. -/
theorem bind_eq_error {first : Except ε α} {next : α → Except ε β} {fault : ε} :
    (first >>= next) = .error fault ↔
      first = .error fault ∨ ∃ value, first = .ok value ∧ next value = .error fault := by
  cases first with
  | error other =>
      constructor
      · intro heq
        cases heq
        exact Or.inl rfl
      · rintro (heq | ⟨value, impossible, _⟩)
        · cases heq
          rfl
        · cases impossible
  | ok value =>
      constructor
      · exact fun hnext => Or.inr ⟨value, rfl, hnext⟩
      · rintro (impossible | ⟨other, heq, hnext⟩)
        · cases impossible
        · cases heq
          exact hnext

@[simp]
theorem ok_bind (value : α) (next : α → Except ε β) : (Except.ok value >>= next) = next value :=
  rfl

@[simp]
theorem error_bind (fault : ε) (next : α → Except ε β) :
    (Except.error fault >>= next) = .error fault := rfl

/-! ## The ways in which steps may fail -/

/-- The step fails, if at all, in one of the allowed ways. -/
def FailsIn (allowed : ε → Prop) (step : Except ε α) : Prop :=
  ∀ fault, step = .error fault → allowed fault

namespace FailsIn

variable {allowed : ε → Prop}

theorem ok (value : α) : FailsIn allowed (.ok value) := by
  intro fault impossible
  cases impossible

theorem error {fault : ε} (hfault : allowed fault) :
    FailsIn allowed (.error fault : Except ε α) := by
  intro other heq
  cases heq
  exact hfault

theorem bind {first : Except ε α} {next : α → Except ε β} (hfirst : FailsIn allowed first)
    (hnext : ∀ value, FailsIn allowed (next value)) : FailsIn allowed (first >>= next) := by
  intro fault hfault
  rcases bind_eq_error.mp hfault with hfault | ⟨value, -, hfault⟩
  · exact hfirst fault hfault
  · exact hnext value fault hfault

theorem mono {wider : ε → Prop} {step : Except ε α} (hstep : FailsIn allowed step)
    (hwider : ∀ fault, allowed fault → wider fault) : FailsIn wider step :=
  fun fault hfault => hwider fault (hstep fault hfault)

/-- A loop over a list fails as its turns do. -/
theorem foldlM_mem {turn : β → α → Except ε β} {items : List α} {start : β}
    (hturn : ∀ item ∈ items, ∀ state, FailsIn allowed (turn state item)) :
    FailsIn allowed (items.foldlM turn start) := by
  induction items generalizing start with
  | nil => exact ok start
  | cons item items ih =>
      obtain ⟨hitem, hitems⟩ := List.forall_mem_cons.mp hturn
      rw [List.foldlM_cons]
      exact (hitem start).bind fun next => ih hitems

theorem foldlM {turn : β → α → Except ε β} {items : List α} {start : β}
    (hturn : ∀ state item, FailsIn allowed (turn state item)) :
    FailsIn allowed (items.foldlM turn start) :=
  foldlM_mem fun item _ state => hturn state item

end FailsIn

/-! ## What steps make sure of -/

/-- The step ends well with a good result, or fails in one of the allowed ways. -/
structure Yields (allowed : ε → Prop) (Good : α → Prop) (step : Except ε α) : Prop where
  ok : ∀ value, step = .ok value → Good value
  fails : FailsIn allowed step

namespace Yields

variable {allowed : ε → Prop} {Good : α → Prop} {Next : β → Prop}

theorem pure {value : α} (hgood : Good value) : Yields allowed Good (.ok value) := by
  constructor
  · intro other heq
    cases heq
    exact hgood
  · exact FailsIn.ok value

theorem error {fault : ε} (hfault : allowed fault) :
    Yields allowed Good (.error fault : Except ε α) := by
  constructor
  · intro value impossible
    cases impossible
  · exact FailsIn.error hfault

theorem bind {first : Except ε α} {next : α → Except ε β} (hfirst : Yields allowed Good first)
    (hnext : ∀ value, Good value → Yields allowed Next (next value)) :
    Yields allowed Next (first >>= next) := by
  cases first with
  | error fault => exact error (hfirst.fails fault rfl)
  | ok value => exact hnext value (hfirst.ok value rfl)

/-- A loop of which each turn yields the invariant yields it. -/
theorem foldlM {turn : α → β → Except ε α} {items : List β} {start : α}
    (hturn : ∀ state item, item ∈ items → Good state → Yields allowed Good (turn state item))
    (hstart : Good start) : Yields allowed Good (items.foldlM turn start) := by
  induction items generalizing start with
  | nil => exact pure hstart
  | cons item items ih =>
      rw [List.foldlM_cons]
      refine (hturn start item List.mem_cons_self hstart).bind fun next hnext => ?_
      exact ih (fun state other hother => hturn state other (List.mem_cons_of_mem _ hother)) hnext

end Yields

/-! ## Loops that end well -/

/-- What each turn of a loop keeps holds at its end. -/
theorem foldlM_keeps {Holds : β → Prop} {turn : β → α → Except ε β} {items : List α}
    {start final : β}
    (hturn : ∀ state item next, Holds state → turn state item = .ok next → Holds next)
    (hstart : Holds start) (hrun : items.foldlM turn start = .ok final) : Holds final := by
  induction items generalizing start with
  | nil =>
      cases hrun
      exact hstart
  | cons item items ih =>
      rw [List.foldlM_cons] at hrun
      obtain ⟨next, hnext, hrest⟩ := bind_eq_ok.mp hrun
      exact ih (hturn start item next hstart hnext) hrest

/-- When a loop ends well, so did the turn of each item. -/
theorem forall_mem_of_foldlM {Good : α → Prop} {turn : β → α → Except ε β} {items : List α}
    {start final : β} (hturn : ∀ state item next, turn state item = .ok next → Good item)
    (hrun : items.foldlM turn start = .ok final) : ∀ item ∈ items, Good item := by
  induction items generalizing start with
  | nil => exact List.forall_mem_nil _
  | cons item items ih =>
      rw [List.foldlM_cons] at hrun
      obtain ⟨next, hnext, hrest⟩ := bind_eq_ok.mp hrun
      exact List.forall_mem_cons.mpr ⟨hturn start item next hnext, ih hrest⟩

/-- A loop of which each turn adds its item to what is held ends with all items
held, if they are not too many. -/
theorem foldlM_appends {Holds : β → List α → Prop} {turn : β → α → Except ε β} {start : β}
    {limit : Nat}
    (hturn : ∀ state items item, Holds state items → items.length < limit →
      ∃ next, turn state item = .ok next ∧ Holds next (items ++ [item]))
    (hstart : Holds start []) {items : List α} (hlimit : items.length ≤ limit) :
    ∃ final, items.foldlM turn start = .ok final ∧ Holds final items := by
  induction items using List.reverseRecOn with
  | nil => exact ⟨start, rfl, hstart⟩
  | append_singleton items item ih =>
      rw [List.length_append, List.length_singleton] at hlimit
      obtain ⟨state, hstate, hholds⟩ := ih (Nat.le_of_succ_le hlimit)
      obtain ⟨next, hnext, hall⟩ := hturn state items item hholds hlimit
      rw [List.foldlM_append, hstate, ok_bind]
      exact ⟨next, by rw [List.foldlM_cons, hnext]; rfl, hall⟩

/-- When every turn ends well, so does the loop that lists their results. -/
theorem exists_mapM {Related : α → β → Prop} {turn : α → Except ε β} {items : List α}
    (hturn : ∀ item ∈ items, ∃ value, turn item = .ok value ∧ Related item value) :
    ∃ values, items.mapM turn = .ok values ∧ List.Forall₂ Related items values := by
  induction items with
  | nil => exact ⟨[], rfl, List.Forall₂.nil⟩
  | cons item items ih =>
      obtain ⟨hitem, hitems⟩ := List.forall_mem_cons.mp hturn
      obtain ⟨value, hvalue, related⟩ := hitem
      obtain ⟨values, hvalues, hrelated⟩ := ih hitems
      refine ⟨value :: values, ?_, List.Forall₂.cons related hrelated⟩
      rw [List.mapM_cons, hvalue, ok_bind, hvalues]
      rfl

/-! ## Steps that end alike -/

/-- Both steps fail in the same way, or both end well with related results. -/
inductive Agree (Related : α → β → Prop) : Except ε α → Except ε β → Prop
  | ok {first : α} {second : β} (related : Related first second) :
      Agree Related (.ok first) (.ok second)
  | error (fault : ε) : Agree Related (.error fault) (.error fault)

namespace Agree

variable {γ δ : Type} {Related : α → β → Prop}

theorem refl {step : Except ε α} : Agree (· = ·) step step := by
  cases step with
  | ok value => exact ok rfl
  | error fault => exact error fault

theorem bind {Next : γ → δ → Prop} {first : Except ε α} {second : Except ε β}
    {firstNext : α → Except ε γ} {secondNext : β → Except ε δ} (hsteps : Agree Related first second)
    (hnext : ∀ one two, Related one two → Agree Next (firstNext one) (secondNext two)) :
    Agree Next (first >>= firstNext) (second >>= secondNext) := by
  cases hsteps with
  | ok related => exact hnext _ _ related
  | error fault => exact error fault

theorem of_ok {first : Except ε α} {second : Except ε β} {one : α} {two : β}
    (hsteps : Agree Related first second) (hfirst : first = .ok one) (hsecond : second = .ok two) :
    Related one two := by
  cases hsteps with
  | ok related =>
      cases hfirst
      cases hsecond
      exact related
  | error fault => cases hfirst

/-- Loops over related items end alike. -/
theorem foldlM {Items : γ → δ → Prop} {firstTurn : α → γ → Except ε α}
    {secondTurn : β → δ → Except ε β} {firstItems : List γ} {secondItems : List δ} {one : α}
    {two : β} (hitems : List.Forall₂ Items firstItems secondItems)
    (hturn : ∀ one two item other, Related one two → Items item other →
      Agree Related (firstTurn one item) (secondTurn two other))
    (hstart : Related one two) :
    Agree Related (firstItems.foldlM firstTurn one) (secondItems.foldlM secondTurn two) := by
  induction hitems generalizing one two with
  | nil => exact ok hstart
  | cons hitem _ ih =>
      rw [List.foldlM_cons, List.foldlM_cons]
      exact (hturn one two _ _ hstart hitem).bind fun next other hnext => ih hnext

end Agree

/-! ## Steps of which one follows the other -/

/-- If the first step ends well, so does the second, with a related result. -/
def Follows (Related : α → β → Prop) (first : Except ε α) (second : Except ε β) : Prop :=
  ∀ value, first = .ok value → ∃ other, second = .ok other ∧ Related value other

namespace Follows

variable {γ δ : Type} {Related : α → β → Prop}

theorem ok {first : α} {second : β} (related : Related first second) :
    Follows Related (.ok first : Except ε α) (.ok second) := by
  intro value heq
  cases heq
  exact ⟨second, rfl, related⟩

theorem error {fault : ε} {second : Except ε β} :
    Follows Related (.error fault : Except ε α) second := by
  intro value impossible
  cases impossible

theorem refl {step : Except ε α} : Follows (· = ·) step step :=
  fun value heq => ⟨value, heq, rfl⟩

theorem bind {Next : γ → δ → Prop} {first : Except ε α} {second : Except ε β}
    {firstNext : α → Except ε γ} {secondNext : β → Except ε δ}
    (hsteps : Follows Related first second)
    (hnext : ∀ one two, Related one two → Follows Next (firstNext one) (secondNext two)) :
    Follows Next (first >>= firstNext) (second >>= secondNext) := by
  intro result hresult
  obtain ⟨value, hvalue, hrest⟩ := bind_eq_ok.mp hresult
  obtain ⟨other, hother, related⟩ := hsteps value hvalue
  rw [hother, ok_bind]
  exact hnext value other related result hrest

/-- A loop follows another one over related items, with a note of the items that
were passed. -/
theorem foldlM_along {Note : Type} {Along : Note → α → β → Prop} {Items : γ → δ → Prop}
    {firstTurn : α → γ → Except ε α} {secondTurn : β → δ → Except ε β} {pass : Note → δ → Note}
    {firstItems : List γ} {secondItems : List δ} {note : Note} {one : α} {two : β}
    (hitems : List.Forall₂ Items firstItems secondItems)
    (hturn : ∀ note one two item other, Along note one two → Items item other →
      Follows (Along (pass note other)) (firstTurn one item) (secondTurn two other))
    (hstart : Along note one two) :
    Follows (Along (secondItems.foldl pass note)) (firstItems.foldlM firstTurn one)
      (secondItems.foldlM secondTurn two) := by
  induction hitems generalizing note one two with
  | nil => exact ok hstart
  | cons hitem _ ih =>
      rw [List.foldlM_cons, List.foldlM_cons]
      exact (hturn note one two _ _ hstart hitem).bind fun next other hnext => ih hnext

end Follows

end ClusteredPoller.Library.Outcome
