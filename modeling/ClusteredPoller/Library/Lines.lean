import Mathlib.Data.List.Basic

/-!
# Lines

The lines of a text, each with the letter that ends it; what follows the last
of these letters is a line, too, unless it is empty.
-/

namespace ClusteredPoller.Library.Lines

variable {Letter : Type} [DecidableEq Letter] (stop : Letter)

def lines : List Letter → List (List Letter)
  | [] => []
  | letter :: rest =>
      if letter = stop then [letter] :: lines rest
      else
        match lines rest with
        | [] => [[letter]]
        | line :: later => (letter :: line) :: later

variable {stop}

/-- The lines are the text, cut. -/
theorem flatten_lines (text : List Letter) : (lines stop text).flatten = text := by
  induction text with
  | nil => rfl
  | cons letter rest ih =>
      rw [lines]
      split
      · rw [List.flatten_cons, ih, List.singleton_append]
      · cases hrest : lines stop rest with
        | nil =>
            rw [hrest] at ih
            rw [← ih]
            rfl
        | cons line later =>
            rw [hrest, List.flatten_cons] at ih
            rw [List.flatten_cons, List.cons_append, ih]

theorem mem_of_mem_lines {text line : List Letter} (hline : line ∈ lines stop text)
    {letter : Letter} (hletter : letter ∈ line) : letter ∈ text := by
  rw [← @flatten_lines _ _ stop text]
  exact List.mem_flatten_of_mem hline hletter

theorem lines_append {line : List Letter} (hline : stop ∉ line) (rest : List Letter) :
    lines stop (line ++ stop :: rest) = (line ++ [stop]) :: lines stop rest := by
  induction line with
  | nil => simp [lines]
  | cons letter line ih =>
      obtain ⟨hletter, hrest⟩ := List.ne_and_not_mem_of_not_mem_cons hline
      simp [lines, ih hrest, hletter.symm]

theorem lines_last {line : List Letter} (hline : stop ∉ line) (hne : line ≠ []) :
    lines stop line = [line] := by
  induction line with
  | nil => exact absurd rfl hne
  | cons letter line ih =>
      obtain ⟨hletter, hrest⟩ := List.ne_and_not_mem_of_not_mem_cons hline
      cases line with
      | nil => simp [lines, hletter.symm]
      | cons next line =>
          rw [lines, if_neg hletter.symm, ih hrest (List.cons_ne_nil _ _)]

/-- A text is empty, or its last line, or starts with a line that ends. -/
theorem lines_cases (stop : Letter) (text : List Letter) :
    text = [] ∨ (stop ∉ text ∧ text ≠ []) ∨
      ∃ line rest, text = line ++ stop :: rest ∧ stop ∉ line := by
  by_cases hstop : stop ∈ text
  · obtain ⟨line, rest, htext, hline⟩ := List.eq_append_cons_of_mem hstop
    exact Or.inr (Or.inr ⟨line, rest, htext, hline⟩)
  · by_cases hempty : text = []
    · exact Or.inl hempty
    · exact Or.inr (Or.inl ⟨hstop, hempty⟩)

end ClusteredPoller.Library.Lines
