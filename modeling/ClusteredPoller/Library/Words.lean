import ClusteredPoller.Library.Format
import Mathlib.Data.List.TakeWhile

/-!
# Words of a text

The words of a text are its longest runs of characters that are not spaces.
What counts as a space is a parameter, so the same notion serves for words
between blanks and for fields between tabs.
-/

namespace ClusteredPoller.Library.Words

open Format (Ends takeWhile_of_ends)

def words (space : Char → Bool) (text : List Char) : List (List Char) :=
  match _hdrop : text.dropWhile space with
  | [] => []
  | first :: rest =>
      (first :: rest.takeWhile fun char => !space char) ::
        words space (rest.dropWhile fun char => !space char)
termination_by text.length
decreasing_by
  have hrest := (List.dropWhile_suffix (l := rest) fun char => !space char).length_le
  have htext := (List.dropWhile_suffix (l := text) space).length_le
  rw [_hdrop, List.length_cons] at htext
  omega

variable {space : Char → Bool}

theorem words_eq (text : List Char) :
    words space text =
      match text.dropWhile space with
      | [] => []
      | first :: rest =>
          (first :: rest.takeWhile fun char => !space char) ::
            words space (rest.dropWhile fun char => !space char) := by
  rw [words]
  split
  · next heq => rw [heq]
  · next first rest heq => rw [heq]

@[simp]
theorem words_nil : words space [] = [] := by
  simp [words_eq]

/-- Spaces in front of a text do not matter. -/
theorem words_gap {gap : List Char} (hgap : ∀ char ∈ gap, space char = true)
    (rest : List Char) : words space (gap ++ rest) = words space rest := by
  rw [words_eq, words_eq rest, List.dropWhile_append_of_pos hgap]

@[simp]
theorem words_cons_space {char : Char} (hchar : space char = true) (rest : List Char) :
    words space (char :: rest) = words space rest := by
  simpa using @words_gap space [char] (by simpa using hchar) rest

/-- A text that consists of spaces has no words. -/
theorem words_of_spaces {gap : List Char} (hgap : ∀ char ∈ gap, space char = true) :
    words space gap = [] := by
  simpa using words_gap hgap []

/-- A run of other characters, up to a space or the end, is the first word. -/
theorem words_word {word rest : List Char} (hne : word ≠ [])
    (hword : ∀ char ∈ word, space char = false) (hends : Ends (fun char => !space char) rest) :
    words space (word ++ rest) = word :: words space rest := by
  obtain ⟨htake, hdrop⟩ := takeWhile_of_ends hends
  cases word with
  | nil => exact absurd rfl hne
  | cons first word =>
      have hfirst : space first = false := hword first List.mem_cons_self
      have htail : ∀ char ∈ word, (!space char) = true := fun char hchar => by
        simp [hword char (List.mem_cons_of_mem _ hchar)]
      rw [words_eq, List.cons_append, List.dropWhile_cons_of_neg (by simp [hfirst])]
      simp only [List.takeWhile_append_of_pos htail, List.dropWhile_append_of_pos htail, htake,
        hdrop, List.append_nil]

/-- The words of a text that is all one word. -/
theorem words_single {word : List Char} (hne : word ≠ [])
    (hword : ∀ char ∈ word, space char = false) : words space word = [word] := by
  have hends : Ends (fun char => !space char) [] := fun _ _ himpossible => by cases himpossible
  simpa using words_word hne hword hends

/-- A text starts with spaces and then is at its end or goes on with a word. -/
theorem split_cases (space : Char → Bool) (text : List Char) :
    (∀ char ∈ text, space char = true) ∨
      ∃ gap word rest, text = gap ++ (word ++ rest) ∧ (∀ char ∈ gap, space char = true) ∧
        word ≠ [] ∧ (∀ char ∈ word, space char = false) ∧
          Ends (fun char => !space char) rest := by
  cases hdrop : text.dropWhile space with
  | nil =>
      exact Or.inl (List.dropWhile_eq_nil_iff.mp hdrop)
  | cons first tail =>
      right
      have hfirst : space first = false := by
        simpa [hdrop] using List.head?_dropWhile_not space text
      refine ⟨text.takeWhile space, first :: tail.takeWhile (fun char => !space char),
        tail.dropWhile (fun char => !space char), ?_, ?_, ?_, ?_, ?_⟩
      · rw [List.cons_append, List.takeWhile_append_dropWhile, ← hdrop,
          List.takeWhile_append_dropWhile]
      · intro char hchar
        simpa using List.all_eq_true.mp List.all_takeWhile char hchar
      · simp
      · intro char hchar
        rcases List.mem_cons.mp hchar with rfl | hchar
        · exact hfirst
        · simpa using List.all_eq_true.mp List.all_takeWhile char hchar
      · intro char rest heq
        have hhead := List.head?_dropWhile_not (fun char => !space char) tail
        rw [heq] at hhead
        simpa using hhead

/-- The words of two texts with a space between them. -/
theorem words_append_cons {sep : Char} (hsep : space sep = true) (first second : List Char) :
    words space (first ++ sep :: second) = words space first ++ words space second := by
  induction hlength : first.length using Nat.strongRecOn generalizing first with
  | ind length ih =>
      rcases split_cases space first with hspaces | ⟨gap, word, rest, rfl, hgap, hne, hword, hends⟩
      · rw [words_gap hspaces, words_of_spaces hspaces, words_cons_space hsep, List.nil_append]
      · have hends' : Ends (fun char => !space char) (rest ++ sep :: second) := by
          cases rest with
          | nil => exact Format.ends_cons (by simp [hsep]) _
          | cons char tail => exact Format.ends_cons (hends char tail rfl) _
        have hpos : 0 < word.length := List.length_pos_iff.mpr hne
        have hshorter : rest.length < length := by
          simp only [List.length_append] at hlength
          omega
        rw [List.append_assoc, List.append_assoc, words_gap hgap, words_gap hgap,
          words_word hne hword hends', words_word hne hword hends, ih rest.length hshorter rest rfl,
          List.cons_append]

/-- The words are the pieces between the spaces that are not empty. -/
theorem words_eq_splitOnP (text : List Char) :
    words space text = (text.splitOnP space).filter fun piece => !piece.isEmpty := by
  have hword : ∀ word : List Char, (∀ char ∈ word, space char = false) →
      words space word = [word].filter fun piece => !piece.isEmpty := by
    intro word hword
    cases word with
    | nil => simp
    | cons first rest => simpa using words_single (List.cons_ne_nil first rest) hword
  induction hlength : text.length using Nat.strongRecOn generalizing text with
  | ind length ih =>
      by_cases hspace : ∃ char ∈ text, space char = true
      · obtain ⟨sep, hmem, hsep⟩ := hspace
        obtain ⟨first, second, rfl⟩ := List.append_of_mem hmem
        rw [List.length_append, List.length_cons] at hlength
        rw [words_append_cons hsep, List.splitOnP_append_cons _ _ hsep, List.filter_append,
          ih first.length (by omega) first rfl, ih second.length (by omega) second rfl]
      · have hnone : ∀ char ∈ text, space char = false := by simpa using hspace
        rw [hword text hnone, List.splitOnP_eq_singleton hnone]

end ClusteredPoller.Library.Words
