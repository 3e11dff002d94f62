import ClusteredPoller.RtgconfValues
import ClusteredPoller.Targets.OldStyle

/-!
# Lines that are longer than the buffer

`rtgconf_create` and `read_old_style_targets` read lines with `fgets`, which
cuts a line that does not fit the buffer into pieces.  Each piece is read as if
it were a line: a comment ends with its piece, and what follows may be taken for
a directive or a row.
-/

namespace ClusteredPoller

open Library.Lines (lines lines_append lines_last lines_cases)
open Library.Outcome (ok_bind)
open Library.Words (words_gap)
open Targets (Fields OldReader Unspecified fieldsOf oldSpeed readOldStyleTargets
  rtgtargetsCreate)

/-! ## Pieces -/

/-- A text with a newline at its end only. -/
def OneLine (line : List Char) : Prop := ∀ front back, line = front ++ '\n' :: back → back = []

section Pieces

variable {size : Nat} (hsize : 1 < size)

theorem oneLine_of_notMem {line : List Char} (hline : '\n' ∉ line) : OneLine line := by
  rintro front back rfl
  exact absurd (by simp) hline

theorem oneLine_newline {line : List Char} (hline : '\n' ∉ line) : OneLine (line ++ ['\n']) := by
  intro front back heq
  rcases List.eq_nil_or_concat back with hback | ⟨init, last, rfl⟩
  · exact hback
  · rw [List.concat_eq_append, ← List.cons_append, ← List.append_assoc] at heq
    obtain ⟨hinit, -⟩ := List.append_inj' heq rfl
    exact absurd (by rw [hinit]; simp) hline

theorem oneLine_drop {line : List Char} (hline : OneLine line) (count : Nat) :
    OneLine (line.drop count) := by
  intro front back heq
  refine hline (line.take count ++ front) back ?_
  rw [List.append_assoc, ← heq, List.take_append_drop]

theorem oneLine_of_mem_lines {text line : List Char} (hline : line ∈ lines '\n' text) :
    OneLine line := by
  induction hlength : text.length using Nat.strongRecOn generalizing text with
  | ind length ih =>
      rcases lines_cases '\n' text with rfl | ⟨hlast, hne⟩ | ⟨first, rest, rfl, hfirst⟩
      · cases hline
      · rw [lines_last hlast hne] at hline
        rw [List.mem_singleton.mp hline]
        exact oneLine_of_notMem hlast
      · rw [lines_append hfirst] at hline
        rcases List.mem_cons.mp hline with rfl | hlater
        · exact oneLine_newline hfirst
        · exact ih rest.length (by simp at hlength; omega) hlater rfl

/-- From a single line the buffer is filled as far as the line reaches. -/
theorem fgets_oneLine {line : List Char} (hline : OneLine line) (hne : line ≠ []) :
    fgets size line = some (line.take (size - 1), line.drop (size - 1)) := by
  have htake := List.take_append_drop (size - 1) line
  unfold fgets
  rw [if_neg hne]
  dsimp only
  split
  · next hnewline =>
      obtain ⟨front, back, hsplit, hfront⟩ := List.eq_append_cons_of_mem hnewline
      rw [hsplit, List.append_assoc, List.cons_append] at htake
      have hback := hline _ _ htake.symm
      obtain ⟨rfl, hdrop⟩ := List.append_eq_nil_iff.mp hback
      have hall : ∀ char ∈ front, decide (char ≠ '\n') = true := fun char hchar =>
        decide_eq_true fun heq => hfront (heq ▸ hchar)
      have hread : (front ++ ['\n']).takeWhile (fun char => decide (char ≠ '\n')) = front := by
        rw [List.takeWhile_append_of_pos hall, List.takeWhile_cons_of_neg (by decide),
          List.append_nil]
      rw [hsplit, hread, hdrop]
      rw [hdrop] at htake
      rw [← htake]
      simp
  · rw [List.length_take]
    refine congrArg some (Prod.ext rfl ?_)
    rcases Nat.le_total (size - 1) line.length with hle | hle
    · rw [Nat.min_eq_left hle]
    · rw [Nat.min_eq_right hle, List.drop_length, List.drop_of_length_le hle]

theorem fgetsAll_oneLine {line : List Char} (hline : OneLine line) (hne : line ≠ []) :
    fgetsAll size hsize line = line.take (size - 1) :: fgetsAll size hsize (line.drop (size - 1)) :=
  fgetsAll_cons hsize (fgets_oneLine hline hne)

theorem ne_nil_of_pieces {line : List Char} {front : List (List Char)} {piece : List Char}
    {back : List (List Char)} (hpieces : fgetsAll size hsize line = front ++ piece :: back) :
    line ≠ [] := by
  rintro rfl
  rw [fgetsAll_nil] at hpieces
  exact List.append_ne_nil_of_right_ne_nil _ (List.cons_ne_nil _ _) hpieces.symm

/-- The pieces of a line are its windows of the size of the buffer. -/
theorem pieces_windows {line : List Char} (hline : OneLine line) {front : List (List Char)}
    {piece : List Char} {back : List (List Char)}
    (hpieces : fgetsAll size hsize line = front ++ piece :: back) :
    front.flatten = line.take (front.length * (size - 1)) ∧
      piece = (line.drop (front.length * (size - 1))).take (size - 1) := by
  have hne := ne_nil_of_pieces hsize hpieces
  induction front generalizing line with
  | nil =>
      rw [fgetsAll_oneLine hsize hline hne] at hpieces
      cases hpieces
      simp
  | cons first front ih =>
      rw [fgetsAll_oneLine hsize hline hne, List.cons_append, List.cons.injEq] at hpieces
      obtain ⟨rfl, hrest⟩ := hpieces
      obtain ⟨hfront, hpiece⟩ :=
        ih (oneLine_drop hline (size - 1)) hrest (ne_nil_of_pieces hsize hrest)
      rw [List.length_cons, Nat.succ_mul, Nat.add_comm]
      constructor
      · rw [List.flatten_cons, hfront, List.take_add]
      · rw [hpiece, List.drop_drop]

theorem piece_at_window {line : List Char} (hline : OneLine line) {count : Nat}
    (hmore : line.drop (count * (size - 1)) ≠ []) :
    ∃ front back, fgetsAll size hsize line =
      front ++ (line.drop (count * (size - 1))).take (size - 1) :: back ∧
        front.flatten = line.take (count * (size - 1)) := by
  have hne : line ≠ [] := by
    rintro rfl
    exact hmore List.drop_nil
  rw [fgetsAll_oneLine hsize hline hne]
  induction count generalizing line with
  | zero =>
      rw [Nat.zero_mul, List.drop_zero, List.take_zero]
      exact ⟨[], _, rfl, rfl⟩
  | succ count ih =>
      rw [Nat.succ_mul, Nat.add_comm] at hmore ⊢
      rw [← List.drop_drop] at hmore ⊢
      have hdrop := oneLine_drop hline (size - 1)
      have hrest : line.drop (size - 1) ≠ [] := by
        intro hnil
        rw [hnil, List.drop_nil] at hmore
        exact hmore rfl
      obtain ⟨front, back, hpieces, hfront⟩ := ih hdrop hmore hrest
      rw [← fgetsAll_oneLine hsize hdrop hrest] at hpieces
      refine ⟨line.take (size - 1) :: front, back, ?_, ?_⟩
      · rw [hpieces, List.cons_append]
      · rw [List.flatten_cons, hfront, List.take_add]

theorem flatten_pieces {line : List Char} (hline : OneLine line) :
    (fgetsAll size hsize line).flatten = line := by
  induction hlength : line.length using Nat.strongRecOn generalizing line with
  | ind length ih =>
      by_cases hne : line = []
      · rw [hne, fgetsAll_nil]
        rfl
      · have hpos : 0 < line.length := List.length_pos_iff.mpr hne
        rw [fgetsAll_oneLine hsize hline hne, List.flatten_cons,
          ih (line.drop (size - 1)).length (by rw [List.length_drop]; omega)
            (oneLine_drop hline _) rfl, List.take_append_drop]

/-- A newline ends a piece, so the text behind it is read on its own. -/
theorem fgetsAll_append {line : List Char} (hline : '\n' ∉ line) (rest : List Char) :
    fgetsAll size hsize (line ++ '\n' :: rest) =
      fgetsAll size hsize (line ++ ['\n']) ++ fgetsAll size hsize rest := by
  induction hlength : line.length using Nat.strongRecOn generalizing line with
  | ind length ih =>
      rcases Nat.lt_or_ge line.length (size - 1) with hfits | hfull
      · rw [fgetsAll_cons hsize (fgets_line hline hfits rest),
          fgetsAll_cons hsize (fgets_line hline hfits []), fgetsAll_nil]
        rfl
      · have hfirst : '\n' ∉ line.take (size - 1) := fun hmem =>
          hline ((List.take_prefix _ _).subset hmem)
        have hsecond : '\n' ∉ line.drop (size - 1) := fun hmem =>
          hline ((List.drop_suffix _ _).subset hmem)
        have hread : ∀ rest, fgetsAll size hsize (line ++ '\n' :: rest) =
            line.take (size - 1) ::
              fgetsAll size hsize (line.drop (size - 1) ++ '\n' :: rest) := by
          intro rest
          have hne : line.take (size - 1) ≠ [] := by
            rw [← List.length_pos_iff, List.length_take]
            omega
          have hcall := @fgets_full size _ hfirst (by rw [List.length_take]; omega) hne
            (line.drop (size - 1) ++ '\n' :: rest)
          rw [← List.append_assoc, List.take_append_drop] at hcall
          exact fgetsAll_cons hsize hcall
        rw [hread rest, hread [], ih (line.drop (size - 1)).length
          (by rw [List.length_drop]; omega) hsecond rfl, List.cons_append]

/-- What is read are the pieces of the lines. -/
theorem fgetsAll_flatMap (text : List Char) :
    fgetsAll size hsize text = (lines '\n' text).flatMap (fgetsAll size hsize) := by
  induction hlength : text.length using Nat.strongRecOn generalizing text with
  | ind length ih =>
      rcases lines_cases '\n' text with rfl | ⟨hlast, hne⟩ | ⟨line, rest, rfl, hline⟩
      · rw [fgetsAll_nil]
        rfl
      · rw [lines_last hlast hne, List.flatMap_singleton]
      · rw [lines_append hline, List.flatMap_cons, fgetsAll_append hsize hline,
          ih rest.length (by simp at hlength; omega) rest rfl]

end Pieces

/-! ## Readers of lines -/

/-- A loop over `fgets`, and what it is told by the text in its buffer: the
words between some separators. -/
structure LineReader (State Told : Type) where
  size : Nat
  large : 1 < size
  separators : List Char
  tell : List Char → Option Told
  turn : State → List Char → Except Fault State

namespace LineReader

variable {State Told : Type} (reader : LineReader State Told)

def pieces (text : List Char) : List (List Char) := fgetsAll reader.size reader.large text

def run (state : State) (text : List Char) : Except Fault State :=
  (reader.pieces text).foldlM reader.turn state

/-- There is a state in which the piece changes something or ends the program. -/
def Contributes (piece : List Char) : Prop := ∃ state, reader.turn state piece ≠ .ok state

/-- Each line contributes once at most, from its beginning, and nothing from
behind a comment mark. -/
structure LineByLine (text : List Char) : Prop where
  runs : ∀ state, reader.run state text = (lines '\n' text).foldlM reader.run state
  once : ∀ line ∈ lines '\n' text, (reader.pieces line).Pairwise fun first second =>
    ¬ (reader.Contributes first ∧ reader.Contributes second)
  atStart : ∀ line ∈ lines '\n' text, ∀ front piece back,
    reader.pieces line = front ++ piece :: back → reader.Contributes piece →
      ∀ char ∈ front.flatten, char ∈ reader.separators
  noComment : ∀ line ∈ lines '\n' text, ∀ front piece back,
    reader.pieces line = front ++ piece :: back → reader.Contributes piece →
      '#' ∉ front.flatten
  asOne : ∀ line ∈ lines '\n' text, ∃ beginning, beginning <+: line ∧ '#' ∉ beginning ∧
    ∀ state, reader.run state line = reader.turn state beginning

/-- And that is what a buffer for the whole line would be told. -/
structure KeepsMeaning (text : List Char) : Prop extends reader.LineByLine text where
  told : ∀ line ∈ lines '\n' text,
    (reader.pieces line).filterMap reader.tell = (reader.tell line).toList
  whole : ∀ line ∈ lines '\n' text, ∀ state, reader.run state line = reader.turn state line

/-- What is in front of the buffer, and in it, after it was full so many times. -/
def skipped (line : List Char) (count : Nat) : List Char := line.take (count * (reader.size - 1))

def window (line : List Char) (count : Nat) : List Char :=
  (line.drop (count * (reader.size - 1))).take (reader.size - 1)

def Blank (text : List Char) : Prop := ∀ char ∈ text, char ∈ reader.separators

/-- The reader is told nothing behind the first words of a line. -/
def Quiet (line : List Char) : Prop :=
  ∀ count, ¬ reader.Blank (reader.skipped line count) →
    reader.tell (reader.window line count) = none

/-- The buffer that has the first words in it tells what the line tells. -/
def Uncut (line : List Char) : Prop :=
  ∀ count, reader.Blank (reader.skipped line count) → ¬ reader.Blank (reader.window line count) →
    reader.tell (reader.window line count) = reader.tell line

/-- A turn depends on what the reader is told, and does something if it is told
something; separators in front of it do not matter, and neither does a comment. -/
structure Listens : Prop where
  turn_congr : ∀ first second, reader.tell first = reader.tell second →
    ∀ state, reader.turn state first = reader.turn state second
  contributes_iff : ∀ piece, reader.Contributes piece ↔ reader.tell piece ≠ none
  empty : reader.tell [] = none
  gap : ∀ gap piece, reader.Blank gap → reader.tell (gap ++ piece) = reader.tell piece
  cut : ∀ piece, reader.tell (piece.takeWhile (· ≠ '#')) = reader.tell piece
  mark : '#' ∉ reader.separators

variable {reader} {line : List Char} {front : List (List Char)} {piece : List Char}
  {back : List (List Char)}

instance (text : List Char) : Decidable (reader.Blank text) := by
  unfold Blank
  infer_instance

theorem run_lines (state : State) (text : List Char) :
    reader.run state text = (lines '\n' text).foldlM reader.run state := by
  rw [run, pieces, fgetsAll_flatMap]
  induction lines '\n' text generalizing state with
  | nil => rfl
  | cons line later ih =>
      rw [List.flatMap_cons, List.foldlM_append, List.foldlM_cons]
      refine congrArg (reader.run state line >>= ·) ?_
      funext next
      exact ih next

/-- Each window that is not empty is a piece. -/
theorem piece_of_window (hline : OneLine line) {count : Nat}
    (hne : reader.window line count ≠ []) :
    ∃ front back, reader.pieces line = front ++ reader.window line count :: back ∧
      front.flatten = reader.skipped line count := by
  refine piece_at_window reader.large hline fun hnil => hne ?_
  rw [window, hnil, List.take_nil]

theorem window_of_piece (hline : OneLine line)
    (hpieces : reader.pieces line = front ++ piece :: back) :
    front.flatten = reader.skipped line front.length ∧ piece = reader.window line front.length :=
  pieces_windows reader.large hline hpieces

theorem blank_flatten {pieces : List (List Char)} :
    reader.Blank pieces.flatten ↔ ∀ piece ∈ pieces, reader.Blank piece := by
  constructor
  · exact fun hblank piece hpiece char hchar =>
      hblank char (List.mem_flatten_of_mem hpiece hchar)
  · intro hblank char hchar
    obtain ⟨piece, hpiece, hmem⟩ := List.mem_flatten.mp hchar
    exact hblank piece hpiece char hmem

/-- A line is blank, or one of its pieces is the first that is not. -/
theorem blank_or_first (hline : OneLine line) :
    reader.Blank line ∨ ∃ front piece back, reader.pieces line = front ++ piece :: back ∧
      reader.Blank front.flatten ∧ ¬ reader.Blank piece := by
  cases hfind : (reader.pieces line).find? fun piece => !decide (reader.Blank piece) with
  | none =>
      left
      rw [← flatten_pieces reader.large hline]
      refine blank_flatten.mpr fun piece hpiece => ?_
      simpa using List.find?_eq_none.mp hfind piece hpiece
  | some piece =>
      right
      obtain ⟨hword, front, back, hpieces, hfront⟩ := List.find?_eq_some_iff_append.mp hfind
      refine ⟨front, piece, back, hpieces, blank_flatten.mpr fun other hother => ?_, ?_⟩
      · simpa using hfront other hother
      · simpa using hword

/-- On a quiet line only separators stand in front of what is told. -/
theorem Quiet.before (quiet : reader.Quiet line) (hline : OneLine line)
    (hpieces : reader.pieces line = front ++ piece :: back) (htell : reader.tell piece ≠ none) :
    reader.Blank front.flatten := by
  obtain ⟨hfront, hwindow⟩ := window_of_piece hline hpieces
  apply Classical.byContradiction
  intro hother
  rw [hfront] at hother
  rw [hwindow] at htell
  exact htell (quiet front.length hother)

/-- Nothing is told behind the first piece that is not blank. -/
theorem Quiet.behind (quiet : reader.Quiet line) (hline : OneLine line)
    (hpieces : reader.pieces line = front ++ piece :: back) (hword : ¬ reader.Blank piece) :
    ∀ other ∈ back, reader.tell other = none := by
  intro other hother
  apply Classical.byContradiction
  intro htell
  obtain ⟨between, behind, rfl⟩ := List.append_of_mem hother
  rw [← List.cons_append, ← List.append_assoc] at hpieces
  have hblank := quiet.before hline hpieces htell
  exact hword (blank_flatten.mp hblank piece (List.mem_append_right _ List.mem_cons_self))

namespace Listens

theorem tell_blank (listens : reader.Listens) {gap : List Char} (hblank : reader.Blank gap) :
    reader.tell gap = none := by
  have hgap := listens.gap gap [] hblank
  rwa [List.append_nil, listens.empty] at hgap

theorem tell_blanks (listens : reader.Listens) (hblank : reader.Blank front.flatten) :
    ∀ other ∈ front, reader.tell other = none := fun other hother =>
  listens.tell_blank (blank_flatten.mp hblank other hother)

/-- A turn that is told nothing does nothing. -/
theorem turn_idle (listens : reader.Listens) (hpiece : reader.tell piece = none) (state : State) :
    reader.turn state piece = .ok state := by
  have hnothing : ¬ reader.Contributes piece := fun hcontributes =>
    (listens.contributes_iff piece).mp hcontributes hpiece
  exact Classical.not_not.mp (not_exists.mp hnothing state)

theorem foldlM_idle (listens : reader.Listens) {pieces : List (List Char)}
    (hidle : ∀ piece ∈ pieces, reader.tell piece = none) (state : State) :
    pieces.foldlM reader.turn state = .ok state := by
  induction pieces with
  | nil => rfl
  | cons piece later ih =>
      obtain ⟨hpiece, hlater⟩ := List.forall_mem_cons.mp hidle
      rw [List.foldlM_cons, listens.turn_idle hpiece, ok_bind, ih hlater]

/-- A blank line tells nothing, in one piece or in several. -/
theorem blank_line (listens : reader.Listens) (hline : OneLine line) (hblank : reader.Blank line) :
    ∀ piece ∈ reader.pieces line, reader.tell piece = none := by
  refine listens.tell_blanks ?_
  rw [pieces, flatten_pieces reader.large hline]
  exact hblank

/-- On a quiet line the other pieces do not matter. -/
theorem run_piece (listens : reader.Listens) (hline : OneLine line) (quiet : reader.Quiet line)
    (hpieces : reader.pieces line = front ++ piece :: back) (hblank : reader.Blank front.flatten)
    (hword : ¬ reader.Blank piece) :
    (reader.pieces line).filterMap reader.tell = (reader.tell piece).toList ∧
      ∀ state, reader.run state line = reader.turn state piece := by
  have hfront := listens.tell_blanks hblank
  have hback := quiet.behind hline hpieces hword
  constructor
  · rw [hpieces, List.filterMap_append, List.filterMap_cons,
      List.filterMap_eq_nil_iff.mpr hfront, List.filterMap_eq_nil_iff.mpr hback]
    cases reader.tell piece <;> rfl
  · intro state
    rw [run, hpieces, List.foldlM_append, listens.foldlM_idle hfront, ok_bind, List.foldlM_cons]
    cases reader.turn state piece with
    | error fault => rfl
    | ok next => exact listens.foldlM_idle hback next

/-- If besides the first words are not cut, it is as if the line were one piece. -/
theorem whole_line (listens : reader.Listens) (hline : OneLine line) (quiet : reader.Quiet line)
    (uncut : reader.Uncut line) :
    (reader.pieces line).filterMap reader.tell = (reader.tell line).toList ∧
      ∀ state, reader.run state line = reader.turn state line := by
  rcases @blank_or_first _ _ reader _ hline with
    hblank | ⟨front, piece, back, hpieces, hfront, hword⟩
  · have hidle := listens.blank_line hline hblank
    have hnone := listens.tell_blank hblank
    refine ⟨?_, fun state => ?_⟩
    · rw [List.filterMap_eq_nil_iff.mpr hidle, hnone]
      rfl
    · rw [run, listens.foldlM_idle hidle, listens.turn_idle hnone]
  · obtain ⟨hskipped, hwindow⟩ := window_of_piece hline hpieces
    have htell : reader.tell piece = reader.tell line := by
      rw [hskipped] at hfront
      rw [hwindow] at hword ⊢
      exact uncut _ hfront hword
    obtain ⟨htold, hrun⟩ := listens.run_piece hline quiet hpieces hfront hword
    refine ⟨by rw [htold, htell], fun state => ?_⟩
    rw [hrun, listens.turn_congr _ _ htell]

/-- One beginning of a quiet line does all that its pieces do. -/
theorem asOne (listens : reader.Listens) (hline : OneLine line) (quiet : reader.Quiet line) :
    ∃ beginning, beginning <+: line ∧ '#' ∉ beginning ∧
      ∀ state, reader.run state line = reader.turn state beginning := by
  rcases @blank_or_first _ _ reader _ hline with
    hblank | ⟨front, piece, back, hpieces, hfront, hword⟩
  · refine ⟨[], List.nil_prefix, List.not_mem_nil, fun state => ?_⟩
    rw [run, listens.foldlM_idle (listens.blank_line hline hblank),
      listens.turn_idle listens.empty]
  · have hflat : (reader.pieces line).flatten = line := flatten_pieces reader.large hline
    rw [hpieces, List.flatten_append, List.flatten_cons, ← List.append_assoc] at hflat
    refine ⟨(front.flatten ++ piece).takeWhile (· ≠ '#'), ?_, ?_, fun state => ?_⟩
    · exact (List.takeWhile_prefix _).trans ⟨back.flatten, hflat⟩
    · intro hmark
      simpa using List.mem_takeWhile_imp hmark
    · rw [(listens.run_piece hline quiet hpieces hfront hword).2]
      refine listens.turn_congr _ _ ?_ state
      rw [listens.cut, listens.gap _ _ hfront]

end Listens

/-- A file is read line by line exactly if all of its lines are quiet. -/
theorem lineByLine_iff (listens : reader.Listens) (text : List Char) :
    reader.LineByLine text ↔ ∀ line ∈ lines '\n' text, reader.Quiet line := by
  constructor
  · intro lineByLine line hline count hword
    apply Classical.byContradiction
    intro htell
    have hne : reader.window line count ≠ [] := fun hnil => htell (hnil ▸ listens.empty)
    obtain ⟨front, back, hpieces, hfront⟩ :=
      piece_of_window (oneLine_of_mem_lines hline) hne
    have hpiece := (listens.contributes_iff _).mpr htell
    rw [← hfront] at hword
    exact hword (lineByLine.atStart line hline front _ back hpieces hpiece)
  · intro quiet
    have hatStart : ∀ line ∈ lines '\n' text, ∀ front piece back,
        reader.pieces line = front ++ piece :: back → reader.Contributes piece →
          reader.Blank front.flatten :=
      fun line hline front piece back hpieces hpiece =>
        (quiet line hline).before (oneLine_of_mem_lines hline) hpieces
          ((listens.contributes_iff piece).mp hpiece)
    refine ⟨fun state => run_lines state text, fun line hline => ?_, hatStart, ?_,
      fun line hline => listens.asOne (oneLine_of_mem_lines hline) (quiet line hline)⟩
    · rw [List.pairwise_iff_getElem]
      rintro i j hi hj hlt ⟨hfirst, hsecond⟩
      have hpieces : reader.pieces line = (reader.pieces line).take j ++
          (reader.pieces line)[j] :: (reader.pieces line).drop (j + 1) := by
        rw [← List.drop_eq_getElem_cons hj, List.take_append_drop]
      have hblank := hatStart line hline _ _ _ hpieces hsecond
      refine (listens.contributes_iff _).mp hfirst (listens.tell_blanks hblank _ ?_)
      exact List.mem_take_iff_getElem.mpr ⟨i, by omega, rfl⟩
    · intro line hline front piece back hpieces hpiece hmark
      exact listens.mark (hatStart line hline front piece back hpieces hpiece '#' hmark)

/-- And its lines keep their meaning if, besides, the first words are not cut. -/
theorem keepsMeaning_iff (listens : reader.Listens) (text : List Char) :
    reader.KeepsMeaning text ↔
      ∀ line ∈ lines '\n' text, reader.Quiet line ∧ reader.Uncut line := by
  constructor
  · intro keeps line hline
    have hone := oneLine_of_mem_lines hline
    have quiet := (lineByLine_iff listens text).mp keeps.toLineByLine line hline
    refine ⟨quiet, fun count hblank hword => ?_⟩
    have hne : reader.window line count ≠ [] := by
      intro hnil
      rw [hnil] at hword
      exact hword (List.forall_mem_nil _)
    obtain ⟨front, back, hpieces, hfront⟩ := piece_of_window hone hne
    rw [← hfront] at hblank
    have htold := (listens.run_piece hone quiet hpieces hblank hword).1
    rw [keeps.told line hline] at htold
    exact Option.ext fun told => by rw [← Option.mem_toList, ← htold, Option.mem_toList]
  · intro hlines
    have hwhole := fun line hline =>
      listens.whole_line (oneLine_of_mem_lines hline) (hlines line hline).1 (hlines line hline).2
    exact ⟨(lineByLine_iff listens text).mpr fun line hline => (hlines line hline).1,
      fun line hline => (hwhole line hline).1, fun line hline => (hwhole line hline).2⟩

/-- A line that fits the buffer is quiet and not cut. -/
theorem quiet_uncut_of_fits (listens : reader.Listens) (hfits : line.length < reader.size) :
    reader.Quiet line ∧ reader.Uncut line := by
  have hlarge := reader.large
  have hwindow : ∀ count, reader.window line (count + 1) = [] := by
    intro count
    have hend : line.length ≤ (count + 1) * (reader.size - 1) := by
      rw [Nat.succ_mul]
      omega
    rw [window, List.drop_of_length_le hend, List.take_nil]
  constructor
  · rintro (_ | count) hword
    · rw [skipped, Nat.zero_mul, List.take_zero] at hword
      exact absurd (List.forall_mem_nil _) hword
    · rw [hwindow, listens.empty]
  · rintro (_ | count) - hword
    · rw [window, Nat.zero_mul, List.drop_zero, List.take_of_length_le (by omega)]
    · rw [hwindow] at hword
      exact absurd (List.forall_mem_nil _) hword

theorem keepsMeaning_of_fits (listens : reader.Listens) {text : List Char}
    (hfits : ∀ line ∈ lines '\n' text, line.length < reader.size) : reader.KeepsMeaning text :=
  (keepsMeaning_iff listens text).mpr fun line hline =>
    quiet_uncut_of_fits listens (hfits line hline)

/-- Then the size of the buffer does not matter. -/
theorem KeepsMeaning.run_turns {text : List Char} (keeps : reader.KeepsMeaning text)
    (state : State) :
    reader.run state text = (lines '\n' text).foldlM reader.turn state := by
  rw [keeps.runs, List.foldlM_eq_foldl, List.foldlM_eq_foldl]
  refine List.foldl_ext _ _ _ fun outcome line hline => ?_
  refine congrArg (outcome >>= ·) ?_
  funext next
  exact keeps.whole line hline next

end LineReader

/-! ## What is shown of a piece -/

section Shown

variable {separators gap : List Char}

theorem strtok_gap (hnul : '\x00' ∉ separators) (hmark : '#' ∉ separators)
    (hgap : ∀ char ∈ gap, char ∈ separators) (piece : List Char) :
    strtok separators ((CString.ofMemory (gap ++ piece)).endAt '#') =
      strtok separators ((CString.ofMemory piece).endAt '#') := by
  have hshown : ((CString.ofMemory (gap ++ piece)).endAt '#').chars =
      gap ++ ((CString.ofMemory piece).endAt '#').chars := by
    have hbytes : ∀ char ∈ gap, decide (char ≠ '\x00') = true := fun char hchar =>
      decide_eq_true fun heq => hnul (heq ▸ hgap char hchar)
    have hmarks : ∀ char ∈ gap, decide (char ≠ '#') = true := fun char hchar =>
      decide_eq_true fun heq => hmark (heq ▸ hgap char hchar)
    simp only [CString.endAt, CString.ofMemory]
    rw [List.takeWhile_append_of_pos hbytes, List.takeWhile_append_of_pos hmarks]
  rw [strtok, strtok, hshown, words_gap (fun char hchar => by simpa using hgap char hchar)]

theorem endAt_cut (piece : List Char) :
    (CString.ofMemory (piece.takeWhile (· ≠ '#'))).endAt '#' =
      (CString.ofMemory piece).endAt '#' := by
  refine CString.ext ?_
  simp only [CString.endAt, CString.ofMemory, List.takeWhile_takeWhile]
  congr 1
  funext char
  by_cases hmark : char = '#' <;> simp [hmark]

end Shown

/-! ## The two readers -/

/-- The directive of a line, if it is a known one. -/
def toldDirective (line : List Char) : Option (CString × Option CString) :=
  (lineDirective line).filter fun directive => directive.1 ∈ directiveTokens

/-- The loop of `rtgconf_create`. -/
def rtgconfReader : LineReader Rtgconf (CString × Option CString) where
  size := 512
  large := Nat.one_lt_succ_succ 510
  separators := [' ', '\t', '\n']
  tell := toldDirective
  turn := Rtgconf.readLine

/-- The loop of `read_old_style_targets`. -/
def oldStyleReader (unspecified : Unspecified) (conf : Rtgconf) : LineReader OldReader Fields where
  size := 256
  large := Nat.one_lt_succ_succ 254
  separators := ['\t']
  tell := fieldsOf
  turn := OldReader.readLine unspecified conf

theorem readLine_told (conf : Rtgconf) (line : List Char) :
    conf.readLine line = match toldDirective line with
      | none => .ok conf
      | some (token, value) => conf.setDirective token value := by
  rw [Rtgconf.readLine, toldDirective]
  cases lineDirective line with
  | none => rfl
  | some directive =>
      rw [Option.filter_some]
      by_cases hknown : directive.1 ∈ directiveTokens
      · rw [if_pos (decide_eq_true hknown)]
      · rw [if_neg (by simpa using hknown)]
        exact setDirective_unknown hknown conf directive.2

/-- Every known directive changes some configuration, or ends the program. -/
theorem setDirective_known {token : CString} (hknown : token ∈ directiveTokens)
    (value : Option CString) : ∃ conf : Rtgconf, conf.setDirective token value ≠ .ok conf := by
  cases value with
  | none =>
      refine ⟨defaultRtgconf, ?_⟩
      rw [setDirective_missing, if_pos hknown]
      exact fun himpossible => by cases himpossible
  | some text =>
      obtain ⟨other, hother⟩ : ∃ other, atoiUnsigned text ≠ other :=
        ⟨atoiUnsigned text + 1, by simp⟩
      simp only [directiveTokens, List.map_cons, List.map_nil, List.mem_cons, List.not_mem_nil,
        or_false] at hknown
      rcases hknown with rfl | rfl | rfl | rfl | rfl | rfl
      · refine ⟨{ defaultRtgconf with interval := other }, fun heq => hother ?_⟩
        exact congrArg Rtgconf.interval (Except.ok.inj heq)
      · refine ⟨defaultRtgconf, fun heq => ?_⟩
        cases congrArg Rtgconf.dbhost (Except.ok.inj heq)
      · refine ⟨defaultRtgconf, fun heq => ?_⟩
        cases congrArg Rtgconf.database (Except.ok.inj heq)
      · refine ⟨defaultRtgconf, fun heq => ?_⟩
        cases congrArg Rtgconf.dbuser (Except.ok.inj heq)
      · refine ⟨defaultRtgconf, fun heq => ?_⟩
        cases congrArg Rtgconf.dbpass (Except.ok.inj heq)
      · refine ⟨{ defaultRtgconf with threads := other }, fun heq => hother ?_⟩
        exact congrArg Rtgconf.threads (Except.ok.inj heq)

theorem toldDirective_congr {first second : List Char}
    (hwords : lineWords first = lineWords second) : toldDirective first = toldDirective second := by
  rw [toldDirective, toldDirective, lineDirective, lineDirective, hwords]

theorem rtgconfReader_listens : rtgconfReader.Listens where
  turn_congr first second htell conf := by
    change toldDirective first = toldDirective second at htell
    change conf.readLine first = conf.readLine second
    rw [readLine_told, readLine_told, htell]
  contributes_iff piece := by
    constructor
    · rintro ⟨conf, hturn⟩ htell
      change toldDirective piece = none at htell
      change conf.readLine piece ≠ .ok conf at hturn
      rw [readLine_told, htell] at hturn
      exact hturn rfl
    · intro htell
      obtain ⟨⟨token, value⟩, htold⟩ := Option.ne_none_iff_exists'.mp htell
      change toldDirective piece = some (token, value) at htold
      obtain ⟨-, hknown⟩ := Option.filter_eq_some_iff.mp htold
      obtain ⟨conf, hconf⟩ := setDirective_known (of_decide_eq_true hknown) value
      refine ⟨conf, ?_⟩
      change conf.readLine piece ≠ .ok conf
      rw [readLine_told, htold]
      exact hconf
  empty := by decide +kernel
  gap _ piece hgap :=
    toldDirective_congr (strtok_gap (by decide) (by decide) hgap piece)
  cut piece := toldDirective_congr (congrArg (strtok _) (endAt_cut piece))
  mark := by decide

/-- Every record makes a row, or ends the program. -/
theorem readLine_record {piece : List Char} {fields : Fields}
    (hfields : fieldsOf piece = some fields) (unspecified : Unspecified) (conf : Rtgconf) :
    OldReader.readLine unspecified conf { targets := rtgtargetsCreate, currentHost := none } piece ≠
      .ok { targets := rtgtargetsCreate, currentHost := none } := by
  rw [OldReader.readLine, hfields]
  cases hspeed : oldSpeed unspecified conf with
  | error fault => exact fun himpossible => by cases himpossible
  | ok speed => exact fun himpossible => by cases himpossible

theorem fieldsOf_congr {first second : List Char}
    (htokens : strtok ['\t'] (Targets.strunc (CString.ofMemory first)) =
      strtok ['\t'] (Targets.strunc (CString.ofMemory second))) :
    fieldsOf first = fieldsOf second := by
  rw [fieldsOf, fieldsOf, htokens]

theorem oldStyleReader_listens (unspecified : Unspecified) (conf : Rtgconf) :
    (oldStyleReader unspecified conf).Listens where
  turn_congr first second htell reader := by
    change fieldsOf first = fieldsOf second at htell
    change reader.readLine _ _ first = reader.readLine _ _ second
    rw [OldReader.readLine, OldReader.readLine, htell]
  contributes_iff piece := by
    constructor
    · rintro ⟨reader, hturn⟩ htell
      change fieldsOf piece = none at htell
      change reader.readLine _ _ _ ≠ _ at hturn
      rw [OldReader.readLine, htell] at hturn
      exact hturn rfl
    · intro htell
      obtain ⟨fields, hfields⟩ := Option.ne_none_iff_exists'.mp htell
      exact ⟨_, readLine_record hfields unspecified conf⟩
  empty := by
    change fieldsOf [] = none
    decide +kernel
  gap gap piece hgap := by
    change ∀ char ∈ gap, char ∈ ['\t'] at hgap
    exact fieldsOf_congr (strtok_gap (by decide) (by decide) hgap piece)
  cut piece := fieldsOf_congr (congrArg (strtok _) (endAt_cut piece))
  mark := by
    change '#' ∉ ['\t']
    decide

/-- The lines of a file contribute once at most, from their beginning, exactly
if no piece behind the first words of a line has a directive or a record at its
start; and they are what they would be in a buffer that holds them exactly if,
besides, the piece with the first words has the same directive or record as the
line. -/
theorem long_lines_iff (text : List Char) :
    ((∀ memory, rtgconfCreate memory (some text) =
        rtgconfReader.run (rtgconfDefaults memory) text >>= fun conf => .ok (some conf)) ∧
      (rtgconfReader.LineByLine text ↔ ∀ line ∈ lines '\n' text, rtgconfReader.Quiet line) ∧
      (rtgconfReader.KeepsMeaning text ↔
        ∀ line ∈ lines '\n' text, rtgconfReader.Quiet line ∧ rtgconfReader.Uncut line)) ∧
    ∀ unspecified conf,
      (readOldStyleTargets unspecified (some text) conf =
        (oldStyleReader unspecified conf).run
          { targets := rtgtargetsCreate, currentHost := none } text >>=
            fun reader => .ok reader.targets) ∧
      ((oldStyleReader unspecified conf).LineByLine text ↔
        ∀ line ∈ lines '\n' text, (oldStyleReader unspecified conf).Quiet line) ∧
      ((oldStyleReader unspecified conf).KeepsMeaning text ↔
        ∀ line ∈ lines '\n' text, (oldStyleReader unspecified conf).Quiet line ∧
          (oldStyleReader unspecified conf).Uncut line) := by
  refine ⟨⟨fun _ => rfl, ?_, ?_⟩, fun unspecified conf => ⟨rfl, ?_, ?_⟩⟩
  · exact LineReader.lineByLine_iff rtgconfReader_listens text
  · exact LineReader.keepsMeaning_iff rtgconfReader_listens text
  · exact LineReader.lineByLine_iff (oldStyleReader_listens unspecified conf) text
  · exact LineReader.keepsMeaning_iff (oldStyleReader_listens unspecified conf) text

/-- A comment of one line that is longer than the buffer, and ends like a directive. -/
def longComment : List Char :=
  '#' :: (List.replicate 510 'x' ++ "interval 60\n".toList)

/-- And one that ends like a record. -/
def longRecord : List Char :=
  '#' :: (List.replicate 254 'x' ++ "a\t.1\t64\tpublic\tt\t1\n".toList)

theorem comment_contributes :
    (¬ rtgconfReader.LineByLine longComment ∧
      rtgconfCreate defaultRtgconf (some longComment) =
        .ok (some { rtgconfDefaults defaultRtgconf with interval := 60 })) ∧
    ¬ (oldStyleReader ⟨0, fun _ => 0⟩ defaultRtgconf).LineByLine longRecord ∧
      (readOldStyleTargets ⟨0, fun _ => 0⟩ (some longRecord) defaultRtgconf).map
        Targets.Rtgtargets.ntargets = .ok 1 := by
  refine ⟨⟨fun lineByLine => ?_, by decide +kernel⟩, fun lineByLine => ?_, by decide +kernel⟩
  · have hquiet := (LineReader.lineByLine_iff rtgconfReader_listens longComment).mp lineByLine
    have hline := hquiet longComment (by decide +kernel) 1 (by decide +kernel)
    exact absurd hline (by decide +kernel)
  · have hquiet := (LineReader.lineByLine_iff
      (oldStyleReader_listens ⟨0, fun _ => 0⟩ defaultRtgconf) longRecord).mp lineByLine
    have hline := hquiet longRecord (by decide +kernel) 1 (by decide +kernel)
    exact absurd hline (by decide +kernel)

end ClusteredPoller
