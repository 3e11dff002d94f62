import ClusteredPoller.Lookahead
import ClusteredPoller.Targets.Hosts
import ClusteredPoller.Targets.NewStyleText

/-!
# Telling the two formats apart

`rtgtargets_parse` runs the new-style reader over every file and takes the file
for a new-style one if a host comes out.  That happens exactly if the word
`host` stands somewhere in front of a comment.
-/

namespace ClusteredPoller.Targets

open Poller
open Library.Format (Ends ends_cons)
open Library.Outcome (ok_bind)
open Library.Words (words words_gap words_word words_of_spaces split_cases)

/-! ## Old-style lines -/

/-- A blank line, a comment, or at least six fields between tabs. -/
def IsOldLine (line : List Char) : Prop :=
  (∀ char ∈ line, isspace char = true) ∨ line.head? = some '#' ∨
    6 ≤ (words (fun char => decide (char = '\t')) line).length

instance (line : List Char) : Decidable (IsOldLine line) := by
  unfold IsOldLine
  infer_instance

structure OldLine where
  chars : List Char
  oldStyle : IsOldLine chars
  oneLine : '\n' ∉ chars
  short : chars.length < 256

/-- The text of some lines, with newlines between them. -/
def linesText : List OldLine → List Char
  | [] => []
  | [line] => line.chars
  | line :: lines => line.chars ++ '\n' :: linesText lines

/-- A word as `read_new_style_targets` compares it. -/
def cleanWord (word : List Char) : CString := strclean (strtolower (CString.ofMemory word))

/-- `host` is among the words up to the first one that starts a comment. -/
def namesHost (line : List Char) : Bool :=
  (((words isspace line).map cleanWord).takeWhile fun word => !isComment word).contains Keyword.host

/-! ## What the new-style reader finds -/

section Reader

variable {unspecified : Unspecified}

theorem hostBlocks_congr {first second : List Char} (hscan : scanTop first = scanTop second) :
    hostBlocks unspecified first = hostBlocks unspecified second := by
  cases hsecond : scanTop second with
  | none => rw [hostBlocks_end hsecond, hostBlocks_end (hscan.trans hsecond)]
  | some read =>
      obtain ⟨name, rest⟩ := read
      cases name with
      | none => rw [hostBlocks_other hsecond, hostBlocks_other (hscan.trans hsecond)]
      | some name => rw [hostBlocks_host hsecond, hostBlocks_host (hscan.trans hsecond)]

theorem hostBlocks_gap {gap : List Char} (hgap : ∀ char ∈ gap, isspace char = true)
    (rest : List Char) : hostBlocks unspecified (gap ++ rest) = hostBlocks unspecified rest :=
  hostBlocks_congr (by simp only [scanTop, scanWord, scanString_gap hgap])

/-- The end of a line, or of the file. -/
def LineEnd (rest : List Char) : Prop := rest = [] ∨ ∃ more, rest = '\n' :: more

theorem LineEnd.ends {rest : List Char} (hrest : LineEnd rest) :
    Ends (fun char => !isspace char) rest := by
  rcases hrest with rfl | ⟨more, rfl⟩
  · exact fun _ _ himpossible => by cases himpossible
  · exact ends_cons (by decide) more

theorem LineEnd.newline {rest : List Char} (hrest : LineEnd rest) :
    Ends (fun char => decide (char ≠ '\n')) rest := by
  rcases hrest with rfl | ⟨more, rfl⟩
  · exact fun _ _ himpossible => by cases himpossible
  · exact ends_cons (by decide) more

/-- A line gives no host exactly if it does not name one. -/
theorem hostBlocks_line {line rest : List Char} (hline : '\n' ∉ line)
    (hshort : line.length ≤ 512) (hrest : LineEnd rest) :
    hostBlocks unspecified (line ++ rest) = [] ↔
      namesHost line = false ∧ hostBlocks unspecified rest = [] := by
  induction hlength : line.length using Nat.strongRecOn generalizing line with
  | ind length ih =>
      rcases split_cases isspace line with
        hspaces | ⟨gap, word, after, rfl, hgap, hne, hword, hends⟩
      · rw [hostBlocks_gap hspaces, namesHost, words_of_spaces hspaces]
        simp
      · simp only [List.mem_append, not_or] at hline
        simp only [List.length_append] at hshort hlength
        have hafter : Ends (fun char => !isspace char) (after ++ rest) := by
          cases after with
          | nil => exact hrest.ends
          | cons char tail => exact ends_cons (hends char tail rfl) _
        have hpos : 0 < word.length := List.length_pos_iff.mpr hne
        have hscan : scanTop (word ++ (after ++ rest)) =
            some (topTurn (cleanWord word) (after ++ rest)) := by
          rw [scanTop, scanWord_word hne hword (by omega) hafter]
          rfl
        rw [List.append_assoc, List.append_assoc, hostBlocks_gap hgap, namesHost, words_gap hgap,
          words_word hne hword hends, List.map_cons]
        by_cases hcomment : isComment (cleanWord word) = true
        · have hturn : scanTop (word ++ (after ++ rest)) = some (none, rest) := by
            rw [hscan, topTurn, if_pos hcomment, skipLine_line hline.2.2 hrest.newline]
          rw [hostBlocks_other hturn, List.takeWhile_cons_of_neg (by simp [hcomment])]
          simp
        · rw [List.takeWhile_cons_of_pos (by simpa using hcomment), List.contains_cons]
          by_cases hhost : cleanWord word = Keyword.host
          · have hturn : scanTop (word ++ (after ++ rest)) =
                some (some (scanName (cleanWord word) (after ++ rest)).1,
                  (scanName (cleanWord word) (after ++ rest)).2) := by
              rw [hscan, topTurn, if_neg hcomment, if_pos hhost]
            simp [hostBlocks_host hturn, hhost]
          · have hturn : scanTop (word ++ (after ++ rest)) = some (none, after ++ rest) := by
              rw [hscan, topTurn, if_neg hcomment, if_neg hhost]
            have hother : (Keyword.host == cleanWord word) = false := by
              simpa using Ne.symm hhost
            rw [hostBlocks_other hturn, ih after.length (by omega) hline.2.2 (by omega) rfl, hother,
              Bool.false_or, namesHost]

/-- A file of old-style lines gives no host exactly if no line names one. -/
theorem hostBlocks_lines (lines : List OldLine) :
    hostBlocks unspecified (linesText lines) = [] ↔
      ∀ line ∈ lines, namesHost line.chars = false := by
  have hnothing : hostBlocks unspecified [] = [] := hostBlocks_end rfl
  induction lines with
  | nil => simp [linesText, hnothing]
  | cons line lines ih =>
      have hshort : line.chars.length ≤ 512 := Nat.le_trans (Nat.le_of_lt line.short) (by decide)
      cases lines with
      | nil =>
          have hline := @hostBlocks_line unspecified _ [] line.oneLine hshort (Or.inl rfl)
          simpa [linesText, hnothing] using hline
      | cons next lines =>
          have hline := @hostBlocks_line unspecified _ ('\n' :: linesText (next :: lines))
            line.oneLine hshort (Or.inr ⟨_, rfl⟩)
          have hnewline : hostBlocks unspecified ('\n' :: linesText (next :: lines)) =
              hostBlocks unspecified (linesText (next :: lines)) :=
            @hostBlocks_gap unspecified ['\n'] (by decide) _
          rw [linesText, hline, hnewline, List.forall_mem_cons]
          · exact and_congr Iff.rfl ih
          · simp

end Reader

/-- Files of old-style lines are read as such, and not taken for new-style
files, exactly if no line names a host. -/
theorem oldStyle_detected_iff (unspecified : Unspecified) (lines : List OldLine) :
    (∀ conf, rtgtargetsParse unspecified (some (linesText lines)) conf =
        readOldStyleTargets unspecified (some (linesText lines)) conf ∧
      ∃ targets, readNewStyleTargets unspecified (some (linesText lines)) conf = .ok targets ∧
        targets.hosts = []) ↔
      ∀ line ∈ lines, namesHost line.chars = false := by
  rw [← @hostBlocks_lines unspecified]
  constructor
  · intro hdetected
    obtain ⟨-, targets, hread, hempty⟩ := hdetected defaultRtgconf
    rw [readNewStyleTargets_eq] at hread
    obtain ⟨hosts, hhosts, hall⟩ := evalBlocks_ok hread
    rw [hempty] at hhosts
    have hlength := hall.length_eq
    simp only [rtgtargetsCreate, List.nil_append] at hhosts
    rwa [← hhosts, List.length_nil, List.length_eq_zero_iff] at hlength
  · intro hblocks conf
    have hread : readNewStyleTargets unspecified (some (linesText lines)) conf =
        .ok rtgtargetsCreate := by
      rw [readNewStyleTargets_eq, hblocks]
      rfl
    refine ⟨?_, rtgtargetsCreate, hread, rfl⟩
    rw [rtgtargetsParse, hread, ok_bind]
    rfl

/-! ## A description that names a host -/

/-- The third word of the description is `host`. -/
def uplinkLine : OldLine where
  chars := "core\t1.8\t32\tpublic\tifOutOctets\t4\tuplink of host floor".toList
  oldStyle := by decide +kernel
  oneLine := by decide +kernel
  short := by decide +kernel

/-- The file is read as a new-style one, with a host of the word behind it. -/
theorem description_taken_for_host :
    (readOldStyleTargets ⟨0, fun _ => 0⟩ (some (linesText [uplinkLine])) defaultRtgconf).map
        (fun targets => (targets.hosts.length, targets.ntargets)) = .ok (1, 1) ∧
      rtgtargetsParse ⟨0, fun _ => 0⟩ (some (linesText [uplinkLine])) defaultRtgconf =
        .ok { hosts := [{ queryhostCreate with host := some (CString.ofString "floor") }]
              ntargets := 0 } ∧
      rtgtargetsParse ⟨0, fun _ => 0⟩ (some (linesText [uplinkLine])) defaultRtgconf ≠
        readOldStyleTargets ⟨0, fun _ => 0⟩ (some (linesText [uplinkLine])) defaultRtgconf := by
  refine ⟨by decide +kernel, by decide +kernel, by decide +kernel⟩

end ClusteredPoller.Targets
