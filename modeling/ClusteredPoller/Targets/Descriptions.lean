import ClusteredPoller.Targets.Positions
import ClusteredPoller.Targets.RoundTrip

/-!
# Descriptions

The documented format gives a target a description in quotes.  `read_row` knows
neither `descr` nor quotes and reads the words of a description as directives.
Most words mean nothing to it; a description with others is no mere description.
-/

namespace ClusteredPoller.Targets

open Library.Format (Ends ends_cons)
open Library.Outcome (bind_eq_ok ok_bind)
open Poller

def descrWord : CString := CString.ofMemory ['d', 'e', 's', 'c', 'r']

def quoted (text : List Char) : List Char := '"' :: (text ++ ['"', ';'])

/-- `descr "TEXT";` -/
def descrLine (gap : Gap) (text : List Char) : List Char :=
  descrWord.chars ++ (gap.chars ++ quoted text)

/-! ## Words that do something -/

/-- A comment, the end of the row, or a directive that sets a field. -/
def acts (word : CString) (rest : List Char) : Bool :=
  isComment word || word = Keyword.table || word = Keyword.speed || word = Keyword.close ||
    ((word = Keyword.bits || word = Keyword.id) && (scanUnsigned rest).1.isSome)

/-- No word of the text does anything to a row. -/
def inert (text : List Char) : Bool :=
  match _hword : scanWord text with
  | none => true
  | some (word, rest) => !acts word rest && inert (rowTurn ⟨0, fun _ => 0⟩ word rest).2
termination_by text.length
decreasing_by
  exact Nat.lt_of_le_of_lt (rowTurn_suffix _ word rest).length_le (scanWord_shorter _hword)

theorem inert_end {text : List Char} (hword : scanWord text = none) : inert text = true := by
  rw [inert]
  split <;> simp_all

theorem inert_word {text rest : List Char} {word : CString}
    (hword : scanWord text = some (word, rest)) :
    inert text = (!acts word rest && inert (rowTurn ⟨0, fun _ => 0⟩ word rest).2) := by
  rw [inert]
  split <;> simp_all

/-! ## Reading a description -/

section Reading

variable {unspecified : Unspecified} {conf : Rtgconf} {text rest tail : List Char}
  {word : CString}

/-- The words of a text are read in front of another one as at the end of a file. -/
theorem scanWord_inFront (hword : scanWord text = some (word, rest)) (hapart : Apart tail) :
    scanWord (text ++ tail) = some (word, rest ++ tail) := by
  apply @scanWord_ahead text rest [] tail
  · simpa using hword
  · cases rest with
    | nil => exact Or.inr hapart.space
    | cons first rest => exact Or.inl rfl

/-- So are numbers, but where none is found, white space may be passed. -/
theorem scanInteger_inFront (text : List Char) (hapart : Apart tail) :
    ∃ after, scanInteger (text ++ tail) = ((scanInteger text).1, after) ∧
      SkipsTo unspecified conf after ((scanInteger text).2 ++ tail) := by
  cases hrest : (scanInteger text).2 with
  | nil =>
      have hscan : scanInteger (text ++ []) = ((scanInteger text).1, []) := by
        rw [List.append_nil, ← hrest]
      obtain ⟨gap, after, htail, hgap, hread⟩ := scanInteger_apart hscan hapart
      refine ⟨after, hread, fun loop => ?_⟩
      rw [List.nil_append, htail, finish_spaces hgap]
  | cons first more =>
      have hscan : scanInteger (text ++ []) = ((scanInteger text).1, (first :: more) ++ []) := by
        rw [List.append_nil, List.append_nil, ← hrest]
      exact ⟨_, scanInteger_ahead hscan rfl, fun loop => rfl⟩

/-- A word that does nothing leaves the row and the text behind it. -/
theorem turn_idle (hidle : acts word rest = false) (hapart : Apart tail) (targets : Rtgtargets)
    (host : Queryhost) (row : Queryrow) :
    ∃ after, (Loop.inRow targets host row).turn unspecified conf word (rest ++ tail) =
        (.ok (.inRow targets host row), after) ∧
      SkipsTo unspecified conf after ((rowTurn ⟨0, fun _ => 0⟩ word rest).2 ++ tail) := by
  obtain ⟨after, hread, hskips⟩ := @scanInteger_inFront unspecified conf tail rest hapart
  simp only [acts, Bool.or_eq_false_iff, Bool.and_eq_false_iff, decide_eq_false_iff_not] at hidle
  obtain ⟨⟨⟨⟨hcomment, htable⟩, hspeed⟩, hclose⟩, hnumber⟩ := hidle
  simp only [Loop.turn, rowTurn, hcomment, htable, hspeed, hclose, Bool.false_eq_true, if_false]
  split_ifs with hbits hid
  · have hnone : (scanInteger rest).1 = none := by
      simpa [hbits, scanUnsigned] using hnumber
    refine ⟨after, ?_, hskips⟩
    simp only [scanUnsigned, hread, hnone]
    rfl
  · have hnone : (scanInteger rest).1 = none := by
      simpa [hid, scanUnsigned] using hnumber
    refine ⟨after, ?_, hskips⟩
    simp only [scanUnsigned, hread, hnone]
    rfl
  · exact ⟨_, rfl, fun loop => rfl⟩

/-- An inert text does nothing. -/
theorem finish_inert (hinert : inert text = true) (hapart : Apart tail) (targets : Rtgtargets)
    (host : Queryhost) (row : Queryrow) :
    finish unspecified conf (.inRow targets host row) (text ++ tail) =
      finish unspecified conf (.inRow targets host row) tail := by
  induction hlength : text.length using Nat.strongRecOn generalizing text with
  | ind length ih =>
      cases hword : scanWord text with
      | none => exact finish_spaces (scanString_none 512 (Option.map_eq_none_iff.mp hword))
      | some read =>
          obtain ⟨word, rest⟩ := read
          rw [inert_word hword, Bool.and_eq_true, Bool.not_eq_true'] at hinert
          obtain ⟨after, hturn, hskips⟩ :=
            @turn_idle unspecified conf rest tail word hinert.1 hapart targets host row
          have hshorter := Nat.lt_of_le_of_lt
            (rowTurn_suffix ⟨0, fun _ => 0⟩ word rest).length_le (scanWord_shorter hword)
          rw [finish_turn (scanWord_inFront hword hapart), hturn, ok_bind, hskips]
          exact ih _ (hlength ▸ hshorter) hinert.2 rfl

/-- Any other text leads to a word that does something. -/
theorem exists_act (hnot : inert text = false) :
    ∃ later word rest, later <:+ text ∧ scanWord later = some (word, rest) ∧
      acts word rest = true ∧
      ∀ unspecified conf tail targets host row, Apart tail →
        finish unspecified conf (.inRow targets host row) (text ++ tail) =
          finish unspecified conf (.inRow targets host row) (later ++ tail) := by
  induction hlength : text.length using Nat.strongRecOn generalizing text with
  | ind length ih =>
      cases hword : scanWord text with
      | none =>
          rw [inert_end hword] at hnot
          cases hnot
      | some read =>
          obtain ⟨word, rest⟩ := read
          cases hacts : acts word rest with
          | true =>
              exact ⟨text, word, rest, List.suffix_rfl, hword, hacts, fun _ _ _ _ _ _ _ => rfl⟩
          | false =>
              have hsuffix := rowTurn_suffix ⟨0, fun _ => 0⟩ word rest
              rw [inert_word hword, hacts, Bool.not_false, Bool.true_and] at hnot
              obtain ⟨later, other, more, hlater, hother, hmore, hsame⟩ :=
                ih _ (hlength ▸ Nat.lt_of_le_of_lt hsuffix.length_le (scanWord_shorter hword))
                  hnot rfl
              refine ⟨later, other, more, hlater.trans (hsuffix.trans (scanWord_suffix hword)),
                hother, hmore, fun unspecified conf tail targets host row hapart => ?_⟩
              obtain ⟨after, hturn, hskips⟩ :=
                @turn_idle unspecified conf rest tail word hacts hapart targets host row
              rw [finish_turn (scanWord_inFront hword hapart), hturn, ok_bind, hskips,
                hsame unspecified conf tail targets host row hapart]

theorem finish_descrLine (gap : Gap) (targets : Rtgtargets) (host : Queryhost) (row : Queryrow) :
    finish unspecified conf (.inRow targets host row) (descrLine gap text ++ tail) =
      finish unspecified conf (.inRow targets host row) (quoted text ++ tail) := by
  have hword : scanWord (descrWord.chars ++ (gap.chars ++ (quoted text ++ tail))) =
      some (descrWord, gap.chars ++ (quoted text ++ tail)) := scanWord_plain (by decide) gap _
  have hturn : (Loop.inRow targets host row).turn unspecified conf descrWord
      (gap.chars ++ (quoted text ++ tail)) =
        (.ok (.inRow targets host row), gap.chars ++ (quoted text ++ tail)) := rfl
  rw [descrLine, List.append_assoc, List.append_assoc, finish_turn hword, hturn, ok_bind,
    finish_spaces gap.spaces]

/-- A file with a row is a new-style file. -/
theorem rtgtargetsParse_inRow {targets : Rtgtargets} {host : Queryhost} {row : Queryrow}
    (reaches : Reaches unspecified conf (Position.start text) ⟨.inRow targets host row, rest⟩) :
    rtgtargetsParse unspecified (some text) conf =
      finish unspecified conf (.inRow targets host row) rest := by
  have hfinish := finish_reaches reaches
  rw [finish_start] at hfinish
  rw [rtgtargetsParse, hfinish]
  cases hresult : finish unspecified conf (.inRow targets host row) rest with
  | error fault => rfl
  | ok final =>
      rw [finish_inRow] at hresult
      obtain ⟨read, -, hresult⟩ := bind_eq_ok.mp hresult
      obtain ⟨next, hend, hresult⟩ := bind_eq_ok.mp hresult
      obtain ⟨pushed, -, hnext⟩ := bind_eq_ok.mp hend
      cases hnext
      obtain ⟨kept, more, hhosts, -⟩ := finish_keeps hresult
      rw [ok_bind, if_neg]
      · rfl
      · simp [hhosts]

end Reading

/-! ## Replacing a description -/

/-- In each place where `read_row` is about to read a description, one text can
stand for the other. -/
def Interchangeable (first second : List Char) : Prop :=
  ∀ (one two : Unspecified) (conf : Rtgconf) (gap : Gap) (before space after : List Char)
    (targets : Rtgtargets) (host : Queryhost) (row : Queryrow),
    (∀ char ∈ space, isspace char = true) → Apart after →
    SameBut one two (descrLine gap first) (descrLine gap second) after →
    Reaches one conf (Position.start (before ++ (space ++ (descrLine gap first ++ after))))
      ⟨.inRow targets host row, space ++ (descrLine gap first ++ after)⟩ →
    rtgtargetsParse two (some (before ++ (space ++ (descrLine gap second ++ after)))) conf =
      rtgtargetsParse one (some (before ++ (space ++ (descrLine gap first ++ after)))) conf

section Replacing

variable {one two : Unspecified} {conf : Rtgconf} {gap : Gap}
  {first second before space after : List Char} {loop : Loop}

/-- The place is one for the other text, too. -/
theorem reaches_descrLine
    (same : SameBut one two (descrLine gap first) (descrLine gap second) after)
    (reaches : Reaches one conf
      (Position.start (before ++ (space ++ (descrLine gap first ++ after))))
      ⟨loop, space ++ (descrLine gap first ++ after)⟩) :
    Reaches two conf (Position.start (before ++ (space ++ (descrLine gap second ++ after))))
      ⟨loop, space ++ (descrLine gap second ++ after)⟩ := by
  have hword : (descrLine gap first ++ after).head? = (descrLine gap second ++ after).head? := rfl
  have hnext : (space ++ (descrLine gap first ++ after)).head? =
      (space ++ (descrLine gap second ++ after)).head? :=
    @head_append [] (descrLine gap first ++ after) (descrLine gap second ++ after) space hword
  rw [← List.append_assoc before] at reaches ⊢
  exact reaches_ahead same.front reaches hnext

theorem rtgtargetsParse_descrLine {targets : Rtgtargets} {host : Queryhost} {row : Queryrow}
    (hspace : ∀ char ∈ space, isspace char = true)
    (reaches : Reaches one conf
      (Position.start (before ++ (space ++ (descrLine gap first ++ after))))
      ⟨.inRow targets host row, space ++ (descrLine gap first ++ after)⟩) :
    rtgtargetsParse one (some (before ++ (space ++ (descrLine gap first ++ after)))) conf =
      finish one conf (.inRow targets host row) (quoted first ++ after) := by
  rw [rtgtargetsParse_inRow reaches, finish_spaces hspace, finish_descrLine]

theorem interchangeable_of_inert (hfirst : inert (quoted first) = true)
    (hsecond : inert (quoted second) = true) : Interchangeable first second := by
  intro one two conf gap before space after targets host row hspace hapart same reaches
  rw [rtgtargetsParse_descrLine hspace reaches,
    rtgtargetsParse_descrLine hspace (reaches_descrLine same reaches),
    finish_inert hfirst hapart, finish_inert hsecond hapart, finish_same _ same.behind]

end Replacing

/-! ## Descriptions that are more than that -/

/-- A file up to a description, with some directives of its target. -/
def blockFront (directives : List Char) : List Char :=
  "host h \x7b\n community c;\n target .1 \x7b\n ".toList ++ directives

def blockHost : Queryhost where
  host := some (CString.ofMemory ['h'])
  community := some (CString.ofMemory ['c'])
  snmpver := 0
  rows := []

def blockRow (table : Char) (bits id : UInt32) (speed : UInt64) : Queryrow where
  oid := some (CString.ofMemory ['.', '1'])
  table := some (CString.ofMemory [table])
  id := id
  bits := bits
  speed := speed
  cachedCounter := 0
  cachedTime := 0

/-! Directives in front of a description, with the rows that they make; of each
field there are two values. -/

def madeBase : List Char × Queryrow :=
  ("table a; id 1; speed 1; bits 0;".toList, blockRow 'a' 0 1 1)

def madeTable : List Char × Queryrow :=
  ("table b; id 1; speed 1; bits 0;".toList, blockRow 'b' 0 1 1)

def madeId : List Char × Queryrow :=
  ("table a; id 2; speed 1; bits 0;".toList, blockRow 'a' 0 2 1)

def madeSpeed : List Char × Queryrow :=
  ("table a; id 1; speed 2; bits 0;".toList, blockRow 'a' 0 1 2)

def madeBits : List Char × Queryrow :=
  ("table a; id 1; speed 1; bits 1;".toList, blockRow 'a' 1 1 1)

def madeRows : List (List Char × Queryrow) := [madeBase, madeTable, madeId, madeSpeed, madeBits]

/-- The reader is in front of the description, with the row. -/
theorem walk_madeRows : ∀ made ∈ madeRows,
    walk ⟨0, fun _ => 0⟩ defaultRtgconf 12
      (Position.start (blockFront made.1 ++ ' ' :: descrWord.chars)) =
        some ⟨.inRow rtgtargetsCreate blockHost made.2, ' ' :: descrWord.chars⟩ := by
  decide +kernel

/-- What the file gives from the row on. -/
def blockFinish (row : Queryrow) (text : List Char) : Except Fault Rtgtargets :=
  finish ⟨0, fun _ => 0⟩ defaultRtgconf (.inRow rtgtargetsCreate blockHost row) text

/-- The directives behind a description, and the end of the file. -/
def blockBack (directives : List Char) : List Char := directives ++ "\n\x7d;\n\x7d;\n".toList

/-- A table behind the description, on its line. -/
def tableBack (table : Char) : List Char := blockBack (" table ".toList ++ [table, ';'])

/-- Rows that differ are seen in the end. -/
theorem blockFinish_differs : ∀ made ∈ madeRows, ∀ other ∈ madeRows, made ≠ other →
    blockFinish made.2 (blockBack []) ≠ blockFinish other.2 (blockBack []) := by
  decide +kernel

theorem blockFinish_tableBack : ∀ table ∈ ['b', 'c'],
    blockFinish madeBase.2 (tableBack table) =
      .ok { hosts := [pushRow blockHost (blockRow table 0 1 1)], ntargets := 1 } := by
  decide +kernel

/-- The text does nothing in any of these files. -/
def DoesNothing (text : List Char) : Prop :=
  ∀ made ∈ madeRows, ∀ after, Apart after →
    blockFinish made.2 (text ++ after) = blockFinish made.2 after

section Spoiling

variable {first second later rest : List Char} {word : CString}

theorem doesNothing_of_interchangeable (hboth : Interchangeable first second)
    (hsecond : inert (quoted second) = true) : DoesNothing (quoted first) := by
  intro made hmade after hapart
  have hplace : Reaches ⟨0, fun _ => 0⟩ defaultRtgconf
      (Position.start (blockFront made.1 ++ ([' '] ++ (descrLine oneBlank first ++ after))))
      ⟨.inRow rtgtargetsCreate blockHost made.2, [' '] ++ (descrLine oneBlank first ++ after)⟩ := by
    have hwalk := reaches_of_walk (walk_madeRows made hmade)
    have hahead := @reaches_ahead _ ⟨0, fun _ => 0⟩ defaultRtgconf
      (blockFront made.1 ++ ' ' :: descrWord.chars) (' ' :: descrWord.chars) []
      (oneBlank.chars ++ (quoted first ++ after)) (fun _ => rfl) (.top rtgtargetsCreate)
      (.inRow rtgtargetsCreate blockHost made.2) (by simpa [Position.start] using hwalk) rfl
    simpa [Position.start, descrLine, List.append_assoc] using hahead
  have same : SameBut ⟨0, fun _ => 0⟩ ⟨0, fun _ => 0⟩ (descrLine oneBlank first)
      (descrLine oneBlank second) after := ⟨fun _ => rfl, fun _ _ => rfl⟩
  have hparse := hboth _ _ defaultRtgconf oneBlank _ _ after _ _ _ isspace_blank hapart same hplace
  rw [rtgtargetsParse_descrLine isspace_blank hplace,
    rtgtargetsParse_descrLine isspace_blank (reaches_descrLine same hplace),
    finish_inert hsecond hapart] at hparse
  exact hparse.symm

theorem apart_end : Apart (blockBack []) := by
  constructor
  · exact ends_cons (by decide) _
  · exact ends_cons (by decide) _

/-- A directive that sets a field hides what the field was. -/
theorem not_doesNothing_directive {directive : RowDirective} {made other : List Char × Queryrow}
    (hmade : made ∈ madeRows) (hother : other ∈ madeRows) (hne : made ≠ other)
    (hword : scanWord later = some (word, rest))
    (hturn : (rowTurn ⟨0, fun _ => 0⟩ word (rest ++ blockBack [])).1 = some directive)
    (hset : directive.apply defaultRtgconf made.2 = directive.apply defaultRtgconf other.2) :
    ¬ DoesNothing later := by
  intro hnothing
  have hread := scanWord_inFront hword apart_end
  apply blockFinish_differs made hmade other hother hne
  calc blockFinish made.2 (blockBack [])
      = blockFinish made.2 (later ++ blockBack []) := (hnothing made hmade _ apart_end).symm
    _ = blockFinish other.2 (later ++ blockBack []) := by
        rw [blockFinish, blockFinish, finish_turn hread, finish_turn hread, Loop.turn, Loop.turn,
          hturn, rowNext, rowNext, hset]
    _ = blockFinish other.2 (blockBack []) := hnothing other hother _ apart_end

theorem number_inFront (hnumber : (scanUnsigned rest).1.isSome = true) :
    ∃ value, (scanUnsigned (rest ++ blockBack [])).1 = some value := by
  obtain ⟨after, hread, -⟩ :=
    @scanInteger_inFront ⟨0, fun _ => 0⟩ defaultRtgconf (blockBack []) rest apart_end
  obtain ⟨value, hvalue⟩ := Option.isSome_iff_exists.mp hnumber
  refine ⟨value, ?_⟩
  rw [← hvalue, scanUnsigned, scanUnsigned, hread]

theorem not_doesNothing_table (hword : scanWord later = some (Keyword.table, rest)) :
    ¬ DoesNothing later :=
  @not_doesNothing_directive _ _ _ _ madeBase madeTable (by simp [madeRows]) (by simp [madeRows])
    (by decide) hword rfl rfl

theorem not_doesNothing_speed (hword : scanWord later = some (Keyword.speed, rest)) :
    ¬ DoesNothing later :=
  @not_doesNothing_directive _ _ _ _ madeBase madeSpeed (by simp [madeRows]) (by simp [madeRows])
    (by decide) hword rfl rfl

theorem not_doesNothing_bits (hword : scanWord later = some (Keyword.bits, rest))
    (hnumber : (scanUnsigned rest).1.isSome = true) : ¬ DoesNothing later := by
  obtain ⟨value, hvalue⟩ := number_inFront hnumber
  have hturn : (rowTurn ⟨0, fun _ => 0⟩ Keyword.bits (rest ++ blockBack [])).1 =
      some (.bits (some value)) := by
    rw [← hvalue]
    rfl
  exact @not_doesNothing_directive _ _ _ _ madeBase madeBits (by simp [madeRows])
    (by simp [madeRows]) (by decide) hword hturn rfl

theorem not_doesNothing_id (hword : scanWord later = some (Keyword.id, rest))
    (hnumber : (scanUnsigned rest).1.isSome = true) : ¬ DoesNothing later := by
  obtain ⟨value, hvalue⟩ := number_inFront hnumber
  have hturn : (rowTurn ⟨0, fun _ => 0⟩ Keyword.id (rest ++ blockBack [])).1 =
      some (.id (some value)) := by
    rw [← hvalue]
    rfl
  exact @not_doesNothing_directive _ _ _ _ madeBase madeId (by simp [madeRows])
    (by simp [madeRows]) (by decide) hword hturn rfl

theorem apart_table (table : Char) : Apart (tableBack table) := by
  constructor
  · exact ends_cons (by decide) _
  · exact ends_cons (by decide) _

/-- A comment hides what follows on the line. -/
theorem not_doesNothing_comment (hword : scanWord later = some (word, rest))
    (hcomment : isComment word = true) (hline : '\n' ∉ rest) : ¬ DoesNothing later := by
  intro hnothing
  have hbase : madeBase ∈ madeRows := by simp [madeRows]
  have hends : Ends (fun char => decide (char ≠ '\n')) (blockBack []) := ends_cons (by decide) _
  have hhidden : ∀ table, table ≠ '\n' →
      blockFinish madeBase.2 (tableBack table) = blockFinish madeBase.2 (blockBack []) := by
    intro table htable
    have hnone : '\n' ∉ rest ++ (" table ".toList ++ [table, ';']) := by
      simp [hline, htable.symm]
    have hskip : skipLine (rest ++ tableBack table) = blockBack [] := by
      simpa [tableBack, blockBack] using skipLine_line hnone hends
    have hread := scanWord_inFront hword (apart_table table)
    rw [← hnothing madeBase hbase _ (apart_table table), blockFinish, finish_turn hread,
      turn_comment hcomment, ok_bind, hskip]
    rfl
  have hsame := (hhidden 'b' (by decide)).trans (hhidden 'c' (by decide)).symm
  rw [blockFinish_tableBack 'b' (by decide), blockFinish_tableBack 'c' (by decide)] at hsame
  exact absurd hsame (by decide)

/-- A brace ends the row as it is. -/
theorem not_doesNothing_close (hword : scanWord later = some (Keyword.close, rest)) :
    ¬ DoesNothing later := by
  intro hnothing
  have hsame := hnothing madeBase (by simp [madeRows]) (tableBack 'b') (apart_table 'b')
  have hread := scanWord_inFront hword (apart_table 'b')
  have hclosed : (Loop.inRow rtgtargetsCreate blockHost madeBase.2).turn
      ⟨0, fun _ => 0⟩ defaultRtgconf Keyword.close (rest ++ tableBack 'b') =
        (.ok (.inHost rtgtargetsCreate (pushRow blockHost madeBase.2)), rest ++ tableBack 'b') :=
    rfl
  rw [blockFinish_tableBack 'b' (by decide), blockFinish, finish_turn hread, hclosed, ok_bind]
    at hsame
  obtain ⟨kept, more, hhosts, -, hrows⟩ := finish_keeps hsame
  obtain ⟨rfl, -⟩ := List.cons.inj hhosts
  exact absurd (hrows madeBase.2 (List.mem_append_right _ List.mem_cons_self)) (by decide)

theorem not_doesNothing (hword : scanWord later = some (word, rest)) (hline : '\n' ∉ rest)
    (hacts : acts word rest = true) : ¬ DoesNothing later := by
  simp only [acts, Bool.or_eq_true, Bool.and_eq_true, decide_eq_true_eq] at hacts
  rcases hacts with (((hcomment | rfl) | rfl) | rfl) | ⟨rfl | rfl, hnumber⟩
  · exact not_doesNothing_comment hword hcomment hline
  · exact not_doesNothing_table hword
  · exact not_doesNothing_speed hword
  · exact not_doesNothing_close hword
  · exact not_doesNothing_bits hword hnumber
  · exact not_doesNothing_id hword hnumber

end Spoiling

/-- A description can stand for one that does nothing exactly if it does nothing
itself: no word of it, as `read_row` splits it, starts a comment, ends the row,
or is a directive that sets a field. -/
theorem interchangeable_iff_inert {first second : List Char} (hfirst : '\n' ∉ first)
    (hsecond : inert (quoted second) = true) :
    Interchangeable first second ↔ inert (quoted first) = true := by
  constructor
  · intro hboth
    by_contra hnot
    rw [Bool.not_eq_true] at hnot
    obtain ⟨later, word, rest, hlater, hword, hacts, hsame⟩ := exists_act hnot
    have hnothing := doesNothing_of_interchangeable hboth hsecond
    have hline : '\n' ∉ rest := by
      intro hmem
      have hquoted := hlater.subset ((scanWord_suffix hword).subset hmem)
      simp [quoted, hfirst] at hquoted
    refine not_doesNothing hword hline hacts fun made hmade after hapart => ?_
    rw [← hnothing made hmade after hapart, blockFinish, blockFinish, hsame _ _ _ _ _ _ hapart]
  · exact fun hinert => interchangeable_of_inert hinert hsecond

def portText : List Char := "k26820_15D2-EB78 (DSL PORT 2)".toList

def unitText : List Char := "RMON Port  1 on Unit 1 (RMON Port  1 on Unit 1)".toList

theorem interchangeable_portText : Interchangeable portText unitText := by
  have hinert : inert (quoted portText) = true ∧ inert (quoted unitText) = true := by decide +kernel
  exact (interchangeable_iff_inert (by decide) hinert.2).mpr hinert.1

def speedText : List Char := "at speed 5 now".toList

/-- A file with a description in a target of speed 1. -/
def describedFile (text : List Char) : List Char :=
  blockFront madeBase.1 ++ ([' '] ++ (descrLine oneBlank text ++ blockBack []))

/-- The description sets the speed to 5. -/
theorem description_sets_speed :
    walk ⟨0, fun _ => 0⟩ defaultRtgconf 12 (Position.start (describedFile portText)) =
      some ⟨.inRow rtgtargetsCreate blockHost madeBase.2,
        [' '] ++ (descrLine oneBlank portText ++ blockBack [])⟩ ∧
    rtgtargetsParse ⟨0, fun _ => 0⟩ (some (describedFile portText)) defaultRtgconf =
      .ok { hosts := [pushRow blockHost (blockRow 'a' 0 1 1)], ntargets := 1 } ∧
    rtgtargetsParse ⟨0, fun _ => 0⟩ (some (describedFile speedText)) defaultRtgconf =
      .ok { hosts := [pushRow blockHost (blockRow 'a' 0 1 5)], ntargets := 1 } := by
  decide +kernel

end ClusteredPoller.Targets
