import ClusteredPoller.Targets.Detection
import ClusteredPoller.Targets.Records

/-!
# The text of an old-style targets file

Records written one in a line, with tabs between their fields, and what the
readers make of them.
-/

namespace ClusteredPoller.Targets

open Poller
open Library.Format (Ends ends_cons)
open Library.Words (words words_append_cons words_single)

/-! ## Records as they are written -/

/-- A field that neither reader takes for something else. -/
structure Field extends Argument where
  noHash : '#' ∉ text.chars
  notHost : text.toLower ≠ Keyword.host
  deriving DecidableEq

/-- What both formats can say about a target. -/
structure Record where
  host : Field
  oid : Field
  bits : UInt32
  community : Field
  table : Field
  id : UInt32
  deriving DecidableEq

/-- The line of a record. -/
def Record.line (record : Record) : List Char :=
  record.host.text.chars ++ '\t' :: (record.oid.text.chars ++ '\t' ::
    (Nat.toDigits 10 record.bits.toNat ++ '\t' :: (record.community.text.chars ++ '\t' ::
      (record.table.text.chars ++ '\t' :: Nat.toDigits 10 record.id.toNat))))

/-- A record whose line fits the buffer. -/
structure LineRecord extends Record where
  short : toRecord.line.length < 256
  deriving DecidableEq

/-- The text of a whole file. -/
def oldText : List LineRecord → List Char
  | [] => []
  | record :: records => record.line ++ '\n' :: oldText records

/-! ## Lines -/

def isTab (char : Char) : Bool := ['\t'].contains char

/-- No field separator, comment or end of a string. -/
structure PlainField (field : List Char) : Prop where
  nonempty : field ≠ []
  noSpace : ∀ char ∈ field, isspace char = false
  noHash : '#' ∉ field
  noNul : '\x00' ∉ field

theorem Field.plain (field : Field) : PlainField field.text.chars :=
  ⟨field.nonempty, field.noSpace, field.noHash, field.text.noNul⟩

theorem digits_plain (number : Nat) : PlainField (Nat.toDigits 10 number) := by
  have hdigits := Library.Format.decimal_valid number
  constructor
  · exact Nat.toDigits_ne_nil
  · exact fun char hchar => isDigit_not_space (hdigits char hchar)
  · intro hhash
    exact absurd (hdigits _ hhash) (by decide)
  · intro hnul
    exact absurd (hdigits _ hnul) (by decide)

theorem PlainField.noTab {field : List Char} (hplain : PlainField field) :
    ∀ char ∈ field, isTab char = false := by
  intro char hchar
  have hspace := hplain.noSpace char hchar
  simp only [isTab, List.contains_cons, List.contains_nil, Bool.or_false, beq_eq_false_iff_ne]
  rintro rfl
  exact absurd hspace (by decide)

namespace Record

variable (record : Record)

/-- The fields in front of the last one. -/
def leading : List (List Char) :=
  [record.host.text.chars, record.oid.text.chars, Nat.toDigits 10 record.bits.toNat,
    record.community.text.chars, record.table.text.chars]

theorem leading_plain : ∀ field ∈ record.leading, PlainField field := by
  simp only [leading, List.forall_mem_cons]
  exact ⟨record.host.plain, record.oid.plain, digits_plain _, record.community.plain,
    record.table.plain, by simp⟩

theorem line_append (tail : List Char) :
    record.line ++ tail =
      record.host.text.chars ++ '\t' :: (record.oid.text.chars ++ '\t' ::
        (Nat.toDigits 10 record.bits.toNat ++ '\t' :: (record.community.text.chars ++ '\t' ::
          (record.table.text.chars ++ '\t' :: (Nat.toDigits 10 record.id.toNat ++ tail))))) := by
  simp [line]

/-- What separates the fields splits the line into them. -/
theorem words_line {space : Char → Bool} (htab : space '\t' = true)
    (hleading : ∀ field ∈ record.leading, ∀ char ∈ field, space char = false) (tail : List Char) :
    words space (record.line ++ tail) =
      record.leading ++ words space (Nat.toDigits 10 record.id.toNat ++ tail) := by
  have hfield : ∀ field ∈ record.leading, words space field = [field] := fun field hfield =>
    words_single (record.leading_plain field hfield).nonempty (hleading field hfield)
  simp only [leading, List.forall_mem_cons] at hfield
  obtain ⟨hhost, hoid, hbits, hcommunity, htable, -⟩ := hfield
  rw [line_append]
  simp only [words_append_cons htab, hhost, hoid, hbits, hcommunity, htable, leading,
    List.cons_append, List.nil_append]

theorem mem_line {char : Char} (hchar : char ∈ record.line) :
    char = '\t' ∨ ∃ field, PlainField field ∧ char ∈ field := by
  have hid := digits_plain record.id.toNat
  have hleading := record.leading_plain
  simp only [leading, List.forall_mem_cons] at hleading
  obtain ⟨hhost, hoid, hbits, hcommunity, htable, -⟩ := hleading
  simp only [line, List.mem_append, List.mem_cons] at hchar
  rcases hchar with h | h | h | h | h | h | h | h | h | h | h
  · exact Or.inr ⟨_, hhost, h⟩
  · exact Or.inl h
  · exact Or.inr ⟨_, hoid, h⟩
  · exact Or.inl h
  · exact Or.inr ⟨_, hbits, h⟩
  · exact Or.inl h
  · exact Or.inr ⟨_, hcommunity, h⟩
  · exact Or.inl h
  · exact Or.inr ⟨_, htable, h⟩
  · exact Or.inl h
  · exact Or.inr ⟨_, hid, h⟩

theorem notMem_line {char : Char} (htab : char ≠ '\t')
    (hfield : ∀ field, PlainField field → char ∉ field) : char ∉ record.line := by
  intro hchar
  rcases record.mem_line hchar with heq | ⟨field, hplain, hmem⟩
  · exact htab heq
  · exact hfield field hplain hmem

theorem newline_notMem_line : '\n' ∉ record.line :=
  record.notMem_line (by decide) fun _ hplain hmem => absurd (hplain.noSpace _ hmem) (by decide)

/-! ## Reading a line -/

/-- The fields that the old-style reader finds, with what stands behind the
last one. -/
def fields (tail : List Char) : Fields where
  host := record.host.text
  oid := record.oid.text
  bits := CString.decimal record.bits.toNat
  community := record.community.text
  table := record.table.text
  id := CString.ofMemory (Nat.toDigits 10 record.id.toNat ++ tail)

/-- The end of a line as it is read: the newline, or nothing. -/
def IsTail (tail : List Char) : Prop := tail = [] ∨ tail = ['\n']

theorem strunc_line {tail : List Char} (htail : IsTail tail) :
    (strunc (CString.ofMemory (record.line ++ tail))).chars = record.line ++ tail := by
  have hnul : '\x00' ∉ record.line :=
    record.notMem_line (by decide) fun _ hplain => hplain.noNul
  have hhash : '#' ∉ record.line :=
    record.notMem_line (by decide) fun _ hplain => hplain.noHash
  have hall : ∀ stop : Char, stop ∉ record.line → stop ∉ tail →
      (record.line ++ tail).takeWhile (fun char => decide (char ≠ stop)) = record.line ++ tail := by
    intro stop hline htail
    refine List.takeWhile_eq_self_iff.mpr fun char hchar => decide_eq_true ?_
    rintro rfl
    exact (List.mem_append.mp hchar).elim hline htail
  have htails : '\x00' ∉ tail ∧ '#' ∉ tail := by
    rcases htail with rfl | rfl <;> decide
  unfold strunc CString.endAt CString.ofMemory
  simp only [hall _ hnul htails.1, hall _ hhash htails.2]

theorem fieldsOf_line {tail : List Char} (htail : IsTail tail) :
    fieldsOf (record.line ++ tail) = some (record.fields tail) := by
  have hid := digits_plain record.id.toNat
  have hlast : ∀ char ∈ Nat.toDigits 10 record.id.toNat ++ tail, isTab char = false := by
    intro char hchar
    rcases List.mem_append.mp hchar with hchar | hchar
    · exact hid.noTab char hchar
    · rcases htail with rfl | rfl
      · cases hchar
      · rw [List.mem_singleton.mp hchar]
        decide
  have hwords : words isTab (record.line ++ tail) =
      record.leading ++ [Nat.toDigits 10 record.id.toNat ++ tail] := by
    rw [record.words_line (by decide) (fun field hfield =>
      (record.leading_plain field hfield).noTab) tail, words_single (by simp [hid.nonempty]) hlast]
  have htokens : strtok ['\t'] (strunc (CString.ofMemory (record.line ++ tail))) =
      (record.leading ++ [Nat.toDigits 10 record.id.toNat ++ tail]).map CString.ofMemory := by
    rw [strtok, record.strunc_line htail, ← hwords]
    rfl
  rw [fieldsOf, htokens]
  simp [leading, fields, CString.ofMemory_chars]
  exact CString.ofMemory_chars (CString.decimal _)

theorem atoi_digits (value : UInt32) {tail : List Char} (htail : IsTail tail) :
    UInt32.ofInt (atoi (CString.ofMemory (Nat.toDigits 10 value.toNat ++ tail))) = value := by
  have hends : Ends Char.isDigit tail := by
    rcases htail with rfl | rfl
    · exact fun _ _ himpossible => by cases himpossible
    · exact ends_cons (by decide) _
  have hchars : (CString.ofMemory (Nat.toDigits 10 value.toNat ++ tail)).chars =
      Nat.toDigits 10 value.toNat ++ tail := by
    refine List.takeWhile_eq_self_iff.mpr fun char hchar => decide_eq_true ?_
    rintro rfl
    rcases List.mem_append.mp hchar with hchar | hchar
    · exact (digits_plain _).noNul hchar
    · rcases htail with rfl | rfl
      · cases hchar
      · exact absurd hchar (by decide)
  have hscan : scanInteger (Nat.toDigits 10 value.toNat ++ tail) =
      (some (value.toNat : Int), tail) := by
    simpa using @scanInteger_digits [] tail (by simp) value.toNat hends
  rw [atoi, hchars, hscan]
  exact ofInt_intOfLong value

/-- The row of a record, but for its speed. -/
theorem oldRow_fields (speed : UInt64) {tail : List Char} (htail : IsTail tail) :
    oldRow (record.fields tail) speed =
      { queryrowCreate with
        oid := some record.oid.text
        table := some record.table.text
        id := record.id
        bits := record.bits
        speed := speed } := by
  have hbits := atoi_digits record.bits (Or.inl rfl)
  rw [List.append_nil] at hbits
  have hdecimal : CString.ofMemory (Nat.toDigits 10 record.bits.toNat) =
      CString.decimal record.bits.toNat := CString.ofMemory_chars (CString.decimal _)
  rw [hdecimal] at hbits
  simp [oldRow, fields, hbits, atoi_digits record.id htail]

end Record

/-! ## No host for the new-style reader -/

theorem Field.cleanWord_ne_host (field : Field) :
    cleanWord field.text.chars ≠ Keyword.host := by
  have hsemicolon : ';' ∉ field.text.toLower.chars := by
    intro hmem
    obtain ⟨char, hchar, hlower⟩ := List.mem_map.mp hmem
    exact field.noSemicolon (CString.eq_of_toLower hlower (by decide) ▸ hchar)
  have hclean : cleanWord field.text.chars = field.text.toLower := by
    rw [cleanWord, CString.ofMemory_chars]
    exact CString.endAt_of_notMem hsemicolon
  rw [hclean]
  exact field.notHost

theorem digits_ne_host (number : Nat) : cleanWord (Nat.toDigits 10 number) ≠ Keyword.host := by
  intro heq
  have hmem : 'h' ∈ (cleanWord (Nat.toDigits 10 number)).chars := by
    rw [heq]
    decide
  obtain ⟨char, hchar, hlower⟩ := List.mem_map.mp ((List.takeWhile_prefix _).subset hmem)
  have hdigit := Library.Format.decimal_valid number char ((List.takeWhile_prefix _).subset hchar)
  have hlast : char.val.toNat ≤ 57 := by
    have hrange : '0'.val ≤ char.val ∧ char.val ≤ '9'.val := by simpa [Char.isDigit] using hdigit
    exact hrange.2
  unfold Char.toLower at hlower
  split at hlower
  · next hupper =>
      have hfirst : 65 ≤ char.val.toNat := hupper.1
      omega
  · rw [hlower] at hdigit
    exact absurd hdigit (by decide)

theorem Record.namesHost_line (record : Record) : namesHost record.line = false := by
  have hwords : words isspace record.line =
      record.leading ++ [Nat.toDigits 10 record.id.toNat] := by
    have hsplit := @record.words_line isspace (by decide) (fun field hfield =>
      (record.leading_plain field hfield).noSpace) []
    have hid := digits_plain record.id.toNat
    rw [List.append_nil, List.append_nil, words_single hid.nonempty hid.noSpace] at hsplit
    exact hsplit
  have hclean : ∀ word ∈ words isspace record.line, cleanWord word ≠ Keyword.host := by
    rw [hwords]
    simp only [leading, List.cons_append, List.nil_append, List.forall_mem_cons]
    exact ⟨record.host.cleanWord_ne_host, record.oid.cleanWord_ne_host, digits_ne_host _,
      record.community.cleanWord_ne_host, record.table.cleanWord_ne_host, digits_ne_host _,
      by simp⟩
  unfold namesHost
  rw [← Bool.not_eq_true, List.contains_iff_mem]
  intro hmem
  obtain ⟨word, hword, heq⟩ := List.mem_map.mp ((List.takeWhile_prefix _).subset hmem)
  exact hclean word hword heq

theorem hostBlocks_oldText (unspecified : Unspecified) (records : List LineRecord) :
    hostBlocks unspecified (oldText records) = [] := by
  induction records with
  | nil => exact hostBlocks_end rfl
  | cons record records ih =>
      have hshort : record.line.length ≤ 512 :=
        Nat.le_trans (Nat.le_of_lt record.short) (by decide)
      have hnewline := @hostBlocks_gap unspecified ['\n'] (by decide) (oldText records)
      refine (hostBlocks_line record.newline_notMem_line hshort (Or.inr ⟨_, rfl⟩)).mpr ?_
      exact ⟨record.namesHost_line, hnewline.trans ih⟩

/-! ## Reading a file -/

/-- What is read behind the last field: the newline, if the buffer holds it. -/
def LineRecord.tail (record : LineRecord) : List Char :=
  if record.line.length < 255 then ['\n'] else []

theorem LineRecord.isTail (record : LineRecord) : Record.IsTail record.tail := by
  unfold LineRecord.tail
  split
  · exact Or.inr rfl
  · exact Or.inl rfl

def LineRecord.lineFields (record : LineRecord) : Fields := record.fields record.tail

theorem recordsOf_oldText (records : List LineRecord) :
    recordsOf (oldText records) = records.map LineRecord.lineFields := by
  unfold recordsOf recordLines
  induction records with
  | nil => rw [oldText, fgetsAll_nil]; rfl
  | cons record records ih =>
      have hline := record.newline_notMem_line
      have hfields := record.fieldsOf_line record.isTail
      rw [oldText, List.map_cons, ← ih]
      by_cases hfits : record.line.length < 255
      · have htail : record.tail = ['\n'] := if_pos hfits
        rw [htail] at hfields
        rw [fgetsAll_cons _ (fgets_line hline hfits _), List.filterMap_cons_some hfields,
          LineRecord.lineFields, htail]
      · have htail : record.tail = [] := if_neg hfits
        rw [htail, List.append_nil] at hfields
        have hfull : record.line.length = 256 - 1 := by
          have hshort := record.short
          omega
        have hne : record.line ≠ [] := List.ne_nil_of_length_pos (by omega)
        have hnewline : fgets 256 ('\n' :: oldText records) = some (['\n'], oldText records) :=
          @fgets_line 256 [] (by simp) (by decide) (oldText records)
        have hnothing : fieldsOf ['\n'] = none := by decide +kernel
        rw [fgetsAll_cons _ (fgets_full hline hfull hne _), fgetsAll_cons _ hnewline,
          List.filterMap_cons_some hfields, List.filterMap_cons_none hnothing,
          LineRecord.lineFields, htail]

end ClusteredPoller.Targets
