import ClusteredPoller.Library.Lines
import ClusteredPoller.Library.Words
import ClusteredPoller.Platform

/-!
# Text input

The functions of the C library with which the configuration and the targets
are read, in the "C" locale.  A character is a byte, and an open file is what
is left of it to read.  A number that does not fit its type is converted as by
`strtol` and `strtoul` with 64-bit results, and then cut down to the type.
-/

namespace ClusteredPoller

open Library.Lines (lines lines_append lines_last lines_cases)
open Library.Words (words)
open Library.Format (Ends takeWhile_of_ends)

/-! ## Strings -/

def isspace (char : Char) : Bool :=
  char = ' ' || char = '\t' || char = '\n' || char = '\x0b' || char = '\x0c' || char = '\r'

namespace CString

/-- The string at the start of some memory. -/
def ofMemory (memory : List Char) : CString where
  chars := memory.takeWhile (· ≠ '\x00')
  noNul := nul_notMem_takeWhile memory

/-- The string, ended at the first of the given characters. -/
def endAt (stop : Char) (str : CString) : CString where
  chars := str.chars.takeWhile (· ≠ stop)
  noNul hnul := str.noNul ((List.takeWhile_prefix _).subset hnul)

/-- What comes in front of the lower-case letters is not the lower case of
anything else. -/
theorem eq_of_toLower {char lower : Char} (hlower : char.toLower = lower)
    (hfirst : lower.val.toNat < 97) : char = lower := by
  unfold Char.toLower at hlower
  split at hlower
  · next hupper =>
      have hval := congrArg (fun other => other.val.toNat) hlower
      have hfrom : 65 ≤ char.val.toNat := hupper.1
      have hto : char.val.toNat ≤ 90 := hupper.2
      change (char.val.toNat + 32) % 2 ^ 32 = lower.val.toNat at hval
      omega
  · exact hlower

theorem ofMemory_chars (str : CString) : ofMemory str.chars = str := by
  refine CString.ext (List.takeWhile_eq_self_iff.mpr fun char hchar => decide_eq_true ?_)
  rintro rfl
  exact str.noNul hchar

theorem endAt_of_notMem {stop : Char} {str : CString} (hstop : stop ∉ str.chars) :
    str.endAt stop = str := by
  refine CString.ext (List.takeWhile_eq_self_iff.mpr fun char hchar => decide_eq_true ?_)
  rintro rfl
  exact hstop hchar

def toLower (str : CString) : CString where
  chars := str.chars.map Char.toLower
  noNul hnul := by
    obtain ⟨char, hchar, hlower⟩ := List.mem_map.mp hnul
    exact str.noNul (eq_of_toLower hlower (by decide) ▸ hchar)

end CString

/-- The tokens that successive calls of `strtok` find. -/
def strtok (separators : List Char) (str : CString) : List CString :=
  (words (fun char => separators.contains char) str.chars).map CString.ofMemory

/-! ## `fscanf` -/

/-- `" %<width>s"`: white space, and up to `width` other characters; `none` at
the end of the file. -/
def scanString (width : Nat) (stream : List Char) : Option (List Char × List Char) :=
  match stream.dropWhile isspace with
  | [] => none
  | input =>
      let item := (input.takeWhile fun char => !isspace char).take width
      some (item, input.drop item.length)

/-- The optional sign of a number, and what follows it. -/
def scanSign : List Char → Bool × List Char
  | '-' :: rest => (true, rest)
  | '+' :: rest => (false, rest)
  | input => (false, input)

/-- `" %d"`, `" %u"` and `" %llu"` up to the conversion: white space, an
optional sign and digits.  Where no digit follows, a sign is gone all the same. -/
def scanInteger (stream : List Char) : Option Int × List Char :=
  let signed := scanSign (stream.dropWhile isspace)
  let digits := signed.2.takeWhile Char.isDigit
  if digits = [] then (none, signed.2)
  else
    let magnitude : Int := Nat.ofDigitChars 10 digits 0
    (some (if signed.1 then -magnitude else magnitude), signed.2.dropWhile Char.isDigit)

def strtol (number : Int) : Int := max (-2 ^ 63) (min number (2 ^ 63 - 1))

def strtoul (number : Int) : Nat :=
  if number.natAbs < 2 ^ 64 then (number % 2 ^ 64).toNat else 2 ^ 64 - 1

/-- A `long` converted to `int`. -/
def intOfLong (number : Int) : Int := number.bmod (2 ^ 32)

def scanInt (stream : List Char) : Option Int × List Char :=
  ((scanInteger stream).1.map fun number => intOfLong (strtol number), (scanInteger stream).2)

def scanUnsigned (stream : List Char) : Option UInt32 × List Char :=
  ((scanInteger stream).1.map fun number => UInt32.ofNat (strtoul number), (scanInteger stream).2)

def scanUnsignedLongLong (stream : List Char) : Option UInt64 × List Char :=
  ((scanInteger stream).1.map fun number => UInt64.ofNat (strtoul number), (scanInteger stream).2)

/-- `"%*[^\n]"`: the rest of the line, without the newline. -/
def skipLine (stream : List Char) : List Char := stream.dropWhile (· ≠ '\n')

/-! ## `fgets` and `atoi` -/

/-- At most `size - 1` characters, up to and with the first newline. -/
def fgets (size : Nat) (stream : List Char) : Option (List Char × List Char) :=
  if stream = [] then none
  else
    let most := stream.take (size - 1)
    let line :=
      if '\n' ∈ most then most.takeWhile (· ≠ '\n') ++ ['\n'] else most
    some (line, stream.drop line.length)

theorem fgets_shorter {size : Nat} (hsize : 1 < size) {stream line rest : List Char}
    (hread : fgets size stream = some (line, rest)) : rest.length < stream.length := by
  unfold fgets at hread
  by_cases hempty : stream = []
  · rw [if_pos hempty] at hread
    cases hread
  · have hstream : 0 < stream.length := List.length_pos_iff.mpr hempty
    simp only [hempty, if_false, Option.some.injEq, Prod.mk.injEq] at hread
    obtain ⟨hline, rfl⟩ := hread
    have hpos : 0 < line.length := by
      rw [← hline]
      split
      · simp
      · rw [List.length_take]
        omega
    rw [hline, List.length_drop]
    omega

/-- What a loop over `fgets` reads, one call after another. -/
def fgetsAll (size : Nat) (hsize : 1 < size) (stream : List Char) : List (List Char) :=
  match _hread : fgets size stream with
  | none => []
  | some (line, rest) => line :: fgetsAll size hsize rest
termination_by stream.length
decreasing_by exact fgets_shorter hsize _hread

theorem fgetsAll_nil {size : Nat} (hsize : 1 < size) : fgetsAll size hsize [] = [] := by
  rw [fgetsAll]
  rfl

theorem fgetsAll_cons {size : Nat} (hsize : 1 < size) {stream line rest : List Char}
    (hread : fgets size stream = some (line, rest)) :
    fgetsAll size hsize stream = line :: fgetsAll size hsize rest := by
  rw [fgetsAll]
  split <;> simp_all

/-- A line that fits the buffer is read with its newline. -/
theorem fgets_line {size : Nat} {line : List Char} (hline : '\n' ∉ line)
    (hfits : line.length < size - 1) (rest : List Char) :
    fgets size (line ++ '\n' :: rest) = some (line ++ ['\n'], rest) := by
  have hall : ∀ char ∈ line, decide (char ≠ '\n') = true := fun char hchar =>
    decide_eq_true fun heq => hline (heq ▸ hchar)
  obtain ⟨more, hmore⟩ : ∃ more, size - 1 = line.length + (more + 1) :=
    ⟨size - 1 - line.length - 1, by omega⟩
  have htake : (line ++ '\n' :: rest).take (size - 1) = line ++ '\n' :: rest.take more := by
    rw [hmore, List.take_length_add_append, List.take_succ_cons]
  have hread : (line ++ '\n' :: rest.take more).takeWhile (fun char => decide (char ≠ '\n')) =
      line := by
    rw [List.takeWhile_append_of_pos hall, List.takeWhile_cons_of_neg (by decide), List.append_nil]
  unfold fgets
  rw [if_neg (by simp), htake]
  dsimp only
  rw [if_pos (by simp), hread]
  simp

/-- One that fills it leaves its newline to the next call. -/
theorem fgets_full {size : Nat} {line : List Char} (hline : '\n' ∉ line)
    (hfull : line.length = size - 1) (hne : line ≠ []) (rest : List Char) :
    fgets size (line ++ rest) = some (line, rest) := by
  have htake : (line ++ rest).take (size - 1) = line := by
    rw [← hfull, List.take_left]
  unfold fgets
  rw [if_neg (by simp [hne]), htake]
  dsimp only
  rw [if_neg hline]
  simp

/-- The last line, without a newline, is read if it fits. -/
theorem fgets_last {size : Nat} {line : List Char} (hline : '\n' ∉ line)
    (hfits : line.length ≤ size - 1) (hne : line ≠ []) : fgets size line = some (line, []) := by
  have htake : line.take (size - 1) = line := List.take_of_length_le hfits
  unfold fgets
  rw [if_neg hne, htake]
  dsimp only
  rw [if_neg hline, List.drop_length]

/-- Lines that fit the buffer are what is read. -/
theorem fgetsAll_lines {size : Nat} (hsize : 1 < size) {text : List Char}
    (hfits : ∀ line ∈ lines '\n' text, line.length < size) :
    fgetsAll size hsize text = lines '\n' text := by
  induction hlength : text.length using Nat.strongRecOn generalizing text with
  | ind length ih =>
      rcases lines_cases '\n' text with rfl | ⟨hlast, hne⟩ | ⟨line, rest, rfl, hline⟩
      · exact fgetsAll_nil hsize
      · rw [lines_last hlast hne] at hfits ⊢
        have hshort := hfits text (List.mem_singleton.mpr rfl)
        rw [fgetsAll_cons hsize (fgets_last hlast (by omega) hne), fgetsAll_nil]
      · rw [lines_append hline] at hfits ⊢
        obtain ⟨hfirst, hlater⟩ := List.forall_mem_cons.mp hfits
        rw [List.length_append, List.length_singleton] at hfirst
        rw [List.length_append, List.length_cons] at hlength
        rw [fgetsAll_cons hsize (fgets_line hline (by omega) rest),
          ih rest.length (by omega) hlater rfl]

def atoi (str : CString) : Int :=
  match (scanInteger str.chars).1 with
  | some number => intOfLong (strtol number)
  | none => 0

/-! ## What is left to read -/

theorem scanString_shorter {width : Nat} (hwidth : 0 < width) {stream item rest : List Char}
    (hscan : scanString width stream = some (item, rest)) : rest.length < stream.length := by
  unfold scanString at hscan
  have hskip := (List.dropWhile_suffix (l := stream) isspace).length_le
  cases hinput : stream.dropWhile isspace with
  | nil => simp [hinput] at hscan
  | cons first tail =>
      have hfirst : isspace first = false := by
        simpa [hinput] using List.head?_dropWhile_not isspace stream
      obtain ⟨width, rfl⟩ := Nat.exists_eq_succ_of_ne_zero (Nat.ne_of_gt hwidth)
      simp only [hinput, Option.some.injEq, Prod.mk.injEq] at hscan
      obtain ⟨-, rfl⟩ := hscan
      rw [hinput] at hskip
      simp [hfirst] at hskip ⊢
      omega

theorem scanSign_le (input : List Char) : (scanSign input).2.length ≤ input.length := by
  unfold scanSign
  split <;> simp

theorem scanInteger_le (stream : List Char) : (scanInteger stream).2.length ≤ stream.length := by
  have hskip := (List.dropWhile_suffix (l := stream) isspace).length_le
  have hsign := scanSign_le (stream.dropWhile isspace)
  have hdigits := (List.dropWhile_suffix (l := (scanSign (stream.dropWhile isspace)).2)
    Char.isDigit).length_le
  unfold scanInteger
  dsimp only
  split <;> dsimp only <;> omega

theorem skipLine_le (stream : List Char) : (skipLine stream).length ≤ stream.length :=
  (List.dropWhile_suffix _).length_le

/-! ## Reading what was written -/

/-! ### Conversions of numbers that fit -/

theorem intOfLong_strtol {number : Int} (hlower : -2 ^ 31 ≤ number) (hupper : number < 2 ^ 31) :
    intOfLong (strtol number) = number := by
  have hlong : strtol number = number := by
    unfold strtol
    omega
  rw [hlong, intOfLong, Int.bmod_def]
  omega

/-- `atoi` of a number that fits an `unsigned`, converted to one. -/
theorem ofInt_intOfLong (value : UInt32) :
    UInt32.ofInt (intOfLong (strtol value.toNat)) = value := by
  have hvalue := value.toNat_lt
  have hlong : strtol (value.toNat : Int) = value.toNat := by
    unfold strtol
    omega
  have hemod : (value.toNat : Int).bmod (2 ^ 32) % 2 ^ 32 = value.toNat := by
    rw [Int.bmod_def]
    omega
  rw [hlong, intOfLong, UInt32.ofInt, hemod, Int.toNat_natCast, UInt32.ofNat_toNat]

theorem strtoul_natCast {number : Nat} (hnumber : number < 2 ^ 64) :
    strtoul (number : Int) = number := by
  unfold strtoul
  rw [if_pos (by simpa using hnumber)]
  omega

section Reading

variable {gap word rest : List Char} {width : Nat}

theorem scanString_gap (hgap : ∀ char ∈ gap, isspace char = true) (width : Nat)
    (rest : List Char) : scanString width (gap ++ rest) = scanString width rest := by
  unfold scanString
  rw [List.dropWhile_append_of_pos hgap]

/-- A word is read whole if it fits and nothing of the rest can belong to it. -/
theorem scanString_word (hne : word ≠ []) (hword : ∀ char ∈ word, isspace char = false)
    (hlength : word.length ≤ width)
    (hends : word.length = width ∨ Ends (fun char => !isspace char) rest) :
    scanString width (word ++ rest) = some (word, rest) := by
  have htake : ((word ++ rest).takeWhile fun char => !isspace char).take width = word := by
    rw [List.takeWhile_append_of_pos (by simpa using hword)]
    rcases hends with rfl | hends
    · simp
    · simpa [takeWhile_of_ends hends] using hlength
  cases word with
  | nil => exact absurd rfl hne
  | cons first tail =>
      have hfirst : isspace first = false := hword first List.mem_cons_self
      unfold scanString
      rw [List.cons_append, List.dropWhile_cons_of_neg (by simp [hfirst])]
      dsimp only
      rw [← List.cons_append, htake]
      simp

theorem isDigit_not_space {char : Char} (hdigit : char.isDigit = true) : isspace char = false := by
  refine Bool.eq_false_iff.mpr fun hspace => ?_
  simp only [isspace, Bool.or_eq_true, decide_eq_true_eq] at hspace
  rcases hspace with ((((rfl | rfl) | rfl) | rfl) | rfl) | rfl <;> revert hdigit <;> decide

theorem scanSign_digit {char : Char} (hdigit : char.isDigit = true) (rest : List Char) :
    scanSign (char :: rest) = (false, char :: rest) := by
  unfold scanSign
  split
  · next heq =>
      cases heq
      exact absurd hdigit (by decide)
  · next heq =>
      cases heq
      exact absurd hdigit (by decide)
  · rfl

/-- What `%d` prints. -/
def printInt (number : Int) : List Char :=
  if number < 0 then '-' :: Nat.toDigits 10 number.natAbs else Nat.toDigits 10 number.natAbs

/-- A printed number, up to a character that is no digit, is read back. -/
theorem scanInteger_printInt (hgap : ∀ char ∈ gap, isspace char = true) (number : Int)
    (hends : Ends Char.isDigit rest) :
    scanInteger (gap ++ (printInt number ++ rest)) = (some number, rest) := by
  have hdigits := Library.Format.decimal_valid number.natAbs
  obtain ⟨htake, hdrop⟩ := takeWhile_of_ends hends
  have hvalue : Nat.ofDigitChars 10 (Nat.toDigits 10 number.natAbs) 0 = number.natAbs :=
    Nat.ofDigitChars_ten_toDigits
  cases hprint : Nat.toDigits 10 number.natAbs with
  | nil => exact absurd hprint (Nat.toDigits_ne_nil)
  | cons first tail =>
      rw [hprint] at hvalue
      have hall : ∀ char ∈ first :: tail, char.isDigit = true := by
        rw [← hprint]
        exact hdigits
      have hfirst : first.isDigit = true := hall first List.mem_cons_self
      unfold scanInteger
      rw [List.dropWhile_append_of_pos hgap, printInt, hprint]
      by_cases hneg : number < 0
      · rw [if_pos hneg, List.cons_append, List.dropWhile_cons_of_neg (by decide)]
        simp only [scanSign, List.takeWhile_append_of_pos hall, List.dropWhile_append_of_pos hall,
          htake, hdrop, List.append_nil, reduceCtorEq, if_false, if_true, hvalue]
        refine Prod.ext ?_ rfl
        simp only [Option.some.injEq]
        omega
      · rw [if_neg hneg, List.cons_append,
          List.dropWhile_cons_of_neg (by simp [isDigit_not_space hfirst]), scanSign_digit hfirst,
          ← List.cons_append]
        simp only [List.takeWhile_append_of_pos hall, List.dropWhile_append_of_pos hall,
          htake, hdrop, List.append_nil, reduceCtorEq, if_false, hvalue, Bool.false_eq_true]
        refine Prod.ext ?_ rfl
        simp only [Option.some.injEq]
        omega

theorem scanInteger_digits (hgap : ∀ char ∈ gap, isspace char = true) (number : Nat)
    (hends : Ends Char.isDigit rest) :
    scanInteger (gap ++ (Nat.toDigits 10 number ++ rest)) = (some (number : Int), rest) := by
  have hprint : printInt number = Nat.toDigits 10 number := by simp [printInt]
  rw [← hprint]
  exact scanInteger_printInt hgap number hends

theorem scanInt_printInt (hgap : ∀ char ∈ gap, isspace char = true) {number : Int}
    (hlower : -2 ^ 31 ≤ number) (hupper : number < 2 ^ 31) (hends : Ends Char.isDigit rest) :
    scanInt (gap ++ (printInt number ++ rest)) = (some number, rest) := by
  simp [scanInt, scanInteger_printInt hgap number hends, intOfLong_strtol hlower hupper]

theorem scanUnsigned_digits (hgap : ∀ char ∈ gap, isspace char = true) (value : UInt32)
    (hends : Ends Char.isDigit rest) :
    scanUnsigned (gap ++ (Nat.toDigits 10 value.toNat ++ rest)) = (some value, rest) := by
  have hfits : value.toNat < 2 ^ 64 := Nat.lt_trans value.toNat_lt (by decide)
  simp [scanUnsigned, scanInteger_digits hgap value.toNat hends, strtoul_natCast hfits]

theorem scanUnsignedLongLong_digits (hgap : ∀ char ∈ gap, isspace char = true) (value : UInt64)
    (hends : Ends Char.isDigit rest) :
    scanUnsignedLongLong (gap ++ (Nat.toDigits 10 value.toNat ++ rest)) = (some value, rest) := by
  simp [scanUnsignedLongLong, scanInteger_digits hgap value.toNat hends,
    strtoul_natCast value.toNat_lt]

end Reading

end ClusteredPoller
