import Mathlib.Algebra.Order.Ring.Int
import Mathlib.Data.UInt

/-!
# The C platform

`unsigned` is 32 bits wide and `unsigned long long` is 64 bits wide.  A
`time_t` is an integer number of seconds since the epoch.  A string is the list
of its characters before the terminating NUL, and a `char *` that may be `NULL`
is an optional string.  A run that leaves the defined behaviour of C, or leaves
the program, ends in a fault.
-/

namespace ClusteredPoller

/-- The ways in which a call does not return. -/
inductive Fault where
  /-- A string function was handed `NULL`. -/
  | nullString
  /-- `session->sessp` was read through a `NULL` session. -/
  | nullSession
  /-- Memory was read or written past its allocation. -/
  | outOfBounds
  /-- An `int` was counted past its largest value. -/
  | signedOverflow
  /-- A string was read from a local array in which nothing had been stored. -/
  | uninitialised
  /-- An integer was divided by zero. -/
  | divisionByZero
  /-- An `assert` failed. -/
  | assertion
  /-- `exit(-1)` was called. -/
  | exit
  deriving DecidableEq, Repr

/-- A `time_t` converted to a 64-bit unsigned type: every value of the type is
below `2 ^ 63`, and a negative one has `2 ^ 64` added. -/
def unsignedOfTime (time : Int) : Nat :=
  if 0 ≤ time then time.toNat else (time + 2 ^ 64).toNat

theorem unsignedOfTime_of_nonneg {time : Int} (htime : 0 ≤ time) :
    unsignedOfTime time = time.toNat := if_pos htime

/-- A property of the characters in a list is decided along the list, also where
the type of all characters is known to be finite. -/
instance decidableAllChars (property : Char → Prop) [DecidablePred property] (chars : List Char) :
    Decidable (∀ char ∈ chars, property char) := List.decidableBAll property chars

/-- The characters of a C string; none of them is NUL. -/
structure CString where
  chars : List Char
  noNul : '\x00' ∉ chars
  deriving DecidableEq

namespace CString

def ofString (text : String) (noNul : '\x00' ∉ text.toList := by decide) : CString :=
  ⟨text.toList, noNul⟩

def append (first second : CString) : CString :=
  ⟨first.chars ++ second.chars, by simp [first.noNul, second.noNul]⟩

instance : Append CString := ⟨append⟩

@[simp]
theorem append_chars (first second : CString) :
    (first ++ second).chars = first.chars ++ second.chars := rfl

@[ext]
theorem ext {first second : CString} (hchars : first.chars = second.chars) : first = second := by
  cases first
  cases second
  cases hchars
  rfl

/-- The digits of a number, as `%u`, `%lu` and `%llu` print them. -/
def decimal (number : Nat) : CString where
  chars := Nat.toDigits 10 number
  noNul hnul :=
    absurd (Nat.isDigit_of_mem_toDigits (by decide) (by decide) hnul) (by decide)

/-- The string without what follows its first characters. -/
def take (str : CString) (count : Nat) : CString :=
  ⟨str.chars.take count, fun hnul => str.noNul (List.mem_of_mem_take hnul)⟩

end CString

/-- `snprintf` into a buffer: what does not fit in front of the terminating NUL
is cut off. -/
def snprintf (bufferLength : Nat) (formatted : CString) : CString :=
  formatted.take (bufferLength - 1)

/-- A number below `10 ^ (bufferLength - 1)` fits. -/
theorem snprintf_decimal {bufferLength number : Nat} (hlength : 1 < bufferLength)
    (hnumber : number < 10 ^ (bufferLength - 1)) :
    snprintf bufferLength (CString.decimal number) = CString.decimal number := by
  have hfits : (Nat.toDigits 10 number).length ≤ bufferLength - 1 :=
    (Nat.length_toDigits_le_iff (by decide) (Nat.sub_pos_of_lt hlength)).mpr hnumber
  exact CString.ext (List.take_of_length_le hfits)

theorem nul_notMem_takeWhile (memory : List Char) :
    '\x00' ∉ memory.takeWhile (· ≠ '\x00') := by
  intro hnul
  have hkept := List.all_eq_true.mp List.all_takeWhile _ hnul
  exact of_decide_eq_true hkept rfl

/-- `strdup` of the string that starts the given memory. -/
def strdup (memory : List Char) : Except Fault CString :=
  if '\x00' ∈ memory then
    .ok ⟨memory.takeWhile (· ≠ '\x00'), nul_notMem_takeWhile memory⟩
  else
    .error .outOfBounds

/-- In memory that holds a string and its NUL, `strdup` finds the string. -/
theorem strdup_terminated (str : CString) (rest : List Char) :
    strdup (str.chars ++ '\x00' :: rest) = .ok str := by
  have hall : ∀ char ∈ str.chars, decide (char ≠ '\x00') = true := by
    intro char hchar
    refine decide_eq_true ?_
    rintro rfl
    exact str.noNul hchar
  rw [strdup, if_pos (by simp)]
  refine congrArg Except.ok (CString.ext ?_)
  change List.takeWhile _ (str.chars ++ '\x00' :: rest) = _
  rw [List.takeWhile_append_of_pos hall, List.takeWhile_cons_of_neg (by decide), List.append_nil]

/-- `!strcmp(first, second)`. -/
def strcmpEqual : Option CString → Option CString → Except Fault Bool
  | some first, some second => .ok (first = second)
  | _, _ => .error .nullString

theorem strcmpEqual_some {first second : Option CString} (hfirst : first.isSome)
    (hsecond : second.isSome) : strcmpEqual first second = .ok (decide (first = second)) := by
  obtain ⟨first, rfl⟩ := Option.isSome_iff_exists.mp hfirst
  obtain ⟨second, rfl⟩ := Option.isSome_iff_exists.mp hsecond
  simp [strcmpEqual]

theorem strcmpEqual_ok {first second : Option CString} {equal : Bool}
    (hcompare : strcmpEqual first second = .ok equal) : equal = decide (first = second) := by
  cases first with
  | none => cases hcompare
  | some first =>
      cases second with
      | none => cases hcompare
      | some second =>
          cases hcompare
          simp

end ClusteredPoller
