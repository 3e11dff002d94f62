import Mathlib.Data.Nat.Basic

/-!
# Text formats

A format prints values and parses them back.  Its law is part of the format:
what it has printed it parses to the same value, whatever text follows, as long
as that text cannot be taken for more of the value.  Formats are put together
from literal texts, numbers, optional parts and separated lists, so the round
trip of a whole text comes from the round trips of its parts.
-/

namespace ClusteredPoller.Library

structure Format (α : Type) where
  print : α → List Char
  parse : List Char → Option (α × List Char)
  /-- The values that the format can write down. -/
  Valid : α → Prop
  /-- The texts that may stand behind a printed value. -/
  Follow : List Char → Prop
  parse_print : ∀ value rest, Valid value → Follow rest →
    parse (print value ++ rest) = some (value, rest)

namespace Format

variable {α β : Type}

/-! ## Literal texts -/

/-- What follows a leading text, if the text is there. -/
def strip : List Char → List Char → Option (List Char)
  | [], text => some text
  | _ :: _, [] => none
  | first :: lead, char :: text => if first = char then strip lead text else none

@[simp]
theorem strip_append (lead rest : List Char) : strip lead (lead ++ rest) = some rest := by
  induction lead with
  | nil => rfl
  | cons first lead ih => rw [List.cons_append, strip, if_pos rfl, ih]

/-- A literal text, then the format. -/
def precede (lead : List Char) (format : Format α) : Format α where
  print value := lead ++ format.print value
  parse text := (strip lead text).bind format.parse
  Valid := format.Valid
  Follow := format.Follow
  parse_print value rest valid follow := by
    rw [List.append_assoc, strip_append]
    exact format.parse_print value rest valid follow

/-- The format, then a literal text that cannot be more of the value. -/
def close (format : Format α) (tail : List Char)
    (closes : ∀ rest, format.Follow (tail ++ rest)) : Format α where
  print value := format.print value ++ tail
  parse text := (format.parse text).bind fun parsed =>
    (strip tail parsed.2).map fun rest => (parsed.1, rest)
  Valid := format.Valid
  Follow _ := True
  parse_print value rest valid _ := by
    rw [List.append_assoc, format.parse_print value _ valid (closes rest), Option.bind_some,
      strip_append]
    rfl

/-- A literal text that is there or not. -/
def flag (text : List Char) : Format Bool where
  print present := if present then text else []
  parse input :=
    match strip text input with
    | some rest => some (true, rest)
    | none => some (false, input)
  Valid _ := True
  Follow rest := strip text rest = none
  parse_print present rest _ follow := by
    cases present with
    | true => simp only [if_true, strip_append]
    | false =>
        simp only [Bool.false_eq_true, if_false, List.nil_append]
        rw [follow]

/-! ## Runs of characters and numbers -/

/-- The text is at its end, or goes on with another kind of character. -/
def Ends (member : Char → Bool) (rest : List Char) : Prop :=
  ∀ char tail, rest = char :: tail → member char = false

theorem ends_cons {member : Char → Bool} {char : Char} (hchar : member char = false)
    (rest : List Char) : Ends member (char :: rest) := by
  intro other tail heq
  cases heq
  exact hchar

theorem takeWhile_of_ends {member : Char → Bool} {rest : List Char} (hends : Ends member rest) :
    rest.takeWhile member = [] ∧ rest.dropWhile member = rest := by
  cases rest with
  | nil => exact ⟨rfl, rfl⟩
  | cons char tail =>
      have hchar := hends char tail rfl
      rw [List.takeWhile_cons_of_neg (by simp [hchar]),
        List.dropWhile_cons_of_neg (by simp [hchar])]
      exact ⟨rfl, rfl⟩

/-- The longest run of characters of one kind. -/
def run (member : Char → Bool) : Format (List Char) where
  print text := text
  parse text := some (text.takeWhile member, text.dropWhile member)
  Valid text := ∀ char ∈ text, member char = true
  Follow := Ends member
  parse_print text rest valid follow := by
    obtain ⟨htake, hdrop⟩ := takeWhile_of_ends follow
    rw [List.takeWhile_append_of_pos valid, List.dropWhile_append_of_pos valid, htake, hdrop,
      List.append_nil]

/-- The same text, read as another type. -/
def map (format : Format α) (read : α → β) (write : β → α)
    (inverse : ∀ value, read (write value) = value) : Format β where
  print value := format.print (write value)
  parse text := (format.parse text).map fun parsed => (read parsed.1, parsed.2)
  Valid value := format.Valid (write value)
  Follow := format.Follow
  parse_print value rest valid follow := by
    rw [format.parse_print _ rest valid follow]
    exact congrArg (fun read => some (read, rest)) (inverse value)

/-- A natural number in decimal digits. -/
def decimal : Format Nat :=
  (run Char.isDigit).map (fun digits => Nat.ofDigitChars 10 digits 0) (Nat.toDigits 10)
    fun _ => Nat.ofDigitChars_ten_toDigits

theorem decimal_valid (number : Nat) : decimal.Valid number :=
  fun _ hchar => Nat.isDigit_of_mem_toDigits (by decide) (by decide) hchar

/-! ## Sequences -/

/-- One format, then another that may depend on the first value. -/
def andThen (first : Format α) (second : α → Format β)
    (adjacent : ∀ head value rest, (second head).Valid value → (second head).Follow rest →
      first.Follow ((second head).print value ++ rest)) : Format (α × β) where
  print pair := first.print pair.1 ++ (second pair.1).print pair.2
  parse text := (first.parse text).bind fun parsed =>
    ((second parsed.1).parse parsed.2).map fun later => ((parsed.1, later.1), later.2)
  Valid pair := first.Valid pair.1 ∧ (second pair.1).Valid pair.2
  Follow rest := ∀ head, (second head).Follow rest
  parse_print pair rest valid follow := by
    rw [List.append_assoc, first.parse_print pair.1 _ valid.1
      (adjacent pair.1 pair.2 rest valid.2 (follow pair.1)), Option.bind_some,
      (second pair.1).parse_print pair.2 rest valid.2 (follow pair.1)]
    rfl

/-- A part that is written down when it is wanted. -/
def optional (present : Bool) (format : Format α) : Format (Option α) where
  print value := value.elim [] format.print
  parse text :=
    if present then (format.parse text).map fun parsed => (some parsed.1, parsed.2)
    else some (none, text)
  Valid value := value.isSome = present ∧ ∀ part, value = some part → format.Valid part
  Follow rest := present = true → format.Follow rest
  parse_print value rest valid follow := by
    obtain ⟨hpresent, hvalid⟩ := valid
    cases value with
    | none =>
        cases hpresent
        rfl
    | some part =>
        cases hpresent
        have hparse := format.parse_print part rest (hvalid part rfl) (follow rfl)
        simp only [Option.isSome_some, if_true, Option.elim_some, hparse, Option.map_some]

/-! ## Lists -/

/-- The items after the first one, each behind the separator. -/
def printTail (format : Format α) (separator : List Char) (values : List α) : List Char :=
  values.flatMap fun value => separator ++ format.print value

def printList (format : Format α) (separator : List Char) : List α → List Char
  | [] => []
  | value :: values => format.print value ++ format.printTail separator values

/-- The fuel bounds the number of items. -/
def parseList (format : Format α) (separator : List Char) :
    Nat → List Char → Option (List α × List Char)
  | 0, _ => none
  | fuel + 1, text => (format.parse text).bind fun parsed =>
      match strip separator parsed.2 with
      | none => some ([parsed.1], parsed.2)
      | some more =>
          (parseList format separator fuel more).map fun later =>
            (parsed.1 :: later.1, later.2)

theorem parseList_printList {format : Format α} {separator : List Char}
    (between : ∀ rest, format.Follow (separator ++ rest)) {rest : List Char}
    (follow : format.Follow rest) (ends : strip separator rest = none)
    {value : α} {values : List α} (valid : ∀ part ∈ value :: values, format.Valid part)
    {fuel : Nat} (hfuel : values.length < fuel) :
    format.parseList separator fuel
        (format.print value ++ format.printTail separator values ++ rest) =
      some (value :: values, rest) := by
  induction values generalizing value fuel with
  | nil =>
      cases fuel with
      | zero => cases hfuel
      | succ fuel =>
          have hparse := format.parse_print value rest (valid value List.mem_cons_self) follow
          rw [printTail, List.flatMap_nil, List.append_nil, parseList, hparse]
          simp only [Option.bind_some, ends]
  | cons next values ih =>
      cases fuel with
      | zero => cases hfuel
      | succ fuel =>
          have hlater := @ih next
            (fun part hpart => valid part (List.mem_cons_of_mem _ hpart)) fuel
            (Nat.lt_of_succ_lt_succ hfuel)
          have hparse := format.parse_print value
            (separator ++ (format.print next ++ format.printTail separator values ++ rest))
            (valid value List.mem_cons_self) (between _)
          have htext : format.print value ++ format.printTail separator (next :: values) ++ rest =
              format.print value ++
                (separator ++
                  (format.print next ++ format.printTail separator values ++ rest)) := by
            simp only [printTail, List.flatMap_cons, List.append_assoc]
          rw [htext, parseList, hparse]
          simp only [Option.bind_some, strip_append, hlater, Option.map_some]

theorem length_le_printTail (format : Format α) {separator : List Char} (hne : separator ≠ [])
    (values : List α) : values.length ≤ (format.printTail separator values).length := by
  induction values with
  | nil => exact Nat.zero_le _
  | cons value values ih =>
      have hpositive := List.length_pos_iff.mpr hne
      rw [printTail, List.flatMap_cons, List.length_append, List.length_append, List.length_cons]
      change values.length + 1 ≤ _ + (format.printTail separator values).length
      omega

/-- A list of at least one item, with a separator between the items. -/
def separated (format : Format α) (separator : List Char) (hne : separator ≠ [])
    (between : ∀ rest, format.Follow (separator ++ rest)) : Format (List α) where
  print := format.printList separator
  parse text := format.parseList separator (text.length + 1) text
  Valid values := values ≠ [] ∧ ∀ part ∈ values, format.Valid part
  Follow rest := format.Follow rest ∧ strip separator rest = none
  parse_print values rest valid follow := by
    cases values with
    | nil => exact absurd rfl valid.1
    | cons value values =>
        have hlength := length_le_printTail format hne values
        refine parseList_printList between follow.1 follow.2 valid.2 ?_
        rw [printList, List.length_append, List.length_append]
        omega

/-! ## Whole texts -/

/-- The value of a text that the format uses up. -/
def read (format : Format α) (text : List Char) : Option α :=
  (format.parse text).bind fun parsed => if parsed.2 = [] then some parsed.1 else none

theorem read_print (format : Format α) {value : α} (valid : format.Valid value)
    (follow : format.Follow []) : format.read (format.print value) = some value := by
  have hparse := format.parse_print value [] valid follow
  rw [List.append_nil] at hparse
  rw [read, hparse, Option.bind_some, if_pos rfl]

/-- Different values have different texts. -/
theorem print_inj (format : Format α) {first second : α} (hfirst : format.Valid first)
    (hsecond : format.Valid second) (follow : format.Follow [])
    (heq : format.print first = format.print second) : first = second := by
  have hread := read_print format hfirst follow
  rw [heq, read_print format hsecond follow] at hread
  exact (Option.some.inj hread).symm

end Format

end ClusteredPoller.Library
