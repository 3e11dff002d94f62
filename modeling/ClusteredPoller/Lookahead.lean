import ClusteredPoller.Stdio

/-!
# One character of lookahead

What `fscanf` converts is followed by a character that cannot belong to it, or
fills the width.  So a conversion does not see what is behind that character,
and what follows in its place matters only as far as it could be converted too.
-/

namespace ClusteredPoller

open Library.Format (Ends ends_cons takeWhile_of_ends)

/-! ## The next character -/

theorem dropWhile_ends (member : Char → Bool) (text : List Char) :
    Ends member (text.dropWhile member) := by
  induction text with
  | nil =>
      intro char tail impossible
      cases impossible
  | cons first text ih =>
      cases hfirst : member first with
      | true => rwa [List.dropWhile_cons_of_pos hfirst]
      | false =>
          rw [List.dropWhile_cons_of_neg (by simp [hfirst])]
          exact ends_cons hfirst text

theorem ends_of_head {member : Char → Bool} {first second : List Char}
    (hhead : first.head? = second.head?) (hends : Ends member first) : Ends member second := by
  intro char tail heq
  rw [heq, List.head?_cons, List.head?_eq_some_iff] at hhead
  obtain ⟨more, hfirst⟩ := hhead
  exact hends char more hfirst

theorem ends_mono {member other : Char → Bool} {text : List Char}
    (hmember : ∀ char, other char = true → member char = true) (hends : Ends member text) :
    Ends other text := by
  intro char tail heq
  rw [← Bool.not_eq_true]
  exact fun hother => absurd (hmember char hother) (by simp [hends char tail heq])

/-- The same character comes next behind more text. -/
theorem head_append {back tail other : List Char} (front : List Char)
    (hnext : (back ++ tail).head? = (back ++ other).head?) :
    (front ++ (back ++ tail)).head? = (front ++ (back ++ other)).head? := by
  cases front with
  | nil => exact hnext
  | cons first front => rfl

/-- White space, and then nothing that a number could go on with. -/
structure Apart (text : List Char) : Prop where
  space : Ends (fun char => !isspace char) text
  noNumber : Ends (fun char => char.isDigit || char = '-' || char = '+')
    (text.dropWhile isspace)

/-! ## Strings -/

theorem isspace_blank : ∀ char ∈ [' '], isspace char = true := by
  intro char hchar
  rw [List.mem_singleton.mp hchar]
  rfl

section Strings

variable {width : Nat} {item rest : List Char}

theorem scanString_none (width : Nat) {stream : List Char}
    (hscan : scanString width stream = none) : ∀ char ∈ stream, isspace char = true := by
  unfold scanString at hscan
  cases hinput : stream.dropWhile isspace with
  | nil => exact List.dropWhile_eq_nil_iff.mp hinput
  | cons first tail => simp [hinput] at hscan

/-- What a string conversion has read. -/
theorem scanString_inv (hwidth : 0 < width) {stream : List Char}
    (hscan : scanString width stream = some (item, rest)) :
    ∃ gap, stream = gap ++ (item ++ rest) ∧ (∀ char ∈ gap, isspace char = true) ∧ item ≠ [] ∧
      (∀ char ∈ item, isspace char = false) ∧ item.length ≤ width ∧
      (item.length = width ∨ Ends (fun char => !isspace char) rest) := by
  unfold scanString at hscan
  cases hinput : stream.dropWhile isspace with
  | nil => simp [hinput] at hscan
  | cons first tail =>
      simp only [hinput, Option.some.injEq, Prod.mk.injEq] at hscan
      obtain ⟨hitem, hrest⟩ := hscan
      have hword := List.takeWhile_append_dropWhile (p := fun char => !isspace char)
        (l := first :: tail)
      have hsplit : item ++ rest = first :: tail := by
        rw [← hrest, hitem]
        refine List.prefix_append_drop ?_ |>.symm
        rw [← hitem]
        exact (List.take_prefix _ _).trans (List.takeWhile_prefix _)
      have hfirst : isspace first = false := dropWhile_ends isspace stream first tail hinput
      refine ⟨stream.takeWhile isspace, ?_, ?_, ?_, ?_, ?_, ?_⟩
      · rw [hsplit, ← hinput, List.takeWhile_append_dropWhile]
      · exact fun char hchar => List.mem_takeWhile_imp hchar
      · rw [← hitem, List.takeWhile_cons_of_pos (by simp [hfirst])]
        cases width with
        | zero => exact absurd hwidth (Nat.lt_irrefl 0)
        | succ width => simp
      · intro char hchar
        rw [← hitem] at hchar
        simpa using List.mem_takeWhile_imp (List.mem_of_mem_take hchar)
      · rw [← hitem, List.length_take]
        exact Nat.min_le_left _ _
      · rcases Nat.lt_or_ge ((first :: tail).takeWhile fun char => !isspace char).length width with
          hshort | hfull
        · right
          rw [List.take_of_length_le (Nat.le_of_lt hshort)] at hitem
          have hbehind : rest = (first :: tail).dropWhile fun char => !isspace char := by
            refine (List.append_right_inj item).mp ?_
            rw [hsplit, ← hitem, hword]
          rw [hbehind]
          exact dropWhile_ends _ _
        · left
          rw [← hitem, List.length_take, Nat.min_eq_left hfull]

/-- A string is converted alike whatever follows the next character, or follows
if it cannot belong to the string. -/
theorem scanString_ahead (hwidth : 0 < width) {front back tail other : List Char}
    (hscan : scanString width (front ++ tail) = some (item, back ++ tail))
    (hnext : (back ++ tail).head? = (back ++ other).head? ∨
      Ends (fun char => !isspace char) (back ++ other)) :
    scanString width (front ++ other) = some (item, back ++ other) := by
  obtain ⟨gap, hstream, hgap, hne, hitem, hlength, hends⟩ := scanString_inv hwidth hscan
  have hfront : front = gap ++ (item ++ back) := by
    refine (List.append_left_inj tail).mp ?_
    simpa using hstream
  rw [hfront, List.append_assoc, List.append_assoc, scanString_gap hgap,
    scanString_word hne hitem hlength]
  refine hends.imp id fun hends => ?_
  rcases hnext with hhead | hother
  · exact ends_of_head hhead hends
  · exact hother

end Strings

theorem scanString_suffix {width : Nat} (hwidth : 0 < width) {stream item rest : List Char}
    (hscan : scanString width stream = some (item, rest)) : rest <:+ stream := by
  obtain ⟨gap, rfl, -⟩ := scanString_inv hwidth hscan
  exact ⟨gap ++ item, List.append_assoc _ _ _⟩

/-! ## Numbers -/

/-- The number that a sign and digits stand for. -/
def numberOf (sign digits : List Char) : Option Int :=
  if digits = [] then none
  else
    let magnitude : Int := Nat.ofDigitChars 10 digits 0
    some (if sign = ['-'] then -magnitude else magnitude)

/-- White space, a sign and digits, as an integer conversion reads them. -/
structure IntegerParts (gap sign digits rest : List Char) : Prop where
  spaces : ∀ char ∈ gap, isspace char = true
  signed : sign = [] ∨ sign = ['-'] ∨ sign = ['+']
  numeric : ∀ char ∈ digits, char.isDigit = true
  ends : Ends Char.isDigit rest
  bare : sign = [] → digits = [] →
    Ends isspace rest ∧ Ends (fun char => char = '-' || char = '+') rest

theorem scanSign_parts (input : List Char) :
    ∃ sign, (sign = [] ∨ sign = ['-'] ∨ sign = ['+']) ∧ input = sign ++ (scanSign input).2 ∧
      (scanSign input).1 = decide (sign = ['-']) ∧
      (sign = [] → Ends (fun char => char = '-' || char = '+') input) := by
  unfold scanSign
  split
  · exact ⟨['-'], by simp, rfl, rfl, by simp⟩
  · exact ⟨['+'], by simp, rfl, by simp, by simp⟩
  · next hminus hplus =>
      refine ⟨[], by simp, rfl, by simp, fun _ char tail heq => ?_⟩
      simp only [Bool.or_eq_false_iff, decide_eq_false_iff_not]
      refine ⟨?_, ?_⟩
      · rintro rfl
        exact hminus tail heq
      · rintro rfl
        exact hplus tail heq

theorem scanInteger_parts {gap sign digits rest : List Char}
    (parts : IntegerParts gap sign digits rest) :
    scanInteger (gap ++ (sign ++ (digits ++ rest))) = (numberOf sign digits, rest) := by
  obtain ⟨htake, hdrop⟩ := takeWhile_of_ends parts.ends
  have hspace : (sign ++ (digits ++ rest)).dropWhile isspace = sign ++ (digits ++ rest) := by
    rcases parts.signed with rfl | rfl | rfl
    · cases digits with
      | nil => exact (takeWhile_of_ends (parts.bare rfl rfl).1).2
      | cons digit digits =>
          have hdigit := isDigit_not_space (parts.numeric digit List.mem_cons_self)
          exact List.dropWhile_cons_of_neg (by simp [hdigit])
    · exact List.dropWhile_cons_of_neg (by decide)
    · exact List.dropWhile_cons_of_neg (by decide)
  have hsign : scanSign (sign ++ (digits ++ rest)) = (decide (sign = ['-']), digits ++ rest) := by
    rcases parts.signed with rfl | rfl | rfl
    · cases digits with
      | nil =>
          have hends := (parts.bare rfl rfl).2
          unfold scanSign
          split
          · next heq => simpa using hends _ _ heq
          · next heq => simpa using hends _ _ heq
          · rfl
      | cons digit digits => exact scanSign_digit (parts.numeric digit List.mem_cons_self) _
    · rfl
    · rfl
  unfold scanInteger
  rw [List.dropWhile_append_of_pos parts.spaces, hspace, hsign]
  simp only [List.takeWhile_append_of_pos parts.numeric, List.dropWhile_append_of_pos parts.numeric,
    htake, hdrop, List.append_nil, numberOf, decide_eq_true_eq]
  split
  · next hnone => rw [hnone, List.nil_append]
  · rfl

theorem exists_parts (stream : List Char) :
    ∃ gap sign digits, stream = gap ++ (sign ++ (digits ++ (scanInteger stream).2)) ∧
      IntegerParts gap sign digits (scanInteger stream).2 ∧
      (scanInteger stream).1 = numberOf sign digits := by
  obtain ⟨sign, hsign, hinput, hnegative, hbare⟩ := scanSign_parts (stream.dropWhile isspace)
  have hstream := List.takeWhile_append_dropWhile (p := isspace) (l := stream)
  have hnumber := List.takeWhile_append_dropWhile (p := Char.isDigit)
    (l := (scanSign (stream.dropWhile isspace)).2)
  have hspaces : ∀ char ∈ stream.takeWhile isspace, isspace char = true :=
    fun char hchar => List.mem_takeWhile_imp hchar
  by_cases hdigits : (scanSign (stream.dropWhile isspace)).2.takeWhile Char.isDigit = []
  · have hscan : scanInteger stream = (none, (scanSign (stream.dropWhile isspace)).2) := by
      unfold scanInteger
      rw [if_pos hdigits]
    rw [hdigits, List.nil_append] at hnumber
    rw [hscan]
    refine ⟨stream.takeWhile isspace, sign, [], ?_, ⟨hspaces, hsign, by simp, ?_, ?_⟩, rfl⟩
    · rw [List.nil_append, ← hinput, hstream]
    · rw [← hnumber]
      exact dropWhile_ends _ _
    · rintro rfl -
      rw [List.nil_append] at hinput
      rw [← hinput]
      exact ⟨dropWhile_ends _ _, hbare rfl⟩
  · refine ⟨stream.takeWhile isspace, sign,
      (scanSign (stream.dropWhile isspace)).2.takeWhile Char.isDigit, ?_, ?_, ?_⟩
    · unfold scanInteger
      rw [if_neg hdigits]
      dsimp only
      rw [hnumber, ← hinput, hstream]
    · unfold scanInteger
      rw [if_neg hdigits]
      refine ⟨hspaces, hsign, fun char hchar => List.mem_takeWhile_imp hchar,
        dropWhile_ends _ _, fun _ hnone => absurd hnone hdigits⟩
    · unfold scanInteger numberOf
      rw [if_neg hdigits, if_neg hdigits, hnegative]
      simp only [decide_eq_true_eq]

theorem scanInteger_suffix (stream : List Char) : (scanInteger stream).2 <:+ stream := by
  obtain ⟨gap, sign, digits, hstream, -⟩ := exists_parts stream
  exact ⟨gap ++ (sign ++ digits), by rw [List.append_assoc, List.append_assoc, ← hstream]⟩

section Numbers

variable {front tail other : List Char} {result : Option Int}

theorem scanInteger_ahead {back : List Char}
    (hscan : scanInteger (front ++ tail) = (result, back ++ tail))
    (hnext : (back ++ tail).head? = (back ++ other).head?) :
    scanInteger (front ++ other) = (result, back ++ other) := by
  obtain ⟨gap, sign, digits, hstream, parts, hresult⟩ := exists_parts (front ++ tail)
  rw [hscan] at hstream parts hresult
  change result = numberOf sign digits at hresult
  have hfront : front = gap ++ (sign ++ (digits ++ back)) := by
    refine (List.append_left_inj tail).mp ?_
    simpa using hstream
  have hparts : IntegerParts gap sign digits (back ++ other) := by
    refine ⟨parts.spaces, parts.signed, parts.numeric, ends_of_head hnext parts.ends, ?_⟩
    intro hsign hdigits
    obtain ⟨hspace, hnosign⟩ := parts.bare hsign hdigits
    exact ⟨ends_of_head hnext hspace, ends_of_head hnext hnosign⟩
  have hread := scanInteger_parts hparts
  rw [hfront, hresult, ← hread]
  simp only [List.append_assoc]

/-- Where nothing is converted, white space may be passed. -/
theorem scanInteger_apart (hscan : scanInteger (front ++ tail) = (result, tail))
    (hother : Apart other) :
    ∃ gap after, other = gap ++ after ∧ (∀ char ∈ gap, isspace char = true) ∧
      scanInteger (front ++ other) = (result, after) := by
  obtain ⟨gap, sign, digits, hstream, parts, hresult⟩ := exists_parts (front ++ tail)
  rw [hscan] at hstream parts hresult
  change result = numberOf sign digits at hresult
  have hfront : front = gap ++ (sign ++ digits) := by
    refine (List.append_left_inj tail).mp ?_
    simpa using hstream
  by_cases hbare : sign = [] ∧ digits = []
  · obtain ⟨rfl, rfl⟩ := hbare
    have hdigits : Ends Char.isDigit (other.dropWhile isspace) :=
      ends_mono (fun char hdigit => by simp [hdigit]) hother.noNumber
    have hsigns : Ends (fun char => char = '-' || char = '+') (other.dropWhile isspace) :=
      ends_mono (fun char hsign => by simpa [or_assoc] using Or.inr hsign) hother.noNumber
    have hspaces : ∀ char ∈ gap ++ other.takeWhile isspace, isspace char = true := by
      intro char hchar
      rcases List.mem_append.mp hchar with hchar | hchar
      · exact parts.spaces char hchar
      · exact List.mem_takeWhile_imp hchar
    have hparts : IntegerParts (gap ++ other.takeWhile isspace) [] [] (other.dropWhile isspace) :=
      ⟨hspaces, Or.inl rfl, by simp, hdigits, fun _ _ => ⟨dropWhile_ends _ _, hsigns⟩⟩
    refine ⟨other.takeWhile isspace, other.dropWhile isspace,
      List.takeWhile_append_dropWhile.symm, fun char hchar => List.mem_takeWhile_imp hchar, ?_⟩
    have hread := scanInteger_parts hparts
    rw [hfront, hresult, ← hread]
    simp [List.takeWhile_append_dropWhile]
  · have hdigits : Ends Char.isDigit other :=
      ends_mono (fun char hdigit => by simp [isDigit_not_space hdigit]) hother.space
    have hparts : IntegerParts gap sign digits other :=
      ⟨parts.spaces, parts.signed, parts.numeric, hdigits,
        fun hsign hnone => absurd ⟨hsign, hnone⟩ hbare⟩
    refine ⟨[], other, rfl, by simp, ?_⟩
    have hread := scanInteger_parts hparts
    rw [hfront, hresult, ← hread]
    simp only [List.append_assoc]

end Numbers

/-! ## Lines -/

theorem skipLine_inv (stream : List Char) :
    ∃ line, stream = line ++ skipLine stream ∧ '\n' ∉ line ∧
      Ends (fun char => char ≠ '\n') (skipLine stream) := by
  refine ⟨stream.takeWhile (· ≠ '\n'), List.takeWhile_append_dropWhile.symm, fun hmem => ?_,
    dropWhile_ends _ _⟩
  simpa using List.mem_takeWhile_imp hmem

theorem skipLine_suffix (stream : List Char) : skipLine stream <:+ stream :=
  List.dropWhile_suffix _

theorem skipLine_line {line rest : List Char} (hline : '\n' ∉ line)
    (hends : Ends (fun char => char ≠ '\n') rest) : skipLine (line ++ rest) = rest := by
  have hall : ∀ char ∈ line, decide (char ≠ '\n') = true := by
    intro char hchar
    refine decide_eq_true ?_
    rintro rfl
    exact hline hchar
  unfold skipLine
  rw [List.dropWhile_append_of_pos hall]
  exact (takeWhile_of_ends hends).2

theorem skipLine_ahead {front back tail other : List Char}
    (hscan : skipLine (front ++ tail) = back ++ tail)
    (hnext : (back ++ tail).head? = (back ++ other).head?) :
    skipLine (front ++ other) = back ++ other := by
  obtain ⟨line, hstream, hline, hends⟩ := skipLine_inv (front ++ tail)
  rw [hscan] at hstream hends
  have hfront : front = line ++ back := by
    refine (List.append_left_inj tail).mp ?_
    simpa using hstream
  rw [hfront, List.append_assoc]
  exact skipLine_line hline (ends_of_head hnext hends)

end ClusteredPoller
