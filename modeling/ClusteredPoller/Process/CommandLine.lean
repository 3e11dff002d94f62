import ClusteredPoller.Library.Getopt
import ClusteredPoller.Library.LastSetting
import ClusteredPoller.Process.Main

/-!
# The command line

How `main` reads its options, and when it lets them pass.  With POSIX `getopt`
the options end at the first word that is none; where `getopt` goes on behind
that word, `main` prints its help all the same, since the word remains.
-/

namespace ClusteredPoller.Process

open Library
open Library.Getopt (Given Spells options)

/-- What the options set: locals of `main`, and `verbosity`. -/
@[ext]
structure Arguments extends Options where
  detach : Bool
  rtgconfFile : CString
  targetsFile : CString
  verbosity : Nat

def defaultRtgconfFile : CString := CString.ofString "/usr/local/rtg/etc/rtg.conf"

def defaultTargetsFile : CString := CString.ofString "/usr/local/rtg/etc/targets.cfg"

def defaultArguments : Arguments where
  useDb := true
  useRateColumn := true
  useCurrvalueColumn := false
  allowDbZero := false
  maxDbQueue := 10000
  numDbthreads := 1
  maxErrorsPerHost := 3
  detach := true
  rtgconfFile := defaultRtgconfFile
  targetsFile := defaultTargetsFile
  verbosity := 0

def optionSpec : Getopt.Spec := Getopt.ofString "c:dt:vzCDE:OOQ:W:".toList

/-- `(unsigned) strtol(optarg, NULL, 10)` -/
def strtolUnsigned (text : CString) : UInt32 :=
  match (scanInteger text.chars).1 with
  | some number => UInt32.ofInt (strtol number)
  | none => 0

/-- A `case` of the `switch`; `none` prints the help and exits. -/
def Arguments.switch (args : Arguments) : Option Given → Option Arguments
  | some (.argument 'c' text) => some { args with rtgconfFile := CString.ofMemory text }
  | some (.flag 'd') => some { args with useDb := false }
  | some (.argument 't' text) => some { args with targetsFile := CString.ofMemory text }
  | some (.flag 'v') => some { args with verbosity := args.verbosity + 1 }
  | some (.flag 'z') => some { args with allowDbZero := true }
  | some (.flag 'C') => some { args with useCurrvalueColumn := true }
  | some (.flag 'D') => some { args with detach := false }
  | some (.argument 'E' text) =>
      some { args with maxErrorsPerHost := strtolUnsigned (CString.ofMemory text) }
  | some (.flag 'O') => some { args with useRateColumn := false }
  | some (.argument 'Q' text) =>
      some { args with maxDbQueue := strtolUnsigned (CString.ofMemory text) }
  | some (.argument 'W' text) =>
      some { args with numDbthreads := strtolUnsigned (CString.ofMemory text) }
  | _ => none

/-- `main` up to `realpath`, with the words behind the program's name; `none`
is the exit with a failure. -/
def parseArguments (words : List CString) : Option Arguments :=
  if words = [] then none
  else
    let found := options optionSpec none (words.map CString.chars)
    (found.1.foldlM Arguments.switch defaultArguments).bind fun args =>
      if found.2 ≠ [] then none
      else if args.maxDbQueue.toNat < minQueueLength then none
      else if args.numDbthreads.toNat < 1 then none
      else some args

/-! ## What the options say -/

/-- The argument, of an option with this letter. -/
def textOf (letter : Char) : Given → Option CString
  | .argument other text => if other = letter then some (CString.ofMemory text) else none
  | .flag _ => none

def lastText (letter : Char) (given : List Given) : Option CString :=
  LastSetting.last (textOf letter) given

/-- The arguments, from the options in whatever order: each flag is there or
not, and the last text counts. -/
def Arguments.ofGiven (given : List Given) : Arguments where
  useDb := decide (.flag 'd' ∉ given)
  useRateColumn := decide (.flag 'O' ∉ given)
  useCurrvalueColumn := decide (.flag 'C' ∈ given)
  allowDbZero := decide (.flag 'z' ∈ given)
  maxDbQueue := ((lastText 'Q' given).map strtolUnsigned).getD 10000
  numDbthreads := ((lastText 'W' given).map strtolUnsigned).getD 1
  maxErrorsPerHost := ((lastText 'E' given).map strtolUnsigned).getD 3
  detach := decide (.flag 'D' ∉ given)
  rtgconfFile := (lastText 'c' given).getD defaultRtgconfFile
  targetsFile := (lastText 't' given).getD defaultTargetsFile
  verbosity := given.count (.flag 'v')

/-! ## Option by option -/

/-- A known option changes the arguments like this. -/
def Arguments.take (args : Arguments) (option : Given) : Arguments :=
  (args.switch (some option)).getD args

section Known

variable {option : Given}

theorem flag_of_known {letter : Char} (known : (Given.flag letter).Known optionSpec) :
    letter ∈ ['d', 'v', 'z', 'C', 'D', 'O'] := by
  have listed : ∀ letter ∈ "c:dt:vzCDE:OOQ:W:".toList, optionSpec letter = some .flag →
      letter ∈ ['d', 'v', 'z', 'C', 'D', 'O'] := by decide
  exact listed letter (Getopt.mem_of_ofString known) known

theorem argument_of_known {letter : Char} {text : List Char}
    (known : (Given.argument letter text).Known optionSpec) :
    letter ∈ ['c', 't', 'E', 'Q', 'W'] := by
  have listed : ∀ letter ∈ "c:dt:vzCDE:OOQ:W:".toList, optionSpec letter = some .argument →
      letter ∈ ['c', 't', 'E', 'Q', 'W'] := by decide
  exact listed letter (Getopt.mem_of_ofString known) known

/-- The `switch` has a case for every letter of the option string. -/
theorem switch_known (known : option.Known optionSpec) (args : Arguments) :
    args.switch (some option) = some (args.take option) := by
  suffices hsome : (args.switch (some option)).isSome by
    obtain ⟨next, hnext⟩ := Option.isSome_iff_exists.mp hsome
    rw [Arguments.take, hnext]
    rfl
  cases option with
  | flag letter =>
      have hletter := flag_of_known known
      simp only [List.mem_cons, List.not_mem_nil, or_false] at hletter
      rcases hletter with rfl | rfl | rfl | rfl | rfl | rfl <;> rfl
  | argument letter text =>
      have hletter := argument_of_known known
      simp only [List.mem_cons, List.not_mem_nil, or_false] at hletter
      rcases hletter with rfl | rfl | rfl | rfl | rfl <;> rfl

theorem switch_all {given : List Given} (known : ∀ option ∈ given, option.Known optionSpec)
    (args : Arguments) :
    (given.map some).foldlM Arguments.switch args = some (given.foldl Arguments.take args) := by
  induction given generalizing args with
  | nil => rfl
  | cons option given ih =>
      rw [List.map_cons, List.foldlM_cons, switch_known (known option List.mem_cons_self)]
      exact ih (fun other hother => known other (List.mem_cons_of_mem _ hother)) _

end Known

/-- What is no option stops the program. -/
theorem options_of_switch_all {found : List (Option Given)} {args next : Arguments}
    (hfound : found.foldlM Arguments.switch args = some next) :
    ∃ given : List Given, found = given.map some := by
  induction found generalizing args with
  | nil => exact ⟨[], rfl⟩
  | cons option found ih =>
      rw [List.foldlM_cons] at hfound
      obtain ⟨later, hoption, hlater⟩ := Option.bind_eq_some_iff.mp hfound
      obtain ⟨given, rfl⟩ := ih hlater
      cases option with
      | none => cases hoption
      | some first => exact ⟨first :: given, rfl⟩

/-! ## Field by field -/

theorem take_eq (args : Arguments) (option : Given) :
    args.take option =
      { useDb := if option = .flag 'd' then false else args.useDb
        useRateColumn := if option = .flag 'O' then false else args.useRateColumn
        useCurrvalueColumn := if option = .flag 'C' then true else args.useCurrvalueColumn
        allowDbZero := if option = .flag 'z' then true else args.allowDbZero
        maxDbQueue := ((textOf 'Q' option).map strtolUnsigned).getD args.maxDbQueue
        numDbthreads := ((textOf 'W' option).map strtolUnsigned).getD args.numDbthreads
        maxErrorsPerHost := ((textOf 'E' option).map strtolUnsigned).getD args.maxErrorsPerHost
        detach := if option = .flag 'D' then false else args.detach
        rtgconfFile := (textOf 'c' option).getD args.rtgconfFile
        targetsFile := (textOf 't' option).getD args.targetsFile
        verbosity := args.verbosity + if option = .flag 'v' then 1 else 0 } := by
  unfold Arguments.take Arguments.switch
  split
  case h_12 hother =>
    cases option with
    | flag _ => simp_all [textOf]
    | argument _ _ => simp_all [textOf]
  all_goals simp_all [textOf]

section Fields

variable {α : Type} (field : Arguments → α) (given : List Given)

/-- A flag counts wherever it is. -/
theorem foldl_flag (letter : Char) (value : α) (sets : ∀ args option,
      field (args.take option) = if option = .flag letter then value else field args) :
    field (given.foldl Arguments.take defaultArguments) =
      if .flag letter ∈ given then value else field defaultArguments := by
  have hsets : LastSetting.Sets Arguments.take field
      fun option => if option = .flag letter then some value else none := by
    intro args option
    dsimp only
    rw [sets]
    by_cases hoption : option = .flag letter
    · rw [if_pos hoption, if_pos hoption, Option.getD_some]
    · rw [if_neg hoption, if_neg hoption, Option.getD_none]
  rw [LastSetting.foldl_field hsets, LastSetting.last_const]
  by_cases hgiven : .flag letter ∈ given
  · rw [if_pos hgiven, if_pos hgiven, Option.getD_some]
  · rw [if_neg hgiven, if_neg hgiven, Option.getD_none]

/-- Of an option with an argument, the last one counts. -/
theorem foldl_text (letter : Char) (convert : CString → α) (sets : ∀ args option,
      field (args.take option) = ((textOf letter option).map convert).getD (field args)) :
    field (given.foldl Arguments.take defaultArguments) =
      ((lastText letter given).map convert).getD (field defaultArguments) := by
  rw [LastSetting.foldl_field sets, LastSetting.last_map]
  rfl

theorem foldl_verbosity (args : Arguments) :
    (given.foldl Arguments.take args).verbosity = args.verbosity + given.count (.flag 'v') := by
  induction given generalizing args with
  | nil => rfl
  | cons option given ih =>
      rw [List.foldl_cons, ih, take_eq, List.count_cons]
      simp only [beq_iff_eq]
      omega

end Fields

/-- The loop over the options leaves what they say. -/
theorem foldl_take (given : List Given) :
    given.foldl Arguments.take defaultArguments = .ofGiven given := by
  have off : ∀ letter, (if .flag letter ∈ given then false else true) =
      decide (.flag letter ∉ given) := by simp
  have on : ∀ letter, (if .flag letter ∈ given then true else false) =
      decide (.flag letter ∈ given) := by simp
  ext1
  · exact (foldl_flag (·.useDb) given 'd' false fun _ _ => by rw [take_eq]).trans (off 'd')
  · exact (foldl_flag (·.useRateColumn) given 'O' false fun _ _ => by rw [take_eq]).trans
      (off 'O')
  · exact (foldl_flag (·.useCurrvalueColumn) given 'C' true fun _ _ => by rw [take_eq]).trans
      (on 'C')
  · exact (foldl_flag (·.allowDbZero) given 'z' true fun _ _ => by rw [take_eq]).trans (on 'z')
  · exact foldl_text (·.maxDbQueue) given 'Q' strtolUnsigned fun _ _ => by rw [take_eq]
  · exact foldl_text (·.numDbthreads) given 'W' strtolUnsigned fun _ _ => by rw [take_eq]
  · exact foldl_text (·.maxErrorsPerHost) given 'E' strtolUnsigned fun _ _ => by rw [take_eq]
  · exact (foldl_flag (·.detach) given 'D' false fun _ _ => by rw [take_eq]).trans (off 'D')
  · exact (foldl_text (·.rtgconfFile) given 'c' id fun _ _ => by
      rw [take_eq, Option.map_id_apply]).trans (by rw [Option.map_id_apply]; rfl)
  · exact (foldl_text (·.targetsFile) given 't' id fun _ _ => by
      rw [take_eq, Option.map_id_apply]).trans (by rw [Option.map_id_apply]; rfl)
  · exact (foldl_verbosity given _).trans (Nat.zero_add _)

/-! ## The whole line -/

/-- The program starts exactly with the words that spell options with which it
can run, and with what these say. -/
theorem command_line_iff (words : List CString) (args : Arguments) :
    parseArguments words = some args ↔
      words ≠ [] ∧ ∃ given, Spells optionSpec given (words.map CString.chars) ∧
        args = .ofGiven given ∧ minQueueLength ≤ args.maxDbQueue.toNat ∧
        1 ≤ args.numDbthreads.toNat := by
  have hdash : optionSpec '-' = none := rfl
  constructor
  · intro hparse
    unfold parseArguments at hparse
    split at hparse
    · cases hparse
    · rename_i hne
      obtain ⟨last, hfound, hlast⟩ := Option.bind_eq_some_iff.mp hparse
      split at hlast
      · cases hlast
      · rename_i hwords
        split at hlast
        · cases hlast
        · rename_i hqueue
          split at hlast
          · cases hlast
          · rename_i hthreads
            cases hlast
            obtain ⟨given, hgiven⟩ := options_of_switch_all hfound
            have spells := (Getopt.options_iff hdash).mp
              (Prod.ext hgiven (Decidable.not_not.mp hwords))
            rw [hgiven, switch_all spells.known, foldl_take] at hfound
            exact ⟨hne, given, spells, (Option.some.inj hfound).symm, Nat.le_of_not_lt hqueue,
              Nat.le_of_not_lt hthreads⟩
  · rintro ⟨hne, given, spells, rfl, hqueue, hthreads⟩
    unfold parseArguments
    rw [if_neg hne, (Getopt.options_iff hdash).mpr spells]
    dsimp only
    rw [switch_all spells.known, foldl_take, Option.bind_some, if_neg (not_not.mpr rfl),
      if_neg (Nat.not_lt.mpr hqueue), if_neg (Nat.not_lt.mpr hthreads)]

example : (parseArguments (["-dvv", "-Q", "200", "-c/etc/rtg.conf"].map
    fun word => CString.ofMemory word.toList)).map (fun args =>
      (args.useDb, args.verbosity, args.maxDbQueue, args.rtgconfFile.chars)) =
    some (false, 2, 200, "/etc/rtg.conf".toList) := by decide +kernel

end ClusteredPoller.Process
