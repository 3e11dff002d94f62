import Mathlib.Data.List.Basic

/-!
# Options on a command line

What `getopt` finds in the words of a command line.  A word that starts with a
dash holds the letters of options; the argument of an option is the rest of its
word, or else the next word.  The options end in front of the first other word,
or behind `--`.

Which command lines are accepted, and as what, is also said by a grammar.  It
generates exactly the accepted ones.
-/

namespace ClusteredPoller.Library.Getopt

inductive Kind where
  | flag
  /-- An option with an argument. -/
  | argument
  deriving DecidableEq

/-- The letters that are options. -/
abbrev Spec := Char → Option Kind

/-- What an option string says: a letter with a colon behind it needs an
argument. -/
def ofString : List Char → Spec
  | [], _ => none
  | letter :: rest, wanted =>
      if wanted = letter ∧ letter ≠ ':' then
        some (if rest.head? = some ':' then .argument else .flag)
      else ofString rest wanted

theorem mem_of_ofString {text : List Char} {wanted : Char} {kind : Kind}
    (hkind : ofString text wanted = some kind) : wanted ∈ text := by
  induction text with
  | nil => cases hkind
  | cons letter rest ih =>
      rw [ofString] at hkind
      split at hkind
      · rename_i hletter
        rw [hletter.1]
        exact List.mem_cons_self
      · exact List.mem_cons_of_mem _ (ih hkind)

inductive Given where
  | flag (letter : Char)
  | argument (letter : Char) (text : List Char)
  deriving DecidableEq

/-- The options in one word, and the letter that still needs an argument.  What
is no option is `none`, the answer `?`. -/
def letters (spec : Spec) : List Char → List (Option Given) × Option Char
  | [] => ([], none)
  | letter :: rest =>
      match spec letter with
      | none => (none :: (letters spec rest).1, (letters spec rest).2)
      | some .flag => (some (.flag letter) :: (letters spec rest).1, (letters spec rest).2)
      | some .argument =>
          if rest = [] then ([], some letter) else ([some (.argument letter rest)], none)

/-- The options of a command line, and the words behind them. -/
def options (spec : Spec) : Option Char → List (List Char) →
    List (Option Given) × List (List Char)
  | none, [] => ([], [])
  | some _, [] => ([none], [])
  | some letter, text :: words =>
      (some (.argument letter text) :: (options spec none words).1, (options spec none words).2)
  | none, ['-', '-'] :: words => ([], words)
  | none, ('-' :: letter :: rest) :: words =>
      let found := letters spec (letter :: rest)
      (found.1 ++ (options spec found.2 words).1, (options spec found.2 words).2)
  | none, words => ([], words)

/-! ## The grammar -/

def Flags (spec : Spec) (chars : List Char) : Prop := ∀ letter ∈ chars, spec letter = some .flag

/-- The words spell the options. -/
inductive Spells (spec : Spec) : List Given → List (List Char) → Prop where
  | nil : Spells spec [] []
  | stop : Spells spec [] [['-', '-']]
  | flags {given : List Given} {words : List (List Char)} (chars : List Char) (hne : chars ≠ [])
      (hflags : Flags spec chars) (rest : Spells spec given words) :
      Spells spec (chars.map .flag ++ given) (('-' :: chars) :: words)
  | attached {given : List Given} {words : List (List Char)} (chars : List Char) (letter : Char)
      (text : List Char) (hflags : Flags spec chars) (hletter : spec letter = some .argument)
      (htext : text ≠ []) (rest : Spells spec given words) :
      Spells spec (chars.map .flag ++ .argument letter text :: given)
        (('-' :: (chars ++ letter :: text)) :: words)
  | separate {given : List Given} {words : List (List Char)} (chars : List Char) (letter : Char)
      (text : List Char) (hflags : Flags spec chars) (hletter : spec letter = some .argument)
      (rest : Spells spec given words) :
      Spells spec (chars.map .flag ++ .argument letter text :: given)
        (('-' :: (chars ++ [letter])) :: text :: words)

/-- The option is one of these letters, of its kind. -/
def Given.Known (spec : Spec) : Given → Prop
  | .flag letter => spec letter = some .flag
  | .argument letter _ => spec letter = some .argument

/-! ## One word -/

section Letters

variable {spec : Spec} {chars : List Char}

theorem letters_flags (hflags : Flags spec chars) (rest : List Char) :
    letters spec (chars ++ rest) =
      ((chars.map .flag).map some ++ (letters spec rest).1, (letters spec rest).2) := by
  induction chars with
  | nil => rfl
  | cons letter chars ih =>
      have hfirst := hflags letter List.mem_cons_self
      have hrest := ih fun other hother => hflags other (List.mem_cons_of_mem _ hother)
      rw [List.cons_append, letters, hfirst, hrest]
      rfl

theorem letters_argument {letter : Char} (hletter : spec letter = some .argument)
    (text : List Char) :
    letters spec (letter :: text) =
      if text = [] then ([], some letter) else ([some (.argument letter text)], none) := by
  rw [letters, hletter]

/-- What a word without an invalid letter is. -/
inductive Read (spec : Spec) : List Char → List Given → Option Char → Prop where
  | flags (chars : List Char) (hflags : Flags spec chars) :
      Read spec chars (chars.map .flag) none
  | attached (chars : List Char) (letter : Char) (text : List Char) (hflags : Flags spec chars)
      (hletter : spec letter = some .argument) (htext : text ≠ []) :
      Read spec (chars ++ letter :: text) (chars.map .flag ++ [.argument letter text]) none
  | waits (chars : List Char) (letter : Char) (hflags : Flags spec chars)
      (hletter : spec letter = some .argument) :
      Read spec (chars ++ [letter]) (chars.map .flag) (some letter)

theorem Flags.cons {letter : Char} (hletter : spec letter = some .flag)
    (hflags : Flags spec chars) : Flags spec (letter :: chars) := by
  intro other hother
  rcases List.mem_cons.mp hother with rfl | hlater
  · exact hletter
  · exact hflags other hlater

theorem Read.cons {letter : Char} {given : List Given} {pending : Option Char}
    (hletter : spec letter = some .flag) (read : Read spec chars given pending) :
    Read spec (letter :: chars) (.flag letter :: given) pending := by
  cases read with
  | flags _ hflags => exact .flags _ (hflags.cons hletter)
  | attached front last text hflags hlast htext =>
      exact .attached (letter :: front) last text (hflags.cons hletter) hlast htext
  | waits front last hflags hlast => exact .waits (letter :: front) last (hflags.cons hletter) hlast

/-- A word is read without an invalid letter in these ways. -/
theorem read_of_letters {given : List Given} {pending : Option Char}
    (hletters : letters spec chars = (given.map some, pending)) :
    Read spec chars given pending := by
  induction chars generalizing given with
  | nil =>
      obtain ⟨hgiven, rfl⟩ := Prod.mk.inj hletters
      obtain rfl := List.map_eq_nil_iff.mp hgiven.symm
      exact .flags [] nofun
  | cons letter rest ih =>
      rw [letters] at hletters
      cases hspec : spec letter with
      | none =>
          rw [hspec] at hletters
          cases given with
          | nil => cases hletters
          | cons first given => cases hletters
      | some kind =>
          rw [hspec] at hletters
          cases kind with
          | flag =>
              obtain ⟨hgiven, hpending⟩ := Prod.mk.inj hletters
              cases given with
              | nil => cases hgiven
              | cons first given =>
                  obtain ⟨hfirst, hlater⟩ := List.cons.inj hgiven
                  cases hfirst
                  exact (ih (Prod.ext hlater hpending)).cons hspec
          | argument =>
              dsimp only at hletters
              split at hletters
              · rename_i hrest
                obtain ⟨hgiven, rfl⟩ := Prod.mk.inj hletters
                obtain rfl := List.map_eq_nil_iff.mp hgiven.symm
                subst hrest
                exact .waits [] letter nofun hspec
              · rename_i hrest
                obtain ⟨hgiven, rfl⟩ := Prod.mk.inj hletters
                obtain ⟨first, rfl, hfirst⟩ := List.map_eq_singleton_iff.mp hgiven.symm
                cases hfirst
                exact .attached [] letter rest nofun hspec hrest

end Letters

/-! ## The command line -/

section Options

variable {spec : Spec} {given : List Given} {words : List (List Char)}

/-- The first letter of a word of options does not end the options. -/
theorem options_word (hdash : spec '-' = none) {letter : Char} (hletter : spec letter ≠ none)
    (rest : List Char) :
    options spec none (('-' :: letter :: rest) :: words) =
      ((letters spec (letter :: rest)).1 ++
          (options spec (letters spec (letter :: rest)).2 words).1,
        (options spec (letters spec (letter :: rest)).2 words).2) := by
  have hne : letter ≠ '-' := by
    rintro rfl
    exact hletter hdash
  rw [options]
  exact fun heq _ => hne heq

theorem options_flags (hdash : spec '-' = none) {chars : List Char} (hne : chars ≠ [])
    (hflags : Flags spec chars) :
    options spec none (('-' :: chars) :: words) =
      ((chars.map .flag).map some ++ (options spec none words).1,
        (options spec none words).2) := by
  have hletters := letters_flags hflags []
  rw [List.append_nil] at hletters
  cases chars with
  | nil => exact absurd rfl hne
  | cons letter rest =>
      have hletter : spec letter ≠ none := by
        rw [hflags letter List.mem_cons_self]
        nofun
      rw [options_word hdash hletter, hletters]
      exact congrArg (fun front => (front ++ (options spec none words).1, _))
        (List.append_nil _)

theorem options_argument (hdash : spec '-' = none) {chars : List Char} (hflags : Flags spec chars)
    {letter : Char} (hletter : spec letter = some .argument) (text : List Char) :
    options spec none (('-' :: (chars ++ letter :: text)) :: words) =
      ((chars.map .flag).map some ++ (letters spec (letter :: text)).1 ++
          (options spec (letters spec (letter :: text)).2 words).1,
        (options spec (letters spec (letter :: text)).2 words).2) := by
  have hletters := letters_flags hflags (letter :: text)
  cases chars with
  | nil =>
      have hknown : spec letter ≠ none := by
        rw [hletter]
        nofun
      exact options_word hdash hknown text
  | cons first rest =>
      have hknown : spec first ≠ none := by
        rw [hflags first List.mem_cons_self]
        nofun
      rw [List.cons_append] at hletters ⊢
      rw [options_word hdash hknown, hletters]

/-- What is spelled is found. -/
theorem options_of_spells (hdash : spec '-' = none) (spells : Spells spec given words) :
    options spec none words = (given.map some, []) := by
  induction spells with
  | nil | stop => rfl
  | flags chars hne hflags _ ih => rw [options_flags hdash hne hflags, ih, List.map_append]
  | attached chars letter text hflags hletter htext _ ih =>
      rw [options_argument hdash hflags hletter, letters_argument hletter, if_neg htext, ih,
        List.map_append, List.append_assoc]
      rfl
  | separate chars letter text hflags hletter _ ih =>
      rw [options_argument hdash hflags hletter, letters_argument hletter, if_pos rfl, options, ih,
        List.map_append, List.append_nil]
      rfl

/-- The words, or those behind the argument that an option still needs, spell
the options. -/
def SpellsBehind (spec : Spec) : Option Char → List Given → List (List Char) → Prop
  | none, given, words => Spells spec given words
  | some letter, given, words => ∃ text later behind, words = text :: behind ∧
      given = .argument letter text :: later ∧ Spells spec later behind

theorem spells_of_read {chars : List Char} {first later : List Given} {pending : Option Char}
    (hne : chars ≠ []) (read : Read spec chars first pending)
    (behind : SpellsBehind spec pending later words) :
    Spells spec (first ++ later) (('-' :: chars) :: words) := by
  cases read with
  | flags _ hflags => exact .flags chars hne hflags behind
  | attached front letter text hflags hletter htext =>
      rw [List.append_assoc]
      exact .attached front letter text hflags hletter htext behind
  | waits front letter hflags hletter =>
      obtain ⟨text, later, behind, rfl, rfl, spells⟩ := behind
      exact .separate front letter text hflags hletter spells

/-- What is found was spelled. -/
theorem spells_of_options {pending : Option Char}
    (hoptions : options spec pending words = (given.map some, [])) :
    SpellsBehind spec pending given words := by
  induction pending, words using options.induct spec generalizing given with
  | case1 =>
      obtain rfl := List.map_eq_nil_iff.mp (Prod.mk.inj hoptions).1.symm
      exact .nil
  | case2 letter =>
      obtain ⟨hgiven, -⟩ := Prod.mk.inj hoptions
      cases given with
      | nil => cases hgiven
      | cons first given => cases hgiven
  | case3 letter text words ih =>
      obtain ⟨hgiven, hrest⟩ := Prod.mk.inj hoptions
      cases given with
      | nil => cases hgiven
      | cons first later =>
          obtain ⟨hfirst, hlater⟩ := List.cons.inj hgiven
          cases hfirst
          exact ⟨text, later, words, rfl, rfl, ih (Prod.ext hlater hrest)⟩
  | case4 words =>
      obtain ⟨hgiven, rfl⟩ := Prod.mk.inj hoptions
      obtain rfl := List.map_eq_nil_iff.mp hgiven.symm
      exact .stop
  | case5 letter rest words hother found =>
      rename_i ih
      rw [options] at hoptions
      · obtain ⟨hgiven, hrest⟩ := Prod.mk.inj hoptions
        obtain ⟨first, later, rfl, hfirst, hlater⟩ := List.map_eq_append_iff.mp hgiven.symm
        have read := read_of_letters (Prod.ext hfirst.symm rfl)
        exact spells_of_read (List.cons_ne_nil _ _) read (ih (Prod.ext hlater.symm hrest))
      · exact hother
  | case6 words hnil hstop hword =>
      rw [options] at hoptions
      · obtain ⟨-, rfl⟩ := Prod.mk.inj hoptions
        exact absurd rfl hnil
      · exact hnil
      · exact hstop
      · exact hword

/-- A command line is accepted as exactly what it spells. -/
theorem options_iff (hdash : spec '-' = none) :
    options spec none words = (given.map some, []) ↔ Spells spec given words :=
  ⟨spells_of_options, options_of_spells hdash⟩

theorem Spells.known (spells : Spells spec given words) :
    ∀ option ∈ given, option.Known spec := by
  have flags : ∀ {chars : List Char}, Flags spec chars →
      ∀ option ∈ chars.map Given.flag, option.Known spec := by
    rintro chars hflags option hoption
    obtain ⟨letter, hletter, rfl⟩ := List.mem_map.mp hoption
    exact hflags letter hletter
  induction spells with
  | nil | stop => exact nofun
  | flags chars _ hflags _ ih =>
      exact fun option hoption =>
        (List.mem_append.mp hoption).elim (flags hflags option) (ih option)
  | attached chars letter text hflags hletter _ _ ih
  | separate chars letter text hflags hletter _ ih =>
      intro option hoption
      rcases List.mem_append.mp hoption with hfront | hbehind
      · exact flags hflags option hfront
      · rcases List.mem_cons.mp hbehind with rfl | hlater
        · exact hletter
        · exact ih option hlater

end Options

end ClusteredPoller.Library.Getopt
