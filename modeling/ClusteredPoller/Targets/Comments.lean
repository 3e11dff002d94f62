import ClusteredPoller.Targets.Positions

/-!
# Comments

Each reading loop skips a comment in front of a directive, and goes on where the
line ends.  A comment that is put where a loop is about to read its next token
is not noticed, unless the file broke off in front of a host's name: the comment
is then taken for the name.
-/

namespace ClusteredPoller.Targets

open Library.Format (Ends ends_cons)
open Library.Outcome (ok_bind)
open Poller

/-- A blank, and a comment that ends its line. -/
def commentLine (comment : List Char) : List Char := ' ' :: '#' :: (comment ++ ['\n'])

/-! ## Skipping -/

section Skipping

variable {unspecified : Unspecified} {conf : Rtgconf} {comment rest : List Char}

theorem commentLine_apart (comment rest : List Char) : Apart (commentLine comment ++ rest) := by
  constructor
  · exact ends_cons (by decide) _
  · exact ends_cons (by decide) _

theorem isComment_hash (item : List Char) :
    isComment (strclean (strtolower (CString.ofMemory ('#' :: item)))) = true := rfl

/-- A word that starts with the mark ends on the line. -/
theorem scanWord_hash (hcomment : '\n' ∉ comment) (rest : List Char) :
    ∃ word line, scanWord ('#' :: (comment ++ '\n' :: rest)) = some (word, line ++ '\n' :: rest) ∧
      isComment word = true ∧ '\n' ∉ line := by
  cases hscan : scanString 512 ('#' :: (comment ++ '\n' :: rest)) with
  | none => exact absurd (scanString_none 512 hscan '#' List.mem_cons_self) (by decide)
  | some read =>
      obtain ⟨item, left⟩ := read
      obtain ⟨gap, hstream, hgap, hne, hitem, -⟩ := scanString_inv (by decide) hscan
      have hnogap : gap = [] := by
        cases gap with
        | nil => rfl
        | cons first gap =>
            obtain ⟨hfirst, -⟩ := List.cons.inj hstream
            exact absurd (hgap first List.mem_cons_self) (by rw [← hfirst]; decide)
      rw [hnogap, List.nil_append] at hstream
      cases item with
      | nil => exact absurd rfl hne
      | cons first item =>
          obtain ⟨rfl, hline⟩ := List.cons.inj hstream
          obtain ⟨line, hleft, hnone⟩ : ∃ line, left = line ++ '\n' :: rest ∧ '\n' ∉ line := by
            rcases List.append_eq_append_iff.mp hline with
              ⟨more, hmore, hrest⟩ | ⟨line, hmore, hleft⟩
            · cases more with
              | nil => exact ⟨[], hrest.symm, by simp⟩
              | cons char more =>
                  -- The newline would be part of the word.
                  obtain ⟨rfl, -⟩ := List.cons.inj hrest
                  have hspace := hitem '\n' (by simp [hmore])
                  exact absurd hspace (by decide)
            · exact ⟨line, hleft, fun hmem => hcomment (hmore ▸ List.mem_append_right _ hmem)⟩
          exact ⟨_, line, by rw [scanWord, hscan, hleft]; rfl, isComment_hash item, hnone⟩

theorem finish_newline (loop : Loop) (rest : List Char) :
    finish unspecified conf loop ('\n' :: rest) = finish unspecified conf loop rest :=
  @finish_spaces _ _ loop rest ['\n'] (by decide)

theorem finish_hash (hcomment : '\n' ∉ comment) (loop : Loop) (rest : List Char) :
    finish unspecified conf loop ('#' :: (comment ++ '\n' :: rest)) =
      finish unspecified conf loop rest := by
  obtain ⟨word, line, hword, hmark, hline⟩ := scanWord_hash hcomment rest
  have hends : Ends (fun char => decide (char ≠ '\n')) ('\n' :: rest) := ends_cons (by decide) rest
  rw [finish_turn hword, turn_comment hmark, ok_bind, skipLine_line hline hends, finish_newline]

/-- From each loop, a comment leads to where it ends. -/
theorem finish_commentLine (hcomment : '\n' ∉ comment) (loop : Loop) (rest : List Char) :
    finish unspecified conf loop (commentLine comment ++ rest) =
      finish unspecified conf loop rest := by
  rw [← finish_hash hcomment loop rest]
  simpa [commentLine] using
    @finish_spaces unspecified conf loop ('#' :: (comment ++ '\n' :: rest)) [' '] isspace_blank

end Skipping

/-! ## A step up to the comment -/

section Across

variable {one two : Unspecified} {conf : Rtgconf} {comment front rest : List Char}
  (hcomment : '\n' ∉ comment)

include hcomment

/-- A comment behind a comment is part of it. -/
theorem skipLine_across (hskip : skipLine (front ++ rest) = rest) :
    skipLine (front ++ (commentLine comment ++ rest)) = '\n' :: rest := by
  obtain ⟨line, hstream, hline, -⟩ := skipLine_inv (front ++ rest)
  rw [hskip] at hstream
  have hfront : front = line := List.append_cancel_right hstream
  have hnone : '\n' ∉ front ++ ' ' :: '#' :: comment := by
    rw [hfront]
    simp [hline, hcomment]
  have hends : Ends (fun char => decide (char ≠ '\n')) ('\n' :: rest) := ends_cons (by decide) rest
  simpa [commentLine] using skipLine_line hnone hends

omit hcomment in
theorem scanString_across {width : Nat} (hwidth : 0 < width) {item : List Char}
    (hscan : scanString width (front ++ rest) = some (item, rest)) :
    scanString width (front ++ (commentLine comment ++ rest)) =
      some (item, commentLine comment ++ rest) :=
  @scanString_ahead width item hwidth front [] rest _ hscan
    (Or.inr (commentLine_apart comment rest).space)

omit hcomment in
theorem scanArgument_across (hrest : (scanArgument (front ++ rest)).2 = rest)
    (htext : (scanArgument (front ++ rest)).1 ≠ none) :
    scanArgument (front ++ (commentLine comment ++ rest)) =
      ((scanArgument (front ++ rest)).1, commentLine comment ++ rest) := by
  unfold scanArgument at hrest htext ⊢
  cases hread : scanString 128 (front ++ rest) with
  | none => simp [hread] at htext
  | some read =>
      obtain ⟨item, after⟩ := read
      simp only [hread] at hrest
      subst hrest
      simp only [scanString_across (by decide) hread]

omit hcomment in
theorem scanName_across {word : CString} (hrest : (scanName word (front ++ rest)).2 = rest)
    (hname : scanString 512 (front ++ rest) ≠ none) :
    scanName word (front ++ (commentLine comment ++ rest)) =
      ((scanName word (front ++ rest)).1, commentLine comment ++ rest) := by
  unfold scanName at hrest ⊢
  cases hread : scanString 512 (front ++ rest) with
  | none => exact absurd hread hname
  | some read =>
      obtain ⟨item, after⟩ := read
      simp only [hread] at hrest
      subst hrest
      simp only [scanString_across (by decide) hread]

/-- A number that is missing leaves the comment, with or without the blank. -/
theorem scanInteger_across (hscan : (scanInteger (front ++ rest)).2 = rest) :
    ∃ after, scanInteger (front ++ (commentLine comment ++ rest)) =
      ((scanInteger (front ++ rest)).1, after) ∧ SkipsTo two conf after rest := by
  obtain ⟨gap, after, hother, hgap, hread⟩ :=
    scanInteger_apart (Prod.ext rfl hscan) (commentLine_apart comment rest)
  refine ⟨after, hread, fun loop => ?_⟩
  rw [← finish_commentLine hcomment loop rest, hother, finish_spaces hgap]

omit hcomment in
theorem front_eq_nil (hrest : front ++ rest = rest) : front = [] :=
  (List.append_left_inj rest).mp hrest

theorem topTurn_across {word : CString} (hmark : isComment word = false)
    (hrest : (topTurn word (front ++ rest)).2 = rest)
    (hname : word = Keyword.host → scanString 512 (front ++ rest) ≠ none) :
    ∃ after, topTurn word (front ++ (commentLine comment ++ rest)) =
      ((topTurn word (front ++ rest)).1, after) ∧ SkipsTo two conf after rest := by
  have hskips : SkipsTo two conf (commentLine comment ++ rest) rest :=
    fun loop => finish_commentLine hcomment loop rest
  unfold topTurn at hrest ⊢
  simp only [hmark, Bool.false_eq_true, if_false] at hrest ⊢
  split_ifs at hrest ⊢ with hhost
  · exact ⟨_, by simp only [scanName_across hrest (hname hhost)], hskips⟩
  · rw [front_eq_nil hrest]
    exact ⟨_, rfl, hskips⟩

theorem hostTurn_across {word : CString} (hmark : isComment word = false)
    (hrest : (hostTurn word (front ++ rest)).2 = rest)
    (hcommunity : (hostTurn word (front ++ rest)).1 ≠ some (.community none))
    (htarget : (hostTurn word (front ++ rest)).1 ≠ some (.target none)) :
    ∃ after, hostTurn word (front ++ (commentLine comment ++ rest)) =
      ((hostTurn word (front ++ rest)).1, after) ∧ SkipsTo two conf after rest := by
  have hskips : SkipsTo two conf (commentLine comment ++ rest) rest :=
    fun loop => finish_commentLine hcomment loop rest
  unfold hostTurn at hrest hcommunity htarget ⊢
  simp only [hmark, Bool.false_eq_true, if_false] at hrest hcommunity htarget ⊢
  split_ifs at hrest hcommunity htarget ⊢
  · refine ⟨_, ?_, hskips⟩
    rw [scanArgument_across hrest fun hnone => hcommunity (by rw [hnone])]
  · obtain ⟨after, hread, hafter⟩ := @scanInteger_across two conf comment front rest hcomment hrest
    exact ⟨after, by simp only [scanInt, hread], hafter⟩
  · refine ⟨_, ?_, hskips⟩
    rw [scanArgument_across hrest fun hnone => htarget (by rw [hnone])]
  · rw [front_eq_nil hrest]
    exact ⟨_, rfl, hskips⟩
  · rw [front_eq_nil hrest]
    exact ⟨_, rfl, hskips⟩

theorem rowTurn_across (same : SameInFront one two rest (commentLine comment ++ rest))
    {word : CString} (hmark : isComment word = false)
    (hrest : (rowTurn one word (front ++ rest)).2 = rest)
    (htable : (rowTurn one word (front ++ rest)).1 ≠ some (.table none)) :
    ∃ after, rowTurn two word (front ++ (commentLine comment ++ rest)) =
      ((rowTurn one word (front ++ rest)).1, after) ∧ SkipsTo two conf after rest := by
  have hskips : SkipsTo two conf (commentLine comment ++ rest) rest :=
    fun loop => finish_commentLine hcomment loop rest
  have hinteger : (scanInteger (front ++ rest)).2 = rest → _ :=
    @scanInteger_across two conf comment front rest hcomment
  unfold rowTurn at hrest htable ⊢
  simp only [hmark, Bool.false_eq_true, if_false] at hrest htable ⊢
  split_ifs at hrest htable ⊢
  · obtain ⟨after, hread, hafter⟩ := hinteger hrest
    exact ⟨after, by simp only [scanUnsigned, hread], hafter⟩
  · refine ⟨_, ?_, hskips⟩
    rw [scanArgument_across hrest fun hnone => htable (by rw [hnone])]
  · obtain ⟨after, hread, hafter⟩ := hinteger hrest
    exact ⟨after, by simp only [scanUnsigned, hread], hafter⟩
  · obtain ⟨after, hread, hafter⟩ := hinteger hrest
    exact ⟨after, by simp only [scanUnsignedLongLong, hread, same front], hafter⟩
  · rw [front_eq_nil hrest]
    exact ⟨_, rfl, hskips⟩
  · rw [front_eq_nil hrest]
    exact ⟨_, rfl, hskips⟩

/-- A turn that ends where the comment is put does the same in front of it, but
for a host's name. -/
theorem turn_across (same : SameInFront one two rest (commentLine comment ++ rest))
    {loop next : Loop} {word : CString}
    (hturn : loop.turn one conf word (front ++ rest) = (.ok next, rest))
    (hname : ∀ targets, loop = .top targets → word = Keyword.host →
      scanString 512 (front ++ rest) ≠ none) :
    ∃ after, loop.turn two conf word (front ++ (commentLine comment ++ rest)) =
      (.ok next, after) ∧ SkipsTo two conf after rest := by
  cases hmark : isComment word with
  | true =>
      rw [turn_comment hmark] at hturn
      obtain ⟨hloop, hskip⟩ := Prod.mk.inj hturn
      refine ⟨'\n' :: rest, ?_, fun loop => finish_newline loop rest⟩
      rw [turn_comment hmark, hloop, skipLine_across hcomment hskip]
  | false =>
      cases loop with
      | top targets =>
          obtain ⟨hnext, hrest⟩ := Prod.mk.inj hturn
          obtain ⟨after, hread, hafter⟩ :=
            @topTurn_across two conf comment front rest hcomment word hmark hrest
              (hname targets rfl)
          exact ⟨after, by rw [Loop.turn, hread, hnext], hafter⟩
      | inHost targets host =>
          obtain ⟨hnext, hrest⟩ := Prod.mk.inj hturn
          obtain ⟨after, hread, hafter⟩ :=
            @hostTurn_across two conf comment front rest hcomment word hmark hrest
              (fun hnone => by rw [hnone] at hnext; cases hnext)
              (fun hnone => by rw [hnone] at hnext; cases hnext)
          exact ⟨after, by rw [Loop.turn, hread, hnext], hafter⟩
      | inRow targets host row =>
          obtain ⟨hnext, hrest⟩ := Prod.mk.inj hturn
          obtain ⟨after, hread, hafter⟩ :=
            @rowTurn_across one two conf comment front rest hcomment same word hmark hrest
              (fun hnone => by rw [hnone] at hnext; cases hnext)
          exact ⟨after, by rw [Loop.turn, hread, hnext], hafter⟩

end Across

/-! ## A whole run -/

/-- The file breaks off behind a word `host` that starts a host; the name is
then taken to be that word. -/
def Nameless (unspecified : Unspecified) (conf : Rtgconf) (position : Position) : Prop :=
  ∃ targets stream after, Reaches unspecified conf position ⟨.top targets, stream⟩ ∧
    scanWord stream = some (Keyword.host, after) ∧ scanString 512 after = none

theorem Nameless.of_steps {unspecified : Unspecified} {conf : Rtgconf} {first second : Position}
    (steps : Steps unspecified conf first second) (nameless : Nameless unspecified conf second) :
    Nameless unspecified conf first := by
  obtain ⟨targets, stream, after, reaches, hword⟩ := nameless
  exact ⟨targets, stream, after, Relation.ReflTransGen.head steps reaches, hword⟩

section Run

variable {one two : Unspecified} {conf : Rtgconf} {comment front rest : List Char}
  (hcomment : '\n' ∉ comment) (same : SameBut one two [] (commentLine comment) rest)

include hcomment same

/-- The step up to the place of the comment, and all that follows. -/
theorem finish_stepAcross {loop next : Loop}
    (steps : Steps one conf ⟨loop, front ++ rest⟩ ⟨next, rest⟩)
    (hnamed : rest = [] → ¬ Nameless one conf ⟨loop, front ++ rest⟩) :
    finish two conf loop (front ++ (commentLine comment ++ rest)) =
      finish one conf loop (front ++ rest) := by
  have hfinish := finish_steps steps
  generalize hstream : front ++ rest = stream at steps
  generalize hafter : rest = after at steps
  cases steps with
  | @turn _ _ _ text _ word hword hturn =>
      subst hstream hafter
      have hsuffix := turn_suffix one conf loop word text
      rw [hturn] at hsuffix
      obtain ⟨more, rfl⟩ := hsuffix
      have hread : scanWord (front ++ (commentLine comment ++ rest)) =
          some (word, more ++ (commentLine comment ++ rest)) := by
        apply scanWord_ahead hword
        cases more with
        | nil => exact Or.inr (commentLine_apart comment rest).space
        | cons first more => exact Or.inl rfl
      have hname : ∀ targets, loop = .top targets → word = Keyword.host →
          scanString 512 (more ++ rest) ≠ none := by
        rintro targets rfl rfl hnone
        have hrest : rest = [] := by
          have hend : (topTurn Keyword.host (more ++ rest)).2 = rest := (Prod.mk.inj hturn).2
          rw [topTurn, if_neg (by decide), if_pos rfl] at hend
          simpa [scanName, hnone, eq_comm] using hend
        exact hnamed hrest ⟨targets, _, _, Relation.ReflTransGen.refl, hword, hnone⟩
      have hfront : SameInFront one two rest (commentLine comment ++ rest) := same.front
      obtain ⟨final, hacross, hskips⟩ := turn_across hcomment hfront hturn hname
      rw [hfinish, finish_turn hread, hacross, ok_bind, hskips, finish_same _ same.behind]
  | leave hword hleave =>
      subst hstream hafter
      rw [List.append_nil] at hword
      have hspaces : ∀ char ∈ front, isspace char = true := by
        refine scanString_none 512 ?_
        exact Option.map_eq_none_iff.mp hword
      rw [finish_spaces hspaces, finish_commentLine hcomment, List.append_nil,
        finish_end hword two]

theorem finish_across {loop final : Loop}
    (reaches : Reaches one conf ⟨loop, front ++ rest⟩ ⟨final, rest⟩)
    (hnamed : rest = [] → ¬ Nameless one conf ⟨loop, front ++ rest⟩) :
    finish two conf loop (front ++ (commentLine comment ++ rest)) =
      finish one conf loop (front ++ rest) := by
  generalize hfirst : (⟨loop, front ++ rest⟩ : Position) = first at reaches hnamed
  induction reaches using Relation.ReflTransGen.head_induction_on generalizing loop front with
  | refl =>
      obtain ⟨rfl, hrest⟩ := Position.mk.inj hfirst
      rw [front_eq_nil hrest, List.nil_append, finish_commentLine hcomment,
        finish_same _ same.behind]
      rfl
  | @head _ middle steps reaches ih =>
      subst hfirst
      obtain ⟨next, stream⟩ := middle
      obtain ⟨back, hback⟩ := reaches_suffix reaches
      change back ++ rest = stream at hback
      subst hback
      cases hempty : back with
      | nil =>
          rw [hempty] at steps
          exact finish_stepAcross hcomment same steps hnamed
      | cons char more =>
          have hahead := steps_ahead same.front steps (by rw [hempty]; rfl)
          rw [finish_steps steps, finish_steps hahead]
          exact ih rfl fun hrest nameless => hnamed hrest (nameless.of_steps steps)

end Run

/-! ## The missing name -/

section Name

variable {unspecified two : Unspecified} {conf : Rtgconf} {comment : List Char}

/-- Without a name, the host is named `host`, and it is the last one. -/
theorem finish_nameless {targets : Rtgtargets} {stream after : List Char}
    (hword : scanWord stream = some (Keyword.host, after)) (hnone : scanString 512 after = none) :
    finish unspecified conf (.top targets) stream =
      .ok (targets.pushHost { queryhostCreate with host := some Keyword.host }) := by
  have hturn : topTurn Keyword.host after = (some Keyword.host, []) := by
    rw [topTurn, if_neg (by decide), if_pos rfl, scanName, hnone]
  have hend : scanTop [] = none := rfl
  rw [finish_turn hword, Loop.turn, hturn, ok_bind, topNext, finish_leave rfl]
  exact targetsLoop_end hend

/-- With a comment there, the name starts with the mark. -/
theorem scanName_commentLine {after : List Char} (hnone : scanString 512 after = none)
    (word : CString) (comment : List Char) :
    (scanName word (after ++ commentLine comment)).1.chars.head? = some '#' := by
  have hscan : scanString 512 (after ++ commentLine comment) =
      scanString 512 ('#' :: (comment ++ ['\n'])) := by
    rw [scanString_gap (scanString_none 512 hnone)]
    exact @scanString_gap [' '] isspace_blank 512 _
  unfold scanName
  rw [hscan]
  rfl

theorem nameless_differs {before : List Char}
    (same : SameInFront unspecified two [] (commentLine comment))
    (nameless : Nameless unspecified conf (Position.start before)) :
    readNewStyleTargets two (some (before ++ commentLine comment)) conf ≠
      readNewStyleTargets unspecified (some before) conf := by
  obtain ⟨targets, stream, after, reaches, hword, hnone⟩ := nameless
  intro hsame
  have hstream : stream ≠ [] := by
    rintro rfl
    cases hword
  have hnext : ∀ other : List Char, (stream ++ []).head? = (stream ++ other).head? := by
    intro other
    cases stream with
    | nil => exact absurd rfl hstream
    | cons first stream => rfl
  have hread : scanWord (stream ++ commentLine comment) =
      some (Keyword.host, after ++ commentLine comment) := by
    apply @scanWord_ahead stream after [] (commentLine comment)
    · simpa using hword
    · cases after with
      | nil =>
          have hapart := (commentLine_apart comment []).space
          rw [List.append_nil] at hapart
          exact Or.inr hapart
      | cons first after => exact Or.inl rfl
  have hcommented : Reaches two conf (Position.start (before ++ commentLine comment))
      ⟨.top targets, stream ++ commentLine comment⟩ := by
    refine @reaches_ahead unspecified two conf before stream [] _ same _ _ ?_ (hnext _)
    simpa [Position.start] using reaches
  have hfirst := finish_reaches reaches
  have hsecond := finish_reaches hcommented
  rw [finish_start] at hfirst hsecond
  rw [hsecond, hfirst, finish_nameless hword hnone, finish_turn hread, Loop.turn, ok_bind,
    topTurn, if_neg (by decide), if_pos rfl] at hsame
  obtain ⟨kept, more, hhosts, hname, -⟩ := finish_keeps hsame
  rw [Rtgtargets.pushHost] at hhosts
  obtain ⟨rfl, -⟩ := List.cons.inj (List.append_cancel_left hhosts)
  have hmark := scanName_commentLine hnone Keyword.host comment
  rw [← Option.some.inj hname] at hmark
  exact absurd hmark (by decide)

end Name

/-- A comment put where a loop is about to read its next token changes nothing,
unless the file breaks off there behind a word `host`. -/
theorem comment_transparent_iff {one two : Unspecified} {conf : Rtgconf}
    {before rest comment : List Char} {loop : Loop} (hcomment : '\n' ∉ comment)
    (same : SameBut one two [] (commentLine comment) rest)
    (reaches : Reaches one conf (Position.start (before ++ rest)) ⟨loop, rest⟩) :
    readNewStyleTargets two (some (before ++ (commentLine comment ++ rest))) conf =
        readNewStyleTargets one (some (before ++ rest)) conf ↔
      ¬ (rest = [] ∧ Nameless one conf (Position.start (before ++ rest))) := by
  constructor
  · rintro hsame ⟨rfl, nameless⟩
    rw [List.append_nil] at hsame nameless
    rw [List.append_nil] at hsame
    refine nameless_differs ?_ nameless hsame
    simpa using same.front
  · intro hnamed
    exact finish_across hcomment same reaches fun hrest nameless => hnamed ⟨hrest, nameless⟩

/-- A file up to a place in a host's block, and the rest of it. -/
def hostFront : List Char := "host h \x7b\n community c;".toList

def hostBack : List Char := "\n target .1 \x7b table t; \x7d; \x7d;\n".toList

/-- The comment has braces and a directive. -/
def braceComment : List Char := "\x7d; host x \x7b".toList

theorem comment_transparent_hostFront :
    readNewStyleTargets ⟨0, fun _ => 0⟩
        (some (hostFront ++ (commentLine braceComment ++ hostBack))) defaultRtgconf =
      readNewStyleTargets ⟨0, fun _ => 0⟩ (some (hostFront ++ hostBack)) defaultRtgconf := by
  have reaches : Reaches ⟨0, fun _ => 0⟩ defaultRtgconf (Position.start (hostFront ++ hostBack))
      ⟨.inHost rtgtargetsCreate { queryhostCreate with
        host := some (CString.ofMemory ['h'])
        community := some (CString.ofMemory ['c']) }, hostBack⟩ :=
    @reaches_of_walk _ _ 3 _ _ (by decide +kernel)
  refine (comment_transparent_iff (by decide) ⟨fun _ => rfl, fun _ _ => rfl⟩ reaches).mpr ?_
  rintro ⟨hempty, -⟩
  exact absurd hempty (by decide)

/-- At the end of a file that is the word `host`, an empty comment is the name of
the host. -/
theorem comment_taken_for_name :
    Reaches ⟨0, fun _ => 0⟩ defaultRtgconf (Position.start Keyword.host.chars)
      ⟨.inHost rtgtargetsCreate { queryhostCreate with host := some Keyword.host }, []⟩ ∧
    readNewStyleTargets ⟨0, fun _ => 0⟩ (some (Keyword.host.chars ++ (commentLine [] ++ [])))
        defaultRtgconf ≠
      readNewStyleTargets ⟨0, fun _ => 0⟩ (some Keyword.host.chars) defaultRtgconf :=
  ⟨@reaches_of_walk _ _ 1 _ _ (by decide +kernel), by decide +kernel⟩

end ClusteredPoller.Targets
