import ClusteredPoller.Lookahead
import ClusteredPoller.Targets.Hosts
import Mathlib.Logic.Relation

/-!
# Reading from a position

The three loops of the new-style reader turn by turn.  A position is the loop
that is about to read its next token, with what has been read and what is left;
the loops themselves are what a reader does from a position to the end.
-/

namespace ClusteredPoller.Targets

open Library.Format (Ends)
open Library.Outcome (bind_eq_ok ok_bind)
open Poller

/-- The loop that is about to read a token. -/
inductive Loop where
  /-- `read_new_style_targets` -/
  | top (targets : Rtgtargets)
  /-- `read_host` -/
  | inHost (targets : Rtgtargets) (host : Queryhost)
  /-- `read_row` -/
  | inRow (targets : Rtgtargets) (host : Queryhost) (row : Queryrow)
  deriving DecidableEq

structure Position where
  loop : Loop
  stream : List Char
  deriving DecidableEq

/-- The position at the start of a file. -/
def Position.start (text : List Char) : Position where
  loop := .top rtgtargetsCreate
  stream := text

/-! ## Turns -/

/-- What a directive of `read_new_style_targets` leads to. -/
def topNext (targets : Rtgtargets) : Option CString → Loop
  | none => .top targets
  | some name => .inHost targets { queryhostCreate with host := some name }

/-- What a directive of `read_host` leads to. -/
def hostNext (targets : Rtgtargets) (host : Queryhost) : Option HostDirective → Except Fault Loop
  | none => .ok (.top (targets.pushHost host))
  | some (.community text) => do
      let community ← strdupArgument text
      return .inHost targets { host with community := some community }
  | some (.snmpver value) => .ok (.inHost targets { host with snmpver := value.getD host.snmpver })
  | some (.target text) => do
      let oid ← strdupArgument text
      return .inRow targets host { queryrowCreate with oid := some oid }
  | some .other => .ok (.inHost targets host)

/-- The end of a row. -/
def rowEnd (targets : Rtgtargets) (host : Queryhost) (row : Queryrow) : Except Fault Loop := do
  let host ← addTarget host row
  return .inHost targets host

/-- What a directive of `read_row` leads to. -/
def rowNext (conf : Rtgconf) (targets : Rtgtargets) (host : Queryhost) (row : Queryrow) :
    Option RowDirective → Except Fault Loop
  | none => rowEnd targets host row
  | some directive => do
      let row ← directive.apply conf row
      return .inRow targets host row

/-- One turn of a loop, from the token on. -/
def Loop.turn (unspecified : Unspecified) (conf : Rtgconf) :
    Loop → CString → List Char → Except Fault Loop × List Char
  | .top targets, word, rest =>
      (.ok (topNext targets (topTurn word rest).1), (topTurn word rest).2)
  | .inHost targets host, word, rest =>
      (hostNext targets host (hostTurn word rest).1, (hostTurn word rest).2)
  | .inRow targets host row, word, rest =>
      (rowNext conf targets host row (rowTurn unspecified word rest).1,
        (rowTurn unspecified word rest).2)

/-- The loop behind one that finds the end of the file. -/
def Loop.leave : Loop → Option (Except Fault Loop)
  | .top _ => none
  | .inHost targets host => some (.ok (.top (targets.pushHost host)))
  | .inRow targets host row => some (rowEnd targets host row)

/-- From one position to the next. -/
inductive Steps (unspecified : Unspecified) (conf : Rtgconf) : Position → Position → Prop
  | turn {loop next : Loop} {stream rest after : List Char} {word : CString}
      (hword : scanWord stream = some (word, rest))
      (hturn : loop.turn unspecified conf word rest = (.ok next, after)) :
      Steps unspecified conf ⟨loop, stream⟩ ⟨next, after⟩
  | leave {loop next : Loop} {stream : List Char} (hword : scanWord stream = none)
      (hleave : loop.leave = some (.ok next)) :
      Steps unspecified conf ⟨loop, stream⟩ ⟨next, []⟩

def Reaches (unspecified : Unspecified) (conf : Rtgconf) : Position → Position → Prop :=
  Relation.ReflTransGen (Steps unspecified conf)

/-- The next position, if there is one. -/
def Position.next (unspecified : Unspecified) (conf : Rtgconf) (position : Position) :
    Option Position :=
  match scanWord position.stream with
  | some (word, rest) =>
      match position.loop.turn unspecified conf word rest with
      | (.ok next, after) => some ⟨next, after⟩
      | (.error _, _) => none
  | none =>
      match position.loop.leave with
      | some (.ok next) => some ⟨next, []⟩
      | _ => none

def walk (unspecified : Unspecified) (conf : Rtgconf) : Nat → Position → Option Position
  | 0, position => some position
  | count + 1, position =>
      (position.next unspecified conf).bind (walk unspecified conf count)

section Walk

variable {unspecified : Unspecified} {conf : Rtgconf}

theorem steps_of_next {first second : Position}
    (hnext : first.next unspecified conf = some second) : Steps unspecified conf first second := by
  obtain ⟨loop, stream⟩ := first
  unfold Position.next at hnext
  split at hnext
  · next hword =>
      split at hnext
      · next hturn =>
          cases hnext
          exact Steps.turn hword hturn
      · cases hnext
  · next hword =>
      split at hnext
      · next hleave =>
          cases hnext
          exact Steps.leave hword hleave
      · cases hnext

theorem reaches_of_walk {count : Nat} {first second : Position}
    (hwalk : walk unspecified conf count first = some second) :
    Reaches unspecified conf first second := by
  induction count generalizing first with
  | zero =>
      cases hwalk
      exact Relation.ReflTransGen.refl
  | succ count ih =>
      obtain ⟨middle, hnext, hrest⟩ := Option.bind_eq_some_iff.mp hwalk
      exact Relation.ReflTransGen.head (steps_of_next hnext) (ih hrest)

end Walk

/-! ## To the end -/

/-- The loops, from a position on. -/
def finish (unspecified : Unspecified) (conf : Rtgconf) :
    Loop → List Char → Except Fault Rtgtargets
  | .top targets, stream => targetsLoop unspecified conf targets stream
  | .inHost targets host, stream => do
      let read ← hostLoop unspecified conf host stream
      targetsLoop unspecified conf (targets.pushHost read.1) read.2
  | .inRow targets host row, stream => do
      let read ← rowLoop unspecified conf row stream
      let host ← addTarget host read.1
      let read ← hostLoop unspecified conf host read.2
      targetsLoop unspecified conf (targets.pushHost read.1) read.2

section Finish

variable {unspecified : Unspecified} {conf : Rtgconf} {loop next : Loop}
  {stream rest : List Char} {word : CString}

theorem finish_start (text : List Char) :
    finish unspecified conf (Position.start text).loop (Position.start text).stream =
      readNewStyleTargets unspecified (some text) conf := rfl

theorem finish_inRow (targets : Rtgtargets) (host : Queryhost) (row : Queryrow) :
    finish unspecified conf (.inRow targets host row) stream =
      (rowLoop unspecified conf row stream >>= fun read =>
        rowEnd targets host read.1 >>= fun next => finish unspecified conf next read.2) := by
  refine bind_congr fun read => ?_
  rw [rowEnd, bind_assoc]
  rfl

/-- A turn, and then the rest. -/
theorem finish_turn (hword : scanWord stream = some (word, rest)) :
    finish unspecified conf loop stream =
      ((loop.turn unspecified conf word rest).1 >>= fun next =>
        finish unspecified conf next (loop.turn unspecified conf word rest).2) := by
  cases loop with
  | top targets =>
      have hscan : scanTop stream = some (topTurn word rest) := by rw [scanTop, hword]; rfl
      simp only [Loop.turn, ok_bind]
      cases hturn : topTurn word rest with
      | mk name after =>
          rw [hturn] at hscan
          cases name with
          | none => exact targetsLoop_other hscan
          | some name => exact targetsLoop_host hscan
  | inHost targets host =>
      have hscan : scanHost stream = some (hostTurn word rest) := by rw [scanHost, hword]; rfl
      simp only [Loop.turn, finish]
      cases hturn : hostTurn word rest with
      | mk directive after =>
          rw [hturn] at hscan
          cases directive with
          | none => rw [hostLoop_close hscan]; rfl
          | some directive =>
              cases directive with
              | community text =>
                  rw [hostLoop_community hscan, hostNext, bind_assoc, bind_assoc]
                  rfl
              | snmpver value => rw [hostLoop_snmpver hscan]; rfl
              | target text =>
                  rw [hostLoop_target hscan, hostNext, bind_assoc, bind_assoc]
                  refine bind_congr fun oid => ?_
                  rw [bind_assoc]
                  refine bind_congr fun read => ?_
                  rw [bind_assoc]
              | other => rw [hostLoop_other hscan]; rfl
  | inRow targets host row =>
      have hscan : scanRow unspecified stream = some (rowTurn unspecified word rest) := by
        rw [scanRow, hword]; rfl
      rw [finish_inRow, Loop.turn]
      cases hturn : rowTurn unspecified word rest with
      | mk directive after =>
          rw [hturn] at hscan
          cases directive with
          | none =>
              rw [rowLoop_close hscan, rowNext, ok_bind]
          | some directive =>
              rw [rowLoop_step hscan, rowNext, bind_assoc, bind_assoc]
              exact bind_congr fun next => (finish_inRow targets host next).symm

/-- No loop does anything about a comment. -/
theorem turn_comment {word : CString} (hcomment : isComment word = true) (loop : Loop)
    (text : List Char) :
    loop.turn unspecified conf word text = (.ok loop, skipLine text) := by
  cases loop with
  | top targets => rw [Loop.turn, topTurn, if_pos hcomment]; rfl
  | inHost targets host => rw [Loop.turn, hostTurn, if_pos hcomment]; rfl
  | inRow targets host row => rw [Loop.turn, rowTurn, if_pos hcomment]; rfl

/-- At the end of the file there is nothing left to depend on. -/
theorem finish_end (hword : scanWord stream = none) (other : Unspecified) :
    finish unspecified conf loop stream = finish other conf loop [] := by
  have hrow : ∀ one : Unspecified, ∀ text, scanWord text = none → scanRow one text = none := by
    intro one text hnone
    rw [scanRow, hnone]
    rfl
  have hhost : ∀ text, scanWord text = none → scanHost text = none := by
    intro text hnone
    rw [scanHost, hnone]
    rfl
  have htop : ∀ text, scanWord text = none → scanTop text = none := by
    intro text hnone
    rw [scanTop, hnone]
    rfl
  have hempty : scanWord [] = none := rfl
  cases loop with
  | top targets =>
      exact (targetsLoop_end (htop _ hword)).trans (targetsLoop_end (htop _ hempty)).symm
  | inHost targets host =>
      simp only [finish, hostLoop_end (hhost _ hword), hostLoop_end (hhost _ hempty), ok_bind,
        targetsLoop_end (htop _ hempty)]
  | inRow targets host row =>
      simp only [finish, rowLoop_end (hrow _ _ hword), rowLoop_end (hrow _ _ hempty), ok_bind,
        hostLoop_end (hhost _ hempty), targetsLoop_end (htop _ hempty)]

theorem finish_leave (hleave : loop.leave = some (.ok next)) :
    finish unspecified conf loop [] = finish unspecified conf next [] := by
  have hrow : scanRow unspecified [] = none := rfl
  have hhost : scanHost [] = none := rfl
  cases loop with
  | top targets => cases hleave
  | inHost targets host =>
      cases hleave
      simp only [finish, hostLoop_end hhost, ok_bind]
  | inRow targets host row =>
      have hend : rowEnd targets host row = .ok next := Option.some.inj hleave
      rw [finish_inRow, rowLoop_end hrow, ok_bind, hend, ok_bind]

/-- Steps do not change what is read in the end. -/
theorem finish_steps {first second : Position} (steps : Steps unspecified conf first second) :
    finish unspecified conf first.loop first.stream =
      finish unspecified conf second.loop second.stream := by
  cases steps with
  | turn hword hturn => rw [finish_turn hword, hturn, ok_bind]
  | leave hword hleave => rw [finish_end hword unspecified, finish_leave hleave]

theorem finish_reaches {first second : Position} (reaches : Reaches unspecified conf first second) :
    finish unspecified conf first.loop first.stream =
      finish unspecified conf second.loop second.stream := by
  induction reaches with
  | refl => rfl
  | tail _ steps ih => rw [ih, finish_steps steps]

theorem finish_congr {first second : List Char} (hscan : scanWord first = scanWord second) :
    finish unspecified conf loop first = finish unspecified conf loop second := by
  cases hsecond : scanWord second with
  | none => rw [finish_end (hscan.trans hsecond) unspecified, finish_end hsecond unspecified]
  | some read => rw [finish_turn (hscan.trans hsecond), finish_turn hsecond]

theorem scanWord_spaces {gap : List Char} (hgap : ∀ char ∈ gap, isspace char = true)
    (rest : List Char) : scanWord (gap ++ rest) = scanWord rest := by
  rw [scanWord, scanWord, scanString_gap hgap]

theorem finish_spaces {gap : List Char} (hgap : ∀ char ∈ gap, isspace char = true) :
    finish unspecified conf loop (gap ++ rest) = finish unspecified conf loop rest :=
  finish_congr (scanWord_spaces hgap rest)

/-- The text is skipped to what follows it. -/
def SkipsTo (unspecified : Unspecified) (conf : Rtgconf) (text rest : List Char) : Prop :=
  ∀ loop, finish unspecified conf loop text = finish unspecified conf loop rest

end Finish

/-! ## What is left -/

section Suffix

theorem scanWord_suffix {stream rest : List Char} {word : CString}
    (hword : scanWord stream = some (word, rest)) : rest <:+ stream := by
  obtain ⟨read, hread, heq⟩ := Option.map_eq_some_iff.mp hword
  cases heq
  exact scanString_suffix (by decide) hread

theorem scanArgument_suffix (stream : List Char) : (scanArgument stream).2 <:+ stream := by
  unfold scanArgument
  split
  · next hscan => exact scanString_suffix (by decide) hscan
  · exact List.nil_suffix

theorem scanName_suffix (word : CString) (stream : List Char) :
    (scanName word stream).2 <:+ stream := by
  unfold scanName
  split
  · next hscan => exact scanString_suffix (by decide) hscan
  · exact List.nil_suffix

theorem rowTurn_suffix (unspecified : Unspecified) (word : CString) (rest : List Char) :
    (rowTurn unspecified word rest).2 <:+ rest := by
  have hline := skipLine_suffix rest
  have hinteger := scanInteger_suffix rest
  have hargument := scanArgument_suffix rest
  unfold rowTurn
  split_ifs <;> first | assumption | exact List.suffix_rfl

theorem hostTurn_suffix (word : CString) (rest : List Char) : (hostTurn word rest).2 <:+ rest := by
  have hline := skipLine_suffix rest
  have hinteger := scanInteger_suffix rest
  have hargument := scanArgument_suffix rest
  unfold hostTurn
  split_ifs <;> first | assumption | exact List.suffix_rfl

theorem topTurn_suffix (word : CString) (rest : List Char) : (topTurn word rest).2 <:+ rest := by
  have hline := skipLine_suffix rest
  have hname := scanName_suffix word rest
  unfold topTurn
  split_ifs <;> first | assumption | exact List.suffix_rfl

theorem turn_suffix (unspecified : Unspecified) (conf : Rtgconf) (loop : Loop) (word : CString)
    (rest : List Char) : (loop.turn unspecified conf word rest).2 <:+ rest := by
  cases loop with
  | top targets => exact topTurn_suffix word rest
  | inHost targets host => exact hostTurn_suffix word rest
  | inRow targets host row => exact rowTurn_suffix unspecified word rest

variable {unspecified : Unspecified} {conf : Rtgconf} {first second : Position}

theorem steps_suffix (steps : Steps unspecified conf first second) :
    second.stream <:+ first.stream := by
  cases steps with
  | @turn loop next stream rest after word hword hturn =>
      have hafter := turn_suffix unspecified conf loop word rest
      rw [hturn] at hafter
      exact hafter.trans (scanWord_suffix hword)
  | leave => exact List.nil_suffix

theorem reaches_suffix (reaches : Reaches unspecified conf first second) :
    second.stream <:+ first.stream := by
  induction reaches with
  | refl => exact List.suffix_rfl
  | tail _ steps ih => exact (steps_suffix steps).trans ih

end Suffix

/-! ## Another text behind -/

/-- The readings find the same where nothing was stored, at places in front of
one text and of the other. -/
def SameInFront (one two : Unspecified) (tail other : List Char) : Prop :=
  ∀ front, two.unset (front ++ other) = one.unset (front ++ tail)

/-- The second reader does in front of one text what the first does in front of
the other, as long as the next character is the same. -/
def AheadOf {α : Type} (tail other : List Char) (first second : List Char → α × List Char) :
    Prop :=
  ∀ front back, (back ++ tail).head? = (back ++ other).head? →
    (first (front ++ tail)).2 = back ++ tail →
      second (front ++ other) = ((first (front ++ tail)).1, back ++ other)

namespace AheadOf

variable {α β : Type} {tail other : List Char} {first second : List Char → α × List Char}

theorem map (ahead : AheadOf tail other first second) (change : α → β) :
    AheadOf tail other (fun text => (change (first text).1, (first text).2))
      (fun text => (change (second text).1, (second text).2)) := by
  intro front back hnext hrest
  simp only [ahead front back hnext hrest]

theorem stay (value : α) : AheadOf tail other (fun text => (value, text))
    (fun text => (value, text)) := by
  intro front back _ hrest
  rw [List.append_cancel_right hrest]

theorem line (value : α) : AheadOf tail other (fun text => (value, skipLine text))
    (fun text => (value, skipLine text)) := by
  intro front back hnext hrest
  simp only [skipLine_ahead hrest hnext]

theorem integer : AheadOf tail other scanInteger scanInteger :=
  fun _ _ hnext hrest => scanInteger_ahead (Prod.ext rfl hrest) hnext

/-- A string that may be missing, and if it is, nothing is left. -/
theorem string {width : Nat} (hwidth : 0 < width) (found : List Char → α) (missing : α) :
    AheadOf tail other
      (fun text => ((scanString width text).elim (missing, []) fun read => (found read.1, read.2)))
      (fun text => ((scanString width text).elim (missing, [])
        fun read => (found read.1, read.2))) := by
  intro front back hnext hrest
  cases hscan : scanString width (front ++ tail) with
  | none =>
      simp only [hscan, Option.elim_none] at hrest ⊢
      obtain ⟨rfl, rfl⟩ := List.append_eq_nil_iff.mp hrest.symm
      obtain rfl : other = [] := List.head?_eq_none_iff.mp hnext.symm
      rw [List.append_nil] at hscan
      simp only [List.append_nil, hscan, Option.elim_none]
  | some read =>
      obtain ⟨item, rest⟩ := read
      simp only [hscan, Option.elim_some] at hrest ⊢
      rw [scanString_ahead hwidth (hrest ▸ hscan) (Or.inl hnext)]
      rfl

theorem argument : AheadOf tail other scanArgument scanArgument := by
  have heq : scanArgument = fun text => (scanString 128 text).elim (none, [])
      fun read => (some (strclean (CString.ofMemory read.1)), read.2) := by
    funext text
    unfold scanArgument
    cases scanString 128 text <;> rfl
  rw [heq]
  exact @string _ tail other 128 (by decide)
    (fun item => some (strclean (CString.ofMemory item))) none

theorem name (word : CString) : AheadOf tail other (scanName word) (scanName word) := by
  have heq : scanName word = fun text => (scanString 512 text).elim (word, [])
      fun read => (CString.ofMemory read.1, read.2) := by
    funext text
    unfold scanName
    cases scanString 512 text <;> rfl
  rw [heq]
  exact @string _ tail other 512 (by decide) CString.ofMemory word

theorem topTurn (word : CString) : AheadOf tail other (topTurn word) (topTurn word) := by
  intro front back hnext hrest
  unfold Targets.topTurn at hrest ⊢
  split_ifs at hrest ⊢
  · exact line none front back hnext hrest
  · exact (name word).map some front back hnext hrest
  · exact stay none front back hnext hrest

theorem hostTurn (word : CString) : AheadOf tail other (hostTurn word) (hostTurn word) := by
  intro front back hnext hrest
  unfold Targets.hostTurn at hrest ⊢
  split_ifs at hrest ⊢
  · exact line _ front back hnext hrest
  · simp only [argument front back hnext hrest]
  · simp only [scanInt, integer front back hnext hrest]
  · simp only [argument front back hnext hrest]
  · exact stay _ front back hnext hrest
  · exact stay _ front back hnext hrest

variable {one two : Unspecified}

theorem rowTurn (same : SameInFront one two tail other) (word : CString) :
    AheadOf tail other (rowTurn one word) (rowTurn two word) := by
  intro front back hnext hrest
  unfold Targets.rowTurn at hrest ⊢
  split_ifs at hrest ⊢
  · exact line _ front back hnext hrest
  · simp only [scanUnsigned, integer front back hnext hrest]
  · simp only [argument front back hnext hrest]
  · simp only [scanUnsigned, integer front back hnext hrest]
  · simp only [scanUnsignedLongLong, integer front back hnext hrest, same front]
  · exact stay _ front back hnext hrest
  · exact stay _ front back hnext hrest

theorem turn (same : SameInFront one two tail other) (conf : Rtgconf) (loop : Loop)
    (word : CString) :
    AheadOf tail other (loop.turn one conf word) (loop.turn two conf word) := by
  cases loop with
  | top targets => exact (topTurn word).map fun name => Except.ok (topNext targets name)
  | inHost targets host => exact (hostTurn word).map (hostNext targets host)
  | inRow targets host row => exact (rowTurn same word).map (rowNext conf targets host row)

end AheadOf

section Ahead

variable {one two : Unspecified} {conf : Rtgconf} {front back tail other : List Char}

theorem scanWord_ahead {word : CString}
    (hword : scanWord (front ++ tail) = some (word, back ++ tail))
    (hnext : (back ++ tail).head? = (back ++ other).head? ∨
      Ends (fun char => !isspace char) (back ++ other)) :
    scanWord (front ++ other) = some (word, back ++ other) := by
  obtain ⟨⟨item, rest⟩, hread, heq⟩ := Option.map_eq_some_iff.mp hword
  obtain ⟨hitem, rfl⟩ := Prod.mk.inj heq
  rw [scanWord, scanString_ahead (by decide) hread hnext, Option.map_some, hitem]

/-- A step that leaves some text in front is the same whatever is behind it. -/
theorem steps_ahead (same : SameInFront one two tail other) {loop next : Loop}
    (steps : Steps one conf ⟨loop, front ++ tail⟩ ⟨next, back ++ tail⟩)
    (hnext : (back ++ tail).head? = (back ++ other).head?) :
    Steps two conf ⟨loop, front ++ other⟩ ⟨next, back ++ other⟩ := by
  generalize hfirst : front ++ tail = stream at steps
  generalize hsecond : back ++ tail = after at steps
  cases steps with
  | @turn _ _ _ rest _ word hword hturn =>
      subst hfirst hsecond
      have hafter := turn_suffix one conf loop word rest
      rw [hturn] at hafter
      obtain ⟨more, rfl⟩ := hafter
      rw [← List.append_assoc] at hword hturn
      have hturn' := AheadOf.turn same conf loop word (more ++ back) back hnext (by rw [hturn])
      rw [hturn] at hturn'
      refine Steps.turn (scanWord_ahead hword (Or.inl ?_)) hturn'
      rw [List.append_assoc, List.append_assoc]
      exact head_append more hnext
  | leave hword hleave =>
      obtain ⟨rfl, rfl⟩ := List.append_eq_nil_iff.mp hsecond
      obtain rfl : other = [] := List.head?_eq_none_iff.mp hnext.symm
      exact Steps.leave (hfirst ▸ hword) hleave

theorem reaches_ahead (same : SameInFront one two tail other) {loop next : Loop}
    (reaches : Reaches one conf ⟨loop, front ++ tail⟩ ⟨next, back ++ tail⟩)
    (hnext : (back ++ tail).head? = (back ++ other).head?) :
    Reaches two conf ⟨loop, front ++ other⟩ ⟨next, back ++ other⟩ := by
  generalize hfirst : (⟨loop, front ++ tail⟩ : Position) = first at reaches
  induction reaches using Relation.ReflTransGen.head_induction_on generalizing loop front with
  | refl =>
      obtain ⟨rfl, hsame⟩ := Position.mk.inj hfirst
      rw [List.append_cancel_right hsame]
      exact Relation.ReflTransGen.refl
  | head steps rest ih =>
      subst hfirst
      rename_i middle
      obtain ⟨more, hmore⟩ := reaches_suffix rest
      obtain ⟨loop', stream⟩ := middle
      change more ++ (back ++ tail) = stream at hmore
      subst hmore
      rw [← List.append_assoc] at steps ih
      refine Relation.ReflTransGen.head (steps_ahead same steps ?_) (ih rfl)
      rw [List.append_assoc, List.append_assoc]
      exact head_append more hnext

end Ahead

/-- Two readings of a text with something in it and with something else find the
same values where nothing was stored, at the same places. -/
structure SameBut (one two : Unspecified) (first second rest : List Char) : Prop where
  front : SameInFront one two (first ++ rest) (second ++ rest)
  behind : ∀ place, place <:+ rest → two.unset place = one.unset place

/-! ## The same text -/

section Same

variable {one two : Unspecified} {conf : Rtgconf}

theorem turn_same {rest : List Char} (hunset : two.unset rest = one.unset rest) (loop : Loop)
    (word : CString) : loop.turn two conf word rest = loop.turn one conf word rest := by
  cases loop with
  | top targets => rfl
  | inHost targets host => rfl
  | inRow targets host row => simp only [Loop.turn, rowTurn, hunset]

/-- Only what is found at the places of the text matters. -/
theorem finish_same {stream : List Char} (loop : Loop)
    (hunset : ∀ place, place <:+ stream → two.unset place = one.unset place) :
    finish two conf loop stream = finish one conf loop stream := by
  induction hlength : stream.length using Nat.strongRecOn generalizing loop stream with
  | ind length ih =>
      cases hword : scanWord stream with
      | none => rw [finish_end hword one, finish_end hword one]
      | some read =>
          obtain ⟨word, rest⟩ := read
          have hrest := scanWord_suffix hword
          have hafter := (turn_suffix one conf loop word rest)
          rw [finish_turn hword, finish_turn hword, turn_same (hunset rest hrest)]
          refine bind_congr fun next => ih _ ?_ next ?_ rfl
          · rw [← hlength]
            exact Nat.lt_of_le_of_lt hafter.length_le (scanWord_shorter hword)
          · exact fun place hplace => hunset place (hplace.trans (hafter.trans hrest))

end Same

/-! ## What is kept -/

section Kept

variable {unspecified : Unspecified} {conf : Rtgconf} {targets final : Rtgtargets}
  {host : Queryhost} {stream : List Char}

theorem targetsLoop_keeps (hread : targetsLoop unspecified conf targets stream = .ok final) :
    targets.hosts <+: final.hosts := by
  rw [targetsLoop_eq] at hread
  obtain ⟨hosts, hfinal, -⟩ := evalBlocks_ok hread
  exact ⟨hosts, hfinal.symm⟩

/-- A host that is being read ends up behind the others, with its name and the
rows that it has. -/
theorem finish_keeps
    (hread : finish unspecified conf (.inHost targets host) stream = .ok final) :
    ∃ kept more, final.hosts = targets.hosts ++ kept :: more ∧ kept.host = host.host ∧
      ∀ row ∈ host.rows, row ∈ kept.rows := by
  obtain ⟨⟨kept, rest⟩, hhost, htargets⟩ := bind_eq_ok.mp hread
  rw [hostLoop_eq] at hhost
  obtain ⟨read, hitems, hresult⟩ := bind_eq_ok.mp hhost
  cases hresult
  obtain ⟨more, hfinal⟩ := targetsLoop_keeps htargets
  refine ⟨kept, more, ?_, items_keep hitems⟩
  rw [← hfinal, Rtgtargets.pushHost, List.append_assoc, List.singleton_append]

end Kept

end ClusteredPoller.Targets
