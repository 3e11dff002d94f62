import ClusteredPoller.Library.CutOff
import ClusteredPoller.Poller.ValueLemmas

/-!
# The passes of the row loop

Which rows the loop reaches depends on the replies alone.  The loop is therefore
a fold over these rows, and each turn of it either leaves the program, when a
counter row answers at exactly its cached time, or stores the accepted sample.
-/

namespace ClusteredPoller.Poller

open Library
open Library.Outcome

/-! ## What is decided about a sample -/

/-- `calculate_rate` is called for two readings of a counter at the same time. -/
def Exits (row : Queryrow) (sample : Sample) : Prop :=
  HasPrevious row sample ∧ row.bits ≠ 0 ∧ sample.dtime = row.cachedTime

instance (row : Queryrow) (sample : Sample) : Decidable (Exits row sample) :=
  inferInstanceAs (Decidable (_ ∧ _))

/-- The value of a sample that has a previous value and a rate below the row's
speed. -/
def acceptedValue (row : Queryrow) (sample : Sample) : Option ClinsertValue :=
  match calculateRate row.cachedTime row.cachedCounter sample.dtime sample.counter row.bits with
  | .error _ => none
  | .ok found =>
      if HasPrevious row sample ∧ found.rate.toUInt64 < row.speed then
        some
          { id := row.id
            counter := found.counterDiff
            rate := found.rate
            dtime := sample.dtime
            currvalue := sample.counter }
      else none

theorem acceptedValue_some {row : Queryrow} {sample : Sample} {value : ClinsertValue}
    (haccepted : acceptedValue row sample = some value) :
    calculateRate row.cachedTime row.cachedCounter sample.dtime sample.counter row.bits =
      .ok ⟨value.counter, value.rate⟩ := by
  unfold acceptedValue at haccepted
  split at haccepted
  · cases haccepted
  · rename_i found hfound
    split at haccepted
    · cases haccepted
      exact hfound
    · cases haccepted

theorem acceptedValue_none {row : Queryrow} {sample : Sample}
    (hprevious : ¬ HasPrevious row sample) : acceptedValue row sample = none := by
  unfold acceptedValue
  split
  · rfl
  · exact if_neg fun both => hprevious both.1

theorem valueOf_skipped {row : Queryrow} {sample : Sample}
    (hprevious : ¬ HasPrevious row sample) : valueOf row sample = .ok none := by
  unfold HasPrevious at hprevious
  unfold valueOf
  by_cases hfirst : row.bits = 0 ∨ row.cachedTime ≠ 0
  · rw [if_pos hfirst, if_neg fun hsecond => hprevious ⟨hfirst, hsecond⟩]
  · rw [if_neg hfirst]

theorem valueOf_previous {row : Queryrow} {sample : Sample} (hprevious : HasPrevious row sample) :
    valueOf row sample =
      (calculateRate row.cachedTime row.cachedCounter sample.dtime sample.counter row.bits >>=
        fun _ => .ok (acceptedValue row sample)) := by
  unfold valueOf acceptedValue
  rw [if_pos hprevious.1, if_pos hprevious.2]
  cases hrate : calculateRate row.cachedTime row.cachedCounter sample.dtime sample.counter
      row.bits with
  | error fault => rfl
  | ok found =>
      rw [ok_bind, ok_bind]
      dsimp only
      by_cases hbelow : found.rate.toUInt64 < row.speed
      · rw [if_pos hbelow, if_pos ⟨hprevious, hbelow⟩]
        rfl
      · rw [if_neg hbelow, if_neg fun both => hbelow both.2]
        rfl

theorem valueOf_eq (row : Queryrow) (sample : Sample) :
    valueOf row sample =
      if Exits row sample then .error .exit else .ok (acceptedValue row sample) := by
  by_cases hprevious : HasPrevious row sample
  · rw [valueOf_previous hprevious]
    by_cases hexits : Exits row sample
    · rw [calculateRate_exit_iff.mpr hexits.2, if_pos hexits]
      rfl
    · rw [if_neg hexits]
      cases hrate : calculateRate row.cachedTime row.cachedCounter sample.dtime sample.counter
          row.bits with
      | error fault =>
          rw [calculateRate_fault hrate] at hrate
          exact absurd ⟨hprevious, calculateRate_exit_iff.mp hrate⟩ hexits
      | ok found => rfl
  · rw [valueOf_skipped hprevious, acceptedValue_none hprevious,
      if_neg fun hexits => hprevious hexits.1]

/-! ## One pass -/

/-- A row with its number and the reply that it gets if it is queried. -/
structure Attempt where
  number : Nat
  row : Queryrow
  reply : Reply

namespace Attempt

def failed (attempt : Attempt) : Bool := attempt.reply.isNone

/-- The row behind the pass. -/
def after (attempt : Attempt) : Queryrow := attempt.row.afterReply attempt.reply

def exits (attempt : Attempt) : Bool :=
  attempt.reply.any fun sample => decide (Exits attempt.row sample)

/-- The value of an accepted sample. -/
def value (attempt : Attempt) : Option ClinsertValue :=
  attempt.reply.bind (acceptedValue attempt.row)

/-- The value of an accepted sample, and the table it is pushed under. -/
def push (attempt : Attempt) : Option (Option CString × ClinsertValue) :=
  attempt.value.map fun value => (attempt.row.table, value)

def events (attempt : Attempt) : List Event :=
  rowEvents attempt.number attempt.row attempt.reply attempt.value

/-- What the pass makes of the locals when the inserts become these. -/
def advance (attempt : Attempt) (progress : Progress) (inserts : Inserts) : Progress where
  inserts := inserts
  errors := if attempt.failed then progress.errors + 1 else progress.errors
  snmpFail := if attempt.failed then progress.snmpFail + 1 else progress.snmpFail
  snmpSuccess := if attempt.failed then progress.snmpSuccess else progress.snmpSuccess + 1
  history := progress.history ++ attempt.events

/-- The loop body. -/
def turn (progress : Progress) (attempt : Attempt) : Except Fault Progress :=
  if attempt.exits then
    .error .exit
  else do
    let inserts ← storeAll progress.inserts attempt.push.toList
    return attempt.advance progress inserts

theorem pollRow_eq (attempt : Attempt) (progress : Progress) :
    pollRow attempt.number attempt.row attempt.reply progress =
      (do
        let next ← attempt.turn progress
        return (attempt.after, next)) := by
  obtain ⟨number, row, reply⟩ := attempt
  cases reply with
  | none => rfl
  | some sample =>
      have hexits : exits ⟨number, row, some sample⟩ = decide (Exits row sample) := rfl
      change (valueOf row sample >>= fun _ => _) = _
      rw [valueOf_eq, turn, hexits]
      by_cases hexit : Exits row sample
      · rw [if_pos hexit, if_pos (decide_eq_true hexit)]
        rfl
      · rw [if_neg hexit, if_neg (by simpa using hexit), ok_bind]
        have hvalue : value ⟨number, row, some sample⟩ = acceptedValue row sample := rfl
        unfold push advance events
        rw [hvalue]
        cases acceptedValue row sample with
        | none => rfl
        | some value =>
            dsimp only
            rw [Option.map_some, Option.toList_some, storeAll_singleton]
            cases storeValue progress.inserts row.table value with
            | error fault => rfl
            | ok stored =>
                simp only [ok_bind, pure_bind, rowEvents, List.append_assoc, List.cons_append,
                  List.nil_append]
                rfl

theorem turn_errors {attempt : Attempt} {progress next : Progress}
    (hturn : attempt.turn progress = .ok next) :
    next.errors = if attempt.failed then progress.errors + 1 else progress.errors := by
  unfold turn at hturn
  split at hturn
  · cases hturn
  · obtain ⟨inserts, _, hnext⟩ := bind_eq_ok.mp hturn
    cases hnext
    rfl

end Attempt

/-! ## The loop -/

/-- The rows from `number` on, with their replies. -/
def attemptsFrom (replies : Nat → Reply) : Nat → List Queryrow → List Attempt
  | _, [] => []
  | number, row :: rows => ⟨number, row, replies number⟩ :: attemptsFrom replies (number + 1) rows

/-- The passes that the loop makes, unless one of them faults. -/
def passes (maxErrors : UInt32) (replies : Nat → Reply) (rows : List Queryrow) : List Attempt :=
  CutOff.tried Attempt.failed maxErrors.toNat 0 (attemptsFrom replies 0 rows)

/-- The loop is a fold over the passes that it makes. -/
theorem pollRows_eq (maxErrors : UInt32) (replies : Nat → Reply) (start : Nat)
    (rows : List Queryrow) (progress : Progress) {made : List Attempt}
    (hmade : made = CutOff.tried Attempt.failed maxErrors.toNat progress.errors
      (attemptsFrom replies start rows)) :
    pollRows maxErrors replies start rows progress =
      (do
        let final ← made.foldlM (fun progress attempt => attempt.turn progress) progress
        return (made.map Attempt.after ++ rows.drop made.length, final)) := by
  induction rows generalizing start progress made with
  | nil =>
      subst hmade
      rfl
  | cons row rows ih =>
      rw [attemptsFrom, CutOff.tried] at hmade
      have hrow := Attempt.pollRow_eq ⟨start, row, replies start⟩ progress
      dsimp only at hrow
      rw [hmade, List.foldlM_cons, pollRows, hrow]
      cases hturn : Attempt.turn progress ⟨start, row, replies start⟩ with
      | error fault => rfl
      | ok next =>
          rw [← Attempt.turn_errors hturn]
          simp only [ok_bind, pure_bind]
          by_cases hlimit : maxErrors.toNat ≤ next.errors
          · rw [if_pos hlimit, if_pos hlimit]
            rfl
          · rw [if_neg hlimit, if_neg hlimit, ih (start + 1) next rfl]
            cases List.foldlM (fun progress attempt => Attempt.turn progress attempt) next
              (CutOff.tried _ _ _ _) <;> rfl

/-! ## All turns -/

/-- The accepted samples, in order, with their tables. -/
def accepted (made : List Attempt) : List (Option CString × ClinsertValue) :=
  made.filterMap Attempt.push

/-- The passes in front of the first one that leaves the program. -/
def beforeExit (made : List Attempt) : List Attempt :=
  made.takeWhile fun attempt => !attempt.exits

/-- The locals behind passes that end with these inserts. -/
def Progress.finish (progress : Progress) (made : List Attempt) (inserts : Inserts) : Progress where
  inserts := inserts
  errors := progress.errors + made.countP Attempt.failed
  snmpFail := progress.snmpFail + UInt32.ofNat (made.countP Attempt.failed)
  snmpSuccess := progress.snmpSuccess + UInt32.ofNat (made.countP fun attempt => !attempt.failed)
  history := progress.history ++ made.flatMap Attempt.events

theorem Progress.finish_nil (progress : Progress) :
    progress.finish [] progress.inserts = progress := by
  simp [Progress.finish]

theorem Progress.finish_cons (progress : Progress) (attempt : Attempt) (made : List Attempt)
    (stored inserts : Inserts) :
    (attempt.advance progress stored).finish made inserts =
      progress.finish (attempt :: made) inserts := by
  unfold Progress.finish Attempt.advance
  cases hfailed : attempt.failed with
  | true =>
      simp [hfailed, UInt32.ofNat_add, add_assoc, add_comm]
      omega
  | false =>
      simp [hfailed, UInt32.ofNat_add, add_assoc, add_comm]

theorem accepted_cons (attempt : Attempt) (made : List Attempt) :
    accepted (attempt :: made) = attempt.push.toList ++ accepted made := by
  unfold accepted
  cases hpush : attempt.push with
  | none => rw [List.filterMap_cons_none hpush]; rfl
  | some push => rw [List.filterMap_cons_some hpush]; rfl

/-- The turns store the accepted samples, and then leave the program if one of
them does. -/
theorem foldlM_turn (made : List Attempt) (progress : Progress) :
    made.foldlM (fun progress attempt => Attempt.turn progress attempt) progress =
      (do
        let inserts ← storeAll progress.inserts (accepted (beforeExit made))
        if made.any Attempt.exits then
          .error .exit
        else
          return progress.finish made inserts) := by
  induction made generalizing progress with
  | nil =>
      change Except.ok progress = .ok _
      rw [Progress.finish_nil]
  | cons attempt made ih =>
      rw [List.foldlM_cons, Attempt.turn, beforeExit]
      cases hexits : attempt.exits with
      | true =>
          rw [List.takeWhile_cons_of_neg (by simp [hexits]), List.any_cons, hexits]
          rfl
      | false =>
          rw [List.takeWhile_cons_of_pos (by simp [hexits]), accepted_cons, storeAll_append,
            List.any_cons, hexits, Bool.false_or, if_neg Bool.false_ne_true]
          cases storeAll progress.inserts attempt.push.toList with
          | error fault => rfl
          | ok stored =>
              simp only [ok_bind, pure_bind, ih, Progress.finish_cons]
              rfl

/-! ## Whole polls -/

/-- What a poll of a host returns and changes when it makes these passes and
ends with these inserts. -/
def polledOf (host : Queryhost) (made : List Attempt) (inserts : Inserts) : Polled where
  inserts := inserts
  host := { host with rows := made.map Attempt.after ++ host.rows.drop made.length }
  snmpFail := UInt32.ofNat (made.countP Attempt.failed)
  snmpSuccess := UInt32.ofNat (made.countP fun attempt => !attempt.failed)
  history := made.flatMap Attempt.events

/-- With a session a poll makes its passes, and stores what they accept. -/
theorem getClinserts_eq {Handle : Type} {sessOpen : SessOpen Handle} {host : Queryhost}
    {session : ClsnmpSession Handle}
    (hsession : clsnmpSessionCreate sessOpen host.host host.community host.snmpver =
      .ok (some session)) (replies : Nat → Reply) (maxErrors : UInt32) :
    getClinserts sessOpen replies host maxErrors =
      (do
        let made := passes maxErrors replies host.rows
        let inserts ← storeAll noInserts (accepted (beforeExit made))
        if made.any Attempt.exits then
          .error .exit
        else
          return polledOf host made inserts) := by
  have hrows := @pollRows_eq maxErrors replies 0 host.rows Progress.start
    (passes maxErrors replies host.rows) rfl
  rw [foldlM_turn] at hrows
  have hstart : Progress.start.inserts = noInserts := rfl
  rw [hstart] at hrows
  unfold getClinserts
  rw [hsession, ok_bind]
  dsimp only
  rw [hrows]
  cases storeAll noInserts (accepted (beforeExit (passes maxErrors replies host.rows))) with
  | error fault => rfl
  | ok inserts =>
      rw [ok_bind, ok_bind]
      by_cases hexits : (passes maxErrors replies host.rows).any Attempt.exits = true
      · rw [if_pos hexits, if_pos hexits]
        rfl
      · rw [if_neg hexits, if_neg hexits]
        simp [Progress.finish, Progress.start, polledOf, clsnmpSessionFree]
        rfl

theorem mem_attemptsFrom {replies : Nat → Reply} {start : Nat} {rows : List Queryrow}
    {attempt : Attempt} (hattempt : attempt ∈ attemptsFrom replies start rows) :
    ∃ place, rows[place]? = some attempt.row ∧ attempt.number = start + place ∧
      attempt.reply = replies (start + place) := by
  induction rows generalizing start with
  | nil => cases hattempt
  | cons row rows ih =>
      rcases List.mem_cons.mp hattempt with rfl | hothers
      · exact ⟨0, rfl, rfl, rfl⟩
      · obtain ⟨place, hrow, hnumber, hreply⟩ := ih hothers
        have hplace : start + 1 + place = start + (place + 1) := by omega
        rw [hplace] at hnumber hreply
        exact ⟨place + 1, hrow, hnumber, hreply⟩

theorem getElem?_attemptsFrom (replies : Nat → Reply) (start : Nat) (rows : List Queryrow)
    (place : Nat) :
    (attemptsFrom replies start rows)[place]? =
      rows[place]?.map fun row => ⟨start + place, row, replies (start + place)⟩ := by
  induction rows generalizing start place with
  | nil => rfl
  | cons row rows ih =>
      cases place with
      | zero => rfl
      | succ place =>
          rw [attemptsFrom, List.getElem?_cons_succ, ih, List.getElem?_cons_succ,
            Nat.add_right_comm]
          rfl

theorem length_attemptsFrom (replies : Nat → Reply) (start : Nat) (rows : List Queryrow) :
    (attemptsFrom replies start rows).length = rows.length := by
  induction rows generalizing start with
  | nil => rfl
  | cons row rows ih => rw [attemptsFrom, List.length_cons, ih, List.length_cons]

/-- A pass is made for a row of the host, with the reply to its number. -/
theorem mem_passes {maxErrors : UInt32} {replies : Nat → Reply} {rows : List Queryrow}
    {attempt : Attempt} (hattempt : attempt ∈ passes maxErrors replies rows) :
    rows[attempt.number]? = some attempt.row ∧ attempt.reply = replies attempt.number := by
  have hinitial := @CutOff.tried_prefix Attempt Attempt.failed maxErrors.toNat 0
    (attemptsFrom replies 0 rows)
  obtain ⟨place, hrow, hnumber, hreply⟩ := mem_attemptsFrom (hinitial.subset hattempt)
  rw [Nat.zero_add] at hnumber hreply
  rw [hnumber]
  exact ⟨hrow, hreply⟩

/-- The passes are those for the first rows, in order. -/
theorem getElem?_passes {maxErrors : UInt32} {replies : Nat → Reply} {rows : List Queryrow}
    {place : Nat} (hplace : place < (passes maxErrors replies rows).length) :
    (passes maxErrors replies rows)[place]? =
      rows[place]?.map fun row => ⟨place, row, replies place⟩ := by
  have hinitial := @CutOff.tried_prefix Attempt Attempt.failed maxErrors.toNat 0
    (attemptsFrom replies 0 rows)
  have hwhole := getElem?_attemptsFrom replies 0 rows place
  rw [Nat.zero_add] at hwhole
  obtain ⟨rest, hrest⟩ := hinitial
  rw [← hwhole, ← hrest]
  exact (List.getElem?_append_left hplace).symm

theorem length_passes (maxErrors : UInt32) (replies : Nat → Reply) (rows : List Queryrow) :
    (passes maxErrors replies rows).length ≤ rows.length := by
  have hinitial := @CutOff.tried_prefix Attempt Attempt.failed maxErrors.toNat 0
    (attemptsFrom replies 0 rows)
  rw [← length_attemptsFrom replies 0 rows]
  exact hinitial.length_le

/-- A row gives one sample at most. -/
theorem length_accepted (maxErrors : UInt32) (replies : Nat → Reply) (rows : List Queryrow) :
    (accepted (passes maxErrors replies rows)).length ≤ rows.length :=
  Nat.le_trans (List.length_filterMap_le _ _) (length_passes maxErrors replies rows)

/-- What is accepted comes from a row of the host, and has its table. -/
theorem table_of_accepted {maxErrors : UInt32} {replies : Nat → Reply} {rows : List Queryrow}
    {push : Option CString × ClinsertValue}
    (hpush : push ∈ accepted (beforeExit (passes maxErrors replies rows))) :
    ∃ row ∈ rows, row.table = push.1 := by
  obtain ⟨attempt, hattempt, hpushed⟩ := List.mem_filterMap.mp hpush
  obtain ⟨hrow, _⟩ := mem_passes ((List.takeWhile_prefix _).subset hattempt)
  obtain ⟨value, _, rfl⟩ := Option.map_eq_some_iff.mp hpushed
  exact ⟨attempt.row, List.mem_of_getElem? hrow, rfl⟩

end ClusteredPoller.Poller
