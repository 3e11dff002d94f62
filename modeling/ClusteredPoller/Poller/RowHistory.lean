import ClusteredPoller.Library.Outcome
import ClusteredPoller.Poller.GetClinserts

/-!
# A row's own history

What a poll does to one row depends on that row's samples only.  A finite
sequence of polls of a host therefore acts on each row by feeding it the
samples it got, and the values pushed for the row are those the feeding yields.
-/

namespace ClusteredPoller.Poller

open Library.Outcome

/-! ## Reading a history row by row -/

def Event.sampleFor (number : Nat) : Event → Option Sample
  | .got row sample => if row = number then some sample else none
  | _ => none

def Event.valueFor (number : Nat) : Event → Option ClinsertValue
  | .pushed row _ value => if row = number then some value else none
  | _ => none

def Event.push : Event → Option (Option CString × ClinsertValue)
  | .pushed _ table value => some (table, value)
  | _ => none

/-- The samples that row `number` got, in order. -/
def samplesOf (number : Nat) (history : List Event) : List Sample :=
  history.filterMap (Event.sampleFor number)

/-- The values pushed for row `number`, in order. -/
def valuesOf (number : Nat) (history : List Event) : List ClinsertValue :=
  history.filterMap (Event.valueFor number)

/-- All pushes, in order, with the table each was pushed under. -/
def pushesOf (history : List Event) : List (Option CString × ClinsertValue) :=
  history.filterMap Event.push

@[simp]
theorem samplesOf_append (number : Nat) (first second : List Event) :
    samplesOf number (first ++ second) = samplesOf number first ++ samplesOf number second :=
  List.filterMap_append

@[simp]
theorem valuesOf_append (number : Nat) (first second : List Event) :
    valuesOf number (first ++ second) = valuesOf number first ++ valuesOf number second :=
  List.filterMap_append

@[simp]
theorem pushesOf_append (first second : List Event) :
    pushesOf (first ++ second) = pushesOf first ++ pushesOf second :=
  List.filterMap_append

/-! ## One row -/

/-- The events of one pass of the loop body. -/
def rowEvents (number : Nat) (row : Queryrow) :
    Reply → Option ClinsertValue → List Event
  | none, _ => [.failed number]
  | some sample, none => [.got number sample]
  | some sample, some value => [.got number sample, .pushed number row.table value]

/-- The decision about a reply; a failed get decides nothing. -/
def replyValue (row : Queryrow) : Reply → Except Fault (Option ClinsertValue)
  | none => .ok none
  | some sample => valueOf row sample

def Queryrow.afterReply (row : Queryrow) : Reply → Queryrow
  | none => row
  | some sample => row.cache sample

def storeAll : Inserts → List (Option CString × ClinsertValue) → Except Fault Inserts
  | inserts, [] => .ok inserts
  | inserts, push :: pushes => do
      let stored ← storeValue inserts push.1 push.2
      storeAll stored pushes

theorem storeAll_singleton (inserts : Inserts) (push : Option CString × ClinsertValue) :
    storeAll inserts [push] = storeValue inserts push.1 push.2 := by
  change (storeValue inserts push.1 push.2 >>= fun stored => .ok stored) = _
  cases storeValue inserts push.1 push.2 <;> rfl

theorem storeAll_append (inserts : Inserts) (first second : List (Option CString × ClinsertValue)) :
    storeAll inserts (first ++ second) =
      (do
        let stored ← storeAll inserts first
        storeAll stored second) := by
  induction first generalizing inserts with
  | nil => rfl
  | cons push pushes ih =>
      change (storeValue inserts push.1 push.2 >>= fun stored => storeAll stored _) =
        (storeValue inserts push.1 push.2 >>= fun stored => storeAll stored pushes) >>= _
      cases storeValue inserts push.1 push.2 with
      | error fault => rfl
      | ok stored => exact ih stored

/-- All that one pass of the loop body does when it does not fault. -/
theorem pollRow_cases {number : Nat} {row polledRow : Queryrow} {reply : Reply}
    {progress polled : Progress}
    (hpoll : pollRow number row reply progress = .ok (polledRow, polled)) :
    ∃ value, replyValue row reply = .ok value ∧ polledRow = row.afterReply reply ∧
      polled.history = progress.history ++ rowEvents number row reply value ∧
      storeAll progress.inserts (pushesOf (rowEvents number row reply value)) =
        .ok polled.inserts := by
  cases reply with
  | none =>
      cases hpoll
      exact ⟨none, rfl, rfl, rfl, rfl⟩
  | some sample =>
      obtain ⟨value, hvalue, hrest⟩ := bind_eq_ok.mp hpoll
      cases value with
      | none =>
          cases hrest
          exact ⟨none, hvalue, rfl, rfl, rfl⟩
      | some value =>
          dsimp only at hrest
          obtain ⟨stored, hstored, hrest⟩ := bind_eq_ok.mp hrest
          cases hrest
          refine ⟨some value, hvalue, rfl, ?_, ?_⟩
          · simp [rowEvents]
          · change (storeValue progress.inserts row.table value >>= fun _ => _) = _
            rw [hstored]
            rfl

theorem samplesOf_rowEvents_self (number : Nat) (row : Queryrow) (reply : Reply)
    (value : Option ClinsertValue) :
    samplesOf number (rowEvents number row reply value) = reply.toList := by
  cases reply <;> cases value <;> simp [rowEvents, samplesOf, Event.sampleFor]

theorem samplesOf_rowEvents_other {number other : Nat} (hne : number ≠ other) (row : Queryrow)
    (reply : Reply) (value : Option ClinsertValue) :
    samplesOf other (rowEvents number row reply value) = [] := by
  cases reply <;> cases value <;> simp [rowEvents, samplesOf, Event.sampleFor, hne]

theorem valuesOf_rowEvents_self (number : Nat) (row : Queryrow) (sample : Sample)
    (value : Option ClinsertValue) :
    valuesOf number (rowEvents number row (some sample) value) = value.toList := by
  cases value <;> simp [rowEvents, valuesOf, Event.valueFor, List.filterMap_cons]

theorem valuesOf_rowEvents_other {number other : Nat} (hne : number ≠ other) (row : Queryrow)
    (reply : Reply) (value : Option ClinsertValue) :
    valuesOf other (rowEvents number row reply value) = [] := by
  cases reply <;> cases value <;> simp [rowEvents, valuesOf, Event.valueFor, hne]

/-! ## Feeding samples to a row -/

/-- Decide about each sample in turn and cache it. -/
def feed : Queryrow → List Sample → Except Fault (Queryrow × List ClinsertValue)
  | row, [] => .ok (row, [])
  | row, sample :: samples => do
      let value ← valueOf row sample
      let rest ← feed (row.cache sample) samples
      pure (rest.1, value.toList ++ rest.2)

theorem feed_singleton {row : Queryrow} {sample : Sample} {value : Option ClinsertValue}
    (hvalue : valueOf row sample = .ok value) :
    feed row [sample] = .ok (row.cache sample, value.toList) := by
  change (valueOf row sample >>= fun _ => _) = _
  rw [hvalue]
  simp [feed]

theorem feed_append {row middle final : Queryrow} {first second : List Sample}
    {firstValues secondValues : List ClinsertValue}
    (hfirst : feed row first = .ok (middle, firstValues))
    (hsecond : feed middle second = .ok (final, secondValues)) :
    feed row (first ++ second) = .ok (final, firstValues ++ secondValues) := by
  induction first generalizing row firstValues with
  | nil =>
      cases hfirst
      exact hsecond
  | cons sample samples ih =>
      obtain ⟨value, hvalue, hrest⟩ := bind_eq_ok.mp hfirst
      obtain ⟨⟨reached, values⟩, hfeed, hresult⟩ := bind_eq_ok.mp hrest
      cases hresult
      change (valueOf row sample >>= fun value => feed _ (samples ++ second) >>= fun _ => _) = _
      rw [hvalue, ok_bind, ih hfeed, ok_bind, List.append_assoc]
      rfl

/-- `events` is a history of `rows`, numbered from `start`, that turns them into
`polled`: every row got at most its reply, and acted on it by feeding. -/
structure Recorded (replies : Nat → Reply) (start : Nat) (rows polled : List Queryrow)
    (events : List Event) : Prop where
  length_eq : polled.length = rows.length
  before : ∀ number < start, samplesOf number events = [] ∧ valuesOf number events = []
  fed : ∀ place (row : Queryrow), rows[place]? = some row →
    ∃ after, polled[place]? = some after ∧
      feed row (samplesOf (start + place) events) = .ok (after, valuesOf (start + place) events)
  replied : ∀ number, samplesOf number events = [] ∨
    samplesOf number events = (replies number).toList

theorem Recorded.unchanged (replies : Nat → Reply) (start : Nat) (rows : List Queryrow) :
    Recorded replies start rows rows [] where
  length_eq := rfl
  before _ _ := ⟨rfl, rfl⟩
  fed _ row hrow := ⟨row, hrow, rfl⟩
  replied _ := Or.inl rfl

/-- One pass of the loop body, followed by what the loop does from there on. -/
theorem Recorded.cons {replies : Nat → Reply} {start : Nat} {row : Queryrow}
    {rows polled : List Queryrow} {events : List Event} {value : Option ClinsertValue}
    (hvalue : replyValue row (replies start) = .ok value)
    (rest : Recorded replies (start + 1) rows polled events) :
    Recorded replies start (row :: rows) (row.afterReply (replies start) :: polled)
      (rowEvents start row (replies start) value ++ events) where
  length_eq := by rw [List.length_cons, List.length_cons, rest.length_eq]
  before number hnumber := by
    have hne : start ≠ number := Nat.ne_of_gt hnumber
    obtain ⟨hsamples, hvalues⟩ := rest.before number (Nat.lt_succ_of_lt hnumber)
    rw [samplesOf_append, valuesOf_append, samplesOf_rowEvents_other hne,
      valuesOf_rowEvents_other hne, hsamples, hvalues]
    exact ⟨rfl, rfl⟩
  fed place found hfound := by
    cases place with
    | zero =>
        cases hfound
        obtain ⟨hsamples, hvalues⟩ := rest.before start (Nat.lt_succ_self start)
        refine ⟨_, rfl, ?_⟩
        rw [Nat.add_zero, samplesOf_append, valuesOf_append, samplesOf_rowEvents_self, hsamples,
          hvalues, List.append_nil, List.append_nil]
        cases hreply : replies start with
        | none => rfl
        | some sample =>
            rw [hreply] at hvalue
            rw [valuesOf_rowEvents_self]
            exact feed_singleton hvalue
    | succ place =>
        have hne : start ≠ start + (place + 1) := by omega
        obtain ⟨after, hafter, hfeed⟩ := rest.fed place found hfound
        rw [Nat.add_right_comm] at hfeed
        refine ⟨after, hafter, ?_⟩
        rw [samplesOf_append, valuesOf_append, samplesOf_rowEvents_other hne,
          valuesOf_rowEvents_other hne]
        exact hfeed
  replied number := by
    rw [samplesOf_append]
    by_cases hnumber : start = number
    · subst hnumber
      rw [samplesOf_rowEvents_self, (rest.before start (Nat.lt_succ_self start)).1,
        List.append_nil]
      exact Or.inr rfl
    · rw [samplesOf_rowEvents_other hnumber]
      exact rest.replied number

/-- The row loop records a history of its rows. -/
theorem pollRows_recorded {maxErrors : UInt32} {replies : Nat → Reply} {start : Nat}
    {rows polledRows : List Queryrow} {progress polled : Progress}
    (hpoll : pollRows maxErrors replies start rows progress = .ok (polledRows, polled)) :
    ∃ events, polled.history = progress.history ++ events ∧
      Recorded replies start rows polledRows events ∧
      storeAll progress.inserts (pushesOf events) = .ok polled.inserts := by
  induction rows generalizing start progress polledRows with
  | nil =>
      cases hpoll
      exact ⟨[], (List.append_nil _).symm, Recorded.unchanged _ _ _, rfl⟩
  | cons row rows ih =>
      obtain ⟨⟨first, middle⟩, hrow, hrest⟩ := bind_eq_ok.mp hpoll
      obtain ⟨value, hvalue, rfl, hhistory, hinserts⟩ := pollRow_cases hrow
      dsimp only at hrest
      split at hrest
      · -- Too many errors: the remaining rows are left as they are.
        cases hrest
        have recorded := (Recorded.unchanged replies (start + 1) rows).cons hvalue
        rw [List.append_nil] at recorded
        exact ⟨_, hhistory, recorded, hinserts⟩
      · obtain ⟨⟨others, last⟩, hothers, hresult⟩ := bind_eq_ok.mp hrest
        cases hresult
        obtain ⟨events, hevents, recorded, hstored⟩ := ih hothers
        refine ⟨rowEvents start row (replies start) value ++ events, ?_,
          recorded.cons hvalue, ?_⟩
        · rw [hevents, hhistory, List.append_assoc]
        · rw [pushesOf_append, storeAll_append, hinserts]
          exact hstored

/-! ## Whole polls -/

variable {Handle : Type}

/-- A poll that returns had a session, and ran the row loop. -/
theorem getClinserts_cases {sessOpen : SessOpen Handle} {replies : Nat → Reply}
    {host : Queryhost} {maxErrors : UInt32} {polled : Polled}
    (hpoll : getClinserts sessOpen replies host maxErrors = .ok polled) :
    ∃ session rows progress,
      clsnmpSessionCreate sessOpen host.host host.community host.snmpver = .ok (some session) ∧
      pollRows maxErrors replies 0 host.rows Progress.start = .ok (rows, progress) ∧
      polled =
        { inserts := progress.inserts
          host := { host with rows := rows }
          snmpFail := progress.snmpFail
          snmpSuccess := progress.snmpSuccess
          history := progress.history } := by
  obtain ⟨session, hsession, hrest⟩ := bind_eq_ok.mp hpoll
  cases session with
  | none => cases hrest
  | some session =>
      obtain ⟨⟨rows, progress⟩, hrows, hresult⟩ := bind_eq_ok.mp hrest
      cases hresult
      exact ⟨session, rows, progress, hsession, hrows, rfl⟩

/-- A poll records a history of the host's rows, and the returned inserts are
what its pushes store. -/
theorem getClinserts_recorded {sessOpen : SessOpen Handle} {replies : Nat → Reply}
    {host : Queryhost} {maxErrors : UInt32} {polled : Polled}
    (hpoll : getClinserts sessOpen replies host maxErrors = .ok polled) :
    Recorded replies 0 host.rows polled.host.rows polled.history ∧
      storeAll noInserts (pushesOf polled.history) = .ok polled.inserts := by
  obtain ⟨session, rows, progress, _, hrows, rfl⟩ := getClinserts_cases hpoll
  obtain ⟨events, hevents, recorded, hstored⟩ := pollRows_recorded hrows
  have hhistory : progress.history = events := hevents
  rw [← hhistory] at recorded hstored
  exact ⟨recorded, hstored⟩

/-- A get that succeeded pushes what was decided for its sample. -/
theorem valuesOf_got {sessOpen : SessOpen Handle} {replies : Nat → Reply} {host : Queryhost}
    {maxErrors : UInt32} {polled : Polled}
    (hpoll : getClinserts sessOpen replies host maxErrors = .ok polled) {number : Nat}
    {row : Queryrow} (hrow : host.rows[number]? = some row) {sample : Sample}
    (hgot : Event.got number sample ∈ polled.history) :
    ∃ value, valueOf row sample = .ok value ∧
      valuesOf number polled.history = value.toList := by
  obtain ⟨recorded, _⟩ := getClinserts_recorded hpoll
  have hsample : sample ∈ samplesOf number polled.history :=
    List.mem_filterMap.mpr ⟨_, hgot, if_pos rfl⟩
  have hsamples : samplesOf number polled.history = [sample] := by
    rcases recorded.replied number with hnone | hreply
    · rw [hnone] at hsample
      cases hsample
    · rw [hreply] at hsample ⊢
      rw [Option.mem_toList.mp hsample]
      rfl
  obtain ⟨after, _, hfeed⟩ := recorded.fed number row hrow
  rw [Nat.zero_add, hsamples] at hfeed
  obtain ⟨value, hvalue, hrest⟩ := bind_eq_ok.mp hfeed
  have hvalues := (Prod.mk.inj (Except.ok.inj hrest)).2
  exact ⟨value, hvalue, hvalues.symm.trans (List.append_nil _)⟩

/-- Polls of one host, one after the other, with the history of them all. -/
def pollHost (sessOpen : SessOpen Handle) (maxErrors : UInt32) :
    Queryhost → List (Nat → Reply) → Except Fault (Queryhost × List Event)
  | host, [] => .ok (host, [])
  | host, replies :: polls => do
      let polled ← getClinserts sessOpen replies host maxErrors
      let rest ← pollHost sessOpen maxErrors polled.host polls
      pure (rest.1, polled.history ++ rest.2)

/-- Any number of polls acts on a row by feeding it the samples it got. -/
theorem pollHost_feeds {sessOpen : SessOpen Handle} {maxErrors : UInt32}
    {host final : Queryhost} {polls : List (Nat → Reply)} {history : List Event}
    (hpolls : pollHost sessOpen maxErrors host polls = .ok (final, history))
    {number : Nat} {row : Queryrow} (hrow : host.rows[number]? = some row) :
    ∃ after, final.rows[number]? = some after ∧
      feed row (samplesOf number history) = .ok (after, valuesOf number history) := by
  induction polls generalizing host row history with
  | nil =>
      cases hpolls
      exact ⟨row, hrow, rfl⟩
  | cons replies polls ih =>
      obtain ⟨polled, hpoll, hrest⟩ := bind_eq_ok.mp hpolls
      obtain ⟨⟨last, later⟩, hlater, hresult⟩ := bind_eq_ok.mp hrest
      cases hresult
      obtain ⟨recorded, _⟩ := getClinserts_recorded hpoll
      obtain ⟨middle, hmiddle, hfirst⟩ := recorded.fed number row hrow
      rw [Nat.zero_add] at hfirst
      obtain ⟨after, hafter, hsecond⟩ := ih hlater hmiddle
      refine ⟨after, hafter, ?_⟩
      rw [samplesOf_append, valuesOf_append]
      exact feed_append hfirst hsecond

end ClusteredPoller.Poller
