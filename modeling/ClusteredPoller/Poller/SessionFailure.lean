import ClusteredPoller.Poller.Storing

/-!
# Hosts without a session

When no session could be created, `get_clinserts` logs the failure, skips the
rows, and joins the path of a successful poll, which frees the session.  Freeing
reads through the session pointer, so exactly the polls without a session end
in a fault.
-/

namespace ClusteredPoller.Poller

open Library.Outcome

variable {Handle : Type}

/-- A poll completes, and does not read through a `NULL` session.  Without a
session it returns no inserts and leaves the host's caches alone. -/
structure HandlesSession (sessOpen : SessOpen Handle) (replies : Nat → Reply)
    (host : Queryhost) (maxErrors : UInt32) : Prop where
  notNull : getClinserts sessOpen replies host maxErrors ≠ .error .nullSession
  completes : ∃ polled, getClinserts sessOpen replies host maxErrors = .ok polled
  without : clsnmpSessionCreate sessOpen host.host host.community host.snmpver = .ok none →
    ∃ polled, getClinserts sessOpen replies host maxErrors = .ok polled ∧
      polled.inserts = noInserts ∧ polled.host = host

/-- The version is one that the program knows, there is a community, and the
library opens a session for them. -/
def CanOpen (sessOpen : SessOpen Handle) (host : Queryhost) : Prop :=
  (host.snmpver = 1 ∨ host.snmpver = 2) ∧
    ∃ community, host.community = some community ∧
      sessOpen host.host community (if host.snmpver = 2 then .version2c else .version1) ≠ none

/-- No queried row leaves the program, and the accepted samples can be stored. -/
def RowsGetThrough (replies : Nat → Reply) (host : Queryhost) (maxErrors : UInt32) : Prop :=
  (∀ attempt ∈ passes maxErrors replies host.rows, attempt.exits = false) ∧
    Storable (accepted (passes maxErrors replies host.rows))

/-- `clsnmp_session_create` returns a session exactly for the hosts that can
open one. -/
theorem sessionCreate_iff (sessOpen : SessOpen Handle) (host : Queryhost) :
    (∃ session, clsnmpSessionCreate sessOpen host.host host.community host.snmpver =
      .ok (some session)) ↔ CanOpen sessOpen host := by
  unfold clsnmpSessionCreate CanOpen
  by_cases hversion : host.snmpver ≠ 1 ∧ host.snmpver ≠ 2
  · rw [if_pos hversion]
    refine iff_of_false (fun ⟨_, impossible⟩ => nomatch impossible) ?_
    rintro ⟨hone | htwo, _⟩
    · exact hversion.1 hone
    · exact hversion.2 htwo
  · rw [if_neg hversion]
    have hknown : host.snmpver = 1 ∨ host.snmpver = 2 := by omega
    cases host.community with
    | none =>
        refine iff_of_false (fun ⟨_, impossible⟩ => nomatch impossible) ?_
        rintro ⟨_, _, impossible, _⟩
        cases impossible
    | some community =>
        dsimp only
        cases hopened : sessOpen host.host community
            (if host.snmpver = 2 then .version2c else .version1) with
        | none =>
            refine iff_of_false (fun ⟨_, impossible⟩ => nomatch impossible) ?_
            rintro ⟨_, other, hother, hopens⟩
            cases hother
            exact hopens hopened
        | some handle =>
            refine iff_of_true ⟨⟨handle⟩, rfl⟩ ⟨hknown, community, rfl, ?_⟩
            rw [hopened]
            exact Option.some_ne_none handle

/-- Without a session the poll always ends in the fault. -/
theorem getClinserts_without_session {sessOpen : SessOpen Handle} {host : Queryhost}
    (hnull : clsnmpSessionCreate sessOpen host.host host.community host.snmpver = .ok none)
    (replies : Nat → Reply) (maxErrors : UInt32) :
    getClinserts sessOpen replies host maxErrors = .error .nullSession := by
  unfold getClinserts
  rw [hnull]
  rfl

/-! ## Faults of the row loop -/

theorem valueOf_fault {row : Queryrow} {sample : Sample} {fault : Fault}
    (hfault : valueOf row sample = .error fault) : fault = .exit := by
  unfold valueOf at hfault
  split at hfault
  · split at hfault
    · rcases bind_eq_error.mp hfault with hrate | ⟨found, _, hrest⟩
      · exact calculateRate_fault hrate
      · split at hrest <;> cases hrest
    · cases hfault
  · cases hfault

theorem clinsertForTable_fault {inserts : Inserts} {table : Option CString} {fault : Fault}
    (hfault : clinsertForTable inserts table = .error fault) :
    fault = .nullString ∨ fault = .assertion := by
  induction inserts with
  | nil =>
      cases hfault
      exact Or.inr rfl
  | cons slot rest ih =>
      cases slot with
      | none => cases hfault
      | some insert =>
          rcases bind_eq_error.mp hfault with hstrcmp | ⟨equal, _, hrest⟩
          · unfold strcmpEqual at hstrcmp
            split at hstrcmp
            · cases hstrcmp
            · cases hstrcmp
              exact Or.inl rfl
          · split at hrest
            · cases hrest
            · rcases bind_eq_error.mp hrest with hlater | ⟨found, _, hresult⟩
              · exact ih hlater
              · cases hresult

/-- A poll of a row fails in its decision or in the search for its table. -/
theorem pollRow_fault_cause {number : Nat} {row : Queryrow} {reply : Reply} {progress : Progress}
    {fault : Fault} (hfault : pollRow number row reply progress = .error fault) :
    (∃ sample, reply = some sample ∧ valueOf row sample = .error fault) ∨
      fault = .nullString ∨ fault = .assertion := by
  cases reply with
  | none => cases hfault
  | some sample =>
      rcases bind_eq_error.mp hfault with hvalue | ⟨value, _, hrest⟩
      · exact Or.inl ⟨sample, rfl, hvalue⟩
      · cases value with
        | none => cases hrest
        | some value =>
            dsimp only at hrest
            rcases bind_eq_error.mp hrest with hstore | ⟨stored, _, hresult⟩
            · rcases bind_eq_error.mp hstore with htable | ⟨found, _, hpushed⟩
              · exact Or.inr (clinsertForTable_fault htable)
              · cases hpushed
            · cases hresult

/-- A session that cannot be created because the community is `NULL` is
another fault than the one of a `NULL` session. -/
theorem sessionCreate_fault {sessOpen : SessOpen Handle} {host : Queryhost} {fault : Fault}
    (hfault : clsnmpSessionCreate sessOpen host.host host.community host.snmpver =
      .error fault) : fault = .nullString := by
  unfold clsnmpSessionCreate at hfault
  split at hfault
  · cases hfault
  · split at hfault
    · cases hfault
      rfl
    · cases hfault

/-! ## The polls that handle their session -/

/-- With a session the poll completes exactly if its rows get through. -/
theorem getClinserts_completes_iff {sessOpen : SessOpen Handle} {replies : Nat → Reply}
    {host : Queryhost} {maxErrors : UInt32} {session : ClsnmpSession Handle}
    (hsession : clsnmpSessionCreate sessOpen host.host host.community host.snmpver =
      .ok (some session)) :
    (∃ polled, getClinserts sessOpen replies host maxErrors = .ok polled) ↔
      RowsGetThrough replies host maxErrors := by
  have hpoll := getClinserts_eq hsession replies maxErrors
  unfold RowsGetThrough
  dsimp only at hpoll
  generalize passes maxErrors replies host.rows = made at hpoll ⊢
  by_cases hruns : ∀ attempt ∈ made, attempt.exits = false
  · rw [and_iff_right hruns, ← storeAll_ok_iff, hpoll, beforeExit_eq hruns]
    cases storeAll noInserts (accepted made) with
    | error fault =>
        exact iff_of_false (fun ⟨_, impossible⟩ => nomatch impossible)
          fun ⟨_, impossible⟩ => nomatch impossible
    | ok inserts =>
        refine iff_of_true ⟨polledOf host made inserts, ?_⟩ ⟨inserts, rfl⟩
        rw [ok_bind, if_neg (by simpa using hruns)]
        rfl
  · refine iff_of_false ?_ fun through => hruns through.1
    rintro ⟨polled, hreturns⟩
    rw [hpoll] at hreturns
    obtain ⟨inserts, -, hlast⟩ := bind_eq_ok.mp hreturns
    rw [if_pos (by simpa using hruns)] at hlast
    cases hlast

/-- `get_clinserts` is right about its session for exactly the hosts that can
open one and whose rows get through. -/
theorem handles_session_iff (sessOpen : SessOpen Handle) (replies : Nat → Reply)
    (host : Queryhost) (maxErrors : UInt32) :
    HandlesSession sessOpen replies host maxErrors ↔
      CanOpen sessOpen host ∧ RowsGetThrough replies host maxErrors := by
  constructor
  · intro handles
    cases hcreate : clsnmpSessionCreate sessOpen host.host host.community host.snmpver with
    | error fault =>
        obtain ⟨polled, hpolled⟩ := handles.completes
        rw [getClinserts, hcreate] at hpolled
        cases hpolled
    | ok created =>
        cases created with
        | none =>
            exact absurd (getClinserts_without_session hcreate replies maxErrors) handles.notNull
        | some session =>
            exact ⟨(sessionCreate_iff sessOpen host).mp ⟨session, hcreate⟩,
              (getClinserts_completes_iff hcreate).mp handles.completes⟩
  · rintro ⟨canOpen, through⟩
    obtain ⟨session, hsession⟩ := (sessionCreate_iff sessOpen host).mpr canOpen
    obtain ⟨polled, hpolled⟩ := (getClinserts_completes_iff hsession).mpr through
    refine ⟨?_, ⟨polled, hpolled⟩, fun hnull => ?_⟩
    · rw [hpolled]
      exact fun himpossible => nomatch himpossible
    · rw [hsession] at hnull
      cases hnull

/-- A host block without a `snmpver` line: the version keeps its initial zero. -/
def versionlessHost : Queryhost where
  host := some (CString.ofString "172.16.1.1")
  community := some (CString.ofString "monitoring")
  snmpver := 0
  rows := []

/-- The poll of such a host, with a library that opens every session, and the
poll of a host with version 2, with a library that opens none. -/
theorem null_session_is_freed :
    getClinserts (fun _ _ _ => some ()) (fun _ => none) versionlessHost 3 =
        .error .nullSession ∧
      getClinserts (fun _ _ _ => (none : Option Unit)) (fun _ => none)
        { versionlessHost with snmpver := 2 } 3 = .error .nullSession ∧
      ¬ HandlesSession (fun _ _ _ => some ()) (fun _ => none) versionlessHost 3 :=
  ⟨rfl, rfl, fun handles => handles.notNull rfl⟩

end ClusteredPoller.Poller
