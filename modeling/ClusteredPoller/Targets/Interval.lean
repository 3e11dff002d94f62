import ClusteredPoller.Cltime
import ClusteredPoller.Targets.OldStyle

/-!
# Divisions by the interval

The interval is a divisor in both readers of targets files and in the monitor.
It is zero exactly when the last `interval` line of `rtg.conf` says so, since
`rtgconf_verify` looks at the names for the database only.
-/

namespace ClusteredPoller.Targets

open Poller
open Library.Outcome (bind_eq_ok bind_eq_error FailsIn)

/-! ## Faults of the readers -/

/-- What can go wrong while a targets file is read. -/
def ReadFault (conf : Rtgconf) (fault : Fault) : Prop :=
  fault = .uninitialised ∨ fault = .nullString ∨ (fault = .divisionByZero ∧ conf.interval = 0)

section Faults

variable {unspecified : Unspecified} {conf : Rtgconf}

theorem strcmpEqual_fails (first second : Option CString) :
    FailsIn (· = .nullString) (strcmpEqual first second) := by
  unfold strcmpEqual
  split
  · exact FailsIn.ok _
  · exact FailsIn.error rfl

theorem strdupArgument_fails (text : Option CString) :
    FailsIn (· = .uninitialised) (strdupArgument text) := by
  cases text with
  | none => exact FailsIn.error rfl
  | some text => exact FailsIn.ok _

theorem apply_fails (row : Queryrow) (directive : RowDirective) :
    FailsIn (ReadFault conf) (directive.apply conf row) := by
  cases directive with
  | table text =>
      exact ((strdupArgument_fails text).mono fun _ => Or.inl).bind fun _ => FailsIn.ok _
  | speed maxCounterDiff =>
      simp only [RowDirective.apply]
      split
      · exact FailsIn.ok _
      · split
        · next hzero => exact FailsIn.error (Or.inr (Or.inr ⟨rfl, hzero⟩))
        · exact FailsIn.ok _
  | bits value => exact FailsIn.ok _
  | id value => exact FailsIn.ok _
  | other => exact FailsIn.ok _

theorem rowLoop_fails (row : Queryrow) (stream : List Char) :
    FailsIn (ReadFault conf) (rowLoop unspecified conf row stream) := by
  induction row, stream using rowLoop.induct unspecified with
  | case1 row stream hscan =>
      rw [rowLoop_end hscan]
      exact FailsIn.ok _
  | case2 row stream rest hscan =>
      rw [rowLoop_close hscan]
      exact FailsIn.ok _
  | case3 row stream directive rest hscan ih =>
      rw [rowLoop_step hscan]
      exact (apply_fails row directive).bind ih

theorem checkForDuplicate_fails (rows : List Queryrow) (row : Queryrow) :
    FailsIn (· = .nullString) (checkForDuplicate rows row) := by
  induction rows with
  | nil => exact FailsIn.ok _
  | cons first rows ih =>
      refine (strcmpEqual_fails _ _).bind fun sameOid => ?_
      cases sameOid with
      | true => exact FailsIn.ok _
      | false =>
          refine (strcmpEqual_fails _ _).bind fun sameTable => ?_
          split
          · exact FailsIn.ok _
          · exact ih

theorem addTarget_fails (host : Queryhost) (row : Queryrow) :
    FailsIn (· = .nullString) (addTarget host row) := by
  refine (checkForDuplicate_fails _ _).bind fun duplicate => ?_
  split <;> exact FailsIn.ok _

theorem hostLoop_fails (host : Queryhost) (stream : List Char) :
    FailsIn (ReadFault conf) (hostLoop unspecified conf host stream) := by
  have hargument : ∀ text, FailsIn (ReadFault conf) (strdupArgument text) := fun text =>
    (strdupArgument_fails text).mono fun _ => Or.inl
  induction host, stream using hostLoop.induct unspecified conf with
  | case1 host stream hscan =>
      rw [hostLoop_end hscan]
      exact FailsIn.ok _
  | case2 host stream rest hscan =>
      rw [hostLoop_close hscan]
      exact FailsIn.ok _
  | case3 host stream text rest hscan ih =>
      rw [hostLoop_community hscan]
      exact (hargument text).bind ih
  | case4 host stream value rest hscan ih =>
      rw [hostLoop_snmpver hscan]
      exact ih
  | case5 host stream text rest hscan ih =>
      rw [hostLoop_target hscan]
      refine (hargument text).bind fun oid => ?_
      intro fault hfault
      rcases bind_eq_error.mp hfault with hrow | ⟨read, hrow, hfault⟩
      · exact rowLoop_fails _ _ fault hrow
      · refine FailsIn.bind ?_ (ih oid read.1 read.2 hrow) fault hfault
        exact (addTarget_fails _ _).mono fun _ hnull => Or.inr (Or.inl hnull)
  | case6 host stream rest hscan ih =>
      rw [hostLoop_other hscan]
      exact ih

theorem targetsLoop_fails (targets : Rtgtargets) (stream : List Char) :
    FailsIn (ReadFault conf) (targetsLoop unspecified conf targets stream) := by
  induction targets, stream using targetsLoop.induct unspecified conf with
  | case1 targets stream hscan =>
      rw [targetsLoop_end hscan]
      exact FailsIn.ok _
  | case2 targets stream rest hscan ih =>
      rw [targetsLoop_other hscan]
      exact ih
  | case3 targets stream name rest hscan fault hhost =>
      rw [targetsLoop_host hscan, hhost]
      exact FailsIn.error (hostLoop_fails _ _ fault hhost)
  | case4 targets stream name rest hscan host behind hhost ih =>
      rw [targetsLoop_host hscan, hhost]
      exact ih

theorem readNewStyleTargets_fails (file : File) :
    FailsIn (ReadFault conf) (readNewStyleTargets unspecified file conf) := by
  cases file with
  | none => exact FailsIn.ok _
  | some text => exact targetsLoop_fails _ text

theorem findHost_fails (hosts : List Queryhost) (name : Option CString) :
    FailsIn (· = .nullString) (rtgtargetsFindHost hosts name) := by
  induction hosts with
  | nil => exact FailsIn.ok _
  | cons host hosts ih =>
      refine (strcmpEqual_fails _ _).bind fun same => ?_
      split
      · exact FailsIn.ok _
      · exact ih.bind fun found => FailsIn.ok _

theorem sameHost_fails (reader : OldReader) (name : CString) :
    FailsIn (· = .nullString) (reader.sameHost name) := by
  unfold OldReader.sameHost
  split
  · exact FailsIn.ok _
  · refine (strcmpEqual_fails _ _).bind fun same => ?_
    split <;> exact FailsIn.ok _

theorem hostOf_fails (reader : OldReader) (fields : Fields) :
    FailsIn (· = .nullString) (reader.hostOf fields) := by
  refine (sameHost_fails reader fields.host).bind fun same => ?_
  cases same with
  | some index => exact FailsIn.ok _
  | none =>
      refine (findHost_fails _ _).bind fun found => ?_
      cases found <;> exact FailsIn.ok _

theorem oldSpeed_fails : FailsIn (ReadFault conf) (oldSpeed unspecified conf) := by
  unfold oldSpeed
  split
  · next hzero => exact FailsIn.error (Or.inr (Or.inr ⟨rfl, hzero⟩))
  · exact FailsIn.ok _

theorem readLine_fails (reader : OldReader) (line : List Char) :
    FailsIn (ReadFault conf) (reader.readLine unspecified conf line) := by
  unfold OldReader.readLine
  split
  · exact FailsIn.ok _
  · refine FailsIn.bind ?_ fun found => oldSpeed_fails.bind fun speed => FailsIn.ok _
    exact (hostOf_fails _ _).mono fun _ hnull => Or.inr (Or.inl hnull)

theorem readOldStyleTargets_fails (file : File) :
    FailsIn (ReadFault conf) (readOldStyleTargets unspecified file conf) := by
  cases file with
  | none => exact FailsIn.ok _
  | some text => exact (FailsIn.foldlM readLine_fails).bind fun reader => FailsIn.ok _

theorem rtgtargetsParse_fails (file : File) :
    FailsIn (ReadFault conf) (rtgtargetsParse unspecified file conf) := by
  refine (readNewStyleTargets_fails file).bind fun targets => ?_
  split
  · exact readOldStyleTargets_fails file
  · exact FailsIn.ok _

/-- With an interval, no targets file leads to a division by zero. -/
theorem rtgtargetsParse_divides (hinterval : conf.interval ≠ 0) (file : File) :
    rtgtargetsParse unspecified file conf ≠ .error .divisionByZero := by
  intro hfault
  rcases rtgtargetsParse_fails file _ hfault with himpossible | himpossible | ⟨-, hzero⟩
  · cases himpossible
  · cases himpossible
  · exact hinterval hzero

end Faults

theorem nextInterval_divides_iff {interval : UInt32} :
    (∀ now, Cltime.nextInterval now interval ≠ .error .divisionByZero) ↔ interval ≠ 0 := by
  constructor
  · rintro hdivides rfl
    exact hdivides 0 rfl
  · intro hinterval now hfault
    have hsteps : FailsIn (· = .signedOverflow) (Cltime.nextInterval now interval) := by
      rw [Cltime.nextInterval, if_neg hinterval]
      exact FailsIn.bind (fun _ => Cltime.longLong_error) fun next =>
        FailsIn.bind (fun _ => Cltime.longLong_error) fun ms _ => Cltime.longLong_error
    cases hsteps _ hfault

/-! ## The interval of a configuration -/

/-- The directives of some lines that set the interval. -/
def intervalDirectives (lines : List (List Char)) : List (CString × Option CString) :=
  (lines.filterMap lineDirective).filter fun directive =>
    directive.1 = intervalToken

/-- The file leaves the interval at its default, or its last `interval` line
gives a number that is not zero as an `unsigned`. -/
def SetsInterval (text : List Char) : Prop :=
  ∀ directive value, (intervalDirectives (bufferedLines text)).getLast? =
    some directive → directive.2 = some value → atoiUnsigned value ≠ 0

theorem setDirective_interval {conf next : Rtgconf} {token : CString} {value : Option CString}
    (hset : conf.setDirective token value = .ok next) :
    if token = intervalToken then
      ∃ text, value = some text ∧ next.interval = atoiUnsigned text
    else next.interval = conf.interval := by
  unfold Rtgconf.setDirective at hset
  split
  · next htoken =>
      rw [if_pos htoken] at hset
      obtain ⟨text, htext, hnext⟩ := bind_eq_ok.mp hset
      cases value with
      | none => cases htext
      | some value =>
          cases htext
          cases hnext
          exact ⟨_, rfl, rfl⟩
  · next htoken =>
      rw [if_neg htoken] at hset
      -- The other directives leave the interval alone.
      split_ifs at hset
      all_goals first
        | obtain ⟨text, -, hnext⟩ := bind_eq_ok.mp hset
          cases hnext
          rfl
        | cases hset
          rfl

/-- After some lines the interval is the one of the last line that sets it. -/
theorem readLines_interval {lines : List (List Char)} {start final : Rtgconf}
    (hread : lines.foldlM Rtgconf.readLine start = .ok final) :
    match (intervalDirectives lines).getLast? with
    | none => final.interval = start.interval
    | some directive => ∃ text, directive.2 = some text ∧ final.interval = atoiUnsigned text := by
  induction lines generalizing start with
  | nil =>
      cases hread
      rfl
  | cons line lines ih =>
      rw [List.foldlM_cons] at hread
      obtain ⟨next, hline, hrest⟩ := bind_eq_ok.mp hread
      have hlater := ih hrest
      unfold Rtgconf.readLine at hline
      cases hdirective : lineDirective line with
      | none =>
          rw [hdirective] at hline
          cases hline
          simpa [intervalDirectives, hdirective] using hlater
      | some directive =>
          rw [hdirective] at hline
          have hset := setDirective_interval hline
          by_cases htoken : directive.1 = intervalToken
          · rw [if_pos htoken] at hset
            have hcons : intervalDirectives (line :: lines) =
                directive :: intervalDirectives lines := by
              simp [intervalDirectives, hdirective, htoken]
            rw [hcons, List.getLast?_cons]
            cases hlast : (intervalDirectives lines).getLast? with
            | none =>
                rw [hlast] at hlater
                simpa [hlater] using hset
            | some later =>
                rw [hlast] at hlater
                simpa using hlater
          · rw [if_neg htoken] at hset
            have hskip : intervalDirectives (line :: lines) = intervalDirectives lines := by
              simp [intervalDirectives, hdirective, htoken]
            rw [hskip]
            simpa [hset] using hlater

theorem rtgconfCreate_interval {memory conf : Rtgconf} {text : List Char}
    (hcreate : rtgconfCreate memory (some text) = .ok (some conf)) :
    conf.interval ≠ 0 ↔ SetsInterval text := by
  obtain ⟨final, hread, hconf⟩ := bind_eq_ok.mp hcreate
  cases hconf
  have hinterval := readLines_interval hread
  unfold SetsInterval
  cases hlast : (intervalDirectives (bufferedLines text)).getLast? with
  | none =>
      rw [hlast] at hinterval
      simp [hinterval]
  | some directive =>
      rw [hlast] at hinterval
      obtain ⟨value, hvalue, hfinal⟩ := hinterval
      rw [hfinal]
      constructor
      · intro hne other text hother htext
        cases hother
        rw [hvalue] at htext
        cases htext
        exact hne
      · intro hsets
        exact hsets directive value rfl hvalue

/-- The interval of an accepted configuration divides without a fault, in the
readers of any targets file and in the monitor at any time, exactly when the
file does not set it to zero. -/
theorem interval_divides_iff {memory conf : Rtgconf} {text : List Char} (options : Options)
    (hcreate : rtgconfCreate memory (some text) = .ok (some conf))
    (_hverify : rtgconfVerify conf = true) :
    ((∀ unspecified file,
        rtgtargetsParse unspecified file (conf.patch options) ≠ .error .divisionByZero) ∧
      ∀ now, Cltime.nextInterval now (conf.patch options).interval ≠ .error .divisionByZero) ↔
    SetsInterval text := by
  rw [← rtgconfCreate_interval hcreate, nextInterval_divides_iff]
  constructor
  · rintro ⟨-, hinterval⟩
    exact hinterval
  · intro hinterval
    exact ⟨fun unspecified file =>
      @rtgtargetsParse_divides unspecified (conf.patch options) hinterval file, hinterval⟩

/-- A configuration with the names that `rtgconf_verify` wants. -/
def localConf (interval : UInt32) : Rtgconf :=
  { defaultRtgconf with
    interval := interval
    dbhost := some (CString.ofString "localhost")
    database := some (CString.ofString "rtg")
    dbuser := some (CString.ofString "snmp") }

def localFile (interval : String) : List Char :=
  ("Interval " ++ interval ++ "\nDB_Host localhost\nDB_Database rtg\nDB_User snmp\n").toList

/-- `Interval 0` is accepted, and then the monitor and the readers of targets
files divide by zero. -/
theorem zero_interval_divides :
    rtgconfCreate defaultRtgconf (some (localFile "0")) = .ok (some (localConf 0)) ∧
      rtgconfVerify (localConf 0) = true ∧
      (∀ now, Cltime.nextInterval now (localConf 0).interval = .error .divisionByZero) ∧
      rtgtargetsParse ⟨0, fun _ => 0⟩
        (some "host a \x7b target 1.3 \x7b bits 32; speed 10; \x7d; \x7d;".toList) (localConf 0) =
          .error .divisionByZero ∧
      rtgtargetsParse ⟨0, fun _ => 0⟩ (some "a\t1.3\t32\tpublic\tdata\t1".toList) (localConf 0) =
        .error .divisionByZero := by
  refine ⟨by decide +kernel, rfl, fun now => rfl, by decide +kernel, by decide +kernel⟩

/-- The options in the absence of a command line. -/
def defaultOptions : Options where
  useDb := true
  useRateColumn := true
  useCurrvalueColumn := false
  allowDbZero := false
  maxDbQueue := 10000
  numDbthreads := 1
  maxErrorsPerHost := 3

theorem interval_divides_fiveMinutes :
    (∀ unspecified file, rtgtargetsParse unspecified file ((localConf 300).patch defaultOptions) ≠
      .error .divisionByZero) ∧
    ∀ now, Cltime.nextInterval now ((localConf 300).patch defaultOptions).interval ≠
      .error .divisionByZero := by
  have hcreate : rtgconfCreate defaultRtgconf (some (localFile "300")) =
      .ok (some (localConf 300)) := by decide +kernel
  have hsets : SetsInterval (localFile "300") := by
    rw [← rtgconfCreate_interval hcreate]
    decide
  exact (interval_divides_iff defaultOptions hcreate rfl).mpr hsets

end ClusteredPoller.Targets
