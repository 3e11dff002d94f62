import ClusteredPoller.RtgconfFile

/-!
# Directives without a value

`rtgconf_create` tests whether a line has a first word but hands the second one
on to `atoi` or `strdup` untested.
-/

namespace ClusteredPoller

/-- The directives that `rtgconf_create` knows. -/
def directiveTokens : List CString :=
  ["interval", "db_host", "db_database", "db_user", "db_pass", "threads"].map fun name =>
    CString.ofMemory name.toList

/-- The line does not end behind a known directive. -/
def HasValue (line : List Char) : Prop :=
  ∀ directive ∈ lineDirective line, directive.2 = none → directive.1 ∉ directiveTokens

instance (line : List Char) : Decidable (HasValue line) := by
  unfold HasValue
  infer_instance

/-- The defaults of `rtgconf_create`. -/
def rtgconfDefaults (memory : Rtgconf) : Rtgconf :=
  { memory with
    interval := 300
    threads := 8
    dbhost := none
    database := none
    dbuser := none
    dbpass := none
    numDbthreads := 1 }

/-- A turn that leaves the field alone where there is no value. -/
def Rtgconf.keepLine (conf : Rtgconf) (line : List Char) : Rtgconf :=
  match lineDirective line with
  | some (token, some text) => (conf.setDirective token (some text)).toOption.getD conf
  | _ => conf

/-- The configuration that such turns lead to. -/
def keptConfig (memory : Rtgconf) (text : List Char) : Rtgconf :=
  (bufferedLines text).foldl Rtgconf.keepLine (rtgconfDefaults memory)

section Lines

variable {conf : Rtgconf} {line : List Char}

/-- With a value, no directive fails. -/
theorem setDirective_value (conf : Rtgconf) (token text : CString) :
    ∃ next, conf.setDirective token (some text) = .ok next := by
  unfold Rtgconf.setDirective notNull
  split_ifs <;> exact ⟨_, rfl⟩

/-- A word that is no directive sets nothing. -/
theorem setDirective_unknown {token : CString} (hunknown : token ∉ directiveTokens)
    (conf : Rtgconf) (value : Option CString) : conf.setDirective token value = .ok conf := by
  have hother : ∀ name ∈ directiveTokens, token ≠ name := by
    rintro name hname rfl
    exact hunknown hname
  rw [Rtgconf.setDirective, if_neg (hother _ (by decide)), if_neg (hother _ (by decide)),
    if_neg (hother _ (by decide)), if_neg (hother _ (by decide)), if_neg (hother _ (by decide)),
    if_neg (hother _ (by decide))]

/-- Without one, the known directives do. -/
theorem setDirective_missing (conf : Rtgconf) (token : CString) :
    conf.setDirective token none =
      if token ∈ directiveTokens then .error .nullString else .ok conf := by
  by_cases hknown : token ∈ directiveTokens
  · rw [if_pos hknown]
    simp only [directiveTokens, List.map_cons, List.map_nil, List.mem_cons, List.not_mem_nil,
      or_false] at hknown
    rcases hknown with rfl | rfl | rfl | rfl | rfl | rfl <;> rfl
  · rw [if_neg hknown, setDirective_unknown hknown]

/-- A line with a value is read as if values were tested for. -/
theorem readLine_kept (hvalue : HasValue line) : conf.readLine line = .ok (conf.keepLine line) := by
  unfold Rtgconf.readLine Rtgconf.keepLine
  cases hline : lineDirective line with
  | none => rfl
  | some directive =>
      obtain ⟨token, value⟩ := directive
      cases value with
      | some text =>
          obtain ⟨next, hnext⟩ := setDirective_value conf token text
          simp [hnext, Except.toOption]
      | none =>
          simp only [setDirective_missing, if_neg (hvalue _ hline rfl)]

theorem readLine_missing (hmissing : ¬ HasValue line) :
    conf.readLine line = .error .nullString := by
  cases hline : lineDirective line with
  | none => exact absurd (by simp [HasValue, hline]) hmissing
  | some directive =>
      obtain ⟨token, value⟩ := directive
      have hknown : value = none ∧ token ∈ directiveTokens := by
        simpa [HasValue, hline] using hmissing
      obtain ⟨rfl, htoken⟩ := hknown
      simp only [Rtgconf.readLine, hline, setDirective_missing, if_pos htoken]

/-- Up to the first line without its value, the turns keep what has none. -/
theorem readLines_kept (lines : List (List Char)) (conf : Rtgconf) :
    lines.foldlM Rtgconf.readLine conf =
      if ∀ line ∈ lines, HasValue line then Except.ok (lines.foldl Rtgconf.keepLine conf)
      else Except.error Fault.nullString := by
  induction lines generalizing conf with
  | nil =>
      rw [if_pos (List.forall_mem_nil _)]
      rfl
  | cons line lines ih =>
      rw [List.foldlM_cons]
      by_cases hvalue : HasValue line
      · simp [readLine_kept hvalue, ih, hvalue]
      · simp [readLine_missing hvalue, hvalue]

end Lines

/-- `rtgconf_create` returns a configuration in which a directive without a
value has set nothing exactly if there is no such directive; otherwise it hands
on `NULL`. -/
theorem rtgconfCreate_kept_iff (text : List Char) :
    ((∀ memory, rtgconfCreate memory (some text) = .ok (some (keptConfig memory text))) ↔
      ∀ line ∈ bufferedLines text, HasValue line) ∧
    ((¬ ∀ line ∈ bufferedLines text, HasValue line) →
      ∀ memory, rtgconfCreate memory (some text) = .error .nullString) := by
  have hread : ∀ memory, rtgconfCreate memory (some text) =
      (bufferedLines text).foldlM Rtgconf.readLine (rtgconfDefaults memory) >>= fun conf =>
        .ok (some conf) := fun memory => rfl
  have hmissing : (¬ ∀ line ∈ bufferedLines text, HasValue line) →
      ∀ memory, rtgconfCreate memory (some text) = .error .nullString := by
    intro hnot memory
    rw [hread, readLines_kept, if_neg hnot]
    rfl
  refine ⟨⟨fun hkept => ?_, fun hvalues memory => ?_⟩, hmissing⟩
  · apply Classical.byContradiction
    intro hnot
    have himpossible := hkept defaultRtgconf
    rw [hmissing hnot] at himpossible
    cases himpossible
  · rw [hread, readLines_kept, if_pos hvalues]
    rfl

/-- An empty password. -/
theorem empty_value_null :
    rtgconfCreate defaultRtgconf (some "DB_Pass\n".toList) = .error .nullString := by
  decide +kernel

end ClusteredPoller
