import ClusteredPoller.Targets.Blocks

/-!
# The order of directives

The handler of `speed` reads what an earlier `bits` has set and divides by the
interval if it is not zero.  The other handlers set a field each and read none,
so a row depends on the order of its directives in this one respect.
-/

namespace ClusteredPoller.Targets

open Poller
open Library.Outcome (ok_bind)

/-- A directive with a well-formed argument. -/
inductive RowSetting where
  | bits (value : UInt32)
  | table (text : CString)
  | id (value : UInt32)
  | speed (maxCounterDiff : UInt64)
  deriving DecidableEq

inductive SettingKind where
  | bits
  | table
  | id
  | speed
  deriving DecidableEq

namespace RowSetting

def kind : RowSetting → SettingKind
  | .bits _ => .bits
  | .table _ => .table
  | .id _ => .id
  | .speed _ => .speed

def directive : RowSetting → RowDirective
  | .bits value => .bits (some value)
  | .table text => .table (some text)
  | .id value => .id (some value)
  | .speed maxCounterDiff => .speed maxCounterDiff

/-- What the handler of the directive does, where the interval is not zero. -/
def set (conf : Rtgconf) (row : Queryrow) : RowSetting → Queryrow
  | .bits value => { row with bits := value }
  | .table text => { row with table := some text }
  | .id value => { row with id := value }
  | .speed maxCounterDiff =>
      { row with
        speed := if row.bits = 0 then maxCounterDiff else maxCounterDiff / conf.interval.toUInt64 }

end RowSetting

/-- A target block with these directives, each kind at most once, among words
and comments that mean nothing. -/
structure SetsOnce (unspecified : Unspecified) (stream : List Char) (settings : List RowSetting) :
    Prop where
  read : (rowDirectives unspecified stream).1.filter (· ≠ .other) =
    settings.map RowSetting.directive
  once : (settings.map RowSetting.kind).Nodup

/-- A width other than zero stands in front of the speed. -/
def DividesSpeed (settings : List RowSetting) : Prop :=
  ∃ before maxCounterDiff after, settings = before ++ .speed maxCounterDiff :: after ∧
    ∃ value, .bits value ∈ before ∧ value ≠ 0

/-! ## Reading is setting -/

theorem foldlM_filter_other {conf : Rtgconf} (directives : List RowDirective) (row : Queryrow) :
    (directives.filter (· ≠ .other)).foldlM (RowDirective.apply conf) row =
      directives.foldlM (RowDirective.apply conf) row := by
  induction directives generalizing row with
  | nil => rfl
  | cons directive directives ih =>
      by_cases hother : directive = .other
      · subst hother
        rw [List.filter_cons_of_neg (by simp), ih]
        rfl
      · rw [List.filter_cons_of_pos (by simpa using hother), List.foldlM_cons, List.foldlM_cons]
        exact bind_congr fun next => ih next

section Setting

variable {conf : Rtgconf}

theorem apply_directive (hinterval : conf.interval ≠ 0) (row : Queryrow) (setting : RowSetting) :
    setting.directive.apply conf row = .ok (setting.set conf row) := by
  cases setting with
  | bits value => rfl
  | table text => rfl
  | id value => rfl
  | speed maxCounterDiff =>
      change (if _ then _ else if _ then _ else _) = _
      rw [RowSetting.set, if_neg hinterval]
      split <;> rfl

theorem foldlM_directives (hinterval : conf.interval ≠ 0) (settings : List RowSetting)
    (row : Queryrow) :
    (settings.map RowSetting.directive).foldlM (RowDirective.apply conf) row =
      .ok (settings.foldl (RowSetting.set conf) row) := by
  induction settings generalizing row with
  | nil => rfl
  | cons setting settings ih =>
      rw [List.map_cons, List.foldlM_cons, apply_directive hinterval, ok_bind, ih, List.foldl_cons]

theorem readRow_sets {unspecified : Unspecified} {stream : List Char} {settings : List RowSetting}
    (hinterval : conf.interval ≠ 0) (sets : SetsOnce unspecified stream settings) (oid : CString) :
    readRow unspecified conf oid stream =
      .ok (settings.foldl (RowSetting.set conf) { queryrowCreate with oid := some oid },
        (rowDirectives unspecified stream).2) := by
  rw [readRow_eq, evalRow, ← foldlM_filter_other, sets.read, foldlM_directives hinterval, ok_bind]

/-! ## All but the speed -/

/-- The row without its speed. -/
def withoutSpeed (row : Queryrow) : Queryrow := { row with speed := 0 }

theorem withoutSpeed_foldl (settings : List RowSetting) (row : Queryrow) :
    withoutSpeed (settings.foldl (RowSetting.set conf) row) =
      settings.foldl (fun row setting => withoutSpeed (setting.set conf row))
        (withoutSpeed row) := by
  induction settings generalizing row with
  | nil => rfl
  | cons setting settings ih =>
      rw [List.foldl_cons, ih, List.foldl_cons]
      cases setting <;> rfl

theorem set_comm {first second : RowSetting} (hkind : first.kind ≠ second.kind) (row : Queryrow) :
    withoutSpeed (second.set conf (withoutSpeed (first.set conf row))) =
      withoutSpeed (first.set conf (withoutSpeed (second.set conf row))) := by
  cases first <;> cases second <;> first | rfl | exact absurd rfl hkind

theorem withoutSpeed_perm {settings others : List RowSetting} (hperm : settings.Perm others)
    (honce : (settings.map RowSetting.kind).Nodup) (row : Queryrow) :
    withoutSpeed (settings.foldl (RowSetting.set conf) row) =
      withoutSpeed (others.foldl (RowSetting.set conf) row) := by
  rw [withoutSpeed_foldl, withoutSpeed_foldl]
  refine hperm.foldl_eq' (fun first hfirst second hsecond row => ?_) _
  by_cases heq : first = second
  · rw [heq]
  · exact set_comm (fun hkind => heq (List.inj_on_of_nodup_map honce hfirst hsecond hkind)) row

/-! ## The speed -/

theorem foldl_speed_kept {settings : List RowSetting}
    (hnone : ∀ setting ∈ settings, setting.kind ≠ .speed) (row : Queryrow) :
    (settings.foldl (RowSetting.set conf) row).speed = row.speed := by
  induction settings generalizing row with
  | nil => rfl
  | cons setting settings ih =>
      obtain ⟨hsetting, hrest⟩ := List.forall_mem_cons.mp hnone
      rw [List.foldl_cons, ih hrest]
      cases setting with
      | speed maxCounterDiff => exact absurd rfl hsetting
      | _ => rfl

theorem foldl_bits_kept {settings : List RowSetting}
    (hnone : ∀ setting ∈ settings, setting.kind ≠ .bits) (row : Queryrow) :
    (settings.foldl (RowSetting.set conf) row).bits = row.bits := by
  induction settings generalizing row with
  | nil => rfl
  | cons setting settings ih =>
      obtain ⟨hsetting, hrest⟩ := List.forall_mem_cons.mp hnone
      rw [List.foldl_cons, ih hrest]
      cases setting with
      | bits value => exact absurd rfl hsetting
      | _ => rfl

/-- Nothing else in the list is of the same kind. -/
theorem kind_ne_of_once {before after : List RowSetting} {setting : RowSetting}
    (honce : ((before ++ setting :: after).map RowSetting.kind).Nodup) :
    (∀ other ∈ before, other.kind ≠ setting.kind) ∧ ∀ other ∈ after, other.kind ≠ setting.kind := by
  rw [List.map_append, List.map_cons, List.nodup_append] at honce
  obtain ⟨-, hafter, hbefore⟩ := honce
  constructor
  · intro other hother
    exact hbefore _ (List.mem_map_of_mem hother) _ List.mem_cons_self
  · intro other hother heq
    exact (List.nodup_cons.mp hafter).1 (heq ▸ List.mem_map_of_mem hother)

theorem foldl_bits {settings : List RowSetting} (honce : (settings.map RowSetting.kind).Nodup)
    {row : Queryrow} (hrow : row.bits = 0) :
    (settings.foldl (RowSetting.set conf) row).bits ≠ 0 ↔
      ∃ value, .bits value ∈ settings ∧ value ≠ 0 := by
  by_cases hbits : ∃ value, RowSetting.bits value ∈ settings
  · obtain ⟨value, hvalue⟩ := hbits
    obtain ⟨before, after, rfl⟩ := List.append_of_mem hvalue
    have hothers := kind_ne_of_once honce
    rw [List.foldl_append, List.foldl_cons, foldl_bits_kept hothers.2]
    constructor
    · exact fun hne => ⟨value, hvalue, hne⟩
    · rintro ⟨other, hother, hne⟩
      have heq : RowSetting.bits other = .bits value :=
        List.inj_on_of_nodup_map honce hother hvalue rfl
      cases heq
      exact hne
  · have hnone : ∀ setting ∈ settings, setting.kind ≠ .bits := by
      intro setting hsetting hkind
      cases setting with
      | bits value => exact hbits ⟨value, hsetting⟩
      | _ => cases hkind
    rw [foldl_bits_kept hnone, hrow]
    constructor
    · exact fun hne => absurd rfl hne
    · rintro ⟨value, hvalue, -⟩
      exact absurd ⟨value, hvalue⟩ hbits

theorem takeWhile_speed {before after : List RowSetting} {maxCounterDiff : UInt64}
    (hnone : ∀ setting ∈ before, setting.kind ≠ .speed) :
    (before ++ .speed maxCounterDiff :: after).takeWhile (·.kind ≠ .speed) = before := by
  rw [List.takeWhile_append_of_pos fun setting hsetting => decide_eq_true (hnone setting hsetting),
    List.takeWhile_cons_of_neg (by simp [RowSetting.kind]), List.append_nil]

/-- The speed is divided exactly if a width stands in front of it. -/
theorem foldl_speed {settings : List RowSetting} (honce : (settings.map RowSetting.kind).Nodup)
    {maxCounterDiff : UInt64} (hspeed : .speed maxCounterDiff ∈ settings) {row : Queryrow}
    (hrow : row.bits = 0) :
    (DividesSpeed settings → (settings.foldl (RowSetting.set conf) row).speed =
      maxCounterDiff / conf.interval.toUInt64) ∧
    (¬ DividesSpeed settings →
      (settings.foldl (RowSetting.set conf) row).speed = maxCounterDiff) := by
  obtain ⟨before, after, rfl⟩ := List.append_of_mem hspeed
  have hothers := kind_ne_of_once honce
  have hbefore : (before.map RowSetting.kind).Nodup :=
    honce.sublist ((List.sublist_append_left before _).map _)
  have hbits := @foldl_bits conf before hbefore row hrow
  have hdivides : DividesSpeed (before ++ .speed maxCounterDiff :: after) ↔
      (before.foldl (RowSetting.set conf) row).bits ≠ 0 := by
    rw [hbits]
    constructor
    · rintro ⟨earlier, other, later, heq, hvalue⟩
      have hearlier := kind_ne_of_once (heq ▸ honce)
      have hsame := congrArg (List.takeWhile (·.kind ≠ .speed)) heq
      rw [takeWhile_speed hothers.1, takeWhile_speed hearlier.1] at hsame
      exact hsame ▸ hvalue
    · exact fun hvalue => ⟨before, maxCounterDiff, after, rfl, hvalue⟩
  rw [hdivides, List.foldl_append, List.foldl_cons, foldl_speed_kept hothers.2]
  constructor
  · exact fun hne => if_neg hne
  · exact fun hnot => if_pos (not_not.mp hnot)

/-- A row is determined by its speed and the rest. -/
theorem eq_iff_withoutSpeed {row other : Queryrow} (hrest : withoutSpeed row = withoutSpeed other) :
    row = other ↔ row.speed = other.speed := by
  constructor
  · exact congrArg Queryrow.speed
  · intro hspeed
    cases row
    cases other
    simp_all [withoutSpeed]

/-- Dividing by the interval changes a speed unless one of them is trivial. -/
theorem speed_div_eq_iff {speed : UInt64} {interval : UInt32} (hinterval : interval ≠ 0) :
    speed / interval.toUInt64 = speed ↔ speed = 0 ∨ interval = 1 := by
  have hpos : interval.toNat ≠ 0 := fun heq => hinterval (UInt32.toNat_inj.mp heq)
  rw [← UInt64.toNat_inj, UInt64.toNat_div, UInt32.toNat_toUInt64, ← UInt64.toNat_inj,
    ← UInt32.toNat_inj, Nat.div_eq_self]
  rfl

theorem rows_eq_iff (hinterval : conf.interval ≠ 0) {settings others : List RowSetting}
    (hperm : settings.Perm others) (honce : (settings.map RowSetting.kind).Nodup)
    {row : Queryrow} (hrow : row.bits = 0) :
    settings.foldl (RowSetting.set conf) row = others.foldl (RowSetting.set conf) row ↔
      (DividesSpeed settings ↔ DividesSpeed others) ∨
        ∀ maxCounterDiff, .speed maxCounterDiff ∈ settings →
          maxCounterDiff = 0 ∨ conf.interval = 1 := by
  have honce' : (others.map RowSetting.kind).Nodup := (hperm.map _).nodup_iff.mp honce
  rw [eq_iff_withoutSpeed (withoutSpeed_perm hperm honce row)]
  by_cases hspeed : ∃ maxCounterDiff, RowSetting.speed maxCounterDiff ∈ settings
  · obtain ⟨maxCounterDiff, hmem⟩ := hspeed
    have honly : (∀ other, RowSetting.speed other ∈ settings → other = 0 ∨ conf.interval = 1) ↔
        maxCounterDiff / conf.interval.toUInt64 = maxCounterDiff := by
      rw [speed_div_eq_iff hinterval]
      constructor
      · exact fun hall => hall maxCounterDiff hmem
      · intro htrivial other hother
        have heq : RowSetting.speed other = .speed maxCounterDiff :=
          List.inj_on_of_nodup_map honce hother hmem rfl
        cases heq
        exact htrivial
    obtain ⟨hdivided, hwhole⟩ := @foldl_speed conf settings honce _ hmem row hrow
    obtain ⟨hdivided', hwhole'⟩ :=
      @foldl_speed conf others honce' _ (hperm.mem_iff.mp hmem) row hrow
    rw [honly]
    by_cases hfirst : DividesSpeed settings
    · by_cases hsecond : DividesSpeed others
      · simp [hdivided hfirst, hdivided' hsecond, hfirst, hsecond]
      · simp [hdivided hfirst, hwhole' hsecond, hfirst, hsecond]
    · by_cases hsecond : DividesSpeed others
      · simp [hwhole hfirst, hdivided' hsecond, hfirst, hsecond, eq_comm]
      · simp [hwhole hfirst, hwhole' hsecond, hfirst, hsecond]
  · have hnone : ∀ setting ∈ settings, setting.kind ≠ .speed := by
      intro setting hsetting hkind
      cases setting with
      | speed maxCounterDiff => exact hspeed ⟨maxCounterDiff, hsetting⟩
      | _ => cases hkind
    have hnone' : ∀ setting ∈ others, setting.kind ≠ .speed :=
      fun setting hsetting => hnone setting (hperm.mem_iff.mpr hsetting)
    rw [foldl_speed_kept hnone, foldl_speed_kept hnone']
    exact iff_of_true rfl (Or.inr fun maxCounterDiff hmem => absurd ⟨maxCounterDiff, hmem⟩ hspeed)

end Setting

/-- Two blocks with the same directives give the same row exactly if the width
stands in front of the speed in both or in neither, or division by the interval
does not change the speed. -/
theorem readRow_order_iff {unspecified : Unspecified} {conf : Rtgconf}
    (hinterval : 1 ≤ conf.interval) {first second : List Char} {settings others : List RowSetting}
    (hfirst : SetsOnce unspecified first settings) (hsecond : SetsOnce unspecified second others)
    (hperm : settings.Perm others) (oid : CString) :
    ∃ row other rest later, readRow unspecified conf oid first = .ok (row, rest) ∧
      readRow unspecified conf oid second = .ok (other, later) ∧
      (row = other ↔
        (DividesSpeed settings ↔ DividesSpeed others) ∨
          ∀ maxCounterDiff, .speed maxCounterDiff ∈ settings →
            maxCounterDiff = 0 ∨ conf.interval = 1) := by
  have hnonzero : conf.interval ≠ 0 := UInt32.pos_iff_ne_zero.mp hinterval
  exact ⟨_, _, _, _, readRow_sets hnonzero hfirst oid, readRow_sets hnonzero hsecond oid,
    rows_eq_iff hnonzero hperm hfirst.once rfl⟩

/-- The block of a target, in two orders. -/
def widthFirst : List Char := "\x7b\n bits 32;\n table t;\n speed 3000;\n id 7;\n\x7d;\n".toList

def speedFirst : List Char := "\x7b\n id 7;\n speed 3000;\n bits 32;\n table t;\n\x7d;\n".toList

def tableFirst : List Char := "\x7b\n table t;\n bits 32;\n speed 3000;\n id 7;\n\x7d;\n".toList

/-- The OID and the table of these blocks. -/
def blockOid : CString := CString.ofMemory ['.', '1']

def blockTable : CString := CString.ofMemory ['t']

theorem widthFirst_sets : SetsOnce ⟨0, fun _ => 0⟩ widthFirst
    [.bits 32, .table blockTable, .speed 3000, .id 7] :=
  ⟨by decide +kernel, by decide⟩

theorem speedFirst_sets : SetsOnce ⟨0, fun _ => 0⟩ speedFirst
    [.id 7, .speed 3000, .bits 32, .table blockTable] :=
  ⟨by decide +kernel, by decide⟩

theorem tableFirst_sets : SetsOnce ⟨0, fun _ => 0⟩ tableFirst
    [.table blockTable, .bits 32, .speed 3000, .id 7] :=
  ⟨by decide +kernel, by decide⟩

/-- The same directives, and speeds of 10 and of 3000. -/
theorem speed_before_bits_not_divided :
    ∃ row other rest later,
      readRow ⟨0, fun _ => 0⟩ defaultRtgconf blockOid widthFirst = .ok (row, rest) ∧
      readRow ⟨0, fun _ => 0⟩ defaultRtgconf blockOid speedFirst = .ok (other, later) ∧
      [RowSetting.bits 32, .table blockTable, .speed 3000, .id 7].Perm
        [.id 7, .speed 3000, .bits 32, .table blockTable] ∧
      row.speed = 10 ∧ other.speed = 3000 :=
  ⟨_, _, _, _, readRow_sets (by decide) widthFirst_sets blockOid,
    readRow_sets (by decide) speedFirst_sets blockOid, by decide, by decide, by decide⟩

theorem readRow_order_tableFirst :
    ∃ row rest later,
      readRow ⟨0, fun _ => 0⟩ defaultRtgconf blockOid widthFirst = .ok (row, rest) ∧
      readRow ⟨0, fun _ => 0⟩ defaultRtgconf blockOid tableFirst = .ok (row, later) := by
  obtain ⟨row, other, rest, later, hfirst, hsecond, hsame⟩ :=
    @readRow_order_iff _ defaultRtgconf (by decide) _ _ _ _ widthFirst_sets tableFirst_sets
      (by decide) blockOid
  have hwidth : DividesSpeed [.bits 32, .table blockTable, .speed 3000, .id 7] :=
    ⟨[.bits 32, .table blockTable], 3000, [.id 7], rfl, 32, by decide, by decide⟩
  have htable : DividesSpeed [.table blockTable, .bits 32, .speed 3000, .id 7] :=
    ⟨[.table blockTable, .bits 32], 3000, [.id 7], rfl, 32, by decide, by decide⟩
  have heq : row = other := hsame.mpr (Or.inl (iff_of_true hwidth htable))
  exact ⟨row, rest, later, hfirst, heq ▸ hsecond⟩

end ClusteredPoller.Targets
