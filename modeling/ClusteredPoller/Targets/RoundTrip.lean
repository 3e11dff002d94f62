import ClusteredPoller.Targets.NewStyleText
import ClusteredPoller.Targets.OldStyle

/-!
# Parsing undoes writing

A written new-style file is read back to the hosts and rows that were written,
in their order and with their number.
-/

namespace ClusteredPoller.Targets

open Poller
open Library.Outcome (ok_bind)

theorem foldl_pushHost (targets : Rtgtargets) (hosts : List Queryhost) :
    hosts.foldl Rtgtargets.pushHost targets =
      { hosts := targets.hosts ++ hosts
        ntargets := targets.ntargets +
          UInt32.ofNat (hosts.map fun host => host.rows.length).sum } := by
  induction hosts generalizing targets with
  | nil => simp
  | cons host hosts ih =>
      rw [List.foldl_cons, ih]
      simp [Rtgtargets.pushHost, UInt32.ofNat_add, UInt32.add_assoc]

/-- With at least one host, the old-style reader is not asked. -/
theorem rtgtargetsParse_render (unspecified : Unspecified) {conf : Rtgconf}
    (hinterval : conf.interval ≠ 0) (layout : Layout) {hosts : List HostText} (hne : hosts ≠ []) :
    rtgtargetsParse unspecified (some (layout.render hosts)) conf =
      .ok { hosts := hosts.map (hostOf conf)
            ntargets :=
              UInt32.ofNat (hosts.map fun host => (hostOf conf host).rows.length).sum } := by
  have hread : readNewStyleTargets unspecified (some (layout.render hosts)) conf =
      .ok { hosts := hosts.map (hostOf conf)
            ntargets :=
              UInt32.ofNat (hosts.map fun host => (hostOf conf host).rows.length).sum } := by
    rw [readNewStyleTargets, targetsLoop_render hinterval, foldl_pushHost]
    simp [rtgtargetsCreate, Function.comp_def]
  rw [rtgtargetsParse, hread, ok_bind, if_neg]
  · rfl
  · simpa using hne

/-- Neither the OID nor the table and number of the first target. -/
def TargetText.Differs (earlier target : TargetText) : Prop :=
  earlier.oid.text ≠ target.oid.text ∧
    ¬ (earlier.table.text = target.table.text ∧ earlier.id = target.id)

instance (earlier target : TargetText) : Decidable (earlier.Differs target) := by
  unfold TargetText.Differs
  infer_instance

theorem repeats_rowOf_iff (conf : Rtgconf) (earlier target : TargetText) :
    repeats (rowOf conf earlier) (rowOf conf target) = false ↔ earlier.Differs target := by
  simp [repeats, rowOf, TargetText.Differs]

theorem hostOf_distinct {conf : Rtgconf} {host : HostText}
    (hdistinct : host.targets.Pairwise TargetText.Differs) :
    hostOf conf host = { emptyHostOf host with rows := host.targets.map (rowOf conf) } := by
  rw [hostOf, foldl_addRow]
  · simp [emptyHostOf]
  · rw [emptyHostOf, List.nil_append, List.pairwise_map]
    exact hdistinct.imp fun hdiffers => (repeats_rowOf_iff conf _ _).mpr hdiffers

/-- `rtgtargets_parse` of a written file returns the hosts and rows that were
written. -/
theorem parse_render (unspecified : Unspecified) {conf : Rtgconf} (hinterval : conf.interval ≠ 0)
    (layout : Layout) {hosts : List HostText} (hne : hosts ≠ [])
    (hdistinct : ∀ host ∈ hosts, host.targets.Pairwise TargetText.Differs) :
    rtgtargetsParse unspecified (some (layout.render hosts)) conf =
      .ok { hosts := hosts.map fun host =>
              { host := some host.name.text
                community := some host.community.text
                snmpver := host.snmpver
                rows := host.targets.map (rowOf conf) }
            ntargets := UInt32.ofNat (hosts.map fun host => host.targets.length).sum } := by
  have hhosts : ∀ host ∈ hosts, hostOf conf host =
      { emptyHostOf host with rows := host.targets.map (rowOf conf) } := fun host hhost =>
    hostOf_distinct (hdistinct host hhost)
  have hlengths : (hosts.map fun host => (hostOf conf host).rows.length) =
      hosts.map fun host => host.targets.length := by
    refine List.map_congr_left fun host hhost => ?_
    simp [hhosts host hhost]
  rw [rtgtargetsParse_render unspecified hinterval layout hne, hlengths, List.map_congr_left hhosts]
  rfl

/-! ## The layout of the documentation -/

def oneBlank : Gap where
  chars := [' ']
  nonempty := by decide
  spaces := by decide

/-- A new line, indented by the depth of the block. -/
def newLine (depth : Nat) : Gap where
  chars := '\n' :: List.replicate depth '\t'
  nonempty := by simp
  spaces char hchar := by
    rcases List.mem_cons.mp hchar with rfl | htab
    · rfl
    · rw [(List.mem_replicate.mp htab).2]
      rfl

def documentedLayout : Layout where
  blank := oneBlank
  line := newLine

def argument (text : CString) (nonempty : text.chars ≠ [] := by decide)
    (noSpace : ∀ char ∈ text.chars, isspace char = false := by decide)
    (noSemicolon : ';' ∉ text.chars := by decide) (fits : text.chars.length ≤ 128 := by decide) :
    Argument :=
  ⟨text, nonempty, noSpace, noSemicolon, fits⟩

/-- A host with a counter and a gauge. -/
def exampleHost : HostText where
  name := ⟨CString.ofString "172.16.4.2", by decide, by decide, by decide⟩
  community := argument (CString.ofString "c0mmun1ty")
  snmpver := 1
  snmpver_lower := by decide
  snmpver_upper := by decide
  targets :=
    [ { oid := argument (CString.ofString ".1.3.6.1.2.1.2.2.1.16.1001002")
        bits := 32
        table := argument (CString.ofString "ifOutOctets_362")
        id := 4309
        speed := 57120000 },
      { oid := argument (CString.ofString ".1.3.6.1.2.1.2.2.1.5.1001002")
        bits := 0
        table := argument (CString.ofString "ifSpeed_362")
        id := 4309
        speed := 57120000 } ]

theorem parse_render_exampleHost :
    rtgtargetsParse ⟨0, fun _ => 0⟩ (some (documentedLayout.render [exampleHost]))
      defaultRtgconf =
        .ok { hosts :=
                [ { host := some exampleHost.name.text
                    community := some exampleHost.community.text
                    snmpver := 1
                    rows := exampleHost.targets.map (rowOf defaultRtgconf) } ]
              ntargets := 2 } :=
  parse_render ⟨0, fun _ => 0⟩ (by decide) documentedLayout (by decide) (by decide)

end ClusteredPoller.Targets
