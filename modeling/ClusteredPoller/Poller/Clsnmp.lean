import ClusteredPoller.Platform

/-!
# SNMP sessions

The SNMP library is outside the program: `sessOpen` stands for its
`snmp_sess_open`, which returns a session handle or fails.
-/

namespace ClusteredPoller.Poller

inductive SnmpVersion where
  | version1
  | version2c
  deriving DecidableEq, Repr

/-- `snmp_sess_open` for a peer name, a community and a version. -/
abbrev SessOpen (Handle : Type) := Option CString → CString → SnmpVersion → Option Handle

structure ClsnmpSession (Handle : Type) where
  sessp : Handle
  deriving DecidableEq

variable {Handle : Type}

/-- `none` is the `NULL` session. -/
def clsnmpSessionCreate (sessOpen : SessOpen Handle) (host community : Option CString)
    (snmpver : Int) : Except Fault (Option (ClsnmpSession Handle)) :=
  if snmpver ≠ 1 ∧ snmpver ≠ 2 then
    .ok none
  else
    match community with
    | none => .error .nullString
    | some community =>
        let version := if snmpver = 2 then .version2c else .version1
        .ok ((sessOpen host community version).map ClsnmpSession.mk)

def clsnmpSessionFree : Option (ClsnmpSession Handle) → Except Fault Unit
  | none => .error .nullSession
  | some _ => .ok ()

end ClusteredPoller.Poller
