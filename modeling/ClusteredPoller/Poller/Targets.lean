import ClusteredPoller.Platform

/-!
# Hosts and rows to query

The data that a poll reads and the two cache fields that it writes.
-/

namespace ClusteredPoller.Poller

/-- One SNMP object of a host and the table column it is recorded under.
`bits` is 0 for a gauge, and 32 or 64 for a counter. -/
structure Queryrow where
  oid : Option CString
  table : Option CString
  id : UInt32
  bits : UInt32
  speed : UInt64
  cachedCounter : UInt64
  cachedTime : Int
  deriving DecidableEq

def queryrowCreate : Queryrow where
  oid := none
  table := none
  id := 0
  bits := 0
  speed := 0
  cachedCounter := 0
  cachedTime := 0

/-- `nrows` is the length of `rows`. -/
structure Queryhost where
  host : Option CString
  community : Option CString
  snmpver : Int
  rows : List Queryrow
  deriving DecidableEq

def queryhostCreate : Queryhost where
  host := none
  community := none
  snmpver := 0
  rows := []

end ClusteredPoller.Poller
