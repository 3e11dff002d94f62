import ClusteredPoller.Platform

/-!
# Inserts, one per table

The inserts of one poll stand in `MAX_TABLES` slots, filled from the front; an
empty slot is `NULL`.  A returned insert pointer is the number of its slot.
-/

namespace ClusteredPoller.Poller

def maxTables : Nat := 64

structure ClinsertValue where
  id : UInt32
  counter : UInt64
  rate : UInt32
  dtime : Int
  currvalue : UInt64
  deriving DecidableEq

/-- `nvalues` is the length of `values`. -/
structure Clinsert where
  table : Option CString
  values : List ClinsertValue
  allocatedSpace : UInt32
  deriving DecidableEq

def clinsertCreate (table : Option CString) : Clinsert where
  table := table
  values := []
  allocatedSpace := 8

/-- `allocated_space * 1.5`, truncated to `unsigned`. -/
def grownSpace (space : UInt32) : UInt32 := UInt32.ofNat (space.toNat * 3 / 2)

def clinsertPushValue (insert : Clinsert) (value : ClinsertValue) : Clinsert where
  table := insert.table
  values := insert.values ++ [value]
  allocatedSpace :=
    if insert.values.length = insert.allocatedSpace.toNat then grownSpace insert.allocatedSpace
    else insert.allocatedSpace

abbrev Inserts := List (Option Clinsert)

/-- `xmalloc` and `memset` of the slots. -/
def noInserts : Inserts := List.replicate maxTables none

/-- The slot with the insert for `table`, which is made in the first empty slot
if no earlier one has it.  Past the last slot the assertion fails. -/
def clinsertForTable : Inserts → Option CString → Except Fault (Inserts × Nat)
  | [], _ => .error .assertion
  | none :: rest, table => .ok (some (clinsertCreate table) :: rest, 0)
  | some insert :: rest, table => do
      if ← strcmpEqual insert.table table then
        return (some insert :: rest, 0)
      else
        let found ← clinsertForTable rest table
        return (some insert :: found.1, found.2 + 1)

/-- The loop reads a slot before it compares the number with `MAX_TABLES`, so a
row of full slots is read one past its end. -/
def clinsertCount : Inserts → Except Fault UInt32
  | [] => .error .outOfBounds
  | none :: _ => .ok 0
  | some _ :: rest => do
      let count ← clinsertCount rest
      return count + 1

/-- Push a value to the insert in a slot. -/
def pushAt (inserts : Inserts) (slot : Nat) (value : ClinsertValue) : Inserts :=
  inserts.modify slot (Option.map fun insert => clinsertPushValue insert value)

end ClusteredPoller.Poller
