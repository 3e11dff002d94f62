import ClusteredPoller.Platform

/-!
# The rate between two measurements
-/

namespace ClusteredPoller.Poller

/-- The two results of `calculate_rate`. -/
structure Rate where
  counterDiff : UInt64
  rate : UInt32
  deriving DecidableEq

/-- `18446744073709551615ull + 1` wraps to zero, which leaves the 64-bit
difference as the subtraction already wrapped it. -/
def wrapCorrection (bits : UInt32) : UInt64 :=
  if bits = 64 then 18446744073709551615 + 1 else 4294967296

def calculateRate (prevTime : Int) (prevCounter : UInt64) (curTime : Int)
    (curCounter : UInt64) (bits : UInt32) : Except Fault Rate :=
  if bits = 0 then
    .ok ⟨curCounter, curCounter.toUInt32⟩
  else
    let timeDiff := curTime - prevTime
    if timeDiff = 0 then
      .error .exit
    else
      let subtracted := curCounter - prevCounter
      let counterDiff :=
        if prevCounter > curCounter then subtracted + wrapCorrection bits else subtracted
      .ok ⟨counterDiff, UInt32.ofNat (counterDiff.toNat / unsignedOfTime timeDiff)⟩

end ClusteredPoller.Poller
