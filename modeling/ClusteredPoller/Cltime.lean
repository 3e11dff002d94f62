import ClusteredPoller.Platform

/-!
# Interval arithmetic

`next_interval` in `long long` arithmetic, the only kind in it: an `unsigned`
operand is converted to `long long`.
-/

namespace ClusteredPoller.Cltime

/-- The result of signed 64-bit arithmetic, if it fits. -/
def longLong (number : Int) : Except Fault Int :=
  if -2 ^ 63 ≤ number ∧ number < 2 ^ 63 then .ok number else .error .signedOverflow

/-- `1000 * ((now / 1000) / poll_interval + 1) * poll_interval` -/
def nextInterval (now : Int) (pollInterval : UInt32) : Except Fault Int :=
  if pollInterval = 0 then .error .divisionByZero
  else do
    let next ← longLong ((now.tdiv 1000).tdiv pollInterval.toNat + 1)
    let ms ← longLong (1000 * next)
    longLong (ms * pollInterval.toNat)

theorem longLong_ok {number : Int} (hlower : -2 ^ 63 ≤ number) (hupper : number < 2 ^ 63) :
    longLong number = .ok number := if_pos ⟨hlower, hupper⟩

theorem longLong_error {number : Int} {fault : Fault} (hfault : longLong number = .error fault) :
    fault = .signedOverflow := by
  unfold longLong at hfault
  split at hfault
  · cases hfault
  · cases hfault
    rfl

end ClusteredPoller.Cltime
