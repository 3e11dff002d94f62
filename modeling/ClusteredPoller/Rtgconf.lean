import ClusteredPoller.Platform

/-!
# The configuration

The settings of `rtg.conf`, and the extras of the command line.
-/

namespace ClusteredPoller

structure Rtgconf where
  interval : UInt32
  threads : UInt32
  dbhost : Option CString
  database : Option CString
  dbuser : Option CString
  dbpass : Option CString
  useDb : Bool
  useRateColumn : Bool
  useCurrvalueColumn : Bool
  allowDbZero : Bool
  numDbthreads : UInt32
  maxDbQueue : UInt32
  maxErrorsPerHost : UInt32
  deriving DecidableEq

/-- The settings in the absence of a configuration file and of options. -/
def defaultRtgconf : Rtgconf where
  interval := 300
  threads := 8
  dbhost := none
  database := none
  dbuser := none
  dbpass := none
  useDb := true
  useRateColumn := true
  useCurrvalueColumn := false
  allowDbZero := false
  numDbthreads := 1
  maxDbQueue := 10000
  maxErrorsPerHost := 3

end ClusteredPoller
