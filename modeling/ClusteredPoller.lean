import ClusteredPoller.Queue.ClbufRefinement
import ClusteredPoller.Poller.SpeedCheck
import ClusteredPoller.Poller.Conservation
import ClusteredPoller.Poller.Gauges
import ClusteredPoller.Poller.SessionFailure
import ClusteredPoller.Database.Commits
import ClusteredPoller.Database.RoundTrip
import ClusteredPoller.Database.ZeroDeltas
import ClusteredPoller.Library.Census
import ClusteredPoller.Threads.System
import ClusteredPoller.Threads.Moves
import ClusteredPoller.Threads.Effects
import ClusteredPoller.Threads.HostExclusion
import ClusteredPoller.Threads.SameSecond
import ClusteredPoller.Threads.IterationEnd
import ClusteredPoller.Threads.Lock
import ClusteredPoller.Threads.Shutdown
import ClusteredPoller.Threads.Windows
import ClusteredPoller.Threads.Alternation
import ClusteredPoller.Threads.Ledger
import ClusteredPoller.Threads.ActiveCount
import ClusteredPoller.Handover.Reads
import ClusteredPoller.Handover.Totals
import ClusteredPoller.RunThreads.Drained
import ClusteredPoller.RtgconfValues
import ClusteredPoller.Targets.Interval
import ClusteredPoller.Targets.RoundTrip
import ClusteredPoller.Targets.Pollable
import ClusteredPoller.Targets.CopyJoin
import ClusteredPoller.Targets.OldStyleGroups
import ClusteredPoller.Targets.SpeedLimit
import ClusteredPoller.Targets.DirectiveOrder
import ClusteredPoller.Targets.Duplicates
import ClusteredPoller.Targets.Detection
import ClusteredPoller.Targets.Agreement
import ClusteredPoller.Targets.TableLimit
import ClusteredPoller.Targets.MissingArguments
import ClusteredPoller.Lookahead
import ClusteredPoller.Targets.Comments
import ClusteredPoller.Targets.Descriptions
import ClusteredPoller.Growth
import ClusteredPoller.LongLines
import ClusteredPoller.Queue.Locked
import ClusteredPoller.Process.StopRequests
import ClusteredPoller.Process.Caches
import ClusteredPoller.RunThreads.MysqlCalls
import ClusteredPoller.Process.CommandLine
import ClusteredPoller.RunThreads.Completion
import ClusteredPoller.Process.Rows
