import QosPlanner.Run.Always
import QosPlanner.Run.Call
import QosPlanner.Text.Fields
import QosPlanner.Text.Lines
import QosPlanner.Json.Value
import QosPlanner.Text.Regex
import QosPlanner.Number.RoundEven
import QosPlanner.Schedule.MemoryScheduleState
import QosPlanner.Schedule.Agreement
import QosPlanner.Monitor.JobPriorityQueue
import QosPlanner.Monitor.EarliestFirst
import QosPlanner.Rules.RuleManager
import QosPlanner.Rules.Rates
import QosPlanner.Rules.Cleanup
import QosPlanner.Rules.Bookkeeping
import QosPlanner.Monitor.JobMonitor
import QosPlanner.Scheduler.StaticWorkloads
import QosPlanner.Scheduler.DynWorkloads
import QosPlanner.Scheduler.Capacity
import QosPlanner.Scheduler.Contract
import QosPlanner.Shell.Words
import QosPlanner.Shell.Openings
import QosPlanner.Shell.Verbatim
import QosPlanner.Rules.Commands
import QosPlanner.Lustre.Parsers
import QosPlanner.Lustre.LfsOsts
import QosPlanner.Lustre.GetStripe
import QosPlanner.Lustre.LocalLustre
import QosPlanner.Lustre.Files
import QosPlanner.Lustre.OstIpsCache
import QosPlanner.Lustre.OstIdsConverter
import QosPlanner.Lustre.Addresses
import QosPlanner.Rules.OstLookup
import QosPlanner.Rules.UnknownOst
import QosPlanner.Rpc.OssCommandMessage
import QosPlanner.Rules.RuleSetters
import QosPlanner.Rpc.Message
import QosPlanner.Planner.Operations
import QosPlanner.Planner.Overcommit
import QosPlanner.Planner.Orphans
import QosPlanner.Planner.Deletion
import QosPlanner.Planner.Submission
import QosPlanner.Planner.Interval
import QosPlanner.Planner.Coverage
import QosPlanner.Server.Serve
import QosPlanner.Rules.CommandLines
import QosPlanner.Socket.ReqSocket
import QosPlanner.Rules.ConcurrentCommands
import QosPlanner.Planner.ListJobs
import QosPlanner.Socket.ReplyLoop
import QosPlanner.Server.Loops
import QosPlanner.Socket.Retry
import QosPlanner.Client.Retries
import QosPlanner.Lock.KeyedLock
import QosPlanner.Concurrent.Calls
import QosPlanner.Concurrent.Mutex
import QosPlanner.Concurrent.Moves
import QosPlanner.Concurrent.System
import QosPlanner.Concurrent.Exclusion
import QosPlanner.Concurrent.LifeCycle
import QosPlanner.Concurrent.PendingStops
import QosPlanner.Concurrent.Reservations
import QosPlanner.Concurrent.RulePlaces
import QosPlanner.Concurrent.ActiveRules
import QosPlanner.Schedule.Sorted
import QosPlanner.Monitor.IntPositions
import QosPlanner.Client.StorageReqParser
import QosPlanner.Client.ReserveRequestBuilder
import QosPlanner.Client.Resends
import QosPlanner.Client.Commands
import QosPlanner.Scheduler.OstLimitConfigParser
import QosPlanner.Planner.Listing
import QosPlanner.Map.InsertAll
import QosPlanner.Scheduler.ClusterState
import QosPlanner.Heap.Sift
import QosPlanner.Monitor.HeapOrder
import QosPlanner.Text.CString
import QosPlanner.Run.While
import QosPlanner.Stdio.Stream
import QosPlanner.Shell.Exec
import QosPlanner.Protobuf.Varint
import QosPlanner.Protobuf.CodedStream
import QosPlanner.Protobuf.Encodes
import QosPlanner.Rpc.MessageFormat
import QosPlanner.Protobuf.Zeros
import QosPlanner.Rpc.OssMessageFormat
import QosPlanner.Client.EncodedRequests
import QosPlanner.Rules.EncodedCommands
import QosPlanner.Run.Fair
import QosPlanner.Concurrent.Progress
import QosPlanner.Concurrent.Unlimited
import QosPlanner.Planner.Restart
import QosPlanner.Concurrent.Shutdown
import QosPlanner.Run.Since
import QosPlanner.Server.Book
import QosPlanner.Sort.Stable
import QosPlanner.Schedule.Ledger
import QosPlanner.Concurrent.Sequential
import QosPlanner.Concurrent.Limits
import QosPlanner.Concurrent.NextEvents
