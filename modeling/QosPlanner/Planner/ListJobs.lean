import QosPlanner.Monitor.JobMonitor
import QosPlanner.Rpc.Message

/-!
# List requests

`Planner::ServeListJobs` (`src/common/Planner.cpp`) with the table of
`ListJobsFormatter` (`src/common/ListJobsFormatter.cpp`). The pattern of the request goes
into the constructor of a `std::regex` as it came from the network, and nothing on the
way back to the server's loop catches what that throws.
-/

namespace QosPlanner
set_option autoImplicit false

open Rpc

/-- `std::regex` with the grammar `grep`, as far as the planner relies on it. -/
structure RegexEngine where
  /-- The constructor accepts the pattern; it throws for any other one. -/
  compiles : String → Bool
  /-- `regex_search` in a text, for a pattern. -/
  search : String → String → Bool
  compiles_any : compiles ".*" = true

namespace ListJobsFormatter

/-- `kReservationShift` -/
def reservationShift : Nat := 15

/-- `kThroughputShift` -/
def throughputShift : Nat := 20

/-- `kJobstateShift` -/
def jobstateShift : Nat := 15

/-- `kTimeEndShift` -/
def timeEndShift : Nat := 20

/-- `std::left << std::setw(width) << text`; the width counts bytes. -/
def setw (width : Nat) (text : String) : String := text.pushn ' ' (width - text.utf8ByteSize)

/-- `AddHeader` -/
def addHeader : String :=
  setw reservationShift "Reserv.-ID" ++ setw throughputShift "Throughput [MB/s]" ++
    setw jobstateShift "State" ++ setw timeEndShift "TEnd" ++ "\n"

/-- `system_clock::to_time_t` -/
def toTimeT (t : TimePoint) : Int := t.tdiv (10 ^ 9)

/-- `AddJob`, over the local time of a `time_t` as `"%b %d %T"`. -/
def addJob (localTime : Int → String) (job : Job) : String :=
  setw reservationShift job.jobid ++ setw throughputShift (toString job.minReadThroughputMB.toNat) ++
    setw jobstateShift job.state.jobStateToString ++
    -- `put_time` does not look at the width set before it
    localTime (toTimeT job.tend) ++ "\n"

/-- `Format` -/
def format (localTime : Int → String) (jobs : List Job) : String :=
  if jobs.isEmpty then "" else addHeader ++ String.join (jobs.map (addJob localTime))

end ListJobsFormatter

/-- `AddDefaultRegexIfEmpty` -/
def addDefaultRegexIfEmpty (msg : Message) : Message :=
  if msg.getRequest.getListJobsRequest.regex.isEmpty then msg.modifyRequest (·.setListJobsRegex ".*") else msg

/-- `FilterJobs`; `none` if the constructor of the regex throws. -/
def filterJobs (regex : RegexEngine) (request : ListJobsRequest) (jobs : List (JobId × Job)) : Option (List Job) :=
  if regex.compiles request.regex then
    some ((jobs.filter fun kv => regex.search kv.1 request.regex).map Prod.snd)
  else none

/-- The text `AddJobsToReply` writes. -/
def addJobsToReply (localTime : Int → String) (jobs : List (JobId × Job)) (jobList : List Job) : String :=
  if jobs.length > 0 then ListJobsFormatter.format localTime jobList else "no matches found\n"

/-- `ServeListJobs`: the result, the message, and the state after it; `none` if an
exception leaves it. -/
def serveListJobs (regex : RegexEngine) (localTime : Int → String) (m : JobMonitor) (msg : Message) :
    Option (Bool × Message × JobMonitor) :=
  let msg := addDefaultRegexIfEmpty msg
  let jobs := m.scheduleState.getAllJobs
  (filterJobs regex msg.getRequest.getListJobsRequest jobs).map fun jobList =>
    (true, msg.setReply ⟨0, addJobsToReply localTime jobs jobList⟩, m)

/-- The pattern of a list request can be used: it is empty, or the constructor accepts it. -/
def UsableRegex (regex : RegexEngine) (pattern : String) : Prop := pattern = "" ∨ regex.compiles pattern = true

instance (regex : RegexEngine) (pattern : String) : Decidable (UsableRegex regex pattern) :=
  inferInstanceAs (Decidable (_ ∨ _))

/-- The pattern after the default: `.*` for an empty one. -/
theorem regex_addDefaultRegexIfEmpty (msg : Message) :
    (addDefaultRegexIfEmpty msg).getRequest.getListJobsRequest.regex =
      if msg.getRequest.getListJobsRequest.regex = "" then ".*" else msg.getRequest.getListJobsRequest.regex := by
  unfold addDefaultRegexIfEmpty
  by_cases empty : msg.getRequest.getListJobsRequest.regex = ""
  · rw [if_pos (by simpa using empty), if_pos empty]
    rfl
  · rw [if_neg (by simpa using empty), if_neg empty]

/-- A list request is answered iff its pattern can be used. -/
theorem serveListJobs_isSome (regex : RegexEngine) (localTime : Int → String) (m : JobMonitor) (msg : Message) :
    (serveListJobs regex localTime m msg).isSome ↔ UsableRegex regex msg.getRequest.getListJobsRequest.regex := by
  simp only [serveListJobs, filterJobs, Option.isSome_map, regex_addDefaultRegexIfEmpty, UsableRegex]
  by_cases empty : msg.getRequest.getListJobsRequest.regex = ""
  · simp [empty, regex.compiles_any]
  · by_cases accepted : regex.compiles msg.getRequest.getListJobsRequest.regex = true <;> simp [empty, accepted]

/-- Listing leaves the state as it is. -/
theorem serveListJobs_state {regex : RegexEngine} {localTime : Int → String} {m m' : JobMonitor}
    {msg msg' : Message} {result : Bool} (served : serveListJobs regex localTime m msg = some (result, msg', m')) :
    result = true ∧ m' = m := by
  obtain ⟨jobList, -, same⟩ := Option.map_eq_some_iff.1 served
  cases same
  exact ⟨rfl, rfl⟩

end QosPlanner
