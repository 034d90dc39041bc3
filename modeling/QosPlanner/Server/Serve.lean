import QosPlanner.Planner.Submission
import QosPlanner.Socket.ReplyLoop

/-!
# The server's answer

`Server::Serve` (`src/server/Server.cpp`) hands a parsed request to the planner, takes the
request out of the message and sends what is left as the reply. It does not look at what
`ProcessMessage` returns: a message the planner wrote no reply into goes back without one,
and a client that reads it finds the default return code, zero.
-/

namespace QosPlanner
set_option autoImplicit false

open Rpc ReplyLoop

/-- A handler of the planner: the result, the message, and the state after it; `none` if an
exception leaves it. -/
abbrev Handler := JobMonitor → Message → Option (Bool × Message × JobMonitor)

/-- `Planner::ServeJobRemove` on a message. -/
def serveDeleteMessage (m : JobMonitor) (msg : Message) : Bool × Message × JobMonitor :=
  (true, msg.setReplyRc 0, (serveJobRemove m msg.getRequest.getDeleteRequest).2)

/-- `ProcessMessage`, over the handler of list requests; `none` if an exception leaves it. -/
def processMessage (serveListJobs : Handler) (env : Surroundings) (m : JobMonitor) (msg : Message) :
    Option (Bool × Message × JobMonitor) :=
  match msg.getRequest.type with
  | .RESERVE => some (serveJobSubmission env m msg)
  | .DELETE => some (serveDeleteMessage m msg)
  | .LISTJOBS => serveListJobs m msg
  | _ => some (false, msg, m)

/-- The body of the loop of `Serve` for a message that parses. -/
def serveParsed (serveListJobs : Handler) (env : Surroundings) (m : JobMonitor) (msg : Message) :
    Turn JobMonitor Message :=
  if msg.type = .REPLY then .silent m
  else
    match processMessage serveListJobs env m msg with
    | none => .thrown
    | some (_, msg, m) => .replied m (msg.releaseRequest.setType .REPLY)

/-- The message of a reserve request. -/
def reserveMessage (request : ResourceRequest) : Message :=
  ⟨.REQUEST, some (.request ⟨.RESERVE, some (.resourceRequest request)⟩)⟩

/-- The answer to a reserve request is what the planner wrote. -/
theorem serveParsed_reserve (serveListJobs : Handler) (env : Surroundings) (m : JobMonitor)
    (request : ResourceRequest) :
    serveParsed serveListJobs env m (reserveMessage request) =
      .replied (serveJobSubmission env m (reserveMessage request)).2.2
        ((serveJobSubmission env m (reserveMessage request)).2.1.releaseRequest.setType .REPLY) := rfl

/-- The reply says what became of the request: its return code reads zero iff the request
put a reservation with its id into the schedule. -/
def TellsTheTruth (before : JobMonitor) (id : JobId) (answer : Turn JobMonitor Message) : Prop :=
  ∃ after reply, answer = .replied after reply ∧ (reply.getReply.rc = 0 ↔ PutReservation before after id)

/-- **The reply of a reserve request.** A request without files is a noop: nothing changes,
and the return code reads zero. For any other request whose lookups succeed, the return
code is zero iff the request put a reservation with its id into the schedule. -/
theorem reply_tells_the_verdict (serveListJobs : Handler) (env : Surroundings) (m : JobMonitor)
    (request : ResourceRequest) :
    (request.files = [] → ∃ reply,
      serveParsed serveListJobs env m (reserveMessage request) = .replied m reply ∧ reply.getReply.rc = 0) ∧
    (request.files ≠ [] → LookupsSucceed env.lookup request.files →
      TellsTheTruth m request.id (serveParsed serveListJobs env m (reserveMessage request))) := by
  rw [serveParsed_reserve]
  constructor
  · intro noFile
    rw [serveJobSubmission_noop env m (reserveMessage request) noFile]
    exact ⟨_, rfl, rfl⟩
  · intro files known
    obtain ⟨job, named, result⟩ := serveJobSubmission_scheduled env m (reserveMessage request) files known
    refine ⟨_, _, rfl, ?_⟩
    have verdict := scheduleJob_fst_iff env.limits env.unassigned m job
    rw [named] at verdict
    rw [result, Message.getReply_setType, Message.getReply_releaseRequest, Message.getReply_setReplyRc]
    refine Iff.trans ?_ verdict
    cases (scheduleJob env.limits env.unassigned m job).1 <;> decide

/-- A request for a file on one OST, and one without files. -/
theorem reply_of_two_requests :
    let env : Surroundings := ⟨(∅ : Limits).insert "OST_a" 100, fun _ => 0, fun _ _ => some ["OST_a"], 0⟩
    let serveListJobs : Handler := fun m msg => some (true, msg, m)
    TellsTheTruth .empty "foo"
      (serveParsed serveListJobs env .empty (reserveMessage ⟨"foo", 42, 0, 10, ["/data"]⟩)) ∧
    ∃ reply, serveParsed serveListJobs env .empty (reserveMessage ⟨"foo", 42, 0, 10, []⟩) = .replied .empty reply ∧
      reply.getReply.rc = 0 := by
  intro env serveListJobs
  refine ⟨?_, ?_⟩
  · exact (reply_tells_the_verdict serveListJobs env .empty ⟨"foo", 42, 0, 10, ["/data"]⟩).2 (by decide)
      fun _ _ _ => rfl
  · exact (reply_tells_the_verdict serveListJobs env .empty ⟨"foo", 42, 0, 10, []⟩).1 rfl

/-- The exits that write no reply read as success, though nothing was reserved: a request
without files, and one whose file cannot be looked up. -/
theorem silent_exits_read_as_success :
    let env : Surroundings := ⟨(∅ : Limits).insert "OST_a" 100, fun _ => 0, fun _ _ => none, 0⟩
    let serveListJobs : Handler := fun m msg => some (true, msg, m)
    ¬ TellsTheTruth .empty "foo" (serveParsed serveListJobs env .empty (reserveMessage ⟨"foo", 42, 0, 10, []⟩)) ∧
    ¬ TellsTheTruth .empty "foo"
      (serveParsed serveListJobs env .empty (reserveMessage ⟨"foo", 42, 0, 10, ["/gone"]⟩)) := by
  constructor <;>
  · rintro ⟨after, reply, sent, truth⟩
    cases sent
    obtain ⟨-, job, stored⟩ := truth.1 rfl
    cases stored

end QosPlanner
