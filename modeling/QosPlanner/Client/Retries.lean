import QosPlanner.Server.Loops
import QosPlanner.Socket.Retry
import QosPlanner.Text.CString

/-!
# A reserve request with retries

`Client::SendAndReceiveRequest` (`src/client/Client.cpp`) sends a reserve request up to
three times, each time on a new socket, and returns with the reply to the last one it sent.
The server takes every copy for a request of its own: `AddJob` refuses the id of a job
that an earlier copy has put into the schedule. (`ServeJobRemove`, its counterpart,
answers the second copy like the first one.)

So the answer can be wrong in two ways: the copy it belongs to was served when the
reservation was already there, or a copy of a closed socket is accepted later on.
-/

namespace QosPlanner
set_option autoImplicit false

open Rpc Retry MemoryScheduleState JobPriorityQueue

/-- `kRequestRetries` -/
def requestRetries : Nat := 3

/-- A reserve request as bytes, and what the server's parser makes of bytes. -/
structure Wire (request : ResourceRequest) where
  rawMsg : List UInt8
  parseFromString : List UInt8 → Received Message
  parses : parseFromString rawMsg = .parsed (reserveMessage request)
  /-- The request is the last field of the message, so a message cut off in it does not parse. -/
  parses_cString : parseFromString (cString rawMsg) = .parsed (reserveMessage request) ∨
    ∃ left, parseFromString (cString rawMsg) = .unparsable left

/-- The operation is one for the id. -/
def PlannerOp.names (id : JobId) : PlannerOp → Bool
  | .scheduleJob job _ => job.jobid == id
  | .serveJobRemove request => request.id.contains id
  | .removeJob jobid => jobid == id
  | .monitor _ _ => false

/-- The schedule holds a reservation with the id. -/
def Holds (m : JobMonitor) (id : JobId) : Prop := ∃ job, m.scheduleState.jobOf id = some job

/-- The handler gets as far as the scheduler. -/
def ReachesScheduler (env : Surroundings) (request : ResourceRequest) : Prop :=
  request.files ≠ [] ∧ LookupsSucceed env.lookup request.files

/-- The job made of the request passes the checks of the scheduler, and its id is free. -/
def Admits (env : Surroundings) (m : JobMonitor) (request : ResourceRequest) : Prop :=
  request.files ≠ [] ∧ m.scheduleState.jobOf request.id = none ∧
    ∃ osts, tryComputeOstSet env.lookup 0 request.files [] = some osts ∧
      checkOsts env.limits m.scheduleState (buildJob request env.now (submissionEnd request env.now) osts)
        env.unassigned 0 osts = true

/-- The operation takes the reservation with the id from the schedule because its time has come. -/
def EndsReservation (m : JobMonitor) (id : JobId) : PlannerOp → Prop
  | .monitor now _ => ∃ wt queue, m.jobPriorityQueue.pop = some (wt, queue) ∧ wt.timeOfEvent < now ∧
      wt.eventType = .JOBSTOP ∧ wt.jobid = id
  | _ => False

section Service

variable (regex : RegexEngine) (localTime : Int → String) {request : ResourceRequest} (wire : Wire request)

/-- The server, and what else happens to the planner: operations for other ids. -/
def plannerService (request : ResourceRequest) (wire : Wire request) :
    Service JobMonitor (List UInt8) Message Surroundings (Limits × PlannerOp) where
  serve m env bytes :=
    match Server.serve regex localTime env m (wire.parseFromString bytes) with
    | .replied m reply => some (reply, m)
    | _ => none
  other m op := if op.2.names request.id then none else some (op.2.apply op.1 m)

/-- The steps of a reserve request. -/
abbrev ReserveAction := Action Surroundings (Limits × PlannerOp)

/-- The client, the network and the server. -/
abbrev ReserveExchange := Exchange JobMonitor (List UInt8) Message

/-- `SendAndReceiveRequest` sends the string first, and then what `data()` points to. -/
def reserveStep : ReserveExchange → ReserveAction → Option ReserveExchange :=
  Retry.step (plannerService regex localTime request wire) (cString wire.rawMsg)

/-- The start of a run: the first copy has been sent. -/
def reserveStart (m : JobMonitor) : ReserveExchange := Exchange.start m requestRetries wire.rawMsg

/-- The handler leaves the message without a reply part, which reads as return code zero. -/
def SilentExit (env : Surroundings) (bytes : List UInt8) : Prop :=
  (∃ msg, wire.parseFromString bytes = .parsed msg) ∧ ¬ ReachesScheduler env request

/-- A step that keeps the answer right. While the client waits, the copy of its socket is
served before there is a reservation, and gets as far as the scheduler or does not parse;
once an answer is on its way or returned, no copy of a closed socket is admitted, and the
reservation does not end. -/
def KeepsTheAnswer (s : ReserveExchange) : ReserveAction → Prop
  | .serveCurrent env => s.Waits → ∀ bytes, s.current = .request bytes →
      (SilentExit wire env bytes ↔ Holds s.server request.id)
  | .serveClosed i env => (∃ reply, s.Due reply) → ∀ bytes, s.closed[i]? = some (.request bytes) →
      (∃ msg, wire.parseFromString bytes = .parsed msg) → ¬ Admits env s.server request
  | .other op => (∃ reply, s.Due reply) → ¬ EndsReservation s.server request.id op.2
  | _ => True

end Service

/-! ## What serving a copy does -/

/-- A lookup of all files that succeeds. -/
theorem reachesScheduler_iff (env : Surroundings) (request : ResourceRequest) :
    ReachesScheduler env request ↔
      request.files ≠ [] ∧ ∃ osts, tryComputeOstSet env.lookup 0 request.files [] = some osts := by
  rw [ReachesScheduler, ← Option.isSome_iff_exists, tryComputeOstSet_isSome]
  simp only [Nat.zero_add]

/-- **A copy that parses.** It puts the reservation into the schedule iff it is admitted, and
the return code is zero iff it did, provided it gets as far as the scheduler. -/
theorem serveJobSubmission_reserve (env : Surroundings) (m : JobMonitor) (request : ResourceRequest) :
    let served := serveJobSubmission env m (reserveMessage request)
    (Holds served.2.2 request.id ↔ Holds m request.id ∨ Admits env m request) ∧
      (ReachesScheduler env request → (served.2.1.getReply.rc = 0 ↔ Admits env m request)) ∧
      (¬ ReachesScheduler env request → served.2.1 = reserveMessage request) := by
  intro served
  by_cases reaches : ReachesScheduler env request
  · obtain ⟨files, osts, found⟩ := (reachesScheduler_iff env request).1 reaches
    let job := buildJob request env.now (submissionEnd request env.now) osts
    have nonempty : request.files.isEmpty = false := by simpa using files
    have result : served = ((scheduleJob env.limits env.unassigned m job).1,
        (reserveMessage request).setReplyRc (if (scheduleJob env.limits env.unassigned m job).1 then 0 else -1),
        (scheduleJob env.limits env.unassigned m job).2) := by
      simp [served, serveJobSubmission, reserveMessage, Message.getRequest, Request.getResourceRequest, nonempty,
        found, job]
      rfl
    have admits : Admits env m request ↔
        checkOsts env.limits m.scheduleState job env.unassigned 0 job.osts = true ∧
          m.scheduleState.jobOf job.jobid = none := by
      constructor
      · rintro ⟨-, free, osts', same, passes⟩
        rw [found] at same
        cases same
        exact ⟨passes, free⟩
      · rintro ⟨passes, free⟩
        exact ⟨files, free, osts, found, passes⟩
    rw [result, admits]
    rcases scheduleJob_cases env.limits env.unassigned m job with ⟨passes, fresh, accepted⟩ | ⟨refused, same⟩
    · have stored : Holds (scheduled m job) request.id :=
        ⟨job.setState .SCHEDULED, by rw [jobOf_scheduled fresh]; exact if_pos rfl⟩
      rw [accepted]
      exact ⟨iff_of_true stored (Or.inr ⟨passes, fresh⟩), fun _ => iff_of_true rfl ⟨passes, fresh⟩,
        fun silent => absurd reaches silent⟩
    · rw [same]
      exact ⟨(or_iff_left refused).symm, fun _ => iff_of_false (show ¬ (-1 : Int32) = 0 by decide) refused,
        fun silent => absurd reaches silent⟩
  · have never : ¬ Admits env m request := by
      rintro ⟨files, -, osts, found, -⟩
      exact reaches ((reachesScheduler_iff env request).2 ⟨files, osts, found⟩)
    have unchanged : served.2 = (reserveMessage request, m) := by
      by_cases files : request.files = []
      · simp only [served]
        rw [serveJobSubmission_noop env m (reserveMessage request) files]
      · simp only [served]
        rw [serveJobSubmission_lookup_fails env m (reserveMessage request) files fun known => reaches ⟨files, known⟩]
    rw [unchanged, or_iff_left never]
    exact ⟨Iff.rfl, fun reached => absurd reached reaches, fun _ => rfl⟩

section Copies

variable {regex : RegexEngine} {localTime : Int → String} {request : ResourceRequest} {wire : Wire request}

/-- Each copy is the request or does not parse. -/
theorem Wire.parse_copy {bytes : List UInt8} (copy : bytes = wire.rawMsg ∨ bytes = cString wire.rawMsg) :
    wire.parseFromString bytes = .parsed (reserveMessage request) ∨
      ∃ left, wire.parseFromString bytes = .unparsable left := by
  rcases copy with rfl | rfl
  · exact Or.inl wire.parses
  · exact wire.parses_cString

/-- **What serving a copy does**: the reservation it adds, and what its return code tells. -/
theorem serve_copy {m after : JobMonitor} {env : Surroundings} {bytes : List UInt8} {reply : Message}
    (copy : bytes = wire.rawMsg ∨ bytes = cString wire.rawMsg)
    (served : (plannerService regex localTime request wire).serve m env bytes = some (reply, after)) :
    (Holds after request.id ↔
      Holds m request.id ∨ (∃ msg, wire.parseFromString bytes = .parsed msg) ∧ Admits env m request) ∧
    ((SilentExit wire env bytes ↔ Holds m request.id) → (reply.getReply.rc = 0 ↔ Holds after request.id)) := by
  rcases wire.parse_copy copy with parsed | ⟨left, unparsable⟩
  · have answer : (plannerService regex localTime request wire).serve m env bytes =
        some ((serveJobSubmission env m (reserveMessage request)).2.1.releaseRequest.setType .REPLY,
          (serveJobSubmission env m (reserveMessage request)).2.2) := by
      simp only [plannerService, parsed]
      rfl
    rw [answer, Option.some.injEq, Prod.mk.injEq] at served
    obtain ⟨rfl, rfl⟩ := served
    obtain ⟨holds, told, silent⟩ := serveJobSubmission_reserve env m request
    have parses : ∃ msg, wire.parseFromString bytes = .parsed msg := ⟨_, parsed⟩
    refine ⟨by rw [holds, and_iff_right parses], fun agrees => ?_⟩
    rw [Message.getReply_setType, Message.getReply_releaseRequest, holds]
    by_cases reaches : ReachesScheduler env request
    · have free : ¬ Holds m request.id := fun held => (agrees.2 held).2 reaches
      rw [told reaches, or_iff_right free]
    · rw [silent reaches]
      exact iff_of_true rfl (Or.inl (agrees.1 ⟨parses, reaches⟩))
  · have answer : (plannerService regex localTime request wire).serve m env bytes =
        some (Server.unparsableReply left, m) := by
      simp only [plannerService, unparsable]
      rfl
    rw [answer, Option.some.injEq, Prod.mk.injEq] at served
    obtain ⟨rfl, rfl⟩ := served
    have noMessage : ¬ ∃ msg, wire.parseFromString bytes = .parsed msg := by simp [unparsable]
    refine ⟨by simp [noMessage], fun agrees => ?_⟩
    exact iff_of_false (show ¬ (1 : Int32) = 0 by decide) fun held => noMessage (agrees.2 held).1

/-- A delete request does not touch an id it does not name. -/
theorem view_serveJobRemove_of_not_mem (m : JobMonitor) (request : DeleteRequest) {id : JobId}
    (absent : id ∉ request.id) : (serveJobRemove m request).2.view id = m.view id := by
  simp only [serveJobRemove]
  generalize request.id = ids at absent
  induction ids generalizing m with
  | nil => rfl
  | cons first rest ih =>
    rw [List.mem_cons, not_or] at absent
    rw [List.foldl_cons, ih (deleteJob m first) absent.2, view_deleteJob_of_ne m first id absent.1]

/-- An iteration of the monitor keeps a reservation that it does not end. -/
theorem holds_monitorIteration_iff (m : JobMonitor) (id : JobId) (now : TimePoint) (env : RemoteEnv)
    (goesOn : ¬ EndsReservation m id (.monitor now env)) :
    ((m.monitorIteration env now).view id).job.isSome = (m.view id).job.isSome := by
  rcases m.monitorIteration_cases env now with ⟨wt, queue, popped, ready, handled⟩ | ⟨-, same⟩
  · rw [handled]
    cases event : wt.eventType with
    | JOBSTOP =>
      have different : wt.jobid ≠ id := fun same => goesOn ⟨wt, queue, popped, ready, event, same⟩
      rw [view_handle_stop, if_neg different]
      rfl
    | JOBSTART =>
      simp only [JobMonitor.handle]
      rcases JobMonitor.startJob_cases { m with jobPriorityQueue := queue } env wt.jobid with
        ⟨job, rule, -, -, -, started⟩ | ⟨-, refused⟩
      · rw [started, view_started]
        split
        · simp only [Option.isSome_map]
          rfl
        · rfl
      · rw [refused]
        rfl
  · rw [same]

/-- An operation for other ids keeps the reservation, unless it ends it. -/
theorem holds_apply_iff (limits : Limits) (m : JobMonitor) (id : JobId) (op : PlannerOp) (other : op.names id = false)
    (goesOn : ¬ EndsReservation m id op) : Holds (op.apply limits m) id ↔ Holds m id := by
  suffices same : ((op.apply limits m).view id).job.isSome = (m.view id).job.isSome by
    have iff := Bool.eq_iff_iff.1 same
    rwa [Option.isSome_iff_exists, Option.isSome_iff_exists] at iff
  cases op with
  | scheduleJob job unassigned =>
    have different : job.jobid ≠ id := by simpa [PlannerOp.names] using other
    simp only [PlannerOp.apply]
    rcases scheduleJob_cases limits unassigned m job with ⟨-, fresh, accepted⟩ | ⟨-, refused⟩
    · rw [accepted, view_scheduled m id fresh, if_neg different]
    · rw [refused]
  | serveJobRemove request =>
    have absent : id ∉ request.id := by simpa [PlannerOp.names] using other
    rw [PlannerOp.apply, view_serveJobRemove_of_not_mem m request absent]
  | removeJob jobid =>
    have different : jobid ≠ id := by simpa [PlannerOp.names] using other
    simp only [PlannerOp.apply]
    rcases removeJob_cases m jobid with ⟨-, removed⟩ | ⟨-, refused⟩
    · rw [removed]
      exact congrArg (fun view => view.job.isSome) (view_deleteJob_of_ne m jobid id (Ne.symm different))
    · rw [refused]
  | monitor now env => exact holds_monitorIteration_iff m id now env goesOn

/-- The steps that keep the answer right. -/
theorem keepsTheAnswer_respects : Respects (plannerService regex localTime request wire) wire.rawMsg
    (cString wire.rawMsg) (fun reply m => reply.getReply.rc = 0 ↔ Holds m request.id) (KeepsTheAnswer wire) where
  answers := fun s env bytes reply after meets waits current copy served =>
    (serve_copy copy served).2 (meets waits bytes current)
  closed := by
    intro s i env bytes answer after meets found copy served reply due agrees
    rw [agrees, (serve_copy copy served).1]
    refine (or_iff_left ?_).symm
    rintro ⟨parses, admits⟩
    exact meets ⟨reply, due⟩ bytes found parses admits
  other := by
    intro s op after meets happened reply due agrees
    simp only [plannerService] at happened
    split at happened
    · cases happened
    · rename_i unnamed
      cases happened
      rw [agrees, holds_apply_iff op.1 s.server request.id op.2 (by simpa using unnamed) (meets ⟨reply, due⟩)]

end Copies

/-- **Retries keep the outcome.** In every run whose steps all keep the answer right, if
the client has returned with a reply, its return code is zero iff the schedule holds the
reservation. -/
theorem retries_keep_the_outcome (regex : RegexEngine) (localTime : Int → String) (request : ResourceRequest)
    (wire : Wire request) (m : JobMonitor) (trace : List (ReserveExchange × ReserveAction)) (s : ReserveExchange)
    (path : Run.Path (reserveStep regex localTime wire) (KeepsTheAnswer wire) (reserveStart wire m) trace s)
    (reply : Message) (returned : s.client = .returned reply) :
    reply.getReply.rc = 0 ↔ Holds s.server request.id :=
  agrees_of_path keepsTheAnswer_respects path returned

/-! ## A request for foo -/

/-- 42 MB/s for ten seconds on one file. -/
def fooRequest : ResourceRequest := ⟨"foo", 42, 0, 10, ["/data"]⟩

/-- The request, serialized. -/
def fooBytes : List UInt8 :=
  [0x12, 0x14, 0x08, 0x01, 0x12, 0x10, 0x0a, 0x03, 0x66, 0x6f, 0x6f, 0x10, 0x2a, 0x20, 0x0a, 0x2a, 0x05, 0x2f, 0x64,
    0x61, 0x74, 0x61]

/-- No byte is zero, so a copy sent again is the same. -/
def fooWire : Wire fooRequest where
  rawMsg := fooBytes
  parseFromString bytes :=
    if bytes = fooBytes then .parsed (reserveMessage fooRequest) else .unparsable ⟨.REQUEST, none⟩
  parses := if_pos rfl
  parses_cString := Or.inl (if_pos (by decide))

/-- The file is on one OST, with a limit of 100 MB/s. -/
def fooSurroundings : Surroundings :=
  ⟨(∅ : Limits).insert "OST_a" 100, fun _ => 0, fun _ _ => some ["OST_a"], 0⟩

/-- A regex, which a reserve request does not use. -/
def anyRegex : RegexEngine := ⟨fun _ => true, fun _ _ => true, rfl⟩

/-- The first copy is lost, and the second one accepted. -/
theorem outcome_kept_for_foo : ∃ trace s reply,
    Run.Path (reserveStep anyRegex (fun _ => "") fooWire) (KeepsTheAnswer fooWire) (reserveStart fooWire .empty)
      trace s ∧ s.client = .returned reply ∧ (reply.getReply.rc = 0 ↔ Holds s.server "foo") := by
  let step := reserveStep anyRegex (fun _ => "") fooWire
  let again : ReserveExchange := ⟨.empty, .polling 2, .request (cString fooBytes), [.nothing]⟩
  have lost : Run.Path step (KeepsTheAnswer fooWire) (reserveStart fooWire .empty) _ _ :=
    Run.Path.nil.snoc (show KeepsTheAnswer fooWire _ .loseCurrent from trivial) rfl
  have sent : Run.Path step (KeepsTheAnswer fooWire) (reserveStart fooWire .empty) _ again :=
    lost.snoc (show KeepsTheAnswer fooWire _ .timeout from trivial) rfl
  have run : ((Run.exec step again [.serveCurrent fooSurroundings, .receive]).bind (·.client.result)).isSome := by
    decide +kernel
  obtain ⟨reply, run⟩ := Option.isSome_iff_exists.1 run
  obtain ⟨s, run, result⟩ := Option.bind_eq_some_iff.1 run
  obtain ⟨served, accepted, run⟩ := Option.bind_eq_some_iff.1 run
  obtain ⟨returned, arrived, run⟩ := Option.bind_eq_some_iff.1 run
  obtain rfl : returned = s := Option.some.inj run
  have right : KeepsTheAnswer fooWire again (.serveCurrent fooSurroundings) := by
    rintro - bytes -
    refine iff_of_false (fun silent => silent.2 ⟨by decide, fun _ _ _ => rfl⟩) ?_
    rintro ⟨job, stored⟩
    cases stored
  have path := (sent.snoc right accepted).snoc (show KeepsTheAnswer fooWire _ .receive from trivial) arrived
  exact ⟨_, returned, reply, path, Client.returned_of_result result,
    retries_keep_the_outcome anyRegex (fun _ => "") fooRequest fooWire .empty _ returned path reply
      (Client.returned_of_result result)⟩

/-- The first copy is served after its poll has timed out, and accepted; the second one is
refused, and its reply is what the client returns with. -/
theorem rejected_though_reserved : ∃ trace s reply,
    Run.Path (reserveStep anyRegex (fun _ => "") fooWire) (fun _ _ => True) (reserveStart fooWire .empty) trace s ∧
      s.client = .returned reply ∧ reply.getReply.rc = -1 ∧ Holds s.server "foo" := by
  let actions : List ReserveAction :=
    [.timeout, .serveClosed 0 fooSurroundings, .serveCurrent fooSurroundings, .receive]
  have run : (Run.exec (reserveStep anyRegex (fun _ => "") fooWire) (reserveStart fooWire .empty) actions).map
      (fun s => (s.client.result.map (·.getReply.rc), (s.server.scheduleState.jobOf "foo").isSome)) =
        some (some (-1), true) := by decide +kernel
  obtain ⟨s, run, facts⟩ := Option.map_eq_some_iff.1 run
  obtain ⟨result, held⟩ := Prod.mk.inj facts
  obtain ⟨reply, result, rejected⟩ := Option.map_eq_some_iff.1 result
  exact ⟨_, s, reply, Run.Path.nil.of_exec run, Client.returned_of_result result, rejected,
    Option.isSome_iff_exists.1 held⟩

end QosPlanner
