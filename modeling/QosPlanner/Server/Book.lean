import QosPlanner.Run.Since
import QosPlanner.Client.EncodedRequests
import QosPlanner.Planner.Coverage

/-!
# The book of reservations

The planner's process from outside: bytes reach the loop of `Server::Serve`, and between two
requests the monitor takes a round. An exception that leaves the loop ends the process, and
with it the schedule, which is kept in memory only.

A `Reservation` is what a client has been granted, whatever state its job is in. What the
planner holds under an id is told by the history alone (`book_iff`): a request for just this
reservation has been granted, and since then the id has not been deleted, its stop event has
not come up, and nothing has ended the process. So there is no reservation that nobody asked
for, and none that is changed or lost.
-/

namespace QosPlanner
set_option autoImplicit false

open Rpc MemoryScheduleState JobPriorityQueue JobMonitor Run

/-- A job without its state. -/
structure Reservation where
  jobid : JobId
  tstart : TimePoint
  tend : TimePoint
  osts : List Ost
  minReadThroughputMB : UInt32
  deriving DecidableEq

def Job.reservation (job : Job) : Reservation :=
  ⟨job.jobid, job.tstart, job.tend, job.osts, job.minReadThroughputMB⟩

/-- What happens to the process. -/
inductive Happening where
  /-- The server receives a message, with what the handlers find around them. -/
  | receive (env : Surroundings) (bytes : List UInt8)
  /-- The monitor looks for an event, and handles it. -/
  | monitor (now : TimePoint) (remote : RemoteEnv)

/-! ## Serving a request -/

/-- The request is for files, and is not turned down. -/
def Granted (env : Surroundings) (m : JobMonitor) (request : ResourceRequest) : Prop :=
  request.files ≠ [] ∧ Acceptable env m request

/-- **`ServeJobSubmission` and the planner**: a request that is granted is scheduled, any other
one changes nothing. -/
theorem serveJobSubmission_state (env : Surroundings) (m : JobMonitor) (msg : Message) :
    (Granted env m msg.getRequest.getResourceRequest ∧
      (serveJobSubmission env m msg).2.2 = scheduled m (requestedJob env msg.getRequest.getResourceRequest)) ∨
    (¬ Granted env m msg.getRequest.getResourceRequest ∧ (serveJobSubmission env m msg).2.2 = m) := by
  by_cases some_file : msg.getRequest.getResourceRequest.files = []
  · rw [serveJobSubmission_noop env m msg some_file]
    exact Or.inr ⟨fun granted => granted.1 some_file, rfl⟩
  rcases serveJobSubmission_cases env m msg some_file with ⟨acceptable, -, after⟩ | ⟨refused, result⟩
  · exact Or.inl ⟨⟨some_file, acceptable⟩, after⟩
  · refine Or.inr ⟨fun granted => refused granted.2, ?_⟩
    by_cases known : LookupsSucceed env.lookup msg.getRequest.getResourceRequest.files
    · obtain ⟨job, -, served⟩ := serveJobSubmission_scheduled env m msg some_file known
      rw [served] at result ⊢
      rcases scheduleJob_cases env.limits env.unassigned m job with ⟨-, -, scheduled⟩ | ⟨-, same⟩
      · rw [scheduled] at result
        cases result
      · rw [same]
    · rw [serveJobSubmission_lookup_fails env m msg some_file known]

/-- It is then an operation of the planner. -/
theorem Granted.scheduled_eq {env : Surroundings} {m : JobMonitor} {request : ResourceRequest}
    (granted : Granted env m request) :
    scheduled m (requestedJob env request) =
      (PlannerOp.scheduleJob (requestedJob env request) env.unassigned).apply env.limits m := by
  rcases scheduleJob_cases env.limits env.unassigned m (requestedJob env request) with ⟨-, -, result⟩ | ⟨refused, -⟩
  · rw [PlannerOp.apply, result]
  · exact absurd ⟨granted.2.room, granted.2.fresh⟩ refused

section Process

variable (regex : RegexEngine) (localTime : Int → String) (lib : Protobuf.Library) (left : List UInt8 → Message)

/-- The planner after it; `none` once the process has ended. -/
def happen (planner : Option JobMonitor) (h : Happening) : Option JobMonitor :=
  planner.bind fun m =>
    match h with
    | .receive env bytes =>
      match Server.serveBytes regex localTime lib left env m bytes with
      | .replied m _ => some m
      | _ => none
    | .monitor now remote => some (m.monitorIteration remote now)

/-- What the loop makes of what it has received. -/
inductive Served (env : Surroundings) (m : JobMonitor) (request : Received Message) : Option JobMonitor → Prop
  | reserve (msg : Message) (parsed : request = .parsed msg) (isRequest : msg.type ≠ .REPLY)
      (type : msg.getRequest.type = .RESERVE) : Served env m request (some (serveJobSubmission env m msg).2.2)
  | delete (msg : Message) (parsed : request = .parsed msg) (isRequest : msg.type ≠ .REPLY)
      (type : msg.getRequest.type = .DELETE) :
      Served env m request (some (serveJobRemove m msg.getRequest.getDeleteRequest).2)
  | same (answered : Server.Answered regex request)
      (other : ∀ msg, request = .parsed msg → msg.getRequest.type ≠ .RESERVE ∧ msg.getRequest.type ≠ .DELETE) :
      Served env m request (some m)
  | ends (unanswered : ¬ Server.Answered regex request) : Served env m request none

/-- **One request.** -/
theorem served (env : Surroundings) (m : JobMonitor) (bytes : List UInt8) :
    Served regex env m (Message.parseFromString lib left bytes)
      (happen regex localTime lib left (some m) (.receive env bytes)) := by
  simp only [happen, Option.bind_some, Server.serveBytes]
  generalize Message.parseFromString lib left bytes = request
  cases request with
  | unparsable left => exact .same trivial fun _ same => by cases same
  | parsed msg =>
    by_cases reply : msg.type = .REPLY
    · rw [show Server.serve regex localTime env m (.parsed msg) = .silent m by simp [Server.serve, serveParsed, reply]]
      exact .ends fun answered => answered.1 reply
    have answers := Server.processMessage_isSome regex localTime env m msg
    cases processed : processMessage (serveListJobs regex localTime) env m msg with
    | none =>
      rw [show Server.serve regex localTime env m (.parsed msg) = .thrown by
        simp [Server.serve, serveParsed, reply, processed]]
      rw [processed] at answers
      exact .ends fun answered => Bool.noConfusion (answers.2 answered.2)
    | some result =>
      obtain ⟨success, msg', m'⟩ := result
      have replied : Server.serve regex localTime env m (.parsed msg) =
          .replied m' (msg'.releaseRequest.setType .REPLY) := by simp [Server.serve, serveParsed, reply, processed]
      have answered : Server.Answered regex (.parsed msg) := ⟨reply, answers.1 (by rw [processed]; rfl)⟩
      rw [replied]
      unfold processMessage at processed
      cases type : msg.getRequest.type with
      | RESERVE =>
        rw [type] at processed
        rw [show m' = (serveJobSubmission env m msg).2.2 by rw [Option.some.inj processed]]
        exact .reserve msg rfl reply type
      | DELETE =>
        rw [type] at processed
        cases processed
        exact .delete msg rfl reply type
      | LISTJOBS =>
        rw [type] at processed
        obtain ⟨-, rfl⟩ := serveListJobs_state processed
        exact .same answered fun _ same => by cases same; simp [type]
      | INVALID =>
        rw [type] at processed
        cases processed
        exact .same answered fun _ same => by cases same; simp [type]
      | unnamed value =>
        rw [type] at processed
        cases processed
        exact .same answered fun _ same => by cases same; simp [type]

/-! ## The book -/

/-- What is granted under an id; nothing once the process has ended. -/
def book (planner : Option JobMonitor) (id : JobId) : Option Reservation :=
  planner.bind fun m => (m.scheduleState.jobOf id).map Job.reservation

/-- A reserve request for `r` under the id comes and is granted. -/
def Grants (id : JobId) (r : Reservation) (planner : Option JobMonitor) : Happening → Prop
  | .receive env bytes => ∃ m msg, planner = some m ∧ Message.parseFromString lib left bytes = .parsed msg ∧
      msg.type ≠ .REPLY ∧ msg.getRequest.type = .RESERVE ∧ msg.getRequest.getResourceRequest.id = id ∧
      Granted env m msg.getRequest.getResourceRequest ∧
      r = (requestedJob env msg.getRequest.getResourceRequest).reservation
  | .monitor _ _ => False

/-- A delete request names the id, its stop event is at the root of the queue and has come up, or
the message is one that ends the process. -/
def Releases (id : JobId) (planner : Option JobMonitor) : Happening → Prop
  | .receive _ bytes =>
    ¬ Server.Answered regex (Message.parseFromString lib left bytes) ∨
      ∃ msg, Message.parseFromString lib left bytes = .parsed msg ∧ msg.type ≠ .REPLY ∧
        msg.getRequest.type = .DELETE ∧ id ∈ msg.getRequest.getDeleteRequest.id
  | .monitor now _ => ∃ m wt queue, planner = some m ∧ m.jobPriorityQueue.pop = some (wt, queue) ∧
      wt.timeOfEvent < now ∧ wt.eventType = .JOBSTOP ∧ wt.jobid = id

variable {regex localTime lib left}

theorem coherent_happen {planner : Option JobMonitor} (h : Happening) (coherent : ∀ m ∈ planner, Coherent m) :
    ∀ m ∈ happen regex localTime lib left planner h, Coherent m := by
  cases planner with
  | none => exact fun m gone => by cases gone
  | some m =>
    have before := coherent m rfl
    cases h with
    | receive env bytes =>
      have outcome := served regex localTime lib left env m bytes
      generalize happen regex localTime lib left (some m) (.receive env bytes) = after at outcome ⊢
      cases outcome with
      | reserve msg =>
        rintro _ ⟨⟩
        rcases serveJobSubmission_state env m msg with ⟨granted, after⟩ | ⟨-, after⟩ <;> rw [after]
        · rw [granted.scheduled_eq]
          exact coherent_apply env.limits _ before
        · exact before
      | delete msg =>
        rintro _ ⟨⟩
        exact coherent_apply ∅ (.serveJobRemove msg.getRequest.getDeleteRequest) before
      | same => rintro _ ⟨⟩; exact before
      | ends => exact fun m gone => by cases gone
    | monitor now remote =>
      rintro _ ⟨⟩
      exact coherent_apply ∅ (.monitor now remote) before

theorem book_of_view {m m' : JobMonitor} {id : JobId} (same : m'.view id = m.view id) :
    book (some m') id = book (some m) id :=
  congrArg (fun v : JobView => v.job.map Job.reservation) same

/-- A request that is granted fills its id. -/
theorem book_scheduled {m : JobMonitor} {env : Surroundings} {request : ResourceRequest}
    (granted : Granted env m request) (id : JobId) :
    book (some (scheduled m (requestedJob env request))) id =
      if request.id = id then some (requestedJob env request).reservation else book (some m) id := by
  rw [book, Option.bind_some, jobOf_scheduled granted.2.fresh]
  show Option.map _ (if request.id = id then _ else _) = _
  split <;> rfl

/-- **A request and the book.** -/
theorem book_receive_iff {m : JobMonitor} (coherent : Coherent m) (env : Surroundings) (bytes : List UInt8)
    (id : JobId) (r : Reservation) :
    book (happen regex localTime lib left (some m) (.receive env bytes)) id = some r ↔
      Grants lib left id r (some m) (.receive env bytes) ∨
        (book (some m) id = some r ∧ ¬ Releases regex lib left id (some m) (.receive env bytes)) := by
  have outcome := served regex localTime lib left env m bytes
  generalize happen regex localTime lib left (some m) (.receive env bytes) = after at outcome ⊢
  simp only [Grants, Releases]
  generalize Message.parseFromString lib left bytes = request at outcome ⊢
  cases outcome with
  | reserve msg parsed isRequest type =>
    subst parsed
    have kept : ¬ (¬ Server.Answered regex (.parsed msg) ∨ ∃ msg', Received.parsed msg = .parsed msg' ∧
        msg'.type ≠ .REPLY ∧ msg'.getRequest.type = .DELETE ∧ id ∈ msg'.getRequest.getDeleteRequest.id) := by
      rintro (ends | ⟨_, ⟨⟩, -, delete, -⟩)
      · exact ends ⟨isRequest, fun list => by rw [type] at list; cases list⟩
      · rw [type] at delete
        cases delete
    rcases serveJobSubmission_state env m msg with ⟨granted, after⟩ | ⟨refused, after⟩ <;> rw [after]
    · rw [book_scheduled granted]
      split
      · rename_i named
        have free : book (some m) id = none := by
          rw [← named, book, Option.bind_some, granted.2.fresh, Option.map_none]
        rw [free]
        constructor
        · rintro ⟨⟩
          exact Or.inl ⟨m, msg, rfl, rfl, isRequest, type, named, granted, rfl⟩
        · rintro (⟨_, _, ⟨⟩, ⟨⟩, -, -, -, -, rfl⟩ | ⟨none, -⟩)
          · rfl
          · cases none
      · rename_i other
        constructor
        · exact fun held => Or.inr ⟨held, kept⟩
        · rintro (⟨_, _, -, ⟨⟩, -, -, named, -⟩ | ⟨held, -⟩)
          · exact absurd named other
          · exact held
    · constructor
      · exact fun held => Or.inr ⟨held, kept⟩
      · rintro (⟨_, _, ⟨⟩, ⟨⟩, -, -, -, granted, -⟩ | ⟨held, -⟩)
        · exact absurd granted refused
        · exact held
  | delete msg parsed isRequest type =>
    subst parsed
    have notGranted : ¬ ∃ m' msg', some m = some m' ∧ Received.parsed msg = .parsed msg' ∧ msg'.type ≠ .REPLY ∧
        msg'.getRequest.type = .RESERVE ∧ msg'.getRequest.getResourceRequest.id = id ∧
        Granted env m' msg'.getRequest.getResourceRequest ∧
        r = (requestedJob env msg'.getRequest.getResourceRequest).reservation := by
      rintro ⟨_, _, -, ⟨⟩, -, reserve, -⟩
      rw [type] at reserve
      cases reserve
    have view := view_serveJobRemove coherent msg.getRequest.getDeleteRequest id
    by_cases named : id ∈ msg.getRequest.getDeleteRequest.id
    · have gone : book (some (serveJobRemove m msg.getRequest.getDeleteRequest).2) id = none := by
        rw [if_pos named] at view
        exact congrArg (fun v : JobView => v.job.map Job.reservation) view
      rw [gone]
      refine iff_of_false nofun ?_
      rintro (grants | ⟨-, kept⟩)
      · exact notGranted grants
      · exact kept (Or.inr ⟨msg, rfl, isRequest, type, named⟩)
    · rw [if_neg named] at view
      rw [book_of_view view]
      constructor
      · refine fun held => Or.inr ⟨held, ?_⟩
        rintro (ends | ⟨_, ⟨⟩, -, -, this⟩)
        · exact ends ⟨isRequest, fun list => by rw [type] at list; cases list⟩
        · exact named this
      · rintro (grants | ⟨held, -⟩)
        · exact absurd grants notGranted
        · exact held
  | same answered other =>
    constructor
    · refine fun held => Or.inr ⟨held, ?_⟩
      rintro (ends | ⟨msg, parsed, -, type, -⟩)
      · exact ends answered
      · exact (other msg parsed).2 type
    · rintro (⟨_, msg, -, parsed, -, type, -⟩ | ⟨held, -⟩)
      · exact absurd type (other msg parsed).1
      · exact held
  | ends unanswered =>
    refine iff_of_false nofun ?_
    rintro (⟨_, msg, -, parsed, isRequest, type, -⟩ | ⟨-, kept⟩)
    · subst parsed
      exact unanswered ⟨isRequest, fun list => by rw [type] at list; cases list⟩
    · exact kept (Or.inl unanswered)

/-- A round of the monitor releases the id of the event it takes, if that is a stop event. -/
theorem releases_monitor_iff {m : JobMonitor} {now : TimePoint} {wt : WaitingItem} {queue : JobPriorityQueue}
    (popped : m.jobPriorityQueue.pop = some (wt, queue)) (ready : wt.timeOfEvent < now) (remote : RemoteEnv)
    (id : JobId) :
    Releases regex lib left id (some m) (.monitor now remote) ↔ wt.eventType = .JOBSTOP ∧ wt.jobid = id := by
  constructor
  · rintro ⟨_, wt', _, ⟨⟩, popped', -, stop, named⟩
    rw [popped] at popped'
    cases popped'
    exact ⟨stop, named⟩
  · rintro ⟨stop, named⟩
    exact ⟨m, wt, queue, rfl, popped, ready, stop, named⟩

/-- **A round of the monitor and the book.** -/
theorem book_monitor_iff {m : JobMonitor} (coherent : Coherent m) (now : TimePoint) (remote : RemoteEnv)
    (id : JobId) (r : Reservation) :
    book (happen regex localTime lib left (some m) (.monitor now remote)) id = some r ↔
      book (some m) id = some r ∧ ¬ Releases regex lib left id (some m) (.monitor now remote) := by
  show book (some (m.monitorIteration remote now)) id = some r ↔ _
  cases coherent.monitorIteration remote now with
  | idle waits same =>
    rw [same]
    refine (and_iff_left ?_).symm
    rintro ⟨_, wt, queue, ⟨⟩, popped, ready, -⟩
    exact waits wt queue popped ready
  | stopped wt queue popped ready event view others =>
    rw [releases_monitor_iff popped ready]
    by_cases named : id = wt.jobid
    · have gone : book (some (m.monitorIteration remote now)) id = none := by
        rw [named]
        exact congrArg (fun v : JobView => v.job.map Job.reservation) view
      rw [gone]
      exact iff_of_false nofun fun held => held.2 ⟨event, named.symm⟩
    · rw [book_of_view (others id named)]
      exact (and_iff_left fun stops => named stops.2.symm).symm
  | started wt stop queue job rule popped ready event stored settable due view others =>
    rw [releases_monitor_iff popped ready, event]
    refine Iff.trans ?_ (and_iff_left fun stops => by cases stops.1).symm
    by_cases named : id = wt.jobid
    · have after : book (some (m.monitorIteration remote now)) id = some job.reservation := by
        rw [named]
        exact congrArg (fun v : JobView => v.job.map Job.reservation) view
      rw [after, named, book, Option.bind_some, stored, Option.map_some]
    · rw [book_of_view (others id named)]
  | stranded wt queue job popped ready event stored state refused view others =>
    rw [releases_monitor_iff popped ready, event]
    refine Iff.trans ?_ (and_iff_left fun stops => by cases stops.1).symm
    by_cases named : id = wt.jobid
    · have after : book (some (m.monitorIteration remote now)) id = some job.reservation := by
        rw [named]
        exact congrArg (fun v : JobView => v.job.map Job.reservation) view
      rw [after, named, book, Option.bind_some, stored, Option.map_some]
    · rw [book_of_view (others id named)]

/-- **The book is the history.** Over any bytes, clocks, lookups and remote commands, a
reservation is held under an id iff a request for it has been granted and nothing has released
the id since. -/
theorem book_iff (happenings : List Happening) (id : JobId) (r : Reservation) :
    book (after (happen regex localTime lib left) (some .empty) happenings) id = some r ↔
      Since (happen regex localTime lib left) (Grants lib left id r) (Releases regex lib left id) (some .empty)
        happenings := by
  refine iff_since (I := fun planner => ∀ m ∈ planner, Coherent m) (P := fun planner => book planner id = some r)
    (fun _ h coherent => coherent_happen h coherent) (fun planner h coherent => ?_) ?_ ?_ happenings
  · cases planner with
    | none =>
      refine iff_of_false nofun ?_
      rintro (grants | ⟨none, -⟩)
      · cases h with
        | receive env bytes => obtain ⟨_, _, ⟨⟩, -⟩ := grants
        | monitor => exact grants
      · cases none
    | some m =>
      cases h with
      | receive env bytes => exact book_receive_iff (coherent m rfl) env bytes id r
      | monitor now remote =>
        rw [book_monitor_iff (coherent m rfl), Grants, false_or]
  · rintro _ ⟨⟩
    exact coherent_empty
  · simp [book, JobMonitor.empty]

end Process

end QosPlanner
