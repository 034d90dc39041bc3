import QosPlanner.Rpc.Message
import QosPlanner.Scheduler.StaticWorkloads
import QosPlanner.Concurrent.Moves

/-!
# The server thread and the monitor thread

The server serves reserve and delete requests one after another (`ScheduleJob`,
`ServeJobRemove`); the monitor pops ready events and handles them. Each is a program
counter over the shared world, and a label says which thread takes its next step and what
comes from outside: the request, the time, the answers of the lookups and of the servers,
the value of an uninitialised local.

`Move` lists what a step of the system can do, and `System.step_move` says that it does
nothing else.
-/

namespace QosPlanner
set_option autoImplicit false

open MemoryScheduleState JobPriorityQueue RuleManager Run

inductive Thread where
  | server
  | monitor
  deriving DecidableEq

/-- Where the server is: between requests, in `ScheduleJob`, or in the loop of
`ServeJobRemove` at an id, with the ids that follow it. -/
inductive ServerPc where
  | idle
  | checkOst (job : Job) (osts : List Ost)
  | addJob (job : Job)
  | registerJob (job : Job) (reservation : Nat)
  | unregisterJob (jobid : JobId) (pc : UnregisterPc) (rest : List JobId)
  | removeJob (jobid : JobId) (rest : List JobId)
  deriving DecidableEq

/-- Where the monitor is: in its loop, or in `Handle` for an item, with the time at which
it found the item ready. -/
inductive MonitorPc where
  | idle
  | handle (wt : WaitingItem) (poppedAt : TimePoint) (pc : HandlePc)
  deriving DecidableEq

structure System where
  world : World Thread
  server : ServerPc
  monitor : MonitorPc

inductive Label where
  | reserve (job : Job)
  | delete (request : Rpc.DeleteRequest)
  /-- A step of the server; `unassigned` is what it finds in `max_ost_mb_sec`. -/
  | server (unassigned : UInt32)
  | pop (now : TimePoint)
  | monitor (env : RemoteEnv)
  | wake (t : Thread)

/-- The next iteration of the loop of `ServeJobRemove`. -/
def nextDelete : List JobId → ServerPc
  | [] => .idle
  | jobid :: rest => .unregisterJob jobid .block rest

theorem nextDelete_ne_addJob (ids : List JobId) (job : Job) : nextDelete ids ≠ .addJob job := by
  cases ids <;> simp [nextDelete]

theorem nextDelete_unregisterJob {ids rest : List JobId} {jobid : JobId} {pc : UnregisterPc}
    (next : nextDelete ids = .unregisterJob jobid pc rest) : pc = .block ∧ ids = jobid :: rest := by
  cases ids with
  | nil => cases next
  | cons id ids => cases next; exact ⟨rfl, rfl⟩

/-- A step of the server. `RegisterJob` always succeeds. -/
def serverStep (limits : Limits) (unassigned : UInt32) (w : World Thread) :
    ServerPc → Option (World Thread × ServerPc)
  | .idle => none
  | .checkOst job [] => some (w, .addJob (job.setState .SCHEDULED))
  | .checkOst job (ost :: osts) =>
    let (success, maxOstMbSec) := getMaxLoadInTimeInterval w.scheduleState ost job.tstart job.tend unassigned
    if !success then some (w, .idle)
    else if !areEnoughResAvail limits job ost maxOstMbSec then some (w, .idle)
    else some (w, .checkOst job osts)
  | .addJob job =>
    let (added, scheduleState) := w.scheduleState.addJob job.jobid job job.osts
    if !added then some ({ w with scheduleState }, .idle)
    else some ({ w with scheduleState }, .registerJob job (reservationOf scheduleState job.jobid))
  | .registerJob job reservation =>
    let (_, jobPriorityQueue) := JobMonitor.registerJob w.jobPriorityQueue job reservation
    some ({ w with jobPriorityQueue }, .idle)
  | .unregisterJob jobid pc rest =>
    match unregisterStep .server jobid w pc with
    | (w, .next pc) => some (w, .unregisterJob jobid pc rest)
    | (w, .done _) => some (w, .removeJob jobid rest)
  | .removeJob jobid rest =>
    some ({ w with scheduleState := (w.scheduleState.removeJob jobid).2 }, nextDelete rest)

namespace System

/-- No jobs, no events, no rules; both threads idle. -/
def init : System := ⟨⟨.empty, ∅, ∅⟩, .idle, .idle⟩

/-- A step of the system. -/
def step (limits : Limits) (s : System) : Label → Option System
  | .reserve job =>
    match s.server with
    | .idle => some { s with server := .checkOst job job.osts }
    | _ => none
  | .delete request =>
    match s.server with
    | .idle => some { s with server := nextDelete request.id }
    | _ => none
  | .server unassigned =>
    if .server ∈ s.world.inFlightJobsCv then none
    else (serverStep limits unassigned s.world s.server).map fun (world, server) => { s with world, server }
  | .pop now =>
    match s.monitor with
    | .idle =>
      if s.world.jobPriorityQueue.isThereAReadyJob now then
        s.world.jobPriorityQueue.pop.map fun (wt, jobPriorityQueue) =>
          { s with world := { s.world with jobPriorityQueue }, monitor := .handle wt now .block }
      else none
    | _ => none
  | .monitor env =>
    if .monitor ∈ s.world.inFlightJobsCv then none
    else
      match s.monitor with
      | .idle => none
      | .handle wt poppedAt pc =>
        match handleStep .monitor env wt.jobid wt.eventType s.world pc with
        | (world, .next pc) => some { s with world, monitor := .handle wt poppedAt pc }
        | (world, .done _) => some { s with world, monitor := .idle }
  | .wake t => some { s with world := { s.world with inFlightJobsCv := s.world.inFlightJobsCv.erase t } }

end System

/-! ## What a step of the system can do -/

/-- The schedule, the queue and the rules after a step, and the places of the threads. -/
inductive Move (s : System) : Label → JobMonitor → ServerPc → MonitorPc → Prop
  | reserve (job : Job) (idle : s.server = .idle) :
      Move s (.reserve job) s.world.toJobMonitor (.checkOst job job.osts) s.monitor
  | delete (request : Rpc.DeleteRequest) (idle : s.server = .idle) :
      Move s (.delete request) s.world.toJobMonitor (nextDelete request.id) s.monitor
  | checkFails (u : UInt32) (job : Job) (ost : Ost) (osts : List Ost) (here : s.server = .checkOst job (ost :: osts)) :
      Move s (.server u) s.world.toJobMonitor .idle s.monitor
  | checkNext (u : UInt32) (job : Job) (ost : Ost) (osts : List Ost) (here : s.server = .checkOst job (ost :: osts)) :
      Move s (.server u) s.world.toJobMonitor (.checkOst job osts) s.monitor
  | checksDone (u : UInt32) (job : Job) (here : s.server = .checkOst job []) :
      Move s (.server u) s.world.toJobMonitor (.addJob (job.setState .SCHEDULED)) s.monitor
  | refused (u : UInt32) (job : Job) (here : s.server = .addJob job)
      (present : s.world.scheduleState.jobOf job.jobid ≠ none) :
      Move s (.server u) s.world.toJobMonitor .idle s.monitor
  | added (u : UInt32) (job : Job) (here : s.server = .addJob job)
      (fresh : s.world.scheduleState.jobOf job.jobid = none) :
      Move s (.server u)
        { s.world.toJobMonitor with scheduleState := (s.world.scheduleState.addJob job.jobid job job.osts).2 }
        (.registerJob job s.world.scheduleState.objects.length) s.monitor
  | registered (u : UInt32) (job : Job) (reservation : Nat) (here : s.server = .registerJob job reservation) :
      Move s (.server u)
        { s.world.toJobMonitor with
          jobPriorityQueue := s.world.jobPriorityQueue.push ⟨job.jobid, job.tstart, .JOBSTART, reservation⟩ }
        .idle s.monitor
  | unregister (u : UInt32) (jobid : JobId) (pc pc' : UnregisterPc) (rest : List JobId) (m' : JobMonitor)
      (here : s.server = .unregisterJob jobid pc rest)
      (move : UnregisterMove jobid s.world.toJobMonitor pc m' (.next pc')) :
      Move s (.server u) m' (.unregisterJob jobid pc' rest) s.monitor
  | unregistered (u : UInt32) (jobid : JobId) (pc : UnregisterPc) (rest : List JobId) (m' : JobMonitor)
      (result : Bool) (here : s.server = .unregisterJob jobid pc rest)
      (move : UnregisterMove jobid s.world.toJobMonitor pc m' (.done result)) :
      Move s (.server u) m' (.removeJob jobid rest) s.monitor
  | removed (u : UInt32) (jobid : JobId) (rest : List JobId) (here : s.server = .removeJob jobid rest) :
      Move s (.server u)
        { s.world.toJobMonitor with scheduleState := (s.world.scheduleState.removeJob jobid).2 }
        (nextDelete rest) s.monitor
  | pop (now : TimePoint) (wt : WaitingItem) (queue : JobPriorityQueue) (idle : s.monitor = .idle)
      (popped : s.world.jobPriorityQueue.pop = some (wt, queue)) (ready : wt.timeOfEvent < now) :
      Move s (.pop now) { s.world.toJobMonitor with jobPriorityQueue := queue } s.server (.handle wt now .block)
  | handle (env : RemoteEnv) (wt : WaitingItem) (poppedAt : TimePoint) (pc pc' : HandlePc) (m' : JobMonitor)
      (here : s.monitor = .handle wt poppedAt pc)
      (move : HandleMove wt.jobid wt.eventType s.world.toJobMonitor pc m' (.next pc')) :
      Move s (.monitor env) m' s.server (.handle wt poppedAt pc')
  | handled (env : RemoteEnv) (wt : WaitingItem) (poppedAt : TimePoint) (pc : HandlePc) (m' : JobMonitor)
      (here : s.monitor = .handle wt poppedAt pc)
      (move : HandleMove wt.jobid wt.eventType s.world.toJobMonitor pc m' (.done ())) :
      Move s (.monitor env) m' s.server .idle
  | wake (t : Thread) : Move s (.wake t) s.world.toJobMonitor s.server s.monitor

namespace System

/-! The three kinds of step that depend on more than the place of their thread. -/

/-- A step of the server is one of `serverStep`, while the server is not asleep. -/
theorem step_server {limits : Limits} {s s' : System} {u : UInt32} (taken : s.step limits (.server u) = some s') :
    .server ∉ s.world.inFlightJobsCv ∧ ∃ world server,
      serverStep limits u s.world s.server = some (world, server) ∧ s' = { s with world, server } := by
  rw [step] at taken
  split at taken
  · cases taken
  · rename_i awake
    obtain ⟨⟨world, server⟩, moved, rfl⟩ := Option.map_eq_some_iff.1 taken
    exact ⟨awake, world, server, moved, rfl⟩

/-- The idle monitor takes an event whose time is over. -/
theorem step_pop {limits : Limits} {s s' : System} {now : TimePoint} (taken : s.step limits (.pop now) = some s') :
    s.monitor = .idle ∧ ∃ wt queue, s.world.jobPriorityQueue.pop = some (wt, queue) ∧ wt.timeOfEvent < now ∧
      s' = { s with world := { s.world with jobPriorityQueue := queue }, monitor := .handle wt now .block } := by
  rw [step] at taken
  split at taken
  · rename_i idle
    split at taken
    · rename_i ready
      obtain ⟨⟨wt, queue⟩, popped, rfl⟩ := Option.map_eq_some_iff.1 taken
      refine ⟨idle, wt, queue, popped, ?_, rfl⟩
      simpa [isThereAReadyJob, (items_pop popped).1] using ready
    · cases taken
  · cases taken

/-- A step of the monitor is one of `handleStep`, while the monitor is not asleep. -/
theorem step_monitor {limits : Limits} {s s' : System} {env : RemoteEnv}
    (taken : s.step limits (.monitor env) = some s') :
    .monitor ∉ s.world.inFlightJobsCv ∧ ∃ wt poppedAt pc, s.monitor = .handle wt poppedAt pc ∧
      ((∃ world pc', handleStep .monitor env wt.jobid wt.eventType s.world pc = (world, .next pc') ∧
          s' = { s with world, monitor := .handle wt poppedAt pc' }) ∨
        ∃ world, handleStep .monitor env wt.jobid wt.eventType s.world pc = (world, .done ()) ∧
          s' = { s with world, monitor := .idle }) := by
  rw [step] at taken
  split at taken
  · cases taken
  · rename_i awake
    split at taken
    · cases taken
    · rename_i wt poppedAt pc here
      refine ⟨awake, wt, poppedAt, pc, here, ?_⟩
      rcases ran : handleStep .monitor env wt.jobid wt.eventType s.world pc with ⟨world, pc' | result⟩
      · rw [ran] at taken
        cases taken
        exact Or.inl ⟨world, pc', ran, rfl⟩
      · rw [ran] at taken
        cases taken
        exact Or.inr ⟨world, ran, rfl⟩

/-- The steps of the server. -/
theorem serverStep_move {limits : Limits} {s : System} {u : UInt32} {w : World Thread} {server : ServerPc}
    (moved : serverStep limits u s.world s.server = some (w, server)) :
    Move s (.server u) w.toJobMonitor server s.monitor := by
  cases here : s.server with
  | idle => rw [here] at moved; cases moved
  | checkOst job osts =>
    rw [here] at moved
    cases osts with
    | nil =>
      cases moved
      exact .checksDone u job here
    | cons ost osts =>
      simp only [serverStep, getMaxLoadInTimeInterval_eq] at moved
      split at moved
      · cases moved
        exact .checkFails u job ost osts here
      · split at moved
        · cases moved
          exact .checkFails u job ost osts here
        · cases moved
          exact .checkNext u job ost osts here
  | addJob job =>
    rw [here, serverStep] at moved
    by_cases fresh : s.world.scheduleState.jobOf job.jobid = none
    · have added : (s.world.scheduleState.addJob job.jobid job job.osts).1 = true :=
        (addJob_accepts _ _).2 fresh
      have reservation : reservationOf (s.world.scheduleState.addJob job.jobid job job.osts).2 job.jobid = _ :=
        reservationOf_addJob s.world.scheduleState fresh
      simp only [added, Bool.not_true, Bool.false_eq_true, if_false, reservation] at moved
      cases moved
      exact .added u job here fresh
    · have present : job.jobid ∈ s.world.scheduleState.jobs := by simpa [jobOf_eq_none] using fresh
      simp only [addJob_of_mem _ _ present] at moved
      cases moved
      exact .refused u job here fresh
  | registerJob job reservation =>
    rw [here] at moved
    cases moved
    exact .registered u job reservation here
  | unregisterJob jobid pc rest =>
    have move := unregisterStep_move Thread.server jobid s.world pc
    rw [here, serverStep] at moved
    rcases ran : unregisterStep Thread.server jobid s.world pc with ⟨w', pc' | result⟩ <;> rw [ran] at move moved
    · cases moved
      exact .unregister u jobid pc pc' rest _ here move
    · cases moved
      exact .unregistered u jobid pc rest _ result here move
  | removeJob jobid rest =>
    rw [here] at moved
    cases moved
    exact .removed u jobid rest here

/-- **The steps of the system.** -/
theorem step_move {limits : Limits} {s s' : System} {l : Label} (taken : s.step limits l = some s') :
    Move s l s'.world.toJobMonitor s'.server s'.monitor := by
  cases l with
  | reserve job =>
    rw [step] at taken
    split at taken
    · rename_i idle
      cases taken
      exact .reserve job idle
    · cases taken
  | delete request =>
    rw [step] at taken
    split at taken
    · rename_i idle
      cases taken
      exact .delete request idle
    · cases taken
  | server u =>
    obtain ⟨-, w, server, moved, rfl⟩ := step_server taken
    exact serverStep_move moved
  | pop now =>
    obtain ⟨idle, wt, queue, popped, ready, rfl⟩ := step_pop taken
    exact .pop now wt queue idle popped ready
  | monitor env =>
    obtain ⟨-, wt, poppedAt, pc, here, ⟨w, pc', ran, rfl⟩ | ⟨w, ran, rfl⟩⟩ := step_monitor taken
    all_goals
      have move := handleStep_move Thread.monitor env wt.jobid wt.eventType s.world pc
      rw [ran] at move
    · exact .handle env wt poppedAt pc pc' _ here move
    · exact .handled env wt poppedAt pc _ here move
  | wake t =>
    cases taken
    exact .wake t

end System

/-! ## Conditions on `AddJob` and `RemoveJob` -/

/-- The step adds a reservation only under an id that `allowed` admits in the state before. -/
def AddsOnlyWhere (allowed : System → JobId → Prop) (s : System) : Label → Prop
  | .server _ =>
    match s.server with
    | .addJob job => s.world.scheduleState.jobOf job.jobid = none → allowed s job.jobid
    | _ => True
  | _ => True

instance (allowed : System → JobId → Prop) [∀ s jobid, Decidable (allowed s jobid)] (s : System) (l : Label) :
    Decidable (AddsOnlyWhere allowed s l) := by
  unfold AddsOnlyWhere
  split
  · split <;> infer_instance
  · infer_instance

theorem AddsOnlyWhere.of_added {allowed : System → JobId → Prop} {s : System} {u : UInt32} {job : Job}
    (adds : AddsOnlyWhere allowed s (.server u)) (here : s.server = .addJob job)
    (fresh : s.world.scheduleState.jobOf job.jobid = none) : allowed s job.jobid := by
  unfold AddsOnlyWhere at adds
  rw [here] at adds
  exact adds fresh

/-- The step removes a job only where `allowed` admits its id in the state before. -/
def RemovesOnlyWhere (allowed : System → JobId → Prop) (s : System) : Label → Prop
  | .server _ =>
    match s.server with
    | .removeJob jobid _ => allowed s jobid
    | _ => True
  | _ => True

instance (allowed : System → JobId → Prop) [∀ s jobid, Decidable (allowed s jobid)] (s : System) (l : Label) :
    Decidable (RemovesOnlyWhere allowed s l) := by
  unfold RemovesOnlyWhere
  split
  · split <;> infer_instance
  · infer_instance

theorem RemovesOnlyWhere.of_removed {allowed : System → JobId → Prop} {s : System} {u : UInt32} {jobid : JobId}
    {rest : List JobId} (removes : RemovesOnlyWhere allowed s (.server u)) (here : s.server = .removeJob jobid rest) :
    allowed s jobid := by
  unfold RemovesOnlyWhere at removes
  rw [here] at removes
  exact removes

/-! ## A start between `UnregisterJob` and `RemoveJob` -/

/-- Surroundings in which every remote call succeeds. -/
def allSucceed : RemoteEnv := ⟨id, id, fun _ _ _ _ => true, fun _ _ _ => true⟩

/-- A single OST of 100 MB/s. -/
def oneOst : Limits := (∅ : Limits).insert "OST_a" 100

/-- The server accepts a reservation `foo`. -/
def reserveFoo (start stop : TimePoint) : List Label :=
  .reserve ⟨.INITIALIZED, "foo", start, stop, ["OST_a"], 42⟩ :: List.replicate 4 (.server 0)

/-- The monitor has popped the start of `foo` and waits while `UnregisterJob` finds the job
SCHEDULED; then it starts the job, which `RemoveJob` is about to remove. -/
def startAfterUnregister : List Label :=
  reserveFoo 0 10 ++ [.pop 1, .delete ⟨["foo"], false⟩] ++ List.replicate 4 (.server 0) ++
    List.replicate 9 (.monitor allSucceed)

end QosPlanner
