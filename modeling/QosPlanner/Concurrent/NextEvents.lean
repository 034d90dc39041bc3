import QosPlanner.Concurrent.Exclusion
import QosPlanner.Concurrent.PendingStops
import QosPlanner.Planner.Operations

/-!
# The next event of a job, while both threads run

A SCHEDULED job waits for its start and an ACTIVE one for its stop. Between the two threads
the event may be on its way: the server has added the job and not yet registered it, the
monitor has popped the start and not yet pushed the stop, or one of the two is about to
remove the job. `Attended` lists these places.

Ids are used again, so the event in the hands of the monitor may be that of an older job.
It does no harm here: `StartJob` moves whatever job it finds SCHEDULED, and gives it the
stop of its own end. The one way to leave a job without an event is a `SetRules` that fails,
and where none fails for a stored job, no job is left behind (`stored_jobs_are_attended`).
-/

namespace QosPlanner
set_option autoImplicit false

open MemoryScheduleState JobPriorityQueue Run

/-- The id that the server takes out: its event has been dequeued, and `RemoveJob` follows. -/
def ServerPc.removing : ServerPc → Option JobId
  | .unregisterJob jobid pc _ => if pc = .block ∨ pc = .removeJobFromPrioQueue then none else some jobid
  | .removeJob jobid _ => some jobid
  | _ => none

/-- From this place `Handle` takes the job on to its next event, or removes it. -/
def HandlePc.MovesOn (event : JobEvent) (job : Job) : HandlePc → Prop
  | .block => event = .JOBSTART → job.state = .SCHEDULED
  | .start .getJobEnd => job.state = .ACTIVE
  | .start (.push tend _) => job.state = .ACTIVE ∧ tend = job.tend
  | .start _ => job.state = .SCHEDULED
  | .stop _ => True
  | .removeJob => True
  | .unblock => False

/-- The next event of the stored job is queued, or on its way. -/
inductive Attended (q : JobPriorityQueue) (server : ServerPc) (monitor : MonitorPc) (id : JobId) (job : Job) : Prop
  | queued (wt : WaitingItem) (member : wt ∈ q.itemsOf id) (due : IsDue job wt)
  | registering (new : Job) (reservation : Nat) (here : server = .registerJob new reservation)
      (named : new.jobid = id) (time : new.tstart = job.tstart) (state : job.state = .SCHEDULED)
  | handled (wt : WaitingItem) (now : TimePoint) (pc : HandlePc) (here : monitor = .handle wt now pc)
      (named : wt.jobid = id) (moves : pc.MovesOn wt.eventType job)
  | removed (here : server.removing = some id)

/-- The `SetRules` of a step: the id, and the result. -/
def System.setRules (s : System) : Label → Option (JobId × Bool)
  | .monitor env =>
    match s.monitor with
    | .handle wt _ (.start (.setRules mbs osts)) =>
      some (wt.jobid, (s.world.ruleManager.setRules env osts wt.jobid mbs).1)
    | _ => none
  | _ => none

/-- A `SetRules` that fails is for an id under which no job is stored, or whose job is about to be
removed. -/
def StartsSucceed (s : System) (l : Label) : Prop :=
  ∀ call ∈ s.setRules l, call.2 = false →
    s.world.scheduleState.jobOf call.1 = none ∨ s.server.removing = some call.1

instance (s : System) (l : Label) : Decidable (StartsSucceed s l) := by
  unfold StartsSucceed
  infer_instance

theorem itemsOf_le_push (q : JobPriorityQueue) (wt : WaitingItem) (id : JobId) :
    q.itemsOf id ≤ (q.push wt).itemsOf id := by
  rw [itemsOf_push]
  split
  · exact Multiset.le_cons_self _ _
  · exact le_rfl

theorem mem_itemsOf_push (q : JobPriorityQueue) (wt : WaitingItem) : wt ∈ (q.push wt).itemsOf wt.jobid := by
  rw [itemsOf_push, if_pos rfl]
  exact Multiset.mem_cons_self _ _

/-! ## A step of the monitor -/

section Monitor

variable {m m' : JobMonitor} {server : ServerPc} {wt : WaitingItem} {now : TimePoint} {id : JobId} {job : Job}

/-- What the monitor does not have in hand goes on as before. -/
theorem Attended.of_monitor {q q' : JobPriorityQueue} {monitor monitor' : MonitorPc}
    (attended : Attended q server monitor id job) (events : q.itemsOf id ≤ q'.itemsOf id)
    (handled : ∀ wt now pc, monitor = .handle wt now pc → wt.jobid = id → pc.MovesOn wt.eventType job →
      Attended q' server monitor' id job) : Attended q' server monitor' id job := by
  cases attended with
  | queued wt member due => exact .queued wt (Multiset.mem_of_le events member) due
  | registering new r here named time state => exact .registering new r here named time state
  | handled wt now pc here named moves => exact handled wt now pc here named moves
  | removed here => exact .removed here

/-- From one place of `Handle` to another that moves the job on as well. -/
theorem Attended.of_place {q : JobPriorityQueue} {pc pc' : HandlePc}
    (attended : Attended q server (.handle wt now pc) wt.jobid job)
    (moves : pc.MovesOn wt.eventType job → pc'.MovesOn wt.eventType job) :
    Attended q server (.handle wt now pc') wt.jobid job := by
  refine attended.of_monitor le_rfl fun _ _ _ here named moved => ?_
  cases here
  exact .handled wt now pc' rfl named (moves moved)

/-- `StartJob` goes on. -/
theorem StartMove.attended {pc pc' : StartPc} (move : StartMove wt.jobid m pc m' (.next pc'))
    (attended : ∀ job, m.scheduleState.jobOf wt.jobid = some job →
      Attended m.jobPriorityQueue server (.handle wt now (.start pc)) wt.jobid job)
    (stored : m'.scheduleState.jobOf wt.jobid = some job) :
    Attended m'.jobPriorityQueue server (.handle wt now (.start pc')) wt.jobid job := by
  cases move with
  | checked => exact (attended job stored).of_place fun moves => moves
  | throughput => exact (attended job stored).of_place fun moves => moves
  | ostIds => exact (attended job stored).of_place fun moves => moves
  | rulesSet => exact (attended job stored).of_place fun moves => moves
  | updated old before =>
    rw [jobOf_updateJob, if_pos rfl, before] at stored
    cases stored
    exact .handled wt now _ rfl rfl rfl
  | jobEnd old before =>
    rw [before] at stored
    cases stored
    exact (attended _ before).of_place fun active => ⟨active, rfl⟩

/-- `StartJob` returns: with the stop of the job pushed, or with no job it was to start. -/
theorem StartMove.attended_done {pc : StartPc} {result : Bool} (move : StartMove wt.jobid m pc m' (.done result))
    (succeeds : ∀ mbs osts, pc = .setRules mbs osts → m.scheduleState.jobOf wt.jobid ≠ none →
      server.removing = some wt.jobid)
    (attended : ∀ job, m.scheduleState.jobOf wt.jobid = some job →
      Attended m.jobPriorityQueue server (.handle wt now (.start pc)) wt.jobid job)
    (stored : m'.scheduleState.jobOf wt.jobid = some job) :
    Attended m'.jobPriorityQueue server (.handle wt now .unblock) wt.jobid job := by
  cases move with
  | refused other => exact (attended job stored).of_place fun scheduled => other job stored scheduled
  | rulesRefused mbs osts => exact .removed (succeeds mbs osts rfl (by simp [stored]))
  | noThroughput absent => simp [absent] at stored
  | notUpdated absent => simp [absent] at stored
  | noEnd absent => simp [absent] at stored
  | pushed tend reservation =>
    refine (attended job stored).of_monitor (itemsOf_le_push _ _ _) fun _ _ _ here _ moves => ?_
    cases here
    exact .queued ⟨wt.jobid, tend, .JOBSTOP, reservation⟩ (mem_itemsOf_push _ _) (Or.inr ⟨moves.1, rfl, moves.2⟩)

/-- `Handle` takes no event of any job from the queue. -/
theorem HandleMove.events {jobid : JobId} {event : JobEvent} {pc : HandlePc} {control : Control HandlePc Unit}
    (move : HandleMove jobid event m pc m' control) (id : JobId) :
    m.jobPriorityQueue.itemsOf id ≤ m'.jobPriorityQueue.itemsOf id := by
  cases move with
  | start _ _ _ move => cases move <;> exact le_rfl
  | startDone pc m' result move =>
    cases move with
    | pushed => exact itemsOf_le_push _ _ _
    | _ => exact le_rfl
  | stop _ _ _ move => rw [move.queue]
  | stopDone _ _ _ move => rw [move.queue]
  | _ => exact le_rfl

/-- **A step of `Handle`.** -/
theorem HandleMove.attended {pc pc' : HandlePc} (move : HandleMove wt.jobid wt.eventType m pc m' (.next pc'))
    (succeeds : ∀ mbs osts, pc = .start (.setRules mbs osts) → pc' = .unblock →
      m.scheduleState.jobOf wt.jobid ≠ none → server.removing = some wt.jobid)
    (attended : ∀ id job, m.scheduleState.jobOf id = some job →
      Attended m.jobPriorityQueue server (.handle wt now pc) id job)
    (stored : m'.scheduleState.jobOf id = some job) :
    Attended m'.jobPriorityQueue server (.handle wt now pc') id job := by
  by_cases other : id = wt.jobid
  · subst other
    cases move with
    | blocked => exact (attended _ job stored).of_place fun moves => moves
    | toStart isStart => exact (attended _ job stored).of_place fun moves => moves isStart
    | toStop => exact .handled wt now _ rfl rfl trivial
    | start pc pc' _ move => exact move.attended (attended wt.jobid) stored
    | startDone pc _ result move =>
      exact move.attended_done (fun mbs osts here => succeeds mbs osts (by rw [here]) rfl) (attended wt.jobid) stored
    | stop => exact .handled wt now _ rfl rfl trivial
    | stopDone => exact .handled wt now _ rfl rfl trivial
    | removed => simp [jobOf_removeJob] at stored
  · rw [(move.frame other).1] at stored
    refine (attended id job stored).of_monitor (move.events id) fun _ _ _ here named _ => ?_
    cases here
    exact absurd named.symm other

end Monitor

/-! ## A step of the server -/

section Server

variable {m m' : JobMonitor} {monitor : MonitorPc} {id jobid : JobId} {job : Job}

/-- What the server neither registers nor stops removing goes on as before. -/
theorem Attended.of_server {q q' : JobPriorityQueue} {server server' : ServerPc}
    (attended : Attended q server monitor id job) (events : q.itemsOf id ≤ q'.itemsOf id)
    (registering : ∀ new r, server = .registerJob new r → new.jobid ≠ id)
    (removing : server.removing = some id → server'.removing = some id) : Attended q' server' monitor id job := by
  cases attended with
  | queued wt member due => exact .queued wt (Multiset.mem_of_le events member) due
  | registering new r here named => exact absurd named (registering new r here)
  | handled wt now pc here named moves => exact .handled wt now pc here named moves
  | removed here => exact .removed (removing here)

/-- **A step of `UnregisterJob`.** -/
theorem UnregisterMove.attended {pc pc' : UnregisterPc} {rest : List JobId}
    (move : UnregisterMove jobid m pc m' (.next pc'))
    (attended : ∀ id job, m.scheduleState.jobOf id = some job →
      Attended m.jobPriorityQueue (.unregisterJob jobid pc rest) monitor id job)
    (stored : m'.scheduleState.jobOf id = some job) :
    Attended m'.jobPriorityQueue (.unregisterJob jobid pc' rest) monitor id job := by
  by_cases other : id = jobid
  · subst other
    cases move with
    | blocked => exact attended id job stored
    | taken => exact (attended id job stored).of_server le_rfl nofun fun here => by simp [ServerPc.removing] at here
    | _ => exact .removed (by simp [ServerPc.removing])
  · have events : m.jobPriorityQueue.itemsOf id ≤ m'.jobPriorityQueue.itemsOf id := by
      cases move with
      | dequeued => rw [(itemsOf_remove _ _ _).2.2 other]
      | stop _ _ _ move => rw [move.queue]
      | stopDone _ _ _ move => rw [move.queue]
      | _ => exact le_rfl
    rw [(move.frame other).1] at stored
    refine (attended id job stored).of_server events nofun fun here => ?_
    rw [ServerPc.removing] at here
    split at here
    · cases here
    · exact absurd (Option.some.inj here).symm other

end Server

/-! ## Runs -/

/-- **One step** leaves every stored job attended. -/
theorem Move.attended {s : System} {l : Label} {m' : JobMonitor} {server' : ServerPc} {monitor' : MonitorPc}
    (move : Move s l m' server' monitor') (adds : ∀ job, s.server = .addJob job → job.state = .SCHEDULED)
    (succeeds : ∀ wt now mbs osts, s.monitor = .handle wt now (.start (.setRules mbs osts)) →
      monitor' = .handle wt now .unblock → s.world.scheduleState.jobOf wt.jobid ≠ none →
      s.server.removing = some wt.jobid)
    (attended : ∀ id job, s.world.scheduleState.jobOf id = some job →
      Attended s.world.jobPriorityQueue s.server s.monitor id job)
    {id : JobId} {job : Job} (stored : m'.scheduleState.jobOf id = some job) :
    Attended m'.jobPriorityQueue server' monitor' id job := by
  have elsewhere {server : ServerPc} (here : s.server = server) (registers : ∀ new r, server ≠ .registerJob new r)
      (removes : server.removing = none) (stored : s.world.scheduleState.jobOf id = some job) (server' : ServerPc) :
      Attended s.world.jobPriorityQueue server' s.monitor id job := by
    refine (attended id job stored).of_server le_rfl (fun new r there => ?_) fun removing => ?_
    · exact absurd (here.symm.trans there) (registers new r)
    · rw [here, removes] at removing
      cases removing
  cases move with
  | reserve job idle => exact elsewhere idle nofun rfl stored _
  | delete request idle => exact elsewhere idle nofun rfl stored _
  | checkFails u job ost osts here => exact elsewhere here nofun rfl stored _
  | checkNext u job ost osts here => exact elsewhere here nofun rfl stored _
  | checksDone u job here => exact elsewhere here nofun rfl stored _
  | refused u job here => exact elsewhere here nofun rfl stored _
  | added u new here fresh =>
    rw [jobOf_addJob _ _ _ fresh] at stored
    split at stored
    · rename_i named
      cases stored
      exact .registering job _ rfl named rfl (adds job here)
    · exact elsewhere here nofun rfl stored _
  | registered u new reservation here =>
    cases attended id job stored with
    | queued wt member due => exact .queued wt (Multiset.mem_of_le (itemsOf_le_push _ _ _) member) due
    | registering new' r there named time state =>
      rw [here] at there
      cases there
      exact .queued ⟨new.jobid, new.tstart, .JOBSTART, reservation⟩ (named ▸ mem_itemsOf_push _ _)
        (Or.inl ⟨state, rfl, time⟩)
    | handled wt now pc there named moves => exact .handled wt now pc there named moves
    | removed there =>
      rw [here] at there
      cases there
  | unregister u jobid pc pc' rest _ here move =>
    rw [here] at attended
    exact move.attended attended stored
  | unregistered u jobid pc rest _ result here move =>
    cases move with
    | unblocked =>
      by_cases other : id = jobid
      · exact .removed (congrArg some other.symm)
      · refine (attended id job stored).of_server le_rfl (by rw [here]; exact nofun) fun removing => ?_
        rw [here] at removing
        exact absurd (Option.some.inj removing).symm other
  | removed u jobid rest here =>
    rw [jobOf_removeJob] at stored
    split at stored
    · cases stored
    · rename_i other
      refine (attended id job stored).of_server le_rfl (by rw [here]; exact nofun) fun removing => ?_
      rw [here] at removing
      exact absurd (Option.some.inj removing) other
  | pop now wt queue idle popped ready =>
    have events := itemsOf_pop popped id
    cases attended id job stored with
    | queued due member isDue =>
      rw [events] at member
      split at member
      · rename_i named
        rcases Multiset.mem_cons.1 member with rfl | member
        · refine .handled due now .block rfl named fun isStart => ?_
          rcases isDue with ⟨scheduled, -, -⟩ | ⟨-, isStop, -⟩
          · exact scheduled
          · rw [isStart] at isStop
            cases isStop
        · exact .queued due member isDue
      · exact .queued due member isDue
    | registering new r here named time state => exact .registering new r here named time state
    | handled _ _ _ here => rw [idle] at here; cases here
    | removed here => exact .removed here
  | handle env wt now pc pc' _ here move =>
    rw [here] at attended
    refine move.attended (fun mbs osts there left => succeeds wt now mbs osts (by rw [here, there]) (by rw [left]))
      attended stored
  | handled env wt now pc _ here move =>
    cases move with
    | unblocked =>
      refine (attended id job stored).of_monitor le_rfl fun _ _ _ there _ moves => ?_
      rw [here] at there
      cases there
      exact moves.elim
  | wake t => exact attended id job stored

/-- `StartJob` gives up after `SetRules` only if that has failed. -/
theorem failed_of_unblock {env : RemoteEnv} {wt : WaitingItem} {w w' : World Thread} {mbs : UInt32} {osts : List Ost}
    (ran : handleStep .monitor env wt.jobid wt.eventType w (.start (.setRules mbs osts)) = (w', .next .unblock)) :
    (w.ruleManager.setRules env osts wt.jobid mbs).1 = false := by
  rcases set : w.ruleManager.setRules env osts wt.jobid mbs with ⟨success, rules, calls⟩
  cases success with
  | false => rfl
  | true => simp [handleStep, startStep, set] at ran

namespace System

/-- A `SetRules` after which `StartJob` gives up is one that the condition speaks of. -/
theorem setRules_failed {limits : Limits} {s s' : System} {l : Label} (taken : s.step limits l = some s')
    {wt : WaitingItem} {now : TimePoint} {mbs : UInt32} {osts : List Ost}
    (here : s.monitor = .handle wt now (.start (.setRules mbs osts))) (after : s'.monitor = .handle wt now .unblock) :
    s.setRules l = some (wt.jobid, false) := by
  have moved : s'.monitor ≠ s.monitor := by
    rw [here, after]
    exact nofun
  cases l with
  | monitor env =>
    obtain ⟨-, wt', now', pc, there, ⟨w, pc', ran, rfl⟩ | ⟨w, ran, rfl⟩⟩ := step_monitor taken
    · rw [here] at there
      cases there
      cases after
      rw [setRules, here]
      exact congrArg (fun result => some (wt.jobid, result)) (failed_of_unblock ran)
    · cases after
  | server u =>
    obtain ⟨-, w, server, -, rfl⟩ := step_server taken
    exact absurd rfl moved
  | pop now =>
    obtain ⟨idle, -⟩ := step_pop taken
    rw [here] at idle
    cases idle
  | wake t =>
    cases taken
    exact absurd rfl moved
  | reserve job =>
    rw [step] at taken
    split at taken <;> cases taken
    exact absurd rfl moved
  | delete request =>
    rw [step] at taken
    split at taken <;> cases taken
    exact absurd rfl moved

/-- Every stored job is attended. -/
def AllAttended (s : System) : Prop :=
  ∀ id job, s.world.scheduleState.jobOf id = some job →
    Attended s.world.jobPriorityQueue s.server s.monitor id job

theorem AllAttended.step {limits : Limits} {s s' : System} {l : Label} (attended : s.AllAttended) (valid : s.Valid)
    (succeed : StartsSucceed s l) (taken : s.step limits l = some s') : s'.AllAttended := by
  intro id job stored
  refine (step_move taken).attended valid.adds (fun wt now mbs osts here after known => ?_) attended stored
  have failed := succeed _ (setRules_failed taken here after) rfl
  exact failed.resolve_left known

end System

end QosPlanner
