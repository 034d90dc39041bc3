import QosPlanner.Schedule.MemoryScheduleState
import QosPlanner.Monitor.JobPriorityQueue
import QosPlanner.Rules.RuleManager

/-!
# The job monitor

`JobMonitor` (`src/common/JobMonitor.cpp`): the functions of the class as they run when
nothing runs beside them. Then `in_flight_jobs_` is empty whenever `Handle` or
`UnregisterJob` starts, their waiting loops end at once, and the set plays no part.

Each function has a lemma that lists everything it can do (`startJob_cases`,
`stopJob_cases`, …); later proofs use these and do not unfold the functions.
-/

namespace QosPlanner
set_option autoImplicit false

open MemoryScheduleState JobPriorityQueue RuleManager

/-- `JobMonitor`, by the schedule, the queue and the rule manager it works on. -/
structure JobMonitor where
  scheduleState : MemoryScheduleState
  jobPriorityQueue : JobPriorityQueue
  ruleManager : RuleManager

/-- Ghost: the address of the job stored under an id. -/
def reservationOf (s : MemoryScheduleState) (jobid : JobId) : Nat := (s.jobs[jobid]?).getD 0

namespace JobMonitor

/-- A monitor with no jobs, no events and no rules. -/
def empty : JobMonitor := ⟨.empty, .empty, .empty⟩

/-- `RegisterJob`. -/
def registerJob (q : JobPriorityQueue) (job : Job) (reservation : Nat) : Bool × JobPriorityQueue :=
  (true, q.push ⟨job.jobid, job.tstart, .JOBSTART, reservation⟩)

/-- `SetNrsRules`. The result of `GetJobOstIds` is not looked at. -/
def setNrsRules (m : JobMonitor) (env : RemoteEnv) (jobid : JobId) : Bool × JobMonitor :=
  match m.scheduleState.getJobThroughput jobid with
  | none => (false, m)
  | some requestedThroughput =>
    let ostsIds := (m.scheduleState.getJobOstIds jobid []).2
    let (success, ruleManager, _) := m.ruleManager.setRules env ostsIds jobid requestedThroughput
    if !success then (false, { m with ruleManager }) else (true, { m with ruleManager })

/-- `StartJob`. -/
def startJob (m : JobMonitor) (env : RemoteEnv) (jobid : JobId) : Bool × JobMonitor :=
  match m.scheduleState.getJobStatus jobid with
  | none => (false, m)
  | some jobState =>
    if jobState ≠ .SCHEDULED then (false, m)
    else
      let (success, m) := m.setNrsRules env jobid
      if !success then (false, m)
      else
        let (updated, scheduleState) := m.scheduleState.updateJob jobid .ACTIVE
        let m := { m with scheduleState }
        if !updated then (false, m)
        else
          match m.scheduleState.getJobEnd jobid with
          | none => (false, m)
          | some tend =>
            let wt : WaitingItem := ⟨jobid, tend, .JOBSTOP, reservationOf m.scheduleState jobid⟩
            (true, { m with jobPriorityQueue := m.jobPriorityQueue.push wt })

/-- `StopJob`. A false result of `RemoveRules` is only logged. -/
def stopJob (m : JobMonitor) (jobid : JobId) : Bool × JobMonitor :=
  match m.scheduleState.getJobStatus jobid with
  | none => (false, m)
  | some jobState =>
    if jobState ≠ .ACTIVE then (false, m)
    else
      let ruleManager := (m.ruleManager.removeRules jobid).2.1
      let (updated, scheduleState) := m.scheduleState.updateJob jobid .DONE
      (updated, { m with ruleManager, scheduleState })

/-- `Handle`. The results of `StartJob`, `StopJob` and `RemoveJob` are not looked at. -/
def handle (m : JobMonitor) (env : RemoteEnv) (jobid : JobId) : JobEvent → JobMonitor
  | .JOBSTART => (m.startJob env jobid).2
  | .JOBSTOP =>
    let m := (m.stopJob jobid).2
    { m with scheduleState := (m.scheduleState.removeJob jobid).2 }

/-- `UnregisterJob`; `RemoveJobFromPrioQueue` only logs when no item was there. -/
def unregisterJob (m : JobMonitor) (jobid : JobId) : Bool × JobMonitor :=
  let m := { m with jobPriorityQueue := (m.jobPriorityQueue.remove jobid).2 }
  match m.scheduleState.getJobStatus jobid with
  | none => (true, m)
  | some jobState =>
    if jobState = .ACTIVE then
      let (stopped, m) := m.stopJob jobid
      if !stopped then (false, m) else (true, m)
    else (true, m)

/-- One iteration of the inner loop of `Monitor`, at the time `now`. -/
def monitorIteration (m : JobMonitor) (env : RemoteEnv) (now : TimePoint) : JobMonitor :=
  if m.jobPriorityQueue.isThereAReadyJob now then
    match m.jobPriorityQueue.pop with
    | none => m
    | some (wt, queue) => { m with jobPriorityQueue := queue }.handle env wt.jobid wt.eventType
  else m

/-! ## What the functions do -/

variable (m : JobMonitor) (env : RemoteEnv) (jobid : JobId)

/-- The job can be started: it is SCHEDULED, has no rule yet, and its rules can be set. -/
structure CanStart (job : Job) : Prop where
  stored : m.scheduleState.jobOf jobid = some job
  scheduled : job.state = .SCHEDULED
  unset : jobid ∉ m.ruleManager.activeRules
  settable : CanSetRules env job.osts jobid job.minReadThroughputMB

/-- The monitor after the start of a job. -/
def started (job : Job) (rule : RuleDefinition) : JobMonitor where
  scheduleState := (m.scheduleState.updateJob jobid .ACTIVE).2
  jobPriorityQueue := m.jobPriorityQueue.push ⟨jobid, job.tend, .JOBSTOP, reservationOf m.scheduleState jobid⟩
  ruleManager := ⟨m.ruleManager.activeRules.insert jobid rule⟩

/-- **`StartJob`** starts the job, with all its effects, or has no effect. -/
theorem startJob_cases :
    (∃ (job : Job) (rule : RuleDefinition), m.CanStart env jobid job ∧ rule.ostIds = job.osts ∧
      rule.minThroughputMbs = job.minReadThroughputMB ∧ m.startJob env jobid = (true, m.started jobid job rule)) ∨
    ((∀ job, ¬ m.CanStart env jobid job) ∧ m.startJob env jobid = (false, m)) := by
  cases stored : m.scheduleState.jobOf jobid with
  | none =>
    right
    refine ⟨fun job can => ?_, by simp [startJob, getJobStatus, stored]⟩
    simpa [stored] using can.stored
  | some job =>
    by_cases scheduled : job.state = .SCHEDULED
    · have same : ∀ job', m.CanStart env jobid job' → job' = job := by
        intro job' can
        simpa [stored] using can.stored.symm
      rcases m.ruleManager.setRules_cases env job.osts jobid job.minReadThroughputMB with
        ⟨unset, settable, rule, calls, osts, mbs, set⟩ | ⟨cannot, calls, set⟩
      · left
        refine ⟨job, rule, ⟨stored, scheduled, unset, settable⟩, osts, mbs, ?_⟩
        have updated : (m.scheduleState.updateJob jobid .ACTIVE).1 = true := by
          rw [updateJob_fst, stored]; rfl
        have tend : (m.scheduleState.updateJob jobid .ACTIVE).2.getJobEnd jobid = some job.tend := by
          simp [getJobEnd, jobOf_updateJob, stored]
        simp [startJob, setNrsRules, getJobStatus, getJobThroughput, getJobOstIds, stored, scheduled, set,
          updated, tend, started, reservationOf]
      · right
        refine ⟨fun job' can => cannot ?_, ?_⟩
        · obtain rfl := same job' can
          exact ⟨can.unset, can.settable⟩
        · simp [startJob, setNrsRules, getJobStatus, getJobThroughput, getJobOstIds, stored, scheduled, set]
    · right
      refine ⟨fun job' can => ?_, by simp [startJob, getJobStatus, stored, scheduled]⟩
      have := can.stored
      rw [stored, Option.some.injEq] at this
      exact scheduled (this ▸ can.scheduled)

/-- The job is stored and ACTIVE. -/
def Active : Prop := ∃ job : Job, m.scheduleState.jobOf jobid = some job ∧ job.state = .ACTIVE

/-- The monitor after the stop of a job. -/
def stopped : JobMonitor where
  scheduleState := (m.scheduleState.updateJob jobid .DONE).2
  jobPriorityQueue := m.jobPriorityQueue
  ruleManager := (m.ruleManager.removeRules jobid).2.1

/-- **`StopJob`** stops an ACTIVE job, and has no effect on any other. -/
theorem stopJob_cases :
    (m.Active jobid ∧ m.stopJob jobid = (true, m.stopped jobid)) ∨
    (¬ m.Active jobid ∧ m.stopJob jobid = (false, m)) := by
  cases stored : m.scheduleState.jobOf jobid with
  | none =>
    right
    simp [Active, stopJob, getJobStatus, stored]
  | some job =>
    by_cases active : job.state = .ACTIVE
    · left
      have updated : (m.scheduleState.updateJob jobid .DONE).1 = true := by
        rw [updateJob_fst, stored]; rfl
      exact ⟨⟨job, stored, active⟩, by simp [stopJob, getJobStatus, stored, active, updated, stopped]⟩
    · right
      simp [Active, stopJob, getJobStatus, stored, active]

/-- **`UnregisterJob`** takes one item of the job from the queue and stops it if it is ACTIVE. -/
theorem unregisterJob_cases :
    let taken : JobMonitor := { m with jobPriorityQueue := (m.jobPriorityQueue.remove jobid).2 }
    (m.Active jobid ∧ m.unregisterJob jobid = (true, taken.stopped jobid)) ∨
    (¬ m.Active jobid ∧ m.unregisterJob jobid = (true, taken)) := by
  intro taken
  cases stored : m.scheduleState.jobOf jobid with
  | none =>
    right
    simp [Active, unregisterJob, getJobStatus, stored, taken]
  | some job =>
    by_cases active : job.state = .ACTIVE
    · left
      have isActive : taken.Active jobid := ⟨job, stored, active⟩
      rcases taken.stopJob_cases jobid with ⟨-, stop⟩ | ⟨inactive, -⟩
      · exact ⟨isActive, by simp [unregisterJob, getJobStatus, stored, active, taken, stop]⟩
      · exact absurd isActive inactive
    · right
      simp [Active, unregisterJob, getJobStatus, stored, active, taken]

/-- One iteration handles the item `Pop` takes, if it is ready, or has no effect. -/
theorem monitorIteration_cases (now : TimePoint) :
    (∃ (wt : WaitingItem) (queue : JobPriorityQueue), m.jobPriorityQueue.pop = some (wt, queue) ∧
      wt.timeOfEvent < now ∧
      m.monitorIteration env now = { m with jobPriorityQueue := queue }.handle env wt.jobid wt.eventType) ∨
    (m.jobPriorityQueue.isThereAReadyJob now = false ∧ m.monitorIteration env now = m) := by
  unfold monitorIteration
  by_cases ready : m.jobPriorityQueue.isThereAReadyJob now = true
  · rw [if_pos ready]
    cases popped : m.jobPriorityQueue.pop with
    | none =>
      have empty := pop_eq_none.1 popped
      simp [isThereAReadyJob, peek, items] at ready empty
      simp [empty] at ready
    | some both =>
      obtain ⟨wt, queue⟩ := both
      refine Or.inl ⟨wt, queue, rfl, ?_, rfl⟩
      simpa [isThereAReadyJob, (items_pop popped).1] using ready
  · rw [if_neg ready]
    exact Or.inr ⟨by simpa using ready, rfl⟩

end JobMonitor

end QosPlanner
