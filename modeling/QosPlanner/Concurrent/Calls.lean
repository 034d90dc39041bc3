import QosPlanner.Run.Call
import QosPlanner.Monitor.JobMonitor
import QosPlanner.Lock.KeyedLock

/-!
# `Handle` and `UnregisterJob`, step by step

The functions of `JobMonitor` as they run beside other threads. A program counter says
where a call is; each section under a mutex, each call of the schedule and each call of
the rule manager is one step. Waiting for a job id is as in the source: under
`in_flight_jobs_mutex_` the call tests `in_flight_jobs_`, and inserts the id or goes to
sleep on `in_flight_jobs_cv_`, to test again when it wakes.

Run without interruption, the steps of a call add up to the functions of
`QosPlanner.Monitor.JobMonitor` (`handle_uninterrupted`, `unregisterJob_uninterrupted`).
-/

namespace QosPlanner
set_option autoImplicit false

open MemoryScheduleState JobPriorityQueue RuleManager Run

/-- What the threads share. -/
structure World (T : Type) extends JobMonitor where
  /-- `in_flight_jobs_` -/
  inFlightJobs : Finset JobId
  /-- The threads asleep on `in_flight_jobs_cv_`. -/
  inFlightJobsCv : Finset T

/-- The places in `StartJob`, with `SetNrsRules` in line. -/
inductive StartPc where
  | getJobStatus
  | getJobThroughput
  | getJobOstIds (requestedThroughput : UInt32)
  | setRules (requestedThroughput : UInt32) (ostsIds : List Ost)
  | updateJob
  | getJobEnd
  | push (tend : TimePoint) (reservation : Nat)
  deriving DecidableEq

/-- The places in `StopJob`. -/
inductive StopPc where
  | getJobStatus
  | removeRules
  | updateJob
  deriving DecidableEq

/-- The places in `Handle`. -/
inductive HandlePc where
  | block
  | start (pc : StartPc)
  | stop (pc : StopPc)
  | removeJob
  | unblock
  deriving DecidableEq

/-- The places in `UnregisterJob`. -/
inductive UnregisterPc where
  | block
  | removeJobFromPrioQueue
  | getJobStatus
  | stop (pc : StopPc)
  | unblock (result : Bool)
  deriving DecidableEq

/-! ## The steps -/

/-- A step of `StartJob`. -/
def startStep (env : RemoteEnv) (jobid : JobId) (m : JobMonitor) : StartPc → JobMonitor × Control StartPc Bool
  | .getJobStatus =>
    match m.scheduleState.getJobStatus jobid with
    | none => (m, .done false)
    | some jobState => if jobState ≠ .SCHEDULED then (m, .done false) else (m, .next .getJobThroughput)
  | .getJobThroughput =>
    match m.scheduleState.getJobThroughput jobid with
    | none => (m, .done false)
    | some requestedThroughput => (m, .next (.getJobOstIds requestedThroughput))
  | .getJobOstIds requestedThroughput =>
    (m, .next (.setRules requestedThroughput (m.scheduleState.getJobOstIds jobid []).2))
  | .setRules requestedThroughput ostsIds =>
    let (success, ruleManager, _) := m.ruleManager.setRules env ostsIds jobid requestedThroughput
    ({ m with ruleManager }, if !success then .done false else .next .updateJob)
  | .updateJob =>
    let (updated, scheduleState) := m.scheduleState.updateJob jobid .ACTIVE
    ({ m with scheduleState }, if !updated then .done false else .next .getJobEnd)
  | .getJobEnd =>
    match m.scheduleState.getJobEnd jobid with
    | none => (m, .done false)
    | some tend => (m, .next (.push tend (reservationOf m.scheduleState jobid)))
  | .push tend reservation =>
    ({ m with jobPriorityQueue := m.jobPriorityQueue.push ⟨jobid, tend, .JOBSTOP, reservation⟩ }, .done true)

/-- A step of `StopJob`. -/
def stopStep (jobid : JobId) (m : JobMonitor) : StopPc → JobMonitor × Control StopPc Bool
  | .getJobStatus =>
    match m.scheduleState.getJobStatus jobid with
    | none => (m, .done false)
    | some jobState => if jobState ≠ .ACTIVE then (m, .done false) else (m, .next .removeRules)
  | .removeRules => ({ m with ruleManager := (m.ruleManager.removeRules jobid).2.1 }, .next .updateJob)
  | .updateJob =>
    let (updated, scheduleState) := m.scheduleState.updateJob jobid .DONE
    ({ m with scheduleState }, .done updated)

section Steps

variable {T : Type} [DecidableEq T]

/-- One round of the waiting loop: the id is in the set and the thread goes to sleep, or
it is not and is inserted. -/
def blockStep (t : T) (jobid : JobId) (w : World T) : World T × Bool :=
  if jobid ∈ w.inFlightJobs then ({ w with inFlightJobsCv := insert t w.inFlightJobsCv }, false)
  else ({ w with inFlightJobs := insert jobid w.inFlightJobs }, true)

/-- `in_flight_jobs_.erase(jobid); in_flight_jobs_cv_.notify_all();` -/
def unblockStep (jobid : JobId) (w : World T) : World T :=
  { w with inFlightJobs := w.inFlightJobs.erase jobid, inFlightJobsCv := ∅ }

/-- A step of `Handle`. -/
def handleStep (t : T) (env : RemoteEnv) (jobid : JobId) (event : JobEvent) (w : World T) :
    HandlePc → World T × Control HandlePc Unit
  | .block =>
    let (w, inserted) := blockStep t jobid w
    if !inserted then (w, .next .block)
    else
      match event with
      | .JOBSTART => (w, .next (.start .getJobStatus))
      | .JOBSTOP => (w, .next (.stop .getJobStatus))
  | .start pc =>
    match startStep env jobid w.toJobMonitor pc with
    | (m, .next pc) => ({ w with toJobMonitor := m }, .next (.start pc))
    | (m, .done _) => ({ w with toJobMonitor := m }, .next .unblock)
  | .stop pc =>
    match stopStep jobid w.toJobMonitor pc with
    | (m, .next pc) => ({ w with toJobMonitor := m }, .next (.stop pc))
    | (m, .done _) => ({ w with toJobMonitor := m }, .next .removeJob)
  | .removeJob => ({ w with scheduleState := (w.scheduleState.removeJob jobid).2 }, .next .unblock)
  | .unblock => (unblockStep jobid w, .done ())

/-- A step of `UnregisterJob`. -/
def unregisterStep (t : T) (jobid : JobId) (w : World T) : UnregisterPc → World T × Control UnregisterPc Bool
  | .block =>
    let (w, inserted) := blockStep t jobid w
    if !inserted then (w, .next .block) else (w, .next .removeJobFromPrioQueue)
  | .removeJobFromPrioQueue =>
    ({ w with jobPriorityQueue := (w.jobPriorityQueue.remove jobid).2 }, .next .getJobStatus)
  | .getJobStatus =>
    match w.scheduleState.getJobStatus jobid with
    | none => (w, .next (.unblock true))
    | some jobState =>
      if jobState = .ACTIVE then (w, .next (.stop .getJobStatus)) else (w, .next (.unblock true))
  | .stop pc =>
    match stopStep jobid w.toJobMonitor pc with
    | (m, .next pc) => ({ w with toJobMonitor := m }, .next (.stop pc))
    | (m, .done stopped) => ({ w with toJobMonitor := m }, .next (.unblock stopped))
  | .unblock result => (unblockStep jobid w, .done result)

end Steps

/-! ## How far a call is from its return -/

/-- More than the steps left, as the JOBSTOP that is pushed has to be handled too. -/
def StartPc.rank : StartPc → Nat
  | .getJobStatus => 17
  | .getJobThroughput => 16
  | .getJobOstIds _ => 15
  | .setRules _ _ => 14
  | .updateJob => 13
  | .getJobEnd => 12
  | .push _ _ => 11

def StopPc.rank : StopPc → Nat
  | .getJobStatus => 3
  | .removeRules => 2
  | .updateJob => 1

def HandlePc.rank (event : JobEvent) : HandlePc → Nat
  | .block => if event = .JOBSTART then 19 else 6
  | .start pc => 1 + pc.rank
  | .stop pc => 2 + pc.rank
  | .removeJob => 2
  | .unblock => 1

def UnregisterPc.rank : UnregisterPc → Nat
  | .block => 7
  | .removeJobFromPrioQueue => 6
  | .getJobStatus => 5
  | .stop pc => 1 + pc.rank
  | .unblock _ => 1

/-- What is left of a call after a step. -/
def rankAfter {Pc R : Type} (rank : Pc → Nat) : Control Pc R → Nat
  | .next pc => rank pc
  | .done _ => 0

/-! ## Without interruption -/

section Uninterrupted

variable (env : RemoteEnv) (jobid : JobId)

/-- The steps of `StartJob` add up to `startJob`. -/
theorem startJob_uninterrupted (m : JobMonitor) :
    Finishes (startStep env jobid) m .getJobStatus (m.startJob env jobid).2 (m.startJob env jobid).1 := by
  refine .of_iterate (n := 7) ?_
  cases stored : m.scheduleState.jobOf jobid with
  | none => simp [iterate, startStep, JobMonitor.startJob, getJobStatus, stored]
  | some job =>
    by_cases scheduled : job.state = .SCHEDULED
    · rcases set : m.ruleManager.setRules env job.osts jobid job.minReadThroughputMB with ⟨success, rules, calls⟩
      have updated : (m.scheduleState.updateJob jobid .ACTIVE).1 = true := by
        rw [updateJob_fst, stored]; rfl
      have tend : (m.scheduleState.updateJob jobid .ACTIVE).2.getJobEnd jobid = some job.tend := by
        simp [getJobEnd, jobOf_updateJob, stored]
      cases success with
      | false =>
        simp [iterate, startStep, JobMonitor.startJob, JobMonitor.setNrsRules, getJobStatus, getJobThroughput,
          getJobOstIds, stored, scheduled, set]
      | true =>
        simp [iterate, startStep, JobMonitor.startJob, JobMonitor.setNrsRules, getJobStatus, getJobThroughput,
          getJobOstIds, stored, scheduled, set, updated, tend]
    · simp [iterate, startStep, JobMonitor.startJob, getJobStatus, stored, scheduled]

/-- The steps of `StopJob` add up to `stopJob`. -/
theorem stopJob_uninterrupted (m : JobMonitor) :
    Finishes (stopStep jobid) m .getJobStatus (m.stopJob jobid).2 (m.stopJob jobid).1 := by
  refine .of_iterate (n := 3) ?_
  cases stored : m.scheduleState.jobOf jobid with
  | none => simp [iterate, stopStep, JobMonitor.stopJob, getJobStatus, stored]
  | some job =>
    by_cases active : job.state = .ACTIVE <;>
      simp [iterate, stopStep, JobMonitor.stopJob, getJobStatus, stored, active]

variable {T : Type} [DecidableEq T] (t : T)

/-- **The steps of `Handle` add up to `handle`**, for an id that is not in flight. -/
theorem handle_uninterrupted (event : JobEvent) (w : World T) (free : jobid ∉ w.inFlightJobs) :
    Finishes (handleStep t env jobid event) w .block
      { w with toJobMonitor := w.toJobMonitor.handle env jobid event, inFlightJobsCv := ∅ } () := by
  let inside (m : JobMonitor) : World T :=
    { w with toJobMonitor := m, inFlightJobs := insert jobid w.inFlightJobs }
  have leaves (m : JobMonitor) : Finishes (handleStep t env jobid event) (inside m) .unblock
      { w with toJobMonitor := m, inFlightJobsCv := ∅ } () := by
    refine .done ?_
    simp [handleStep, unblockStep, inside, Finset.erase_insert free]
  cases event with
  | JOBSTART =>
    refine .next (inside w.toJobMonitor) (.start .getJobStatus) ?_ ?_
    · simp [handleStep, blockStep, free, inside]
    · refine Finishes.within inside HandlePc.start (fun _ => .unblock) ?_ ?_
        (startJob_uninterrupted env jobid w.toJobMonitor) (leaves _)
      · intro _ _ _ _ taken
        simp [handleStep, inside, taken]
      · intro _ _ _ _ taken
        simp [handleStep, inside, taken]
  | JOBSTOP =>
    refine .next (inside w.toJobMonitor) (.stop .getJobStatus) ?_ ?_
    · simp [handleStep, blockStep, free, inside]
    · refine Finishes.within inside HandlePc.stop (fun _ => .removeJob) ?_ ?_
        (stopJob_uninterrupted jobid w.toJobMonitor) (.next _ _ rfl (leaves _))
      · intro _ _ _ _ taken
        simp [handleStep, inside, taken]
      · intro _ _ _ _ taken
        simp [handleStep, inside, taken]

/-- **The steps of `UnregisterJob` add up to `unregisterJob`**, for an id that is not in flight. -/
theorem unregisterJob_uninterrupted (w : World T) (free : jobid ∉ w.inFlightJobs) :
    Finishes (unregisterStep t jobid) w .block
      { w with toJobMonitor := (w.toJobMonitor.unregisterJob jobid).2, inFlightJobsCv := ∅ }
      (w.toJobMonitor.unregisterJob jobid).1 := by
  let inside (m : JobMonitor) : World T :=
    { w with toJobMonitor := m, inFlightJobs := insert jobid w.inFlightJobs }
  have leaves (m : JobMonitor) (result : Bool) : Finishes (unregisterStep t jobid) (inside m) (.unblock result)
      { w with toJobMonitor := m, inFlightJobsCv := ∅ } result := by
    refine .done ?_
    simp [unregisterStep, unblockStep, inside, Finset.erase_insert free]
  let taken : JobMonitor :=
    { w.toJobMonitor with jobPriorityQueue := (w.jobPriorityQueue.remove jobid).2 }
  refine .next (inside w.toJobMonitor) .removeJobFromPrioQueue ?_ ?_
  · simp [unregisterStep, blockStep, free, inside]
  refine .next (inside taken) .getJobStatus rfl ?_
  rcases w.toJobMonitor.unregisterJob_cases jobid with ⟨⟨job, stored, active⟩, result⟩ | ⟨inactive, result⟩
  · refine .next (inside taken) (.stop .getJobStatus) ?_ ?_
    · simp [unregisterStep, inside, taken, getJobStatus, stored, active]
    · rcases taken.stopJob_cases jobid with ⟨-, stop⟩ | ⟨inactive, -⟩
      · have body := stopJob_uninterrupted jobid taken
        rw [stop] at body
        rw [result]
        refine Finishes.within inside UnregisterPc.stop .unblock ?_ ?_ body (leaves _ true)
        · intro _ _ _ _ taken
          simp [unregisterStep, inside, taken]
        · intro _ _ _ _ taken
          simp [unregisterStep, inside, taken]
      · exact absurd ⟨job, stored, active⟩ inactive
  · rw [result]
    refine .next (inside taken) (.unblock true) ?_ (leaves _ true)
    cases stored : w.scheduleState.jobOf jobid with
    | none => simp [unregisterStep, inside, taken, getJobStatus, stored]
    | some job =>
      have : job.state ≠ .ACTIVE := fun active => inactive ⟨job, stored, active⟩
      simp [unregisterStep, inside, taken, getJobStatus, stored, this]

end Uninterrupted

end QosPlanner
