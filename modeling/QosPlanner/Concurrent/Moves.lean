import QosPlanner.Concurrent.Calls

/-!
# What a step of a call can do

`StartMove`, `StopMove`, `HandleMove` and `UnregisterMove` list what a step of `StartJob`,
`StopJob`, `Handle` and `UnregisterJob` can do to the schedule, the queue and the rules,
from each place to the next. The invariants of the system go by cases on them; no later
proof unfolds a step function.
-/

namespace QosPlanner
set_option autoImplicit false

open MemoryScheduleState JobPriorityQueue RuleManager Run

/-- The OSTs `GetJobOstIds` appends. -/
def ostsOf (s : MemoryScheduleState) (jobid : JobId) : List Ost := (s.jobOf jobid).elim [] (·.osts)

inductive StartMove (jobid : JobId) (m : JobMonitor) : StartPc → JobMonitor → Control StartPc Bool → Prop
  | refused (other : ∀ job, m.scheduleState.jobOf jobid = some job → job.state ≠ .SCHEDULED) :
      StartMove jobid m .getJobStatus m (.done false)
  | checked (job : Job) (stored : m.scheduleState.jobOf jobid = some job) (state : job.state = .SCHEDULED) :
      StartMove jobid m .getJobStatus m (.next .getJobThroughput)
  | noThroughput (absent : m.scheduleState.jobOf jobid = none) :
      StartMove jobid m .getJobThroughput m (.done false)
  | throughput (job : Job) (stored : m.scheduleState.jobOf jobid = some job) :
      StartMove jobid m .getJobThroughput m (.next (.getJobOstIds job.minReadThroughputMB))
  | ostIds (mbs : UInt32) :
      StartMove jobid m (.getJobOstIds mbs) m (.next (.setRules mbs (ostsOf m.scheduleState jobid)))
  | rulesRefused (mbs : UInt32) (osts : List Ost) : StartMove jobid m (.setRules mbs osts) m (.done false)
  | rulesSet (mbs : UInt32) (osts : List Ost) (rule : RuleDefinition) (some_ost : osts ≠ [])
      (setFor : rule.ostIds = osts) (rate : rule.minThroughputMbs = mbs) :
      StartMove jobid m (.setRules mbs osts)
        { m with ruleManager := ⟨m.ruleManager.activeRules.insert jobid rule⟩ } (.next .updateJob)
  | notUpdated (absent : m.scheduleState.jobOf jobid = none) : StartMove jobid m .updateJob m (.done false)
  | updated (job : Job) (stored : m.scheduleState.jobOf jobid = some job) :
      StartMove jobid m .updateJob
        { m with scheduleState := (m.scheduleState.updateJob jobid .ACTIVE).2 } (.next .getJobEnd)
  | noEnd (absent : m.scheduleState.jobOf jobid = none) : StartMove jobid m .getJobEnd m (.done false)
  | jobEnd (job : Job) (stored : m.scheduleState.jobOf jobid = some job) :
      StartMove jobid m .getJobEnd m (.next (.push job.tend (reservationOf m.scheduleState jobid)))
  | pushed (tend : TimePoint) (reservation : Nat) :
      StartMove jobid m (.push tend reservation)
        { m with jobPriorityQueue := m.jobPriorityQueue.push ⟨jobid, tend, .JOBSTOP, reservation⟩ } (.done true)

/-- **The steps of `StartJob`.** -/
theorem startStep_move (env : RemoteEnv) (jobid : JobId) (m : JobMonitor) (pc : StartPc) :
    StartMove jobid m pc (startStep env jobid m pc).1 (startStep env jobid m pc).2 := by
  cases pc with
  | getJobStatus =>
    cases stored : m.scheduleState.jobOf jobid with
    | none =>
      simp only [startStep, getJobStatus, stored, Option.map_none]
      exact .refused (by simp [stored])
    | some job =>
      simp only [startStep, getJobStatus, stored, Option.map_some]
      split
      · rename_i other
        exact .refused (by simpa [stored] using other)
      · rename_i state
        exact .checked job stored (by simpa using state)
  | getJobThroughput =>
    cases stored : m.scheduleState.jobOf jobid with
    | none =>
      simp only [startStep, getJobThroughput, stored, Option.map_none]
      exact .noThroughput stored
    | some job =>
      simp only [startStep, getJobThroughput, stored, Option.map_some]
      exact .throughput job stored
  | getJobOstIds mbs =>
    have osts : (m.scheduleState.getJobOstIds jobid []).2 = ostsOf m.scheduleState jobid := by
      unfold getJobOstIds ostsOf
      cases m.scheduleState.jobOf jobid <;> simp
    simp only [startStep, osts]
    exact .ostIds mbs
  | setRules mbs osts =>
    rcases m.ruleManager.setRules_cases env osts jobid mbs with
      ⟨-, can, rule, calls, setFor, rate, set⟩ | ⟨-, calls, set⟩
    · simp only [startStep, set]
      exact .rulesSet mbs osts rule can.some_ost setFor rate
    · simp only [startStep, set]
      exact .rulesRefused mbs osts
  | updateJob =>
    cases stored : m.scheduleState.jobOf jobid with
    | none =>
      have absent : m.scheduleState.jobs[jobid]? = none := by simpa [jobOf] using stored
      simp only [startStep, MemoryScheduleState.updateJob, absent]
      exact .notUpdated stored
    | some job =>
      have updated : (m.scheduleState.updateJob jobid .ACTIVE).1 = true := by
        rw [updateJob_fst, stored]; rfl
      simp only [startStep, updated]
      exact .updated job stored
  | getJobEnd =>
    cases stored : m.scheduleState.jobOf jobid with
    | none =>
      simp only [startStep, getJobEnd, stored, Option.map_none]
      exact .noEnd stored
    | some job =>
      simp only [startStep, getJobEnd, stored, Option.map_some]
      exact .jobEnd job stored
  | push tend reservation => exact .pushed tend reservation

inductive StopMove (jobid : JobId) (m : JobMonitor) : StopPc → JobMonitor → Control StopPc Bool → Prop
  | refused (other : ∀ job, m.scheduleState.jobOf jobid = some job → job.state ≠ .ACTIVE) :
      StopMove jobid m .getJobStatus m (.done false)
  | checked (job : Job) (stored : m.scheduleState.jobOf jobid = some job) (state : job.state = .ACTIVE) :
      StopMove jobid m .getJobStatus m (.next .removeRules)
  | rulesRemoved :
      StopMove jobid m .removeRules { m with ruleManager := (m.ruleManager.removeRules jobid).2.1 } (.next .updateJob)
  | updated (result : Bool) :
      StopMove jobid m .updateJob
        { m with scheduleState := (m.scheduleState.updateJob jobid .DONE).2 } (.done result)

/-- **The steps of `StopJob`.** -/
theorem stopStep_move (jobid : JobId) (m : JobMonitor) (pc : StopPc) :
    StopMove jobid m pc (stopStep jobid m pc).1 (stopStep jobid m pc).2 := by
  cases pc with
  | getJobStatus =>
    cases stored : m.scheduleState.jobOf jobid with
    | none =>
      simp only [stopStep, getJobStatus, stored, Option.map_none]
      exact .refused (by simp [stored])
    | some job =>
      simp only [stopStep, getJobStatus, stored, Option.map_some]
      split
      · rename_i other
        exact .refused (by simpa [stored] using other)
      · rename_i state
        exact .checked job stored (by simpa using state)
  | removeRules => exact .rulesRemoved
  | updateJob => exact .updated _

inductive HandleMove (jobid : JobId) (event : JobEvent) (m : JobMonitor) :
    HandlePc → JobMonitor → Control HandlePc Unit → Prop
  | blocked : HandleMove jobid event m .block m (.next .block)
  | toStart (isStart : event = .JOBSTART) : HandleMove jobid event m .block m (.next (.start .getJobStatus))
  | toStop (isStop : event = .JOBSTOP) : HandleMove jobid event m .block m (.next (.stop .getJobStatus))
  | start (pc pc' : StartPc) (m' : JobMonitor) (move : StartMove jobid m pc m' (.next pc')) :
      HandleMove jobid event m (.start pc) m' (.next (.start pc'))
  | startDone (pc : StartPc) (m' : JobMonitor) (result : Bool) (move : StartMove jobid m pc m' (.done result)) :
      HandleMove jobid event m (.start pc) m' (.next .unblock)
  | stop (pc pc' : StopPc) (m' : JobMonitor) (move : StopMove jobid m pc m' (.next pc')) :
      HandleMove jobid event m (.stop pc) m' (.next (.stop pc'))
  | stopDone (pc : StopPc) (m' : JobMonitor) (result : Bool) (move : StopMove jobid m pc m' (.done result)) :
      HandleMove jobid event m (.stop pc) m' (.next .removeJob)
  | removed :
      HandleMove jobid event m .removeJob { m with scheduleState := (m.scheduleState.removeJob jobid).2 }
        (.next .unblock)
  | unblocked : HandleMove jobid event m .unblock m (.done ())

/-- **The steps of `Handle`.** -/
theorem handleStep_move {T : Type} [DecidableEq T] (t : T) (env : RemoteEnv) (jobid : JobId) (event : JobEvent)
    (w : World T) (pc : HandlePc) :
    HandleMove jobid event w.toJobMonitor pc (handleStep t env jobid event w pc).1.toJobMonitor
      (handleStep t env jobid event w pc).2 := by
  cases pc with
  | block =>
    by_cases taken : jobid ∈ w.inFlightJobs
    · simp only [handleStep, blockStep, if_pos taken]
      exact .blocked
    · simp only [handleStep, blockStep, if_neg taken]
      cases event with
      | JOBSTART => exact .toStart rfl
      | JOBSTOP => exact .toStop rfl
  | start pc =>
    have move := startStep_move env jobid w.toJobMonitor pc
    rw [handleStep]
    rcases ran : startStep env jobid w.toJobMonitor pc with ⟨m, pc' | result⟩ <;> rw [ran] at move
    · exact .start pc pc' m move
    · exact .startDone pc m result move
  | stop pc =>
    have move := stopStep_move jobid w.toJobMonitor pc
    rw [handleStep]
    rcases ran : stopStep jobid w.toJobMonitor pc with ⟨m, pc' | result⟩ <;> rw [ran] at move
    · exact .stop pc pc' m move
    · exact .stopDone pc m result move
  | removeJob => exact .removed
  | unblock => exact .unblocked

inductive UnregisterMove (jobid : JobId) (m : JobMonitor) :
    UnregisterPc → JobMonitor → Control UnregisterPc Bool → Prop
  | blocked : UnregisterMove jobid m .block m (.next .block)
  | taken : UnregisterMove jobid m .block m (.next .removeJobFromPrioQueue)
  | dequeued :
      UnregisterMove jobid m .removeJobFromPrioQueue
        { m with jobPriorityQueue := (m.jobPriorityQueue.remove jobid).2 } (.next .getJobStatus)
  | inactive : UnregisterMove jobid m .getJobStatus m (.next (.unblock true))
  | active : UnregisterMove jobid m .getJobStatus m (.next (.stop .getJobStatus))
  | stop (pc pc' : StopPc) (m' : JobMonitor) (move : StopMove jobid m pc m' (.next pc')) :
      UnregisterMove jobid m (.stop pc) m' (.next (.stop pc'))
  | stopDone (pc : StopPc) (m' : JobMonitor) (result : Bool) (move : StopMove jobid m pc m' (.done result)) :
      UnregisterMove jobid m (.stop pc) m' (.next (.unblock result))
  | unblocked (result : Bool) : UnregisterMove jobid m (.unblock result) m (.done result)

/-- **The steps of `UnregisterJob`.** -/
theorem unregisterStep_move {T : Type} [DecidableEq T] (t : T) (jobid : JobId) (w : World T) (pc : UnregisterPc) :
    UnregisterMove jobid w.toJobMonitor pc (unregisterStep t jobid w pc).1.toJobMonitor
      (unregisterStep t jobid w pc).2 := by
  cases pc with
  | block =>
    by_cases taken : jobid ∈ w.inFlightJobs
    · simp only [unregisterStep, blockStep, if_pos taken]
      exact .blocked
    · simp only [unregisterStep, blockStep, if_neg taken]
      exact .taken
  | removeJobFromPrioQueue => exact .dequeued
  | getJobStatus =>
    rw [unregisterStep]
    split
    · exact .inactive
    · split
      · exact .active
      · exact .inactive
  | stop pc =>
    have move := stopStep_move jobid w.toJobMonitor pc
    rw [unregisterStep]
    rcases ran : stopStep jobid w.toJobMonitor pc with ⟨m, pc' | result⟩ <;> rw [ran] at move
    · exact .stop pc pc' m move
    · exact .stopDone pc m result move
  | unblock result => exact .unblocked result

/-! ## Other ids -/

section Frame

variable {jobid id : JobId} {m m' : JobMonitor}

/-- What an id has in the schedule and among the rules is the same. -/
def SameAt (m m' : JobMonitor) (id : JobId) : Prop :=
  m'.scheduleState.jobOf id = m.scheduleState.jobOf id ∧ m'.ruleManager.ruleOf id = m.ruleManager.ruleOf id

theorem StartMove.frame {pc : StartPc} {control : Control StartPc Bool} (move : StartMove jobid m pc m' control)
    (other : id ≠ jobid) : SameAt m m' id := by
  cases move with
  | rulesSet mbs osts rule => exact ⟨rfl, (ruleOf_insert _ _ _ _).trans (if_neg (Ne.symm other))⟩
  | updated job => exact ⟨(jobOf_updateJob _ _ _ _).trans (if_neg (Ne.symm other)), rfl⟩
  | _ => exact ⟨rfl, rfl⟩

theorem StopMove.frame {pc : StopPc} {control : Control StopPc Bool} (move : StopMove jobid m pc m' control)
    (other : id ≠ jobid) : SameAt m m' id := by
  cases move with
  | rulesRemoved => exact ⟨rfl, (ruleOf_removeRules _ _ _).trans (if_neg (Ne.symm other))⟩
  | updated result => exact ⟨(jobOf_updateJob _ _ _ _).trans (if_neg (Ne.symm other)), rfl⟩
  | _ => exact ⟨rfl, rfl⟩

theorem HandleMove.frame {event : JobEvent} {pc : HandlePc} {control : Control HandlePc Unit}
    (move : HandleMove jobid event m pc m' control) (other : id ≠ jobid) : SameAt m m' id := by
  cases move with
  | start _ _ _ move => exact move.frame other
  | startDone _ _ _ move => exact move.frame other
  | stop _ _ _ move => exact move.frame other
  | stopDone _ _ _ move => exact move.frame other
  | removed => exact ⟨(jobOf_removeJob _ _ _).trans (if_neg (Ne.symm other)), rfl⟩
  | _ => exact ⟨rfl, rfl⟩

theorem UnregisterMove.frame {pc : UnregisterPc} {control : Control UnregisterPc Bool}
    (move : UnregisterMove jobid m pc m' control) (other : id ≠ jobid) : SameAt m m' id := by
  cases move with
  | stop _ _ _ move => exact move.frame other
  | stopDone _ _ _ move => exact move.frame other
  | _ => exact ⟨rfl, rfl⟩

end Frame

end QosPlanner
