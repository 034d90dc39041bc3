import QosPlanner.Number.RoundEven
import QosPlanner.Monitor.JobMonitor

/-!
# The scheduler for static workloads

`JobSchedulerStaticWorkloads` (`src/common/JobSchedulerStaticWorkloads.cpp`) accepts a
job if every OST it names has room for it under a fixed limit. `ScheduleJob` passes the
address of an uninitialised local to `GetMaxLoadInTimeInterval`; the model takes the
value it holds, one for each iteration of the loop, as a parameter.

A limit is a `float`, here a rational number; the `uint32_t` sum it is compared with is
first converted to `float`, that is, rounded to 24 significant bits.
-/

namespace QosPlanner
set_option autoImplicit false

open MemoryScheduleState

/-- `osts_max_mbs_limits_` -/
abbrev Limits := Std.ExtTreeMap Ost ℚ

/-- `GetMaxLoadInTimeInterval`: the result, and what `*maxLoadMBSec` holds after the call.
The sum of an OST with a list is computed in a local and not stored. -/
def getMaxLoadInTimeInterval (s : MemoryScheduleState) (ost : Ost) (tstart tend : TimePoint)
    (maxLoadMBSec : UInt32) : Bool × UInt32 :=
  match s.getOSTState ost with
  | none => (true, 0)
  | some jobList =>
    let _maxLoadMbSec : UInt32 := jobList.foldl (fun load p =>
      if (s.object p).tstart > tend ∨ (s.object p).tend < tstart then load
      else load + (s.object p).minReadThroughputMB) 0
    (true, maxLoadMBSec)

/-- `AreEnoughResAvail`. The sum is taken in 32 bits and then converted to `float`. -/
def areEnoughResAvail (limits : Limits) (job : Job) (ost : Ost) (maxOstMbSec : UInt32) : Bool :=
  match limits[ost]? with
  | none => false
  | some limit => (Number.roundEven 24 (maxOstMbSec + job.minReadThroughputMB).toNat : ℚ) ≤ limit

/-- The loop of `ScheduleJob` over the OSTs, from the `i`-th on; `false` is an early
return. `unassigned i` is what `max_ost_mb_sec` holds in the `i`-th iteration. -/
def checkOsts (limits : Limits) (s : MemoryScheduleState) (job : Job) (unassigned : Nat → UInt32) :
    Nat → List Ost → Bool
  | _, [] => true
  | i, ost :: osts =>
    let (success, maxOstMbSec) := getMaxLoadInTimeInterval s ost job.tstart job.tend (unassigned i)
    if !success then false
    else if !areEnoughResAvail limits job ost maxOstMbSec then false
    else checkOsts limits s job unassigned (i + 1) osts

/-- `ScheduleJob`, on top of a `RegisterJob`, which is virtual. -/
def scheduleJobWith (registerJob : JobPriorityQueue → Job → Nat → Bool × JobPriorityQueue)
    (limits : Limits) (unassigned : Nat → UInt32) (m : JobMonitor) (job : Job) : Bool × JobMonitor :=
  if !checkOsts limits m.scheduleState job unassigned 0 job.osts then (false, m)
  else
    let job := job.setState .SCHEDULED
    let (added, scheduleState) := m.scheduleState.addJob job.jobid job job.osts
    let m := { m with scheduleState }
    if !added then (false, m)
    else
      let (registered, jobPriorityQueue) :=
        registerJob m.jobPriorityQueue job (reservationOf m.scheduleState job.jobid)
      let m := { m with jobPriorityQueue }
      if !registered then (false, { m with scheduleState := (m.scheduleState.removeJob job.jobid).2 })
      else (true, m)

/-- `ScheduleJob` with the `RegisterJob` of `JobMonitor`. -/
def scheduleJob (limits : Limits) (unassigned : Nat → UInt32) (m : JobMonitor) (job : Job) :
    Bool × JobMonitor :=
  scheduleJobWith JobMonitor.registerJob limits unassigned m job

/-- `JobSchedulerStaticWorkloads::RemoveJob`. -/
def removeJob (m : JobMonitor) (jobid : JobId) : Bool × JobMonitor :=
  match m.scheduleState.getJobStatus jobid with
  | none => (false, m)
  | some _ =>
    let m := (m.unregisterJob jobid).2
    let (removed, scheduleState) := m.scheduleState.removeJob jobid
    (removed, { m with scheduleState })

/-! ## What the functions do -/

/-- What the check compares with the limit of an OST: the value the loop finds in
`max_ost_mb_sec`, which is assigned only for an OST without a list. -/
def assumedLoad (s : MemoryScheduleState) (ost : Ost) (unassigned : UInt32) : UInt32 :=
  if ost ∈ s.schedule then unassigned else 0

theorem getMaxLoadInTimeInterval_eq (s : MemoryScheduleState) (ost : Ost) (tstart tend : TimePoint)
    (maxLoadMBSec : UInt32) :
    getMaxLoadInTimeInterval s ost tstart tend maxLoadMBSec = (true, assumedLoad s ost maxLoadMBSec) := by
  unfold getMaxLoadInTimeInterval assumedLoad getOSTState
  split
  · rename_i absent
    rw [if_neg (by simpa using absent)]
  · rename_i list found
    rw [if_pos (Std.ExtTreeMap.mem_iff_isSome_getElem?.2 (by simp [found]))]

/-- The loop ends without an early return iff the check of each iteration succeeds. -/
theorem checkOsts_eq_true (limits : Limits) (s : MemoryScheduleState) (job : Job)
    (unassigned : Nat → UInt32) (i : Nat) (osts : List Ost) :
    checkOsts limits s job unassigned i osts = true ↔
      ∀ (k : Nat) (ost : Ost), osts[k]? = some ost →
        areEnoughResAvail limits job ost (assumedLoad s ost (unassigned (i + k))) = true := by
  induction osts generalizing i with
  | nil => simp [checkOsts]
  | cons first rest ih =>
    simp only [checkOsts, getMaxLoadInTimeInterval_eq, Bool.not_true, Bool.false_eq_true, if_false]
    cases enough : areEnoughResAvail limits job first (assumedLoad s first (unassigned i)) with
    | false =>
      refine iff_of_false (by simp) fun all => ?_
      have := all 0 first rfl
      simp [enough] at this
    | true =>
      simp only [Bool.not_true, Bool.false_eq_true, if_false, ih]
      constructor
      · intro all k ost found
        cases k with
        | zero => cases found; exact enough
        | succ k =>
          have := all k ost (by simpa using found)
          rwa [show i + 1 + k = i + (k + 1) by omega] at this
      · intro all k ost found
        have := all (k + 1) ost (by simpa using found)
        rwa [show i + (k + 1) = i + 1 + k by omega] at this

/-- The job the schedule holds after an accepted `ScheduleJob`, and its event. -/
def scheduled (m : JobMonitor) (job : Job) : JobMonitor where
  scheduleState := (m.scheduleState.addJob job.jobid (job.setState .SCHEDULED) job.osts).2
  jobPriorityQueue :=
    m.jobPriorityQueue.push ⟨job.jobid, job.tstart, .JOBSTART, m.scheduleState.objects.length⟩
  ruleManager := m.ruleManager

/-- What is stored after it. -/
theorem jobOf_scheduled {m : JobMonitor} {job : Job} (fresh : m.scheduleState.jobOf job.jobid = none) (id : JobId) :
    (scheduled m job).scheduleState.jobOf id =
      if job.jobid = id then some (job.setState .SCHEDULED) else m.scheduleState.jobOf id :=
  jobOf_addJob _ _ _ fresh

/-- The address of a job just added. -/
theorem reservationOf_addJob (s : MemoryScheduleState) {jobid : JobId} {job : Job} {osts : List Ost}
    (fresh : s.jobOf jobid = none) :
    reservationOf (s.addJob jobid job osts).2 jobid = s.objects.length := by
  simp [reservationOf, addJob_jobs s jobid fresh]

/-- **`ScheduleJob`** accepts a job of a new id that passes the checks, or has no effect. -/
theorem scheduleJob_cases (limits : Limits) (unassigned : Nat → UInt32) (m : JobMonitor) (job : Job) :
    (checkOsts limits m.scheduleState job unassigned 0 job.osts = true ∧
      m.scheduleState.jobOf job.jobid = none ∧
      scheduleJob limits unassigned m job = (true, scheduled m job)) ∨
    (¬ (checkOsts limits m.scheduleState job unassigned 0 job.osts = true ∧
        m.scheduleState.jobOf job.jobid = none) ∧
      scheduleJob limits unassigned m job = (false, m)) := by
  cases check : checkOsts limits m.scheduleState job unassigned 0 job.osts with
  | false => exact Or.inr ⟨by simp, by simp [scheduleJob, scheduleJobWith, check]⟩
  | true =>
    by_cases fresh : m.scheduleState.jobOf job.jobid = none
    · left
      have added : (m.scheduleState.addJob job.jobid (job.setState .SCHEDULED) job.osts).1 = true :=
        (addJob_accepts m.scheduleState job.jobid).2 fresh
      refine ⟨rfl, fresh, ?_⟩
      simp [scheduleJob, scheduleJobWith, check, added, JobMonitor.registerJob, scheduled,
        reservationOf_addJob m.scheduleState fresh]
    · right
      have present : job.jobid ∈ m.scheduleState.jobs := by simpa [jobOf_eq_none] using fresh
      refine ⟨fun both => fresh both.2, ?_⟩
      simp [scheduleJob, scheduleJobWith, check, addJob_of_mem m.scheduleState job.jobid present]

/-- **`RemoveJob`** unregisters and removes a stored job, or has no effect. -/
theorem removeJob_cases (m : JobMonitor) (jobid : JobId) :
    ((∃ job, m.scheduleState.jobOf jobid = some job) ∧
      (removeJob m jobid).2 = { (m.unregisterJob jobid).2 with
        scheduleState := ((m.unregisterJob jobid).2.scheduleState.removeJob jobid).2 }) ∨
    (m.scheduleState.jobOf jobid = none ∧ removeJob m jobid = (false, m)) := by
  cases stored : m.scheduleState.jobOf jobid with
  | none => exact Or.inr ⟨rfl, by simp [removeJob, getJobStatus, stored]⟩
  | some job => exact Or.inl ⟨⟨job, rfl⟩, by simp [removeJob, getJobStatus, stored]⟩

end QosPlanner
