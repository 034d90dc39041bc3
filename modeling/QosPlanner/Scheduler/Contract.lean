import QosPlanner.Schedule.Agreement
import QosPlanner.Scheduler.DynWorkloads

/-!
# The contract of the two schedulers

What a caller of `ScheduleJob` may expect of either scheduler. A call that returns false
leaves everything as it was and a call that returns true adds one job and its event
(`AllOrNothing`); the exception is a `RegisterJob` that fails, since `RemoveJob` does not
take the entries of the job off the lists of its OSTs. And the two schedulers agree when
they see the same limits (`SameContract`), except that only the one for static workloads
marks the job it accepts as SCHEDULED, which is what `StartJob` asks for.
-/

namespace QosPlanner
set_option autoImplicit false

open MemoryScheduleState

/-! ## All or nothing -/

/-- The jobs on the list of an OST, as `GetOSTState` shows them. -/
def MemoryScheduleState.listedJobs (s : MemoryScheduleState) (ost : Ost) : Option (List Job) :=
  (s.getOSTState ost).map (·.map s.object)

theorem MemoryScheduleState.length_ostList (s : MemoryScheduleState) (ost : Ost) :
    (s.ostList ost).length = ((s.listedJobs ost).getD []).length := by
  unfold ostList listOf listedJobs getOSTState
  cases s.schedule[ost]? <;> simp

/-- Neither the stored jobs nor the lists nor the queue have changed. -/
structure Unchanged (before after : JobMonitor) : Prop where
  jobs : ∀ jobid, after.scheduleState.jobOf jobid = before.scheduleState.jobOf jobid
  lists : ∀ ost, after.scheduleState.listedJobs ost = before.scheduleState.listedJobs ost
  queue : after.jobPriorityQueue = before.jobPriorityQueue

/-- One job has been added, to `jobs_`, to the lists of its OSTs and with its JOBSTART
event to the queue; all other jobs are as they were. -/
structure AddedOne (before after : JobMonitor) (job : Job) : Prop where
  fresh : before.scheduleState.jobOf job.jobid = none
  jobs : ∀ jobid, after.scheduleState.jobOf jobid =
    if job.jobid = jobid then some job else before.scheduleState.jobOf jobid
  lists : ∀ ost, ((after.scheduleState.ostList ost).map after.scheduleState.object).Perm
    (List.replicate (job.osts.count ost) job ++
      (before.scheduleState.ostList ost).map before.scheduleState.object)
  event : ∃ wt : WaitingItem, wt.jobid = job.jobid ∧ wt.timeOfEvent = job.tstart ∧ wt.eventType = .JOBSTART ∧
    after.jobPriorityQueue.items = wt ::ₘ before.jobPriorityQueue.items

/-- A call of `ScheduleJob` that stores `job` if it accepts. -/
structure AllOrNothing (before : JobMonitor) (job : Job) (call : Bool × JobMonitor) : Prop where
  rejected : call.1 = false → Unchanged before call.2
  accepted : call.1 = true → AddedOne before call.2 job

/-- A `RegisterJob` with a given result. If that is false, the queue stays as it is. -/
def registerJobReturning (result : Bool) (q : JobPriorityQueue) (job : Job) (reservation : Nat) :
    Bool × JobPriorityQueue :=
  if result then JobMonitor.registerJob q job reservation else (false, q)

theorem allOrNothing_of_rejected (m : JobMonitor) (job : Job) : AllOrNothing m job (false, m) :=
  ⟨fun _ => ⟨fun _ => rfl, fun _ => rfl, rfl⟩, by simp⟩

/-! What follows the checks: a known id is refused, a new one is added or, if it cannot be
registered, added and removed. -/

section EnterJob

variable {m : JobMonitor} {job : Job}

theorem enterJob_of_known (registerJob : JobPriorityQueue → Job → Nat → Bool × JobPriorityQueue)
    (known : m.scheduleState.jobOf job.jobid ≠ none) : enterJob registerJob m job = (false, m) := by
  have present : job.jobid ∈ m.scheduleState.jobs := by simpa [jobOf_eq_none] using known
  simp [enterJob, addJob_of_mem m.scheduleState job.jobid present]

theorem enterJob_of_fresh (fresh : m.scheduleState.jobOf job.jobid = none) :
    enterJob JobMonitor.registerJob m job =
      (true, ⟨(m.scheduleState.addJob job.jobid job job.osts).2,
        m.jobPriorityQueue.push ⟨job.jobid, job.tstart, .JOBSTART, m.scheduleState.objects.length⟩,
        m.ruleManager⟩) := by
  have added : (m.scheduleState.addJob job.jobid job job.osts).1 = true :=
    (addJob_accepts m.scheduleState job.jobid).2 fresh
  simp [enterJob, added, JobMonitor.registerJob, reservationOf_addJob m.scheduleState fresh]

theorem enterJob_unregistered (fresh : m.scheduleState.jobOf job.jobid = none) :
    enterJob (registerJobReturning false) m job =
      (false, ⟨((m.scheduleState.addJob job.jobid job job.osts).2.removeJob job.jobid).2,
        m.jobPriorityQueue, m.ruleManager⟩) := by
  have added : (m.scheduleState.addJob job.jobid job job.osts).1 = true :=
    (addJob_accepts m.scheduleState job.jobid).2 fresh
  simp [enterJob, added, registerJobReturning]

end EnterJob

/-- The lists after an accepted `AddJob`, by the jobs on them. -/
theorem map_object_ostList_addJob (s : MemoryScheduleState) {job : Job}
    (fresh : s.jobOf job.jobid = none) (ost : Ost) :
    (((s.addJob job.jobid job job.osts).2.ostList ost).map (s.addJob job.jobid job job.osts).2.object).Perm
      (List.replicate (job.osts.count ost) job ++ (s.ostList ost).map s.object) := by
  have entries := (@ostList_addJob s job.jobid job job.osts fresh ost).map (s.addJob job.jobid job job.osts).2.object
  rw [List.map_append, List.map_replicate, object_addJob_new s job.jobid fresh] at entries
  have old : (s.ostList ost).map (s.addJob job.jobid job job.osts).2.object = (s.ostList ost).map s.object :=
    List.map_congr_left fun p member =>
      object_addJob_old s job.jobid ((listOf_valid.1 s.schedule_valid) ost p member)
  rwa [old] at entries

/-- Adding a job that names no OST and removing it again touches no list. -/
theorem schedule_addJob_removeJob_of_nil (s : MemoryScheduleState) {job : Job}
    (fresh : s.jobOf job.jobid = none) (noOst : job.osts = []) :
    ((s.addJob job.jobid job job.osts).2.removeJob job.jobid).2.schedule = s.schedule := by
  have found : (s.addJob job.jobid job job.osts).2.jobs[job.jobid]? = some s.objects.length := by
    simp [addJob_jobs s job.jobid fresh]
  have kept : (s.addJob job.jobid job job.osts).2.schedule = s.schedule := by
    rw [jobOf_eq_none] at fresh
    simp [addJob, fresh, noOst]
  unfold MemoryScheduleState.removeJob
  split
  · rename_i absent
    simp [absent] at found
  · rename_i p here
    rw [found] at here
    cases here
    simp only [object_addJob_new s job.jobid fresh, noOst, removeFromOsts, List.foldl_nil]
    exact noOst ▸ kept

/-- A registered job of a new id is added, and nothing else changes. -/
theorem addedOne_of_fresh {m : JobMonitor} {job : Job} (fresh : m.scheduleState.jobOf job.jobid = none) :
    AddedOne m (enterJob JobMonitor.registerJob m job).2 job := by
  rw [enterJob_of_fresh fresh]
  constructor
  · exact fresh
  · intro jobid
    exact jobOf_addJob _ _ _ fresh
  · intro ost
    exact map_object_ostList_addJob m.scheduleState fresh ost
  · exact ⟨_, rfl, rfl, rfl, JobPriorityQueue.items_push _ _⟩

/-- An unregistered job of a new id leaves no trace iff it names no OST. -/
theorem unchanged_of_unregistered_iff {m : JobMonitor} {job : Job}
    (fresh : m.scheduleState.jobOf job.jobid = none) :
    Unchanged m (enterJob (registerJobReturning false) m job).2 ↔ job.osts = [] := by
  rw [enterJob_unregistered fresh]
  constructor
  · intro unchanged
    refine List.eq_nil_iff_forall_not_mem.2 fun ost named => ?_
    have lists := unchanged.lists ost
    have lengths : (((m.scheduleState.addJob job.jobid job job.osts).2.removeJob job.jobid).2.ostList ost).length =
        (m.scheduleState.ostList ost).length := by
      rw [length_ostList, length_ostList]
      exact congrArg (fun list => (list.getD []).length) lists
    rw [ostList_removeJob, (ostList_addJob m.scheduleState job.osts fresh ost).length_eq,
      List.length_append, List.length_replicate] at lengths
    have := List.count_pos_iff.2 named
    omega
  · intro noOst
    refine ⟨fun jobid => ?_, fun ost => ?_, rfl⟩
    · simp only [jobOf_removeJob, jobOf_addJob _ _ _ fresh]
      split
      · rename_i same
        rw [← same, fresh]
      · rfl
    · have kept := schedule_addJob_removeJob_of_nil m.scheduleState fresh noOst
      unfold listedJobs getOSTState
      rw [kept]
      cases found : m.scheduleState.schedule[ost]? with
      | none => rfl
      | some list =>
        refine congrArg some (List.map_congr_left fun p member => ?_)
        rw [object_removeJob]
        exact object_addJob_old _ _ (m.scheduleState.schedule_valid ost list p found member)

/-- **Entering a job is all or nothing** unless its registration fails while it is on the
list of some OST. -/
theorem enterJob_allOrNothing_iff (result : Bool) (m : JobMonitor) (job : Job) :
    AllOrNothing m job (enterJob (registerJobReturning result) m job) ↔
      result = true ∨ job.osts = [] ∨ m.scheduleState.jobOf job.jobid ≠ none := by
  by_cases fresh : m.scheduleState.jobOf job.jobid = none
  · cases result with
    | true =>
      refine iff_of_true ⟨fun rejected => ?_, fun _ => addedOne_of_fresh fresh⟩ (Or.inl rfl)
      have accepted := congrArg Prod.fst (enterJob_of_fresh fresh)
      exact absurd (rejected.symm.trans accepted) Bool.false_ne_true
    | false =>
      have rejected := congrArg Prod.fst (enterJob_unregistered fresh)
      have unchanged := unchanged_of_unregistered_iff fresh
      constructor
      · intro allOrNothing
        exact Or.inr (Or.inl (unchanged.1 (allOrNothing.rejected rejected)))
      · rintro (impossible | noOst | known)
        · cases impossible
        · refine ⟨fun _ => unchanged.2 noOst, fun accepted => ?_⟩
          exact absurd (rejected.symm.trans accepted) Bool.false_ne_true
        · exact absurd fresh known
  · rw [enterJob_of_known _ fresh]
    exact iff_of_true (allOrNothing_of_rejected m job) (Or.inr (Or.inr fresh))

/-- What the checks add: a job that fails them is rejected without effect. -/
theorem allOrNothing_after_checks_iff {passed : Bool} {m : JobMonitor} {job : Job} {call : Bool × JobMonitor} :
    AllOrNothing m job (if !passed then (false, m) else call) ↔ passed = false ∨ AllOrNothing m job call := by
  cases passed with
  | false => simp [allOrNothing_of_rejected m job]
  | true => simp

/-- **`ScheduleJob` is all or nothing**, in either scheduler, iff the job is not on the
list of an OST when its registration fails: it can be registered, or it names no OST, or
its id is known, or it does not pass the check of one of its OSTs. -/
theorem schedule_job_all_or_nothing_iff (result : Bool) (limits : Limits)
    (sources : JobSchedulerDynWorkloads.Sources) (unassigned : Nat → UInt32) (m : JobMonitor) (job : Job) :
    (AllOrNothing m (job.setState .SCHEDULED)
        (scheduleJobWith (registerJobReturning result) limits unassigned m job) ↔
      result = true ∨ job.osts = [] ∨ m.scheduleState.jobOf job.jobid ≠ none ∨
        ∃ (k : Nat) (ost : Ost), job.osts[k]? = some ost ∧
          areEnoughResAvail limits job ost (assumedLoad m.scheduleState ost (unassigned k)) = false) ∧
    (AllOrNothing m job
        (JobSchedulerDynWorkloads.scheduleJobWith (registerJobReturning result) sources unassigned m job) ↔
      result = true ∨ job.osts = [] ∨ m.scheduleState.jobOf job.jobid ≠ none ∨
        ∃ (k : Nat) (ost : Ost), job.osts[k]? = some ost ∧
          ¬ JobSchedulerDynWorkloads.HasRoom sources m.scheduleState job ost (unassigned k)) := by
  constructor
  · have checks := checkOsts_eq_true limits m.scheduleState job unassigned 0 job.osts
    rw [scheduleJobWith_eq, allOrNothing_after_checks_iff, enterJob_allOrNothing_iff, ← Bool.not_eq_true, checks]
    simp only [Job.setState_osts, Job.setState_jobid, Nat.zero_add, not_forall, Bool.not_eq_true, exists_prop]
    rw [or_comm, or_assoc, or_assoc]
  · have checks := JobSchedulerDynWorkloads.checkOsts_eq_true sources m.scheduleState job unassigned 0 job.osts
    rw [JobSchedulerDynWorkloads.scheduleJobWith, allOrNothing_after_checks_iff, enterJob_allOrNothing_iff,
      ← Bool.not_eq_true, checks]
    simp only [Nat.zero_add, not_forall, exists_prop]
    rw [or_comm, or_assoc, or_assoc]

/-- A job that is not registered keeps its place on the list of its OST, though its
submission is refused: in both schedulers. -/
theorem refused_job_stays_listed :
    let limits : Limits := (∅ : Limits).insert "OST_a" 100
    let sources : JobSchedulerDynWorkloads.Sources := ⟨(∅ : ClusterState).insert "OST_a" ⟨"OST_a", 0, 500⟩, rpcsToMBs 1⟩
    let job : Job := ⟨.INITIALIZED, "foo", 0, 10, ["OST_a"], 42⟩
    ¬ AllOrNothing .empty (job.setState .SCHEDULED)
        (scheduleJobWith (registerJobReturning false) limits (fun _ => 0) .empty job) ∧
      ¬ AllOrNothing .empty job
        (JobSchedulerDynWorkloads.scheduleJobWith (registerJobReturning false) sources (fun _ => 0) .empty job) := by
  intro limits sources job
  constructor
  · rw [scheduleJobWith_eq, allOrNothing_after_checks_iff, enterJob_allOrNothing_iff]
    decide +kernel
  · rw [JobSchedulerDynWorkloads.scheduleJobWith, allOrNothing_after_checks_iff, enterJob_allOrNothing_iff]
    decide +kernel

/-! ## The two schedulers -/

/-- The two schedulers see the same limit for each OST of a job, one that a `float`
represents with room to spare. -/
def SameLimits (limits : Limits) (sources : JobSchedulerDynWorkloads.Sources) (job : Job) : Prop :=
  ∀ ost ∈ job.osts, ∃ nodeState, sources.clusterState.getOstState ost = some nodeState ∧
    limits[ost]? = some ((sources.rpcsToMBs nodeState.maxRpcSec).toNat : ℚ) ∧
    (sources.rpcsToMBs nodeState.maxRpcSec).toNat < 2 ^ 24

/-- `StartJob` starts the job stored under the id, if its rules can be set. -/
def WillStart (m : JobMonitor) (jobid : JobId) : Prop :=
  ∀ (env : RemoteEnv) (job : Job), m.scheduleState.jobOf jobid = some job →
    jobid ∉ m.ruleManager.activeRules → CanSetRules env job.osts jobid job.minReadThroughputMB →
    (m.startJob env jobid).1 = true

/-- Two calls of `ScheduleJob` for a job of this id give the same verdict, leave the same
schedule and the same queue, and a job that either accepts will start. -/
structure SameContract (jobid : JobId) (call call' : Bool × JobMonitor) : Prop where
  verdict : call.1 = call'.1
  schedule : call.2.scheduleState = call'.2.scheduleState
  queue : call.2.jobPriorityQueue = call'.2.jobPriorityQueue
  starts : call.1 = true → WillStart call.2 jobid
  starts' : call'.1 = true → WillStart call'.2 jobid

/-- A SCHEDULED job will start. -/
theorem willStart_of_scheduled {m : JobMonitor} {job : Job}
    (stored : m.scheduleState.jobOf job.jobid = some job) (scheduled : job.state = .SCHEDULED) :
    WillStart m job.jobid := by
  intro env job' stored' unset settable
  rw [stored] at stored'
  cases stored'
  rcases m.startJob_cases env job.jobid with ⟨_, _, _, _, _, started⟩ | ⟨cannot, -⟩
  · rw [started]
  · exact absurd ⟨stored, scheduled, unset, settable⟩ (cannot job)

/-- Where both see the same limits, the two checks of an OST agree. -/
theorem areEnoughResAvail_iff_hasRoom {limits : Limits} {sources : JobSchedulerDynWorkloads.Sources} {job : Job}
    (same : SameLimits limits sources job) (s : MemoryScheduleState) {ost : Ost} (named : ost ∈ job.osts)
    (unassigned : UInt32) :
    areEnoughResAvail limits job ost (assumedLoad s ost unassigned) = true ↔
      JobSchedulerDynWorkloads.HasRoom sources s job ost unassigned := by
  obtain ⟨nodeState, known, limit, small⟩ := same ost named
  have exact := Number.roundEven_le_iff (p := 24)
    (n := (assumedLoad s ost unassigned + job.minReadThroughputMB).toNat) (by decide)
    (show ((sources.rpcsToMBs nodeState.maxRpcSec).toNat : ℚ) < 2 ^ 24 by exact_mod_cast small)
  simp only [areEnoughResAvail, limit, decide_eq_true_iff, exact, JobSchedulerDynWorkloads.HasRoom, known,
    JobSchedulerDynWorkloads.areEnoughResAvail, Option.some.injEq, exists_eq_left', Nat.cast_le]
  exact UInt32.le_iff_toNat_le.symm

/-- So do the two loops. -/
theorem checkOsts_eq_of_sameLimits {limits : Limits} {sources : JobSchedulerDynWorkloads.Sources} {job : Job}
    (same : SameLimits limits sources job) (s : MemoryScheduleState) (unassigned : Nat → UInt32) :
    JobSchedulerDynWorkloads.checkOsts sources s job unassigned 0 job.osts =
      checkOsts limits s job unassigned 0 job.osts := by
  rw [Bool.eq_iff_iff, checkOsts_eq_true, JobSchedulerDynWorkloads.checkOsts_eq_true]
  have agree := fun (k : Nat) (ost : Ost) (found : job.osts[k]? = some ost) =>
    areEnoughResAvail_iff_hasRoom same s (List.mem_of_getElem? found) (unassigned (0 + k))
  constructor
  · intro all k ost found
    exact (agree k ost found).2 (all k ost found)
  · intro all k ost found
    exact (agree k ost found).1 (all k ost found)

/-- Two calls that reject and have no effect keep the contract. -/
theorem sameContract_of_rejected (m : JobMonitor) (jobid : JobId) : SameContract jobid (false, m) (false, m) :=
  ⟨rfl, rfl, rfl, by simp, by simp⟩

/-- Entering a job and entering it as SCHEDULED come to the same iff it was SCHEDULED before
or is not entered. -/
theorem enterJob_sameContract_iff (m : JobMonitor) (job : Job) :
    SameContract job.jobid (enterJob JobMonitor.registerJob m (job.setState .SCHEDULED))
        (enterJob JobMonitor.registerJob m job) ↔
      job.state = .SCHEDULED ∨ m.scheduleState.jobOf job.jobid ≠ none := by
  by_cases fresh : m.scheduleState.jobOf job.jobid = none
  · have stored := @jobOf_addJob m.scheduleState job.jobid job.jobid job job.osts fresh
    rw [if_pos rfl] at stored
    constructor
    · intro same
      have stored' := @jobOf_addJob m.scheduleState job.jobid job.jobid (job.setState .SCHEDULED) job.osts fresh
      rw [if_pos rfl] at stored'
      rw [enterJob_of_fresh fresh, @enterJob_of_fresh m (job.setState .SCHEDULED) fresh] at same
      have jobs : some (job.setState .SCHEDULED) = some job :=
        stored'.symm.trans ((congrArg (·.jobOf job.jobid) same.schedule).trans stored)
      rw [← Option.some.inj jobs]
      exact Or.inl rfl
    · rintro (scheduled | known)
      · have same : job.setState .SCHEDULED = job := by
          cases job
          exact congrArg (Job.mk · _ _ _ _ _) scheduled.symm
        have starts : WillStart (enterJob JobMonitor.registerJob m job).2 job.jobid := by
          rw [enterJob_of_fresh fresh]
          exact willStart_of_scheduled stored scheduled
        rw [same]
        exact ⟨rfl, rfl, rfl, fun _ => starts, fun _ => starts⟩
      · exact absurd fresh known
  · rw [enterJob_of_known _ fresh, @enterJob_of_known m (job.setState .SCHEDULED) _ fresh]
    exact iff_of_true (sameContract_of_rejected m job.jobid) (Or.inr fresh)

/-- **The two schedulers keep one contract** for a job iff it comes in as SCHEDULED, or its
id is known, or it does not pass the check of one of its OSTs. -/
theorem schedulers_same_contract_iff (limits : Limits) (sources : JobSchedulerDynWorkloads.Sources)
    (unassigned : Nat → UInt32) (m : JobMonitor) (job : Job) (same : SameLimits limits sources job) :
    SameContract job.jobid (scheduleJob limits unassigned m job)
        (JobSchedulerDynWorkloads.scheduleJob sources unassigned m job) ↔
      job.state = .SCHEDULED ∨ m.scheduleState.jobOf job.jobid ≠ none ∨
        ∃ (k : Nat) (ost : Ost), job.osts[k]? = some ost ∧
          areEnoughResAvail limits job ost (assumedLoad m.scheduleState ost (unassigned k)) = false := by
  have checks := checkOsts_eq_true limits m.scheduleState job unassigned 0 job.osts
  rw [scheduleJob, scheduleJobWith_eq, JobSchedulerDynWorkloads.scheduleJob,
    JobSchedulerDynWorkloads.scheduleJobWith, checkOsts_eq_of_sameLimits same]
  cases passed : checkOsts limits m.scheduleState job unassigned 0 job.osts with
  | false =>
    rw [passed] at checks
    simp only [Bool.false_eq_true, false_iff, Nat.zero_add, not_forall, Bool.not_eq_true, exists_prop] at checks
    exact iff_of_true (sameContract_of_rejected m job.jobid) (Or.inr (Or.inr checks))
  | true =>
    have enough := checks.1 passed
    have none_fails : ¬ ∃ (k : Nat) (ost : Ost), job.osts[k]? = some ost ∧
        areEnoughResAvail limits job ost (assumedLoad m.scheduleState ost (unassigned k)) = false := by
      rintro ⟨k, ost, found, fails⟩
      have := enough k ost found
      rw [Nat.zero_add, fails] at this
      cases this
    simp only [Bool.not_true, Bool.false_eq_true, if_false, none_fails, or_false]
    exact enterJob_sameContract_iff m job

/-- A job that comes in as SCHEDULED. -/
theorem schedulers_agree_on_scheduled :
    let limits : Limits := (∅ : Limits).insert "OST_a" (500 : Nat)
    let sources : JobSchedulerDynWorkloads.Sources := ⟨(∅ : ClusterState).insert "OST_a" ⟨"OST_a", 0, 500⟩, rpcsToMBs 1⟩
    let job : Job := ⟨.SCHEDULED, "foo", 0, 10, ["OST_a"], 42⟩
    SameContract "foo" (scheduleJob limits (fun _ => 0) .empty job)
      (JobSchedulerDynWorkloads.scheduleJob sources (fun _ => 0) .empty job) := by
  intro limits sources job
  refine (schedulers_same_contract_iff limits sources (fun _ => 0) .empty job ?_).2 (Or.inl rfl)
  intro ost named
  obtain rfl : ost = "OST_a" := by simpa [job] using named
  exact ⟨⟨"OST_a", 0, 500⟩, by decide +kernel, by decide +kernel, by decide +kernel⟩

/-- A job as the planner builds it is accepted by both schedulers on the same limit of 500,
and stored in different states. -/
theorem schedulers_differ_on_new_job :
    let limits : Limits := (∅ : Limits).insert "OST_a" (500 : Nat)
    let sources : JobSchedulerDynWorkloads.Sources := ⟨(∅ : ClusterState).insert "OST_a" ⟨"OST_a", 0, 500⟩, rpcsToMBs 1⟩
    let job : Job := ⟨.INITIALIZED, "foo", 0, 10, ["OST_a"], 42⟩
    SameLimits limits sources job ∧
      ¬ SameContract "foo" (scheduleJob limits (fun _ => 0) .empty job)
        (JobSchedulerDynWorkloads.scheduleJob sources (fun _ => 0) .empty job) := by
  intro limits sources job
  constructor
  · intro ost named
    obtain rfl : ost = "OST_a" := by simpa [job] using named
    exact ⟨⟨"OST_a", 0, 500⟩, by decide +kernel, by decide +kernel, by decide +kernel⟩
  · intro same
    have states := congrArg (·.getJobStatus "foo") same.schedule
    revert states
    decide +kernel

end QosPlanner
