import QosPlanner.Planner.Operations

/-!
# Overcommitment

The load of an OST at an instant is the exact sum of the throughputs of the stored jobs
that name the OST and cover the instant; the schedule is overcommitted when it exceeds
the limit of the OST. `ScheduleJob` compares the limit with a value the code assigns only
for an OST without a list, so whether a run stays within the limits depends on what the
uninitialised local holds (`never_overcommitted`).

All other operations only remove jobs or change their states (`Shrinks`).
-/

namespace QosPlanner
set_option autoImplicit false

open MemoryScheduleState JobPriorityQueue JobMonitor

/-- The keys of `jobs_`. -/
def jobIds (s : MemoryScheduleState) : Finset JobId := s.jobs.keys.toFinset

/-- What a job takes from an OST at an instant. -/
def demand (job : Option Job) (o : Ost) (t : TimePoint) : Nat :=
  match job with
  | none => 0
  | some job => if o ∈ job.osts ∧ job.Covers t then job.minReadThroughputMB.toNat else 0

/-- The sum over all stored jobs. -/
def load (s : MemoryScheduleState) (o : Ost) (t : TimePoint) : Nat :=
  ∑ id ∈ jobIds s, demand (s.jobOf id) o t

/-- The schedule is within the limits. -/
structure NotOvercommitted (limits : Limits) (s : MemoryScheduleState) : Prop where
  within : ∀ (o : Ost) (limit : ℚ) (t : TimePoint), limits[o]? = some limit → (load s o t : ℚ) ≤ limit
  limited : ∀ (id : JobId) (job : Job) (o : Ost), s.jobOf id = some job → o ∈ job.osts → o ∈ limits

/-- Every OST a stored job names has a list in `schedule_`. -/
def Listed (s : MemoryScheduleState) : Prop :=
  ∀ (id : JobId) (job : Job) (o : Ost), s.jobOf id = some job → o ∈ job.osts → o ∈ s.schedule

/-- The value the check of a job finds is at least the load of the OST over the whole
interval of the job, the 32-bit sum does not wrap, and its conversion to `float` does not
round it down to the limit. -/
structure TellsTheLoad (s : MemoryScheduleState) (job : Job) (o : Ost) (limit : ℚ) (assumed : UInt32) :
    Prop where
  at_least : ∀ t, job.Covers t → load s o t ≤ assumed.toNat
  no_wrap : assumed.toNat + job.minReadThroughputMB.toNat < 2 ^ 32
  no_rounding : (Number.roundEven 24 (assumed.toNat + job.minReadThroughputMB.toNat) : ℚ) ≤ limit →
    ((assumed.toNat + job.minReadThroughputMB.toNat : Nat) : ℚ) ≤ limit

/-- With a limit below `2^24` the conversion to `float` plays no part. -/
theorem TellsTheLoad.of_small_limit {s : MemoryScheduleState} {job : Job} {o : Ost} {limit : ℚ} {assumed : UInt32}
    (small : limit < 2 ^ 24) (at_least : ∀ t, job.Covers t → load s o t ≤ assumed.toNat)
    (no_wrap : assumed.toNat + job.minReadThroughputMB.toNat < 2 ^ 32) : TellsTheLoad s job o limit assumed where
  at_least := at_least
  no_wrap := no_wrap
  no_rounding := (Number.roundEven_le_iff (by decide) small).1

/-- The `k`-th OST of a job is checked: the checks before it have succeeded. -/
def IsChecked (limits : Limits) (s : MemoryScheduleState) (job : Job) (unassigned : Nat → UInt32) (k : Nat) : Prop :=
  ∀ (j : Nat) (o : Ost), j < k → job.osts[j]? = some o →
    areEnoughResAvail limits job o (assumedLoad s o (unassigned j)) = true

/-- A `ScheduleJob` of a new id finds a value that tells the load, for each OST it checks. -/
def ChecksTheLoad (limits : Limits) (m : JobMonitor) : PlannerOp → Prop
  | .scheduleJob job unassigned => m.scheduleState.jobOf job.jobid = none →
      ∀ (k : Nat) (o : Ost) (limit : ℚ), job.osts[k]? = some o → limits[o]? = some limit →
        IsChecked limits m.scheduleState job unassigned k →
        TellsTheLoad m.scheduleState job o limit (assumedLoad m.scheduleState o (unassigned k))
  | _ => True

/-! ## The load -/

theorem mem_jobIds {s : MemoryScheduleState} {id : JobId} : id ∈ jobIds s ↔ id ∈ s.jobs := by
  simp [jobIds]

/-- The ids that are not stored take nothing. -/
theorem load_eq_sum {s : MemoryScheduleState} {ids : Finset JobId} (all : jobIds s ⊆ ids) (o : Ost)
    (t : TimePoint) : load s o t = ∑ id ∈ ids, demand (s.jobOf id) o t := by
  refine Finset.sum_subset all fun id _ absent => ?_
  rw [mem_jobIds, ← jobOf_eq_none] at absent
  rw [absent]
  rfl

/-- The load is monotone in what each id takes. -/
theorem load_mono {s s' : MemoryScheduleState} {o : Ost} {t : TimePoint}
    (less : ∀ id, demand (s'.jobOf id) o t ≤ demand (s.jobOf id) o t) : load s' o t ≤ load s o t := by
  rw [load_eq_sum (Finset.subset_union_left : jobIds s' ⊆ jobIds s' ∪ jobIds s),
    load_eq_sum (Finset.subset_union_right : jobIds s ⊆ jobIds s' ∪ jobIds s)]
  exact Finset.sum_le_sum fun id _ => less id

/-- An accepted job adds what it takes. -/
theorem load_addJob {s : MemoryScheduleState} {jobid : JobId} {job : Job} {osts : List Ost}
    (fresh : s.jobOf jobid = none) (o : Ost) (t : TimePoint) :
    load (s.addJob jobid job osts).2 o t = load s o t + demand (some job) o t := by
  have ids : jobIds (s.addJob jobid job osts).2 = insert jobid (jobIds s) := by
    ext id
    rw [Finset.mem_insert, mem_jobIds, mem_jobIds, addJob_jobs s jobid fresh, Std.ExtTreeMap.mem_insert,
      Std.compare_eq_iff_eq, eq_comm]
  have absent : jobid ∉ jobIds s := by rwa [mem_jobIds, ← jobOf_eq_none]
  rw [load, ids, Finset.sum_insert absent, jobOf_addJob s jobid jobid fresh, if_pos rfl, Nat.add_comm, load]
  congr 1
  refine Finset.sum_congr rfl fun id member => ?_
  rw [jobOf_addJob s jobid id fresh, if_neg]
  rintro rfl
  exact absent member

theorem load_empty (o : Ost) (t : TimePoint) : load .empty o t = 0 := by
  simp [load, demand]

/-! ## Operations that add no job -/

/-- Jobs may be removed and change their state, and no list goes. -/
structure Shrinks (s s' : MemoryScheduleState) : Prop where
  jobs : ∀ (id : JobId) (job' : Job), s'.jobOf id = some job' →
    ∃ (job : Job) (st : JobState), s.jobOf id = some job ∧ job' = job.setState st
  lists : ∀ o, o ∈ s.schedule → o ∈ s'.schedule

theorem Shrinks.refl (s : MemoryScheduleState) : Shrinks s s where
  jobs := fun _ job stored => ⟨job, job.state, stored, rfl⟩
  lists := fun _ present => present

theorem Shrinks.trans {s s' s'' : MemoryScheduleState} (first : Shrinks s s') (second : Shrinks s' s'') :
    Shrinks s s'' where
  jobs := by
    intro id job'' after
    obtain ⟨job', st', between, rfl⟩ := second.jobs id job'' after
    obtain ⟨job, st, before, rfl⟩ := first.jobs id job' between
    exact ⟨job, st', before, rfl⟩
  lists := fun o present => second.lists o (first.lists o present)

theorem shrinks_updateJob (s : MemoryScheduleState) (jobid : JobId) (st : JobState) :
    Shrinks s (s.updateJob jobid st).2 where
  jobs := by
    intro id job' stored
    rw [jobOf_updateJob] at stored
    split at stored
    · obtain ⟨job, before, rfl⟩ := Option.map_eq_some_iff.1 stored
      exact ⟨job, st, before, rfl⟩
    · exact ⟨job', job'.state, stored, rfl⟩
  lists := by simp

theorem shrinks_removeJob (s : MemoryScheduleState) (jobid : JobId) : Shrinks s (s.removeJob jobid).2 where
  jobs := by
    intro id job' stored
    rw [jobOf_removeJob] at stored
    split at stored
    · cases stored
    · exact ⟨job', job'.state, stored, rfl⟩
  lists := by
    intro o present
    unfold MemoryScheduleState.removeJob
    split
    · exact present
    · exact mem_removeFromOsts present

section Monitor

variable (m : JobMonitor) (env : RemoteEnv) (jobid : JobId)

theorem shrinks_stopJob : Shrinks m.scheduleState (m.stopJob jobid).2.scheduleState := by
  rcases m.stopJob_cases jobid with ⟨-, stop⟩ | ⟨-, stop⟩ <;> rw [stop]
  · exact shrinks_updateJob _ _ _
  · exact .refl _

theorem shrinks_handle (event : JobEvent) :
    Shrinks m.scheduleState (m.handle env jobid event).scheduleState := by
  cases event with
  | JOBSTART =>
    rw [handle]
    rcases m.startJob_cases env jobid with ⟨job, rule, -, -, -, start⟩ | ⟨-, start⟩ <;> rw [start]
    · exact shrinks_updateJob _ _ _
    · exact .refl _
  | JOBSTOP => exact (shrinks_stopJob m jobid).trans (shrinks_removeJob _ _)

theorem shrinks_deleteJob : Shrinks m.scheduleState (deleteJob m jobid).scheduleState := by
  rw [deleteJob_eq m jobid default]
  exact shrinks_handle { m with jobPriorityQueue := (m.jobPriorityQueue.remove jobid).2 } _ _ _

theorem shrinks_serveJobRemove (request : Rpc.DeleteRequest) :
    Shrinks m.scheduleState (serveJobRemove m request).2.scheduleState := by
  obtain ⟨ids, all⟩ := request
  show Shrinks m.scheduleState (ids.foldl deleteJob m).scheduleState
  induction ids generalizing m with
  | nil => exact .refl _
  | cons id ids ih => exact (shrinks_deleteJob m id).trans (ih _)

theorem shrinks_scheduler_removeJob : Shrinks m.scheduleState (QosPlanner.removeJob m jobid).2.scheduleState := by
  rcases removeJob_cases m jobid with ⟨-, result⟩ | ⟨-, result⟩
  · rw [result]
    exact shrinks_deleteJob m jobid
  · rw [result]
    exact .refl _

theorem shrinks_monitorIteration (now : TimePoint) :
    Shrinks m.scheduleState (m.monitorIteration env now).scheduleState := by
  rcases m.monitorIteration_cases env now with ⟨wt, queue, -, -, result⟩ | ⟨-, result⟩
  · rw [result]
    exact shrinks_handle { m with jobPriorityQueue := queue } _ _ _
  · rw [result]
    exact .refl _

end Monitor

/-! ## Within the limits -/

/-- What is known of every state of a run. -/
structure WithinLimits (limits : Limits) (m : JobMonitor) : Prop where
  fits : NotOvercommitted limits m.scheduleState
  listed : Listed m.scheduleState

theorem demand_shrinks {s s' : MemoryScheduleState} (shrinks : Shrinks s s') (id : JobId) (o : Ost)
    (t : TimePoint) : demand (s'.jobOf id) o t ≤ demand (s.jobOf id) o t := by
  cases stored : s'.jobOf id with
  | none => exact Nat.zero_le _
  | some job' =>
    obtain ⟨job, st, before, rfl⟩ := shrinks.jobs id job' stored
    rw [before]
    exact le_rfl

theorem WithinLimits.shrinks {limits : Limits} {m m' : JobMonitor} (within : WithinLimits limits m)
    (shrinks : Shrinks m.scheduleState m'.scheduleState) : WithinLimits limits m' where
  fits :=
    { within := fun o limit t found =>
        le_trans (Nat.cast_le.2 (load_mono fun id => demand_shrinks shrinks id o t))
          (within.fits.within o limit t found)
      limited := by
        intro id job' o stored named
        obtain ⟨job, st, before, rfl⟩ := shrinks.jobs id job' stored
        exact within.fits.limited id job o before named }
  listed := by
    intro id job' o stored named
    obtain ⟨job, st, before, rfl⟩ := shrinks.jobs id job' stored
    exact shrinks.lists o (within.listed id job o before named)

/-- The check of an OST, for a value that tells its load. -/
theorem TellsTheLoad.fits {limits : Limits} {s : MemoryScheduleState} {job : Job} {o : Ost} {limit : ℚ}
    {assumed : UInt32} (tells : TellsTheLoad s job o limit assumed) (found : limits[o]? = some limit)
    (enough : areEnoughResAvail limits job o assumed = true) (t : TimePoint) (covers : job.Covers t) :
    ((load s o t + job.minReadThroughputMB.toNat : Nat) : ℚ) ≤ limit := by
  have sum : (assumed + job.minReadThroughputMB).toNat = assumed.toNat + job.minReadThroughputMB.toNat := by
    rw [UInt32.toNat_add, Nat.mod_eq_of_lt tells.no_wrap]
  simp only [areEnoughResAvail, found, sum, decide_eq_true_eq] at enough
  refine le_trans ?_ (tells.no_rounding enough)
  exact Nat.cast_le.2 (Nat.add_le_add_right (tells.at_least t covers) _)

/-- An accepted job whose checks found values that tell the load. -/
theorem WithinLimits.scheduled {limits : Limits} {m : JobMonitor} (within : WithinLimits limits m) {job : Job}
    {unassigned : Nat → UInt32} (fresh : m.scheduleState.jobOf job.jobid = none)
    (checked : checkOsts limits m.scheduleState job unassigned 0 job.osts = true)
    (checks : ChecksTheLoad limits m (.scheduleJob job unassigned)) : WithinLimits limits (scheduled m job) := by
  rw [checkOsts_eq_true] at checked
  have known : ∀ o ∈ job.osts, o ∈ limits := by
    intro o named
    obtain ⟨k, found⟩ := List.mem_iff_getElem?.1 named
    have enough := checked k o found
    unfold areEnoughResAvail at enough
    split at enough
    · cases enough
    · rename_i limit found
      exact Std.ExtTreeMap.mem_iff_isSome_getElem?.2 (by simp [found])
  refine ⟨⟨fun o limit t found => ?_, fun id stored o held named => ?_⟩, fun id stored o held named => ?_⟩
  · show (load (m.scheduleState.addJob job.jobid (job.setState .SCHEDULED) job.osts).2 o t : ℚ) ≤ limit
    rw [load_addJob fresh, demand]
    split
    · rename_i takes
      obtain ⟨k, named⟩ := List.mem_iff_getElem?.1 takes.1
      have enough := checked k o named
      rw [Nat.zero_add] at enough
      have earlier : IsChecked limits m.scheduleState job unassigned k := fun j o' _ named' => by
        simpa using checked j o' named'
      exact (checks fresh k o limit named found earlier).fits found enough t takes.2
    · exact within.fits.within o limit t found
  · rw [jobOf_scheduled fresh id] at held
    split at held
    · cases held
      exact known o named
    · exact within.fits.limited id stored o held named
  · have lists : o ∈ (QosPlanner.scheduled m job).scheduleState.schedule ↔
        o ∈ job.osts ∨ o ∈ m.scheduleState.schedule := by
      rw [jobOf_eq_none] at fresh
      simp only [QosPlanner.scheduled, addJob, if_neg fresh]
      exact mem_foldl_addToOst _ _ _ _ _ _
    rw [lists]
    rw [jobOf_scheduled fresh id] at held
    split at held
    · cases held
      exact Or.inl named
    · exact Or.inr (within.listed id stored o held named)

theorem withinLimits_apply (limits : Limits) (m : JobMonitor) (op : PlannerOp) (within : WithinLimits limits m)
    (checks : ChecksTheLoad limits m op) : WithinLimits limits (op.apply limits m) := by
  cases op with
  | scheduleJob job unassigned =>
    rw [PlannerOp.apply]
    rcases scheduleJob_cases limits unassigned m job with ⟨checked, fresh, result⟩ | ⟨-, result⟩ <;> rw [result]
    · exact within.scheduled fresh checked checks
    · exact within
  | serveJobRemove request => exact within.shrinks (shrinks_serveJobRemove m request)
  | removeJob jobid => exact within.shrinks (shrinks_scheduler_removeJob m jobid)
  | monitor now env => exact within.shrinks (shrinks_monitorIteration m env now)

/-- **No overcommitment**, in every run whose checks find values that tell the load. -/
theorem never_overcommitted (limits : Limits) (ops : List PlannerOp)
    (nonneg : ∀ (o : Ost) (limit : ℚ), limits[o]? = some limit → 0 ≤ limit)
    (checks : Run.EachStep (PlannerOp.apply limits) (ChecksTheLoad limits) JobMonitor.empty ops) :
    Run.Always (PlannerOp.apply limits) (fun m => NotOvercommitted limits m.scheduleState)
      JobMonitor.empty ops := by
  refine Run.Always.mono (fun m within => within.fits)
    (checks.always (P := WithinLimits limits) (withinLimits_apply limits) ⟨⟨?_, ?_⟩, ?_⟩)
  · intro o limit t found
    show (load .empty o t : ℚ) ≤ limit
    rw [load_empty]
    exact_mod_cast nonneg o limit found
  · intro id job o stored
    simp [JobMonitor.empty] at stored
  · intro id job o stored
    simp [JobMonitor.empty] at stored

/-- Two jobs that share an OST with room for both, the second checked against the load of
the first. -/
theorem two_jobs_share_an_ost :
    Run.Always (PlannerOp.apply ((∅ : Limits).insert "OST_a" 100))
      (fun m => NotOvercommitted ((∅ : Limits).insert "OST_a" 100) m.scheduleState) JobMonitor.empty
      [.scheduleJob ⟨.INITIALIZED, "foo", 0, 10, ["OST_a"], 60⟩ (fun _ => 7),
        .scheduleJob ⟨.INITIALIZED, "bar", 5, 15, ["OST_a"], 40⟩ (fun _ => 60)] := by
  have single : ∀ (k : Nat) (o : Ost), ["OST_a"][k]? = some o → o = "OST_a" := by
    intro k o named
    simpa using List.mem_of_getElem? named
  have limit : ∀ (o : Ost) (limit : ℚ), ((∅ : Limits).insert "OST_a" 100)[o]? = some limit → limit = 100 := by
    intro o limit found
    rw [Std.ExtTreeMap.getElem?_insert] at found
    split at found
    · cases found; rfl
    · simp at found
  refine never_overcommitted _ _ (fun o l found => by rw [limit o l found]; norm_num) ⟨?_, ?_, trivial⟩
  · intro _ k o l named found _
    obtain rfl := single k o named
    obtain rfl := limit _ l found
    beta_reduce
    refine .of_small_limit (by norm_num) (fun t _ => ?_) (by decide +kernel)
    exact (load_empty "OST_a" t).trans_le (Nat.zero_le _)
  · intro _ k o l named found _
    obtain rfl := single k o named
    obtain rfl := limit _ l found
    beta_reduce
    refine .of_small_limit (by norm_num) (fun t _ => ?_) (by decide +kernel)
    rw [load, show jobIds _ = {"foo"} by decide +kernel, Finset.sum_singleton]
    rw [show MemoryScheduleState.jobOf _ "foo" = some ⟨.SCHEDULED, "foo", 0, 10, ["OST_a"], 60⟩ by decide +kernel]
    rw [demand]
    split
    · decide +kernel
    · exact Nat.zero_le _

/-- With zero in the uninitialised local, two jobs of 100 MB/s each are accepted under a limit
of 100 MB/s. -/
theorem zero_local_overcommits :
    ¬ Run.Always (PlannerOp.apply ((∅ : Limits).insert "OST_a" 100))
      (fun m => NotOvercommitted ((∅ : Limits).insert "OST_a" 100) m.scheduleState) JobMonitor.empty
      [.scheduleJob ⟨.INITIALIZED, "foo", 0, 10, ["OST_a"], 100⟩ (fun _ => 0),
        .scheduleJob ⟨.INITIALIZED, "bar", 0, 10, ["OST_a"], 100⟩ (fun _ => 0)] := by
  rintro ⟨-, -, fine⟩
  have within := fine.within "OST_a" 100 5 (by decide +kernel)
  rw [show load _ "OST_a" 5 = 200 by decide +kernel] at within
  norm_num at within

end QosPlanner
