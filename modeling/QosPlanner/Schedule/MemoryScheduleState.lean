import QosPlanner.Schedule.Job

/-!
# The schedule

`MemoryScheduleState` (`src/common/MemoryScheduleState.cpp`) keeps each accepted job
as one heap object that two indexes point to: `jobs_` by job id, and `schedule_` by
OST, a list in the order of the start times. The model keeps the pointers, since which
index an operation goes through, and whether it works on an index or on a copy of a
part of it, decides what the other index shows afterwards. A pointer is a position in
the list of the objects allocated so far; the validity fields say that no index holds a
dangling pointer, and `jobs_inj` that no two ids share an object.
-/

namespace QosPlanner
set_option autoImplicit false

/-- The address of a `Job` object. -/
abbrev Ptr := Nat

/-- The job object at an address. -/
def objectAt (objects : List Job) (p : Ptr) : Job := objects.getD p default

/-- The type of `schedule_`: the lists of jobs, by OST. -/
abbrev OstSchedule := Std.ExtTreeMap Ost (List Ptr)

structure MemoryScheduleState where
  /-- The objects allocated with `new Job(job)`. -/
  objects : List Job
  /-- `schedule_` -/
  schedule : OstSchedule
  /-- `jobs_` -/
  jobs : Std.ExtTreeMap JobId Ptr
  schedule_valid : ∀ (ost : Ost) (list : List Ptr) (p : Ptr),
    schedule[ost]? = some list → p ∈ list → p < objects.length
  jobs_valid : ∀ (jobid : JobId) (p : Ptr), jobs[jobid]? = some p → p < objects.length
  jobs_inj : ∀ (id id' : JobId) (p : Ptr), jobs[id]? = some p → jobs[id']? = some p → id = id'

/-! ## Maps of lists -/

/-- The list an OST maps to, an absent one read as empty. -/
def listOf (schedule : OstSchedule) (ost : Ost) : List Ptr :=
  (schedule[ost]?).getD []

/-- `schedule_[ost]`: `operator[]` inserts an empty list if there is none. -/
def touch (schedule : OstSchedule) (ost : Ost) : OstSchedule :=
  if ost ∈ schedule then schedule else schedule.insert ost []

@[simp] theorem listOf_touch (schedule : OstSchedule) (ost o : Ost) :
    listOf (touch schedule ost) o = listOf schedule o := by
  unfold listOf touch
  split
  · rfl
  · rename_i absent
    rw [Std.ExtTreeMap.getElem?_insert]
    split
    · rename_i same
      rw [Std.LawfulEqCmp.eq_of_compare same] at absent
      simp [Std.ExtTreeMap.getElem?_eq_none absent]
    · rfl

@[simp] theorem listOf_insert (schedule : OstSchedule) (ost o : Ost) (list : List Ptr) :
    listOf (schedule.insert ost list) o = if ost = o then list else listOf schedule o := by
  unfold listOf
  rw [Std.ExtTreeMap.getElem?_insert]
  by_cases same : ost = o <;> simp [same]

theorem mem_touch {schedule : OstSchedule} {ost o : Ost} :
    o ∈ touch schedule ost ↔ o = ost ∨ o ∈ schedule := by
  unfold touch
  split
  · rename_i present
    constructor
    · exact Or.inr
    · rintro (rfl | h)
      · exact present
      · exact h
  · rw [Std.ExtTreeMap.mem_insert, Std.compare_eq_iff_eq, eq_comm]

theorem listOf_valid {schedule : OstSchedule} {n : Nat} :
    (∀ (ost : Ost) (list : List Ptr) (p : Ptr), schedule[ost]? = some list → p ∈ list → p < n) ↔
      ∀ (ost : Ost) (p : Ptr), p ∈ listOf schedule ost → p < n := by
  constructor
  · intro valid ost p member
    unfold listOf at member
    cases found : schedule[ost]? with
    | none => simp [found] at member
    | some list => exact valid ost list p found (by simpa [found] using member)
  · intro valid ost list p found member
    exact valid ost p (by simpa [listOf, found] using member)

/-! ## `AddJob` -/

/-- The scan of `AddJob` and its `insert`: `new` goes before the first entry of the list
that starts after `t`. -/
def insertByStart (startTime : Ptr → TimePoint) (new : Ptr) (t : TimePoint) : List Ptr → List Ptr
  | [] => [new]
  | p :: rest => if startTime p > t then new :: p :: rest else p :: insertByStart startTime new t rest

theorem insertByStart_perm (startTime : Ptr → TimePoint) (new : Ptr) (t : TimePoint) (list : List Ptr) :
    (insertByStart startTime new t list).Perm (new :: list) := by
  induction list with
  | nil => rfl
  | cons p rest ih =>
    unfold insertByStart
    split
    · rfl
    · exact (ih.cons p).trans (.swap new p rest)

/-- The body of `AddJob`'s loop over the OSTs. -/
def addToOst (startTime : Ptr → TimePoint) (new : Ptr) (t : TimePoint)
    (schedule : OstSchedule) (ost : Ost) : OstSchedule :=
  let schedule := touch schedule ost
  schedule.insert ost (insertByStart startTime new t (listOf schedule ost))

/-- The whole loop puts `new` into each list as often as the OST is named. -/
theorem foldl_addToOst_perm (startTime : Ptr → TimePoint) (new : Ptr) (t : TimePoint) (o : Ost)
    (osts : List Ost) (schedule : OstSchedule) :
    (listOf (osts.foldl (addToOst startTime new t) schedule) o).Perm
      (List.replicate (osts.count o) new ++ listOf schedule o) := by
  induction osts generalizing schedule with
  | nil => simp
  | cons ost rest ih =>
    refine (ih _).trans ?_
    simp only [addToOst, listOf_touch, listOf_insert]
    by_cases same : ost = o
    · subst same
      rw [if_pos rfl, List.count_cons_self, List.replicate_succ]
      exact ((insertByStart_perm startTime new t _).append_left _).trans List.perm_middle
    · rw [if_neg same, List.count_cons_of_ne same]

/-- The loop makes a list for each OST it is given, and keeps those there are. -/
theorem mem_foldl_addToOst (startTime : Ptr → TimePoint) (new : Ptr) (t : TimePoint) (o : Ost)
    (osts : List Ost) (schedule : OstSchedule) :
    o ∈ osts.foldl (addToOst startTime new t) schedule ↔ o ∈ osts ∨ o ∈ schedule := by
  induction osts generalizing schedule with
  | nil => simp
  | cons ost rest ih =>
    rw [List.foldl_cons, ih, addToOst, Std.ExtTreeMap.mem_insert, mem_touch]
    simp only [Std.compare_eq_iff_eq, List.mem_cons]
    tauto

/-! ## `RemoveJob` -/

/-- The body of `RemoveJob`'s loop over the OSTs. `ost_job_list` is a copy of the list,
and the entry is erased from the copy; the result is the map and that local. -/
def removeFromOst (jobidOf : Ptr → JobId) (jobid : JobId)
    (schedule : OstSchedule) (ost : Ost) : OstSchedule × List Ptr :=
  let schedule := touch schedule ost
  let ostJobList := (listOf schedule ost).eraseP fun p => jobidOf p = jobid
  (schedule, ostJobList)

/-- The loop of `RemoveJob`: the local of each iteration ends with it. -/
def removeFromOsts (jobidOf : Ptr → JobId) (jobid : JobId)
    (schedule : OstSchedule) (osts : List Ost) : OstSchedule :=
  osts.foldl (fun schedule ost => (removeFromOst jobidOf jobid schedule ost).1) schedule

@[simp] theorem listOf_removeFromOsts (jobidOf : Ptr → JobId) (jobid : JobId)
    (schedule : OstSchedule) (osts : List Ost) (o : Ost) :
    listOf (removeFromOsts jobidOf jobid schedule osts) o = listOf schedule o := by
  unfold removeFromOsts
  induction osts generalizing schedule with
  | nil => rfl
  | cons ost rest ih => rw [List.foldl_cons, ih]; exact listOf_touch schedule ost o

theorem mem_removeFromOsts {jobidOf : Ptr → JobId} {jobid : JobId}
    {schedule : OstSchedule} {osts : List Ost} {o : Ost} (present : o ∈ schedule) :
    o ∈ removeFromOsts jobidOf jobid schedule osts := by
  unfold removeFromOsts
  induction osts generalizing schedule with
  | nil => exact present
  | cons ost rest ih => exact ih (mem_touch.2 (Or.inr present))

/-! ## The operations -/

namespace MemoryScheduleState

/-- The state of a fresh `MemoryScheduleState`. -/
def empty : MemoryScheduleState where
  objects := []
  schedule := ∅
  jobs := ∅
  schedule_valid := by simp
  jobs_valid := by simp
  jobs_inj := by simp

/-- The job object at an address. -/
def object (s : MemoryScheduleState) (p : Ptr) : Job := objectAt s.objects p

/-- `GetOSTState`; `none` is the null pointer. -/
def getOSTState (s : MemoryScheduleState) (ost : Ost) : Option (List Ptr) := s.schedule[ost]?

/-- `GetOSTState` with an absent list read as empty. -/
def ostList (s : MemoryScheduleState) (ost : Ost) : List Ptr := listOf s.schedule ost

/-- The job `jobs_` holds under an id. -/
def jobOf (s : MemoryScheduleState) (jobid : JobId) : Option Job := (s.jobs[jobid]?).map s.object

/-- `AddJob`. -/
def addJob (s : MemoryScheduleState) (jobid : JobId) (job : Job) (osts : List Ost) :
    Bool × MemoryScheduleState :=
  if jobid ∈ s.jobs then (false, s)
  else
    let objects := s.objects ++ [job]
    let toInsertJob := s.objects.length
    (true,
      { objects
        schedule := osts.foldl (addToOst (fun p => (objectAt objects p).tstart) toInsertJob job.tstart) s.schedule
        jobs := s.jobs.insert jobid toInsertJob
        schedule_valid := by
          rw [listOf_valid]
          intro ost p member
          have old := (listOf_valid.1 s.schedule_valid) ost p
          simp only [objects, toInsertJob, List.length_append, List.length_singleton] at *
          rcases List.mem_append.1 ((foldl_addToOst_perm _ _ _ ost osts s.schedule).mem_iff.1 member) with new | kept
          · rw [List.eq_of_mem_replicate new]; exact Nat.lt_succ_self _
          · exact Nat.lt_succ_of_lt (old kept)
        jobs_valid := by
          intro id p found
          have old := s.jobs_valid id p
          simp only [objects, toInsertJob, List.length_append, List.length_singleton] at *
          rw [Std.ExtTreeMap.getElem?_insert] at found
          split at found
          · cases found; exact Nat.lt_succ_self _
          · exact Nat.lt_succ_of_lt (old found)
        jobs_inj := by
          intro id id' p found found'
          simp only [toInsertJob, Std.ExtTreeMap.getElem?_insert, Std.compare_eq_iff_eq] at found found'
          split at found <;> split at found'
          · simp_all
          · cases found; exact absurd (s.jobs_valid id' _ found') (Nat.lt_irrefl _)
          · cases found'; exact absurd (s.jobs_valid id _ found) (Nat.lt_irrefl _)
          · exact s.jobs_inj id id' p found found' })

/-- `RemoveJob`. The `Job` object is not deleted. -/
def removeJob (s : MemoryScheduleState) (jobid : JobId) : Bool × MemoryScheduleState :=
  match s.jobs[jobid]? with
  | none => (false, s)
  | some job =>
    (true,
      { objects := s.objects
        schedule := removeFromOsts (fun p => (s.object p).jobid) jobid s.schedule (s.object job).osts
        jobs := s.jobs.erase jobid
        schedule_valid := by
          rw [listOf_valid]
          intro ost p member
          rw [listOf_removeFromOsts] at member
          exact (listOf_valid.1 s.schedule_valid) ost p member
        jobs_valid := by
          intro id p found
          rw [Std.ExtTreeMap.getElem?_erase] at found
          split at found
          · cases found
          · exact s.jobs_valid id p found
        jobs_inj := by
          intro id id' p found found'
          rw [Std.ExtTreeMap.getElem?_erase] at found found'
          split at found <;> split at found'
          · cases found
          · cases found
          · cases found'
          · exact s.jobs_inj id id' p found found' })

/-- `UpdateJob`. -/
def updateJob (s : MemoryScheduleState) (jobid : JobId) (newState : JobState) : Bool × MemoryScheduleState :=
  match s.jobs[jobid]? with
  | none => (false, s)
  | some p =>
    (true,
      { objects := s.objects.modify p (·.setState newState)
        schedule := s.schedule
        jobs := s.jobs
        schedule_valid := by simpa using s.schedule_valid
        jobs_valid := by simpa using s.jobs_valid
        jobs_inj := s.jobs_inj })

/-- `Reset`: the stored objects are deleted and both indexes cleared. -/
def reset (_ : MemoryScheduleState) : MemoryScheduleState := empty

/-- `GetJobThroughput`; `none` is a false result. -/
def getJobThroughput (s : MemoryScheduleState) (jobid : JobId) : Option UInt32 :=
  (s.jobOf jobid).map (·.minReadThroughputMB)

/-- `GetJobStatus`. -/
def getJobStatus (s : MemoryScheduleState) (jobid : JobId) : Option JobState :=
  (s.jobOf jobid).map (·.state)

/-- `GetJobEnd`. -/
def getJobEnd (s : MemoryScheduleState) (jobid : JobId) : Option TimePoint :=
  (s.jobOf jobid).map (·.tend)

/-- `GetJobOstIds`, appending to `osts_out`; a false result appends nothing. -/
def getJobOstIds (s : MemoryScheduleState) (jobid : JobId) (ostsOut : List Ost) : Bool × List Ost :=
  match s.jobOf jobid with
  | none => (false, ostsOut)
  | some job => (true, ostsOut ++ job.osts)

/-- `GetAllJobs`: copies of the jobs, by id in ascending order. -/
def getAllJobs (s : MemoryScheduleState) : List (JobId × Job) :=
  s.jobs.toList.map fun entry => (entry.1, s.object entry.2)

/-! ### What `jobs_` holds after an operation -/

section JobOf

variable (s : MemoryScheduleState) (jobid id : JobId)

@[simp] theorem jobOf_empty : empty.jobOf id = none := by simp [empty, jobOf]

theorem jobOf_eq_none : s.jobOf id = none ↔ id ∉ s.jobs := by
  simp [jobOf]

theorem jobOf_eq_some {job : Job} : s.jobOf id = some job ↔ ∃ p, s.jobs[id]? = some p ∧ s.object p = job := by
  simp [jobOf]

theorem addJob_of_mem {job : Job} {osts : List Ost} (present : jobid ∈ s.jobs) :
    s.addJob jobid job osts = (false, s) := by
  simp [addJob, present]

theorem addJob_accepts {job : Job} {osts : List Ost} :
    (s.addJob jobid job osts).1 = true ↔ s.jobOf jobid = none := by
  rw [jobOf_eq_none]
  unfold addJob
  split <;> simp_all

theorem addJob_jobs {job : Job} {osts : List Ost} (fresh : s.jobOf jobid = none) :
    (s.addJob jobid job osts).2.jobs = s.jobs.insert jobid s.objects.length := by
  rw [jobOf_eq_none] at fresh
  simp [addJob, fresh]

theorem addJob_objects {job : Job} {osts : List Ost} (fresh : s.jobOf jobid = none) :
    (s.addJob jobid job osts).2.objects = s.objects ++ [job] := by
  rw [jobOf_eq_none] at fresh
  simp [addJob, fresh]

/-- Objects keep their address when one more is allocated. -/
theorem object_addJob_old {job : Job} {osts : List Ost} {p : Ptr} (valid : p < s.objects.length) :
    (s.addJob jobid job osts).2.object p = s.object p := by
  unfold addJob
  split
  · rfl
  · simp only [object, objectAt, List.getD_eq_getElem?_getD, List.getElem?_append_left valid]

/-- The new object is a copy of the job. -/
theorem object_addJob_new {job : Job} {osts : List Ost} (fresh : s.jobOf jobid = none) :
    (s.addJob jobid job osts).2.object s.objects.length = job := by
  rw [object, addJob_objects s jobid fresh]
  simp [objectAt]

/-- An accepted `AddJob` stores a copy of the job under its id. -/
theorem jobOf_addJob {job : Job} {osts : List Ost} (fresh : s.jobOf jobid = none) :
    (s.addJob jobid job osts).2.jobOf id = if jobid = id then some job else s.jobOf id := by
  simp only [jobOf, addJob_jobs s jobid fresh, Std.ExtTreeMap.getElem?_insert, Std.compare_eq_iff_eq]
  split
  · rw [Option.map_some, object_addJob_new s jobid fresh]
  · cases found : s.jobs[id]? with
    | none => rfl
    | some p => rw [Option.map_some, Option.map_some, object_addJob_old s jobid (s.jobs_valid id p found)]

/-- `RemoveJob` leaves `jobs_` without the id, whatever it returns. -/
@[simp] theorem removeJob_jobs : (s.removeJob jobid).2.jobs = s.jobs.erase jobid := by
  unfold removeJob
  split
  · rename_i absent
    apply Std.ExtTreeMap.ext_getElem?
    intro k
    rw [Std.ExtTreeMap.getElem?_erase]
    split
    · rename_i same; rw [← Std.LawfulEqCmp.eq_of_compare same, absent]
    · rfl
  · rfl

@[simp] theorem removeJob_objects : (s.removeJob jobid).2.objects = s.objects := by
  unfold removeJob; split <;> rfl

@[simp] theorem object_removeJob (p : Ptr) : (s.removeJob jobid).2.object p = s.object p := by
  simp [object]

@[simp] theorem ostList_removeJob (o : Ost) : (s.removeJob jobid).2.ostList o = s.ostList o := by
  unfold removeJob ostList; split <;> simp

theorem jobOf_removeJob :
    (s.removeJob jobid).2.jobOf id = if jobid = id then none else s.jobOf id := by
  simp only [jobOf, removeJob_jobs, Std.ExtTreeMap.getElem?_erase, Std.compare_eq_iff_eq]
  split
  · rfl
  · cases s.jobs[id]? <;> simp

@[simp] theorem updateJob_jobs (st : JobState) : (s.updateJob jobid st).2.jobs = s.jobs := by
  unfold updateJob; split <;> rfl

@[simp] theorem updateJob_schedule (st : JobState) : (s.updateJob jobid st).2.schedule = s.schedule := by
  unfold updateJob; split <;> rfl

theorem updateJob_fst (st : JobState) : (s.updateJob jobid st).1 = (s.jobOf jobid).isSome := by
  unfold updateJob jobOf
  split <;> simp_all

/-- `UpdateJob` writes one object, the one `jobs_` holds under the id. -/
theorem object_updateJob (st : JobState) (p : Ptr) (valid : p < s.objects.length) :
    (s.updateJob jobid st).2.object p =
      if s.jobs[jobid]? = some p then (s.object p).setState st else s.object p := by
  unfold updateJob
  split
  · rename_i absent; simp [absent]
  · rename_i q found
    rw [found]
    simp only [object, objectAt, List.getD_eq_getElem?_getD, List.getElem?_modify, Option.some.injEq]
    split <;> simp [valid]

theorem jobOf_updateJob (st : JobState) :
    (s.updateJob jobid st).2.jobOf id =
      if jobid = id then (s.jobOf id).map (·.setState st) else s.jobOf id := by
  simp only [jobOf, updateJob_jobs]
  cases found : s.jobs[id]? with
  | none => simp
  | some p =>
    simp only [Option.map_some, object_updateJob s jobid st p (s.jobs_valid id p found)]
    by_cases same : jobid = id
    · subst same; simp [found]
    · have other : s.jobs[jobid]? ≠ some p := fun h => same (s.jobs_inj jobid id p h found)
      simp [same, other]

end JobOf

end MemoryScheduleState

end QosPlanner
