import QosPlanner.Run.Always
import QosPlanner.Schedule.MemoryScheduleState

/-!
# Whether the two indexes of the schedule agree

`Agree` is what a reader of the two indexes expects: the list of an OST holds exactly
the objects of `jobs_` that name the OST, each as often as the job names it. Since the
entries are the objects themselves, an entry shows the state its job has.

`AddJob`, `UpdateJob` and `Reset` keep `Agree`. `RemoveJob` erases the job from
`jobs_`, but its loop erases from a copy of each list, so the entries stay
(`ostList_removeJob`) and the indexes agree afterwards only if the job was on no list
(`agree_removeJob_iff`).
-/

namespace QosPlanner
set_option autoImplicit false

open MemoryScheduleState

/-- The calls on the schedule, `AddJob` in the form the schedulers use. -/
inductive ScheduleOp where
  | addJob (job : Job)
  | removeJob (jobid : JobId)
  | updateJob (jobid : JobId) (newState : JobState)
  | reset

/-- The schedule after a call. -/
def ScheduleOp.apply (s : MemoryScheduleState) : ScheduleOp → MemoryScheduleState
  | .addJob job => (s.addJob job.jobid job job.osts).2
  | .removeJob jobid => (s.removeJob jobid).2
  | .updateJob jobid newState => (s.updateJob jobid newState).2
  | .reset => s.reset

/-- The lists and `jobs_` hold the same jobs. -/
structure Agree (s : MemoryScheduleState) : Prop where
  listed : ∀ (jobid : JobId) (p : Ptr) (o : Ost), s.jobs[jobid]? = some p →
    (s.ostList o).count p = (s.object p).osts.count o
  stored : ∀ (o : Ost) (p : Ptr), p ∈ s.ostList o → ∃ jobid : JobId, s.jobs[jobid]? = some p

/-- The call removes no job that is on some list. -/
def RemovesNoListed (s : MemoryScheduleState) : ScheduleOp → Prop
  | .removeJob jobid => ∀ job, s.jobOf jobid = some job → job.osts = []
  | _ => True

theorem agree_empty : Agree MemoryScheduleState.empty where
  listed := by simp [MemoryScheduleState.empty]
  stored := by simp [MemoryScheduleState.empty, ostList, listOf]

/-- The lists after an accepted `AddJob`. -/
theorem ostList_addJob (s : MemoryScheduleState) {jobid : JobId} {job : Job} (osts : List Ost)
    (fresh : s.jobOf jobid = none) (o : Ost) :
    ((s.addJob jobid job osts).2.ostList o).Perm
      (List.replicate (osts.count o) s.objects.length ++ s.ostList o) := by
  rw [jobOf_eq_none] at fresh
  simp only [addJob, if_neg fresh, ostList]
  exact foldl_addToOst_perm _ _ _ o osts s.schedule

/-- A fresh address is on no list. -/
theorem fresh_not_listed (s : MemoryScheduleState) (o : Ost) : s.objects.length ∉ s.ostList o :=
  fun member => Nat.lt_irrefl _ (listOf_valid.1 s.schedule_valid o _ member)

theorem agree_addJob {s : MemoryScheduleState} (agree : Agree s) (job : Job) :
    Agree (s.addJob job.jobid job job.osts).2 := by
  by_cases fresh : s.jobOf job.jobid = none
  · have jobs : (s.addJob job.jobid job job.osts).2.jobs = _ := addJob_jobs s job.jobid fresh
    constructor
    · intro jobid p o found
      rw [(ostList_addJob s job.osts fresh o).count_eq, List.count_append, List.count_replicate]
      rw [jobs, Std.ExtTreeMap.getElem?_insert] at found
      split at found
      · cases found
        rw [object_addJob_new s job.jobid fresh, List.count_eq_zero.2 (fresh_not_listed s o)]
        simp
      · have valid := s.jobs_valid jobid p found
        have older : s.objects.length ≠ p := (Nat.ne_of_lt valid).symm
        rw [object_addJob_old s job.jobid valid, ← agree.listed jobid p o found]
        simp [older]
    · intro o p member
      rw [jobs]
      rcases List.mem_append.1 ((ostList_addJob s job.osts fresh o).mem_iff.1 member) with new | old
      · exact ⟨job.jobid, by simp [List.eq_of_mem_replicate new]⟩
      · obtain ⟨jobid, found⟩ := agree.stored o p old
        have other : job.jobid ≠ jobid := by
          rintro rfl
          simp [jobOf, found] at fresh
        exact ⟨jobid, by simp [Std.ExtTreeMap.getElem?_insert, other, found]⟩
  · have present : job.jobid ∈ s.jobs := by simpa [jobOf_eq_none] using fresh
    rwa [addJob_of_mem s job.jobid present]

theorem agree_updateJob {s : MemoryScheduleState} (agree : Agree s) (jobid : JobId) (st : JobState) :
    Agree (s.updateJob jobid st).2 := by
  have lists : ∀ o, (s.updateJob jobid st).2.ostList o = s.ostList o := by simp [ostList]
  constructor
  · intro id p o found
    rw [updateJob_jobs] at found
    rw [lists, agree.listed id p o found, object_updateJob s jobid st p (s.jobs_valid id p found)]
    split <;> rfl
  · intro o p member
    rw [lists] at member
    rw [updateJob_jobs]
    exact agree.stored o p member

/-- **`RemoveJob` and the indexes.** The entries of the removed job stay in the lists, so
the indexes agree afterwards iff there were none. -/
theorem agree_removeJob_iff {s : MemoryScheduleState} (agree : Agree s) (jobid : JobId) :
    Agree (s.removeJob jobid).2 ↔ ∀ job, s.jobOf jobid = some job → job.osts = [] := by
  constructor
  · intro after job stored
    obtain ⟨p, found, rfl⟩ := (jobOf_eq_some s jobid).1 stored
    refine List.eq_nil_iff_forall_not_mem.2 fun o named => ?_
    have entry : p ∈ (s.removeJob jobid).2.ostList o := by
      rw [ostList_removeJob, ← List.count_pos_iff, agree.listed jobid p o found]
      exact List.count_pos_iff.2 named
    obtain ⟨id, left⟩ := after.stored o p entry
    rw [removeJob_jobs, Std.ExtTreeMap.getElem?_erase] at left
    split at left
    · cases left
    · rename_i other
      exact other (by rw [s.jobs_inj jobid id p found left]; exact Std.ReflCmp.compare_self)
  · intro unlisted
    constructor
    · intro id p o found
      rw [removeJob_jobs, Std.ExtTreeMap.getElem?_erase] at found
      split at found
      · cases found
      · rw [ostList_removeJob, object_removeJob, agree.listed id p o found]
    · intro o p member
      rw [ostList_removeJob] at member
      obtain ⟨id, found⟩ := agree.stored o p member
      refine ⟨id, ?_⟩
      rw [removeJob_jobs, Std.ExtTreeMap.getElem?_erase]
      split
      · rename_i same
        have same := Std.LawfulEqCmp.eq_of_compare same
        subst same
        have none := unlisted (s.object p) ((jobOf_eq_some s jobid).2 ⟨p, found, rfl⟩)
        have count := agree.listed jobid p o found
        rw [none, List.count_nil, List.count_eq_zero] at count
        exact absurd member count
      · exact found

/-- One call keeps the indexes in agreement iff it removes no job that is on a list. -/
theorem agree_apply_iff {s : MemoryScheduleState} (op : ScheduleOp) (agree : Agree s) :
    Agree (op.apply s) ↔ RemovesNoListed s op := by
  cases op with
  | addJob job => exact iff_of_true (agree_addJob agree job) trivial
  | removeJob jobid => exact agree_removeJob_iff agree jobid
  | updateJob jobid st => exact iff_of_true (agree_updateJob agree jobid st) trivial
  | reset => exact iff_of_true agree_empty trivial

/-- **When the indexes agree.** Over any sequence of calls, the lists and `jobs_` hold the
same jobs in every state reached iff no call removes a job that names an OST. -/
theorem indexes_agree_iff (ops : List ScheduleOp) :
    Run.Always ScheduleOp.apply Agree MemoryScheduleState.empty ops ↔
      Run.EachStep ScheduleOp.apply RemovesNoListed MemoryScheduleState.empty ops :=
  Run.always_iff_eachStep (I := fun _ => True) (fun _ _ _ => trivial)
    (fun _ op _ agree => agree_apply_iff op agree) trivial agree_empty

/-- Adding a job on an OST and removing it again leaves its entry behind. -/
theorem indexes_disagree_after_remove :
    ¬ Run.Always ScheduleOp.apply Agree MemoryScheduleState.empty
      [.addJob ⟨.SCHEDULED, "foo", 0, 10, ["OST_a"], 42⟩, .removeJob "foo"] := by
  rintro ⟨-, -, agree⟩
  obtain ⟨jobid, found⟩ := agree.stored "OST_a" 0 (by decide)
  simp [ScheduleOp.apply, addJob, removeJob, MemoryScheduleState.empty] at found

end QosPlanner
