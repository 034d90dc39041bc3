import QosPlanner.Schedule.Agreement

/-!
# The order of an OST's list

`AddJob` looks for the first entry that starts after the new job and inserts before it.
Nothing else moves an entry, and no call writes the start time of a stored object, so the
lists stay in the order of the start times. The entries that a call of `AddJob` makes in
one list stand together, behind everything that starts no later (`insertions_split`).
-/

namespace QosPlanner
set_option autoImplicit false

open MemoryScheduleState

/-! ## The scan -/

section Scan

variable (startTime : Ptr → TimePoint) (new : Ptr) (t : TimePoint)

/-- The scan goes on past the entries that start no later. -/
theorem insertByStart_append {earlier : List Ptr} (list : List Ptr) (passed : ∀ p ∈ earlier, startTime p ≤ t) :
    insertByStart startTime new t (earlier ++ list) = earlier ++ insertByStart startTime new t list := by
  induction earlier with
  | nil => rfl
  | cons p rest ih =>
    have noLater : ¬ startTime p > t := Int.not_lt.2 (passed p List.mem_cons_self)
    rw [List.cons_append, insertByStart, if_neg noLater, ih fun q member => passed q (List.mem_cons_of_mem _ member),
      List.cons_append]

/-- It stops at the first that starts later. -/
theorem insertByStart_later {later : List Ptr} (stops : ∀ p ∈ later, t < startTime p) :
    insertByStart startTime new t later = new :: later := by
  cases later with
  | nil => rfl
  | cons p rest => rw [insertByStart, if_pos (stops p List.mem_cons_self)]

/-- A list in order is what starts no later than `t`, then what starts after it. -/
theorem sorted_split {list : List Ptr} (sorted : list.Pairwise fun p q => startTime p ≤ startTime q) :
    ∃ earlier later, list = earlier ++ later ∧ (∀ p ∈ earlier, startTime p ≤ t) ∧ ∀ p ∈ later, t < startTime p := by
  induction list with
  | nil => exact ⟨[], [], by simp⟩
  | cons p rest ih =>
    obtain ⟨first, sorted⟩ := List.pairwise_cons.1 sorted
    by_cases later : t < startTime p
    · refine ⟨[], p :: rest, rfl, by simp, ?_⟩
      rintro q (_ | ⟨_, member⟩)
      · exact later
      · exact lt_of_lt_of_le later (first q member)
    · obtain ⟨earlier, rest', rfl, before, after⟩ := ih sorted
      refine ⟨p :: earlier, rest', rfl, ?_, after⟩
      rintro q (_ | ⟨_, member⟩)
      · exact Int.not_lt.1 later
      · exact before q member

/-- **The whole loop on one list.** With the new object starting at `t`, its entries stand
together, between what starts no later and what starts after it. -/
theorem insertions_split (startsAt : startTime new = t) (o : Ost) (osts : List Ost) (schedule : OstSchedule)
    {earlier later : List Ptr} (before : ∀ p ∈ earlier, startTime p ≤ t) (after : ∀ p ∈ later, t < startTime p)
    (split : listOf schedule o = earlier ++ later) :
    listOf (osts.foldl (addToOst startTime new t) schedule) o =
      earlier ++ List.replicate (osts.count o) new ++ later := by
  induction osts generalizing schedule earlier with
  | nil => simpa using split
  | cons ost rest ih =>
    rw [List.foldl_cons]
    by_cases same : ost = o
    · subst same
      have inserted : listOf (addToOst startTime new t schedule ost) ost = (earlier ++ [new]) ++ later := by
        rw [addToOst, listOf_insert, if_pos rfl, listOf_touch, split, insertByStart_append _ _ _ _ before,
          insertByStart_later _ _ _ after, List.append_assoc, List.singleton_append]
      have before' : ∀ p ∈ earlier ++ [new], startTime p ≤ t := by
        intro p member
        rcases List.mem_append.1 member with old | fresh
        · exact before p old
        · rw [List.mem_singleton.1 fresh, startsAt]
      rw [ih _ before' inserted, List.count_cons_self, List.replicate_succ]
      simp only [List.append_assoc, List.cons_append, List.nil_append]
    · rw [List.count_cons_of_ne same]
      exact ih _ before (by rw [addToOst, listOf_insert, if_neg same, listOf_touch, split])

end Scan

/-! ## The calls -/

/-- The calls on the schedule, `AddJob` with all its arguments. -/
inductive ScheduleCall where
  | addJob (jobid : JobId) (job : Job) (osts : List Ost)
  | removeJob (jobid : JobId)
  | updateJob (jobid : JobId) (newState : JobState)
  | reset

/-- The schedule after a call. -/
def ScheduleCall.apply (s : MemoryScheduleState) : ScheduleCall → MemoryScheduleState
  | .addJob jobid job osts => (s.addJob jobid job osts).2
  | .removeJob jobid => (s.removeJob jobid).2
  | .updateJob jobid newState => (s.updateJob jobid newState).2
  | .reset => s.reset

/-- Every list is in the order of the start times. -/
def Sorted (s : MemoryScheduleState) : Prop :=
  ∀ o : Ost, (s.ostList o).Pairwise fun p q => (s.object p).tstart ≤ (s.object q).tstart

/-- An accepted `AddJob` on one list: the `n` entries of the new object follow all that
start no later, and the others keep their order. -/
structure StableInsertion (s s' : MemoryScheduleState) (job : Job) (o : Ost) (n : Nat) : Prop where
  object : s'.object s.objects.length = job
  fresh : s.objects.length ∉ s.ostList o
  split : ∃ earlier later, s.ostList o = earlier ++ later ∧
    s'.ostList o = earlier ++ List.replicate n s.objects.length ++ later ∧
    (∀ p ∈ earlier, (s'.object p).tstart ≤ job.tstart) ∧ ∀ p ∈ later, job.tstart < (s'.object p).tstart

/-- A call that `AddJob` refuses changes nothing; one that it accepts inserts stably into
every list. The other calls insert nothing. -/
def InsertsStably (s : MemoryScheduleState) : ScheduleCall → Prop
  | .addJob jobid job osts =>
    (jobid ∈ s.jobs → s.addJob jobid job osts = (false, s)) ∧
    (jobid ∉ s.jobs → (s.addJob jobid job osts).1 = true ∧
      ∀ o, StableInsertion s (s.addJob jobid job osts).2 job o (osts.count o))
  | _ => True

/-- A list stays in order as long as the objects there are keep their start times. -/
theorem Sorted.list_in_order {s s' : MemoryScheduleState} (sorted : Sorted s)
    (starts : ∀ p < s.objects.length, (s'.object p).tstart = (s.object p).tstart) (o : Ost) :
    (s.ostList o).Pairwise fun p q => (s'.object p).tstart ≤ (s'.object q).tstart := by
  have valid := listOf_valid.1 s.schedule_valid o
  refine (sorted o).imp_of_mem ?_
  intro p q inP inQ ordered
  rw [starts p (valid p inP), starts q (valid q inQ)]
  exact ordered

theorem sorted_empty : Sorted MemoryScheduleState.empty := fun o => by
  simp [MemoryScheduleState.empty, ostList, listOf]

theorem stableInsertion_addJob {s : MemoryScheduleState} (sorted : Sorted s) (jobid : JobId) (job : Job)
    (osts : List Ost) (fresh : jobid ∉ s.jobs) (o : Ost) :
    StableInsertion s (s.addJob jobid job osts).2 job o (osts.count o) := by
  have absent := (jobOf_eq_none s jobid).2 fresh
  have newObject : (s.addJob jobid job osts).2.object s.objects.length = job := object_addJob_new s jobid absent
  have kept : ∀ p < s.objects.length, ((s.addJob jobid job osts).2.object p).tstart = (s.object p).tstart := by
    intro p valid
    rw [object_addJob_old s jobid valid]
  obtain ⟨earlier, later, split, before, after⟩ := sorted_split _ job.tstart (sorted.list_in_order kept o)
  refine ⟨newObject, fresh_not_listed s o, earlier, later, split, ?_, before, after⟩
  have lists : (s.addJob jobid job osts).2.ostList o =
      listOf (osts.foldl (addToOst (fun p => ((s.addJob jobid job osts).2.object p).tstart)
        s.objects.length job.tstart) s.schedule) o := by
    simp only [ostList, object, addJob_objects s jobid absent]
    simp only [addJob, if_neg fresh]
  rw [lists]
  exact insertions_split _ _ _ (by rw [newObject]) o osts s.schedule before after split

/-- A stable insertion leaves a list in order. -/
theorem StableInsertion.in_order {s s' : MemoryScheduleState} {job : Job} {o : Ost} {n : Nat}
    (inserted : StableInsertion s s' job o n)
    (inOrder : (s.ostList o).Pairwise fun p q => (s'.object p).tstart ≤ (s'.object q).tstart) :
    (s'.ostList o).Pairwise fun p q => (s'.object p).tstart ≤ (s'.object q).tstart := by
  obtain ⟨earlier, later, split, after, before, behind⟩ := inserted.split
  rw [split, List.pairwise_append] at inOrder
  obtain ⟨first, second, -⟩ := inOrder
  rw [after, List.append_assoc, List.pairwise_append, List.pairwise_append]
  have starts : ∀ p ∈ List.replicate n s.objects.length, (s'.object p).tstart = job.tstart := by
    intro p member
    rw [List.eq_of_mem_replicate member, inserted.object]
  refine ⟨first, ⟨List.pairwise_replicate.2 (Or.inr le_rfl), second, ?_⟩, ?_⟩
  · intro p new q old
    rw [starts p new]
    exact (behind q old).le
  · intro p old q member
    rcases List.mem_append.1 member with new | late
    · rw [starts q new]; exact before p old
    · exact (before p old).trans (behind q late).le

theorem sorted_addJob {s : MemoryScheduleState} (sorted : Sorted s) (jobid : JobId) (job : Job)
    (osts : List Ost) : Sorted (s.addJob jobid job osts).2 := by
  by_cases present : jobid ∈ s.jobs
  · rw [addJob_of_mem s jobid present]; exact sorted
  · intro o
    refine (stableInsertion_addJob sorted jobid job osts present o).in_order (sorted.list_in_order ?_ o)
    intro p valid
    rw [object_addJob_old s jobid valid]

/-- Every call keeps the lists in order. -/
theorem sorted_apply {s : MemoryScheduleState} (call : ScheduleCall) (sorted : Sorted s) : Sorted (call.apply s) := by
  cases call with
  | addJob jobid job osts => exact sorted_addJob sorted jobid job osts
  | removeJob jobid =>
    intro o
    rw [ScheduleCall.apply, ostList_removeJob]
    exact sorted.list_in_order (fun p _ => by rw [object_removeJob]) o
  | updateJob jobid st =>
    intro o
    have list : (s.updateJob jobid st).2.ostList o = s.ostList o := by simp [ostList]
    rw [ScheduleCall.apply, list]
    refine sorted.list_in_order ?_ o
    intro p valid
    rw [object_updateJob s jobid st p valid]
    split <;> rfl
  | reset => exact sorted_empty

theorem insertsStably {s : MemoryScheduleState} (call : ScheduleCall) (sorted : Sorted s) : InsertsStably s call := by
  cases call with
  | addJob jobid job osts =>
    refine ⟨addJob_of_mem s jobid, fun fresh => ⟨?_, stableInsertion_addJob sorted jobid job osts fresh⟩⟩
    exact (addJob_accepts s jobid).2 ((jobOf_eq_none s jobid).2 fresh)
  | removeJob _ => trivial
  | updateJob _ _ => trivial
  | reset => trivial

/-- **The lists stay sorted, and insertion is stable**, over any sequence of calls. -/
theorem lists_stay_sorted (calls : List ScheduleCall) :
    Run.Always ScheduleCall.apply Sorted MemoryScheduleState.empty calls ∧
      Run.EachStep ScheduleCall.apply InsertsStably MemoryScheduleState.empty calls :=
  ⟨Run.always_of_keeps (fun _ call sorted => sorted_apply call sorted) sorted_empty,
    Run.eachStep_of_inv (fun _ call sorted => sorted_apply call sorted)
      (fun _ call sorted => insertsStably call sorted) sorted_empty⟩

end QosPlanner
