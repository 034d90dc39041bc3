import QosPlanner.Schedule.Sorted
import QosPlanner.Sort.Stable

/-!
# The schedule as a ledger

What the schedule is for, without its pointers and indexes: a ledger of the accepted jobs, in
the order of their acceptance, in which a job that is removed is struck out. The jobs by id
are the entries that are not struck out; the list of an OST is the stable sort of all
entries that were made for it, struck out or not, since `RemoveJob` takes nothing from the
lists. It even makes lists, empty ones: for the OSTs that a removed job names itself, which
need not be those it was added for.

`MemoryScheduleState` refines the ledger: over any calls it gives the answers of the ledger
(`schedule_refines_ledger`).
-/

namespace QosPlanner
set_option autoImplicit false

open MemoryScheduleState

/-- An accepted job, with the id and the OSTs it was added for. -/
structure Entry where
  jobid : JobId
  job : Job
  osts : List Ost
  /-- It has not been removed. -/
  stored : Bool

namespace Entry

/-- The entry is the one stored under an id. -/
def Holds (e : Entry) (jobid : JobId) : Prop := e.stored = true ∧ e.jobid = jobid

instance (e : Entry) (jobid : JobId) : Decidable (e.Holds jobid) := inferInstanceAs (Decidable (_ ∧ _))

/-- The entry has made a list for the OST: as it was added, or as it was removed. -/
def Lists (e : Entry) (o : Ost) : Prop := o ∈ e.osts ∨ e.stored = false ∧ o ∈ e.job.osts

instance (e : Entry) (o : Ost) : Decidable (e.Lists o) := inferInstanceAs (Decidable (_ ∨ _))

/-- The entry after `RemoveJob`, and after `UpdateJob`. -/
def strike (jobid : JobId) (e : Entry) : Entry := if e.Holds jobid then { e with stored := false } else e

def update (jobid : JobId) (newState : JobState) (e : Entry) : Entry :=
  if e.Holds jobid then { e with job := e.job.setState newState } else e

@[simp] theorem strike_job (jobid : JobId) (e : Entry) : (e.strike jobid).job = e.job := by
  unfold strike; split <;> rfl

@[simp] theorem strike_osts (jobid : JobId) (e : Entry) : (e.strike jobid).osts = e.osts := by
  unfold strike; split <;> rfl

@[simp] theorem update_osts (jobid : JobId) (newState : JobState) (e : Entry) :
    (e.update jobid newState).osts = e.osts := by
  unfold update; split <;> rfl

theorem holds_strike (jobid id : JobId) (e : Entry) : (e.strike jobid).Holds id ↔ e.Holds id ∧ id ≠ jobid := by
  unfold strike
  split
  · rename_i holds
    refine iff_of_false (fun same => by cases same.1) fun both => both.2 ?_
    exact both.1.2.symm.trans holds.2
  · rename_i other
    refine ⟨fun holds => ⟨holds, ?_⟩, And.left⟩
    rintro rfl
    exact other holds

theorem holds_update (jobid id : JobId) (newState : JobState) (e : Entry) :
    (e.update jobid newState).Holds id ↔ e.Holds id := by
  unfold update; split <;> rfl

theorem lists_update (jobid : JobId) (newState : JobState) (e : Entry) (o : Ost) :
    (e.update jobid newState).Lists o ↔ e.Lists o := by
  unfold update; split <;> rfl

/-- Striking out the entry makes lists for the OSTs its job names. -/
theorem lists_strike (jobid : JobId) (e : Entry) (o : Ost) :
    (e.strike jobid).Lists o ↔ e.Lists o ∨ e.Holds jobid ∧ o ∈ e.job.osts := by
  unfold strike Lists
  split
  · rename_i holds
    simp [holds, holds.1]
  · rename_i other
    simp [other]

end Entry

abbrev Ledger := List Entry

namespace Ledger

/-- Some entry is stored under the id. -/
def Contains (ledger : Ledger) (jobid : JobId) : Prop := ∃ e ∈ ledger, e.Holds jobid

instance (ledger : Ledger) (jobid : JobId) : Decidable (ledger.Contains jobid) :=
  inferInstanceAs (Decidable (∃ e ∈ ledger, _))

def apply (ledger : Ledger) : ScheduleCall → Ledger
  | .addJob jobid job osts => if ledger.Contains jobid then ledger else ledger ++ [⟨jobid, job, osts, true⟩]
  | .removeJob jobid => ledger.map (·.strike jobid)
  | .updateJob jobid newState => ledger.map (·.update jobid newState)
  | .reset => []

/-- The result of a call. -/
def result (ledger : Ledger) : ScheduleCall → Bool
  | .addJob jobid _ _ => ¬ ledger.Contains jobid
  | .removeJob jobid => ledger.Contains jobid
  | .updateJob jobid _ => ledger.Contains jobid
  | .reset => true

def jobOf (ledger : Ledger) (jobid : JobId) : Option Job := (ledger.find? (·.Holds jobid)).map (·.job)

/-- The jobs of an OST: each as often as the OST was named when it was added. -/
def onOst (ledger : Ledger) (o : Ost) : List Job := ledger.flatMap fun e => List.replicate (e.osts.count o) e.job

/-- `GetOSTState` -/
def getOSTState (ledger : Ledger) (o : Ost) : Option (List Job) :=
  if ∃ e ∈ ledger, e.Lists o then some (Stable.sort (·.tstart) (ledger.onOst o)) else none

end Ledger

/-- The result of a call on the schedule; `Reset` has none. -/
def ScheduleCall.result (s : MemoryScheduleState) : ScheduleCall → Bool
  | .addJob jobid job osts => (s.addJob jobid job osts).1
  | .removeJob jobid => (s.removeJob jobid).1
  | .updateJob jobid newState => (s.updateJob jobid newState).1
  | .reset => true

/-- The addresses of the entries for an OST, in order. -/
def occurrences (ledger : Ledger) (o : Ost) : List Ptr :=
  ledger.zipIdx.flatMap fun (e, p) => List.replicate (e.osts.count o) p

/-- The objects are the entries, `jobs_` points to those that are not struck out, and the list
of an OST is the stable sort of the objects on it. -/
structure Refines (s : MemoryScheduleState) (ledger : Ledger) : Prop where
  objects : s.objects = ledger.map (·.job)
  jobs : ∀ (jobid : JobId) (p : Ptr), s.jobs[jobid]? = some p ↔ ∃ e, ledger[p]? = some e ∧ e.Holds jobid
  lists : ∀ o, s.ostList o = Stable.sort (fun p => (s.object p).tstart) (occurrences ledger o)
  known : ∀ o, o ∈ s.schedule ↔ ∃ e ∈ ledger, e.Lists o

/-! ## The readers -/

theorem mem_occurrences {ledger : Ledger} {o : Ost} {p : Ptr} (member : p ∈ occurrences ledger o) :
    p < ledger.length := by
  obtain ⟨⟨e, q⟩, entry, same⟩ := List.mem_flatMap.1 member
  rw [List.eq_of_mem_replicate same]
  exact (List.getElem?_eq_some_iff.1 (List.mk_mem_zipIdx_iff_getElem?.1 entry)).1

/-- A change of the entries that keeps their OSTs. -/
theorem occurrences_map {f : Entry → Entry} (keeps : ∀ e, (f e).osts = e.osts) (ledger : Ledger) (o : Ost) :
    occurrences (ledger.map f) o = occurrences ledger o := by
  rw [occurrences, occurrences, List.zipIdx_map, List.flatMap_map]
  simp only [Prod.map_fst, Prod.map_snd, keeps, id_eq]

section Readers

variable {s : MemoryScheduleState} {ledger : Ledger} (refines : Refines s ledger)
include refines

theorem Refines.object {p : Ptr} {e : Entry} (entry : ledger[p]? = some e) : s.object p = e.job := by
  rw [MemoryScheduleState.object, objectAt, refines.objects, List.getD_eq_getElem?_getD, List.getElem?_map, entry]
  rfl

/-- The jobs at the addresses of an OST. -/
theorem Refines.map_occurrences (o : Ost) : (occurrences ledger o).map s.object = ledger.onOst o := by
  have entries : ledger.onOst o =
      (ledger.zipIdx.map Prod.fst).flatMap fun e => List.replicate (e.osts.count o) e.job := by
    rw [List.zipIdx_map_fst, Ledger.onOst]
  rw [entries, occurrences, List.map_flatMap, List.flatMap_map]
  refine List.flatMap_congr fun both member => ?_
  rw [List.map_replicate, refines.object (List.mem_zipIdx_iff_getElem?.1 member)]

/-- At most one entry holds an id. -/
theorem Refines.unique {jobid : JobId} {p q : Ptr} {e f : Entry} (first : ledger[p]? = some e) (holds : e.Holds jobid)
    (second : ledger[q]? = some f) (holds' : f.Holds jobid) : p = q := by
  have left := (refines.jobs jobid p).2 ⟨e, first, holds⟩
  have right := (refines.jobs jobid q).2 ⟨f, second, holds'⟩
  exact Option.some.inj (left.symm.trans right)

theorem Refines.jobOf (jobid : JobId) : s.jobOf jobid = ledger.jobOf jobid := by
  cases found : ledger.find? (·.Holds jobid) with
  | none =>
    have absent : s.jobs[jobid]? = none := by
      refine Option.eq_none_iff_forall_ne_some.2 fun p stored => ?_
      obtain ⟨e, entry, holds⟩ := (refines.jobs jobid p).1 stored
      exact List.find?_eq_none.1 found e (List.mem_of_getElem? entry) (by simpa using holds)
    rw [MemoryScheduleState.jobOf, Ledger.jobOf, absent, found]
    rfl
  | some e =>
    obtain ⟨p, entry⟩ := List.mem_iff_getElem?.1 (List.mem_of_find?_eq_some found)
    have holds : e.Holds jobid := by simpa using List.find?_some found
    rw [MemoryScheduleState.jobOf, Ledger.jobOf, (refines.jobs jobid p).2 ⟨e, entry, holds⟩, found, Option.map_some,
      refines.object entry, Option.map_some]

theorem Refines.contains_iff (jobid : JobId) : ledger.Contains jobid ↔ jobid ∈ s.jobs := by
  rw [Std.ExtTreeMap.mem_iff_isSome_getElem?, Option.isSome_iff_exists]
  constructor
  · rintro ⟨e, member, holds⟩
    obtain ⟨p, entry⟩ := List.mem_iff_getElem?.1 member
    exact ⟨p, (refines.jobs jobid p).2 ⟨e, entry, holds⟩⟩
  · rintro ⟨p, stored⟩
    obtain ⟨e, entry, holds⟩ := (refines.jobs jobid p).1 stored
    exact ⟨e, List.mem_of_getElem? entry, holds⟩

theorem Refines.getOSTState (o : Ost) : (s.getOSTState o).map (·.map s.object) = ledger.getOSTState o := by
  rw [Ledger.getOSTState]
  split
  · rename_i named
    have present := (refines.known o).2 named
    obtain ⟨list, found⟩ := Option.isSome_iff_exists.1 (Std.ExtTreeMap.mem_iff_isSome_getElem?.1 present)
    have sorted := refines.lists o
    rw [ostList, listOf, found, Option.getD_some] at sorted
    have shown : (Stable.sort (fun p => (s.object p).tstart) (occurrences ledger o)).map s.object =
        Stable.sort (·.tstart) ((occurrences ledger o).map s.object) := Stable.map_sort fun _ _ => rfl
    rw [MemoryScheduleState.getOSTState, found, Option.map_some, sorted, shown, refines.map_occurrences]
  · rename_i unnamed
    rw [MemoryScheduleState.getOSTState, Std.ExtTreeMap.getElem?_eq_none (mt (refines.known o).1 unnamed), Option.map_none]

end Readers

/-! ## The calls -/

theorem refines_empty : Refines .empty [] where
  objects := rfl
  jobs := by simp [MemoryScheduleState.empty]
  lists := by simp [MemoryScheduleState.empty, ostList, listOf, occurrences]
  known := by simp [MemoryScheduleState.empty]

/-- One more entry. -/
theorem occurrences_snoc (ledger : Ledger) (e : Entry) (o : Ost) :
    occurrences (ledger ++ [e]) o = occurrences ledger o ++ List.replicate (e.osts.count o) ledger.length := by
  rw [occurrences, List.zipIdx_append, List.flatMap_append, occurrences]
  simp

theorem getElem?_snoc {ledger : Ledger} {new e : Entry} {p : Ptr} :
    (ledger ++ [new])[p]? = some e ↔ ledger[p]? = some e ∨ (p = ledger.length ∧ new = e) := by
  rcases Nat.lt_trichotomy p ledger.length with before | rfl | behind
  · rw [List.getElem?_append_left before]
    exact (or_iff_left fun here => absurd here.1 before.ne).symm
  · simp
  · rw [List.getElem?_append_right behind.le, List.getElem?_eq_none behind.le]
    have past : [new].length ≤ p - ledger.length := Nat.le_sub_of_add_le' behind
    rw [List.getElem?_eq_none past]
    exact iff_of_false (fun here => by cases here) (by simpa using fun here => absurd here behind.ne')

theorem Refines.sorted {s : MemoryScheduleState} {ledger : Ledger} (refines : Refines s ledger) : Sorted s := by
  intro o
  rw [refines.lists]
  exact Stable.sorted_sort _ _

/-- **`AddJob`** makes an entry. -/
theorem Refines.addJob {s : MemoryScheduleState} {ledger : Ledger} (refines : Refines s ledger) (jobid : JobId)
    (job : Job) (osts : List Ost) :
    Refines (s.addJob jobid job osts).2 (ledger.apply (.addJob jobid job osts)) := by
  rw [Ledger.apply]
  split
  · rename_i contains
    rwa [addJob_of_mem s jobid ((refines.contains_iff _).1 contains)]
  · rename_i free
    have absent : jobid ∉ s.jobs := mt (refines.contains_iff _).2 free
    have fresh := (jobOf_eq_none s jobid).2 absent
    have length : s.objects.length = ledger.length := by rw [refines.objects, List.length_map]
    have newObjects : (s.addJob jobid job osts).2.objects = s.objects ++ [job] := addJob_objects s jobid fresh
    constructor
    · rw [newObjects, refines.objects, List.map_append]
      rfl
    · intro id p
      rw [addJob_jobs s jobid fresh, Std.ExtTreeMap.getElem?_insert]
      simp only [Std.compare_eq_iff_eq, getElem?_snoc]
      split
      · rename_i same
        constructor
        · rintro ⟨⟩
          exact ⟨⟨jobid, job, osts, true⟩, Or.inr ⟨length, rfl⟩, rfl, same⟩
        · rintro ⟨e, entry | ⟨rfl, rfl⟩, holds⟩
          · exact absurd ⟨e, List.mem_of_getElem? entry, same ▸ holds⟩ free
          · rw [length]
      · rename_i other
        rw [refines.jobs]
        constructor
        · rintro ⟨e, entry, holds⟩
          exact ⟨e, Or.inl entry, holds⟩
        · rintro ⟨e, entry | ⟨-, rfl⟩, holds⟩
          · exact ⟨e, entry, holds⟩
          · exact absurd holds.2 other
    · intro o
      obtain ⟨newObject, -, earlier, later, split, after, before, behind⟩ :=
        stableInsertion_addJob refines.sorted jobid job osts absent o
      have kept : Stable.sort (fun p => ((s.addJob jobid job osts).2.object p).tstart) (occurrences ledger o) =
          earlier ++ later := by
        rw [← split, refines.lists]
        refine (Stable.sort_congr fun p inside => ?_).symm
        rw [object_addJob_old s jobid (by rw [length]; exact mem_occurrences inside)]
      rw [after, occurrences_snoc, ← length]
      refine (Stable.sort_append_same kept before behind fun p new => ?_).symm
      rw [List.eq_of_mem_replicate new, newObject]
    · intro o
      have lists : o ∈ (s.addJob jobid job osts).2.schedule ↔ o ∈ osts ∨ o ∈ s.schedule := by
        simp only [MemoryScheduleState.addJob, if_neg absent]
        exact mem_foldl_addToOst _ _ _ _ _ _
      have new : (⟨jobid, job, osts, true⟩ : Entry).Lists o ↔ o ∈ osts := by simp [Entry.Lists]
      rw [lists, refines.known]
      simp only [List.mem_append, List.mem_singleton, or_and_right, exists_or, exists_eq_left, new]
      exact or_comm

/-- `RemoveJob` makes a list for each OST of the job that has none, and keeps those there are. -/
theorem mem_removeFromOsts_iff {jobidOf : Ptr → JobId} {jobid : JobId} {schedule : OstSchedule} {osts : List Ost}
    {o : Ost} : o ∈ removeFromOsts jobidOf jobid schedule osts ↔ o ∈ osts ∨ o ∈ schedule := by
  unfold removeFromOsts
  induction osts generalizing schedule with
  | nil => simp
  | cons ost rest ih =>
    rw [List.foldl_cons, ih, removeFromOst, mem_touch, List.mem_cons]
    tauto

section Changes

variable {s : MemoryScheduleState} {ledger : Ledger} (refines : Refines s ledger) (jobid : JobId)
include refines

/-- **`RemoveJob`** strikes out the entry. -/
theorem Refines.removeJob : Refines (s.removeJob jobid).2 (ledger.apply (.removeJob jobid)) := by
  have entries (p : Ptr) : (ledger.apply (.removeJob jobid))[p]? = (ledger[p]?).map (·.strike jobid) :=
    List.getElem?_map
  constructor
  · rw [removeJob_objects, refines.objects, Ledger.apply, List.map_map]
    exact List.map_congr_left fun e _ => (e.strike_job jobid).symm
  · intro id p
    rw [removeJob_jobs, Std.ExtTreeMap.getElem?_erase]
    simp only [Std.compare_eq_iff_eq, entries, Option.map_eq_some_iff, exists_exists_and_eq_and, Entry.holds_strike]
    split
    · rename_i same
      subst same
      refine iff_of_false (fun found => by cases found) ?_
      rintro ⟨_, _, _, other⟩
      exact other rfl
    · rename_i other
      rw [refines.jobs]
      exact exists_congr fun e => and_congr_right fun _ => (and_iff_left (Ne.symm other)).symm
  · intro o
    rw [ostList_removeJob, refines.lists, Ledger.apply, occurrences_map fun e => e.strike_osts jobid]
    simp only [object_removeJob]
  · intro o
    -- a list is there, or is made for the job that is found
    have lists : o ∈ (s.removeJob jobid).2.schedule ↔
        o ∈ s.schedule ∨ ∃ e ∈ ledger, e.Holds jobid ∧ o ∈ e.job.osts := by
      unfold MemoryScheduleState.removeJob
      split
      · rename_i absent
        refine (or_iff_left ?_).symm
        rintro ⟨e, member, holds, -⟩
        have present := (refines.contains_iff jobid).1 ⟨e, member, holds⟩
        rw [Std.ExtTreeMap.mem_iff_isSome_getElem?, absent] at present
        cases present
      · rename_i p stored
        obtain ⟨e, entry, holds⟩ := (refines.jobs jobid p).1 stored
        rw [mem_removeFromOsts_iff, refines.object entry, or_comm]
        refine or_congr_right ⟨fun named => ⟨e, List.mem_of_getElem? entry, holds, named⟩, ?_⟩
        rintro ⟨f, member, holds', named⟩
        obtain ⟨q, entry'⟩ := List.mem_iff_getElem?.1 member
        rw [refines.unique entry holds entry' holds', entry'] at entry
        cases entry
        exact named
    rw [lists, refines.known, Ledger.apply]
    simp only [List.mem_map, exists_exists_and_eq_and, Entry.lists_strike, and_or_left, exists_or]

/-- The objects after `UpdateJob`. -/
theorem Refines.objects_updateJob (newState : JobState) :
    (s.updateJob jobid newState).2.objects = (ledger.apply (.updateJob jobid newState)).map (·.job) := by
  refine List.ext_getElem? fun p => ?_
  have before : s.objects[p]? = (ledger[p]?).map (·.job) := by rw [refines.objects, List.getElem?_map]
  rw [List.getElem?_map, Ledger.apply, List.getElem?_map]
  unfold MemoryScheduleState.updateJob
  split
  · rename_i absent
    rw [before]
    cases entry : ledger[p]? with
    | none => rfl
    | some e =>
      have free : ¬ e.Holds jobid := fun holds => by
        have stored := (refines.jobs jobid p).2 ⟨e, entry, holds⟩
        rw [absent] at stored
        cases stored
      simp only [Option.map_some, Entry.update, if_neg free]
  · rename_i q stored
    rw [List.getElem?_modify, before]
    cases entry : ledger[p]? with
    | none => rfl
    | some e =>
      have here : q = p ↔ e.Holds jobid := by
        constructor
        · rintro rfl
          obtain ⟨f, entry', holds⟩ := (refines.jobs jobid q).1 stored
          rw [entry] at entry'
          cases entry'
          exact holds
        · intro holds
          have stored' := (refines.jobs jobid p).2 ⟨e, entry, holds⟩
          rw [stored] at stored'
          exact Option.some.inj stored'
      by_cases holds : e.Holds jobid
      · simp [Entry.update, here.2 holds, holds]
      · simp [Entry.update, mt here.1 holds, holds]

/-- **`UpdateJob`** writes the state of the entry. -/
theorem Refines.updateJob (newState : JobState) :
    Refines (s.updateJob jobid newState).2 (ledger.apply (.updateJob jobid newState)) := by
  have entries (p : Ptr) : (ledger.apply (.updateJob jobid newState))[p]? =
      (ledger[p]?).map (·.update jobid newState) := List.getElem?_map
  have length : s.objects.length = ledger.length := by rw [refines.objects, List.length_map]
  refine ⟨refines.objects_updateJob jobid newState, fun id p => ?_, fun o => ?_, fun o => ?_⟩
  · rw [updateJob_jobs, refines.jobs]
    simp only [entries, Option.map_eq_some_iff, exists_exists_and_eq_and, Entry.holds_update]
  · have list : (s.updateJob jobid newState).2.ostList o = s.ostList o := by simp [ostList]
    rw [list, refines.lists, Ledger.apply, occurrences_map fun e => e.update_osts jobid newState]
    refine Stable.sort_congr fun p inside => ?_
    rw [object_updateJob s jobid newState p (by rw [length]; exact mem_occurrences inside)]
    split <;> rfl
  · rw [updateJob_schedule, refines.known, Ledger.apply]
    simp only [List.mem_map, exists_exists_and_eq_and, Entry.lists_update]

end Changes

theorem Refines.apply {s : MemoryScheduleState} {ledger : Ledger} (refines : Refines s ledger) (call : ScheduleCall) :
    Refines (call.apply s) (ledger.apply call) := by
  cases call with
  | addJob jobid job osts => exact refines.addJob jobid job osts
  | removeJob jobid => exact refines.removeJob jobid
  | updateJob jobid newState => exact refines.updateJob jobid newState
  | reset => exact refines_empty

theorem Refines.result {s : MemoryScheduleState} {ledger : Ledger} (refines : Refines s ledger) (call : ScheduleCall) :
    call.result s = ledger.result call := by
  cases call with
  | addJob jobid job osts =>
    rw [Bool.eq_iff_iff, ScheduleCall.result, addJob_accepts, jobOf_eq_none, ← refines.contains_iff]
    simp [Ledger.result]
  | removeJob jobid =>
    rw [Bool.eq_iff_iff, Ledger.result, decide_eq_true_eq, refines.contains_iff, Std.ExtTreeMap.mem_iff_isSome_getElem?,
      ScheduleCall.result, MemoryScheduleState.removeJob]
    split <;> simp_all
  | updateJob jobid newState =>
    rw [Bool.eq_iff_iff, Ledger.result, decide_eq_true_eq, refines.contains_iff, ScheduleCall.result, updateJob_fst,
      Option.isSome_iff_ne_none, Ne, jobOf_eq_none, not_not]
  | reset => rfl

/-- **The schedule is the ledger.** After any calls, the jobs by id and the list of each OST are
those of the ledger, and the next call returns what it does on the ledger. -/
theorem schedule_refines_ledger (calls : List ScheduleCall) :
    let s := calls.foldl ScheduleCall.apply MemoryScheduleState.empty
    let ledger := calls.foldl Ledger.apply []
    (∀ jobid, s.jobOf jobid = ledger.jobOf jobid) ∧
      (∀ o, (s.getOSTState o).map (·.map s.object) = ledger.getOSTState o) ∧
      ∀ call : ScheduleCall, call.result s = ledger.result call := by
  intro s ledger
  have refines : Refines s ledger := by
    suffices ∀ s ledger, Refines s ledger →
        Refines (calls.foldl ScheduleCall.apply s) (calls.foldl Ledger.apply ledger) from this _ _ refines_empty
    induction calls with
    | nil => exact fun _ _ refines => refines
    | cons call calls ih => exact fun _ _ refines => ih _ _ (refines.apply call)
  exact ⟨refines.jobOf, refines.getOSTState, refines.result⟩

end QosPlanner
