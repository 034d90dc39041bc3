import QosPlanner.Concurrent.System

/-!
# Pending events and `jobs_`, step by step

Two readings of the steps of the system. For `jobs_` there are four kinds (`IndexMove`):
one job is added, one is removed by the server or by the monitor, or the index stays and
all jobs keep their ends. For the events, counting the one the monitor has in hand, a
JOBSTOP that is pending after a step was pending before, or is made for the reservation
stored under its id (`Move.pending`).
-/

namespace QosPlanner
set_option autoImplicit false

open MemoryScheduleState JobPriorityQueue Run

/-! ## Pending items -/

/-- The item the monitor still acts for: the one it handles, until `RemoveJob` is done, and
the JOBSTOP it is about to push. -/
def MonitorPc.inHand : MonitorPc → Multiset WaitingItem
  | .idle => 0
  | .handle _ _ .unblock => 0
  | .handle wt _ (.start (.push tend reservation)) => {⟨wt.jobid, tend, .JOBSTOP, reservation⟩}
  | .handle wt _ _ => {wt}

/-- The items queued or in the hands of the monitor. -/
def pendingItems (q : JobPriorityQueue) (monitor : MonitorPc) : Multiset WaitingItem := q.items + monitor.inHand

/-- Of the reservation stored under its id, the item carries the address and the end. -/
def OwnStop (s : MemoryScheduleState) (wt : WaitingItem) : Prop :=
  ∀ p : Nat, s.jobs[wt.jobid]? = some p → wt.reservation = p ∧ wt.timeOfEvent = (s.object p).tend

/-! ## What a step does to `jobs_` -/

/-- `jobs_` is the same, and no object changes its end. -/
structure KeepsEnds (s s' : MemoryScheduleState) : Prop where
  jobs : s'.jobs = s.jobs
  tend : ∀ p, p < s.objects.length → (s'.object p).tend = (s.object p).tend

theorem KeepsEnds.refl (s : MemoryScheduleState) : KeepsEnds s s where
  jobs := rfl
  tend := fun _ _ => rfl

theorem keepsEnds_updateJob (s : MemoryScheduleState) (jobid : JobId) (st : JobState) :
    KeepsEnds s (s.updateJob jobid st).2 where
  jobs := updateJob_jobs s jobid st
  tend := by
    intro p valid
    rw [object_updateJob s jobid st p valid]
    split <;> rfl

section Calls

variable {jobid : JobId} {m m' : JobMonitor}

theorem StartMove.keepsEnds {pc : StartPc} {control : Control StartPc Bool}
    (move : StartMove jobid m pc m' control) : KeepsEnds m.scheduleState m'.scheduleState := by
  cases move with
  | updated => exact keepsEnds_updateJob _ _ _
  | _ => exact .refl _

theorem StopMove.keepsEnds {pc : StopPc} {control : Control StopPc Bool}
    (move : StopMove jobid m pc m' control) : KeepsEnds m.scheduleState m'.scheduleState := by
  cases move with
  | updated => exact keepsEnds_updateJob _ _ _
  | _ => exact .refl _

theorem StopMove.queue {pc : StopPc} {control : Control StopPc Bool}
    (move : StopMove jobid m pc m' control) : m'.jobPriorityQueue = m.jobPriorityQueue := by
  cases move <;> rfl

theorem UnregisterMove.keepsEnds {pc : UnregisterPc} {control : Control UnregisterPc Bool}
    (move : UnregisterMove jobid m pc m' control) : KeepsEnds m.scheduleState m'.scheduleState := by
  cases move with
  | stop _ _ _ move => exact move.keepsEnds
  | stopDone _ _ _ move => exact move.keepsEnds
  | _ => exact .refl _

theorem HandleMove.keepsEnds {event : JobEvent} {pc : HandlePc} {control : Control HandlePc Unit}
    (move : HandleMove jobid event m pc m' control) (other : pc ≠ .removeJob) :
    KeepsEnds m.scheduleState m'.scheduleState := by
  cases move with
  | start _ _ _ move => exact move.keepsEnds
  | startDone _ _ _ move => exact move.keepsEnds
  | stop _ _ _ move => exact move.keepsEnds
  | stopDone _ _ _ move => exact move.keepsEnds
  | removed => exact absurd rfl other
  | _ => exact .refl _

end Calls

/-- The steps, by what they do to `jobs_`. -/
inductive IndexMove (s : System) (l : Label) (after : MemoryScheduleState) : Prop
  | kept (keeps : KeepsEnds s.world.scheduleState after)
  | added (u : UInt32) (job : Job) (label : l = .server u) (here : s.server = .addJob job)
      (fresh : s.world.scheduleState.jobOf job.jobid = none)
      (result : after = (s.world.scheduleState.addJob job.jobid job job.osts).2)
  | removed (jobid : JobId) (rest : List JobId) (here : s.server = .removeJob jobid rest)
      (result : after = (s.world.scheduleState.removeJob jobid).2)
  | ended (wt : WaitingItem) (poppedAt : TimePoint) (here : s.monitor = .handle wt poppedAt .removeJob)
      (result : after = (s.world.scheduleState.removeJob wt.jobid).2)

theorem Move.index {s : System} {l : Label} {m' : JobMonitor} {server' : ServerPc} {monitor' : MonitorPc}
    (move : Move s l m' server' monitor') : IndexMove s l m'.scheduleState := by
  have handled {wt : WaitingItem} {now : TimePoint} {pc : HandlePc} {control : Control HandlePc Unit}
      (here : s.monitor = .handle wt now pc)
      (move : HandleMove wt.jobid wt.eventType s.world.toJobMonitor pc m' control) :
      IndexMove s l m'.scheduleState := by
    by_cases removes : pc = .removeJob
    · subst removes
      cases move
      exact .ended wt now here rfl
    · exact .kept (move.keepsEnds removes)
  cases move with
  | added u job here fresh => exact .added u job rfl here fresh rfl
  | unregister u jobid pc pc' rest _ here move => exact .kept move.keepsEnds
  | unregistered u jobid pc rest _ result here move => exact .kept move.keepsEnds
  | removed u jobid rest here => exact .removed jobid rest here rfl
  | handle env wt now pc pc' _ here move => exact handled here move
  | handled env wt now pc _ here move => exact handled here move
  | _ => exact .kept (.refl _)

/-- What is stored after a removal was stored before. -/
theorem stored_of_removed {s : MemoryScheduleState} {jobid id : JobId} {p : Nat}
    (found : (s.removeJob jobid).2.jobs[id]? = some p) : s.jobs[id]? = some p := by
  rw [removeJob_jobs, Std.ExtTreeMap.getElem?_erase] at found
  split at found
  · cases found
  · exact found

/-- Only `AddJob` brings a reservation into `jobs_`. -/
theorem IndexMove.shrinks {s : System} {l : Label} {after : MemoryScheduleState} (move : IndexMove s l after)
    (adds : ∀ job, s.server ≠ .addJob job) {id : JobId} {p : Nat} (found : after.jobs[id]? = some p) :
    s.world.scheduleState.jobs[id]? = some p := by
  cases move with
  | kept keeps => rwa [keeps.jobs] at found
  | added _ job _ here => exact absurd here (adds job)
  | removed _ _ _ result => rw [result] at found; exact stored_of_removed found
  | ended _ _ _ result => rw [result] at found; exact stored_of_removed found

/-- Only `RemoveJob` takes a reservation out of `jobs_`. -/
theorem IndexMove.removes {s : System} {l : Label} {after : MemoryScheduleState} (move : IndexMove s l after)
    {id : JobId} {p : Nat} (stored : s.world.scheduleState.jobs[id]? = some p) (gone : after.jobs[id]? ≠ some p) :
    (∃ rest, s.server = .removeJob id rest) ∨
      ∃ wt now, s.monitor = .handle wt now .removeJob ∧ wt.jobid = id := by
  have named {jobid : JobId} (result : after = (s.world.scheduleState.removeJob jobid).2) : jobid = id := by
    rw [result, removeJob_jobs, Std.ExtTreeMap.getElem?_erase] at gone
    split at gone
    · rename_i same; exact Std.LawfulEqCmp.eq_of_compare same
    · exact absurd stored gone
  cases move with
  | kept keeps => rw [keeps.jobs] at gone; exact absurd stored gone
  | added _ job _ here fresh result =>
    rw [result, addJob_jobs _ _ fresh, Std.ExtTreeMap.getElem?_insert] at gone
    split at gone
    · rename_i same
      rw [jobOf_eq_none, Std.LawfulEqCmp.eq_of_compare same] at fresh
      rw [Std.ExtTreeMap.getElem?_eq_none fresh] at stored
      cases stored
    · exact absurd stored gone
  | removed jobid rest here result =>
    obtain rfl := named result
    exact Or.inl ⟨rest, here⟩
  | ended wt now here result => exact Or.inr ⟨wt, now, here, named result⟩

/-! ## What a step does to the pending items -/

/-- `Remove` brings no item into the queue. -/
theorem mem_of_remove {q : JobPriorityQueue} {jobid : JobId} {wt : WaitingItem}
    (queued : wt ∈ (q.remove jobid).2.items) : wt ∈ q.items := by
  have kept := (itemsOf_remove q jobid wt.jobid).1
  exact (mem_itemsOf.1 (Multiset.mem_of_le kept (mem_itemsOf.2 ⟨queued, rfl⟩))).1

theorem mem_pendingItems {q : JobPriorityQueue} {monitor : MonitorPc} {wt : WaitingItem} :
    wt ∈ pendingItems q monitor ↔ wt ∈ q.items ∨ wt ∈ monitor.inHand := Multiset.mem_add

/-- The end `GetJobEnd` has read and the address belong to the stored reservation. -/
theorem ownStop_of_jobEnd {s : MemoryScheduleState} {jobid : JobId} {job : Job}
    (stored : s.jobOf jobid = some job) : OwnStop s ⟨jobid, job.tend, .JOBSTOP, reservationOf s jobid⟩ := by
  intro p found
  obtain ⟨q, here, rfl⟩ := (jobOf_eq_some s jobid).1 stored
  obtain rfl : q = p := Option.some.inj (here.symm.trans found)
  exact ⟨by simp [reservationOf, here], rfl⟩

/-- A step of `Handle` goes on with the items there were, or takes its JOBSTOP from the
reservation stored under the id. -/
theorem HandleMove.pending {m m' : JobMonitor} {wt item : WaitingItem} {now : TimePoint} {pc pc' : HandlePc}
    (move : HandleMove wt.jobid wt.eventType m pc m' (.next pc'))
    (member : item ∈ pendingItems m'.jobPriorityQueue (.handle wt now pc')) :
    item ∈ pendingItems m.jobPriorityQueue (.handle wt now pc) ∨
      OwnStop m.scheduleState item ∧ m'.scheduleState = m.scheduleState := by
  cases move with
  | start pc pc' _ move =>
    cases move with
    | jobEnd job stored =>
      rcases mem_pendingItems.1 member with queued | inHand
      · exact Or.inl (mem_pendingItems.2 (Or.inl queued))
      · obtain rfl := Multiset.mem_singleton.1 inHand
        exact Or.inr ⟨ownStop_of_jobEnd stored, rfl⟩
    | _ => exact Or.inl member
  | startDone pc _ result move =>
    refine Or.inl (mem_pendingItems.2 ?_)
    have queued : item ∈ m'.jobPriorityQueue.items := by
      simpa [mem_pendingItems, MonitorPc.inHand] using member
    cases move with
    | pushed tend reservation =>
      rw [items_push, Multiset.mem_cons] at queued
      exact queued.symm.imp id Multiset.mem_singleton.2
    | _ => exact Or.inl queued
  | stop pc pc' _ move =>
    rw [move.queue] at member
    exact Or.inl member
  | stopDone pc _ result move =>
    rw [move.queue] at member
    exact Or.inl member
  | removed =>
    have queued : item ∈ m.jobPriorityQueue.items := by
      simpa [mem_pendingItems, MonitorPc.inHand] using member
    exact Or.inl (mem_pendingItems.2 (Or.inl queued))
  | _ => exact Or.inl member

/-- **Where a pending JOBSTOP comes from**: it was pending before, or it is taken from the
reservation stored under its id. -/
theorem Move.pending {s : System} {l : Label} {m' : JobMonitor} {server' : ServerPc} {monitor' : MonitorPc}
    (move : Move s l m' server' monitor') {item : WaitingItem}
    (member : item ∈ pendingItems m'.jobPriorityQueue monitor') (stop : item.eventType = .JOBSTOP) :
    item ∈ pendingItems s.world.jobPriorityQueue s.monitor ∨
      OwnStop s.world.scheduleState item ∧ m'.scheduleState = s.world.scheduleState := by
  cases move with
  | registered u job reservation here =>
    refine Or.inl (mem_pendingItems.2 ((mem_pendingItems.1 member).imp_left fun queued => ?_))
    rw [items_push, Multiset.mem_cons] at queued
    rcases queued with rfl | old
    · cases stop
    · exact old
  | unregister u jobid pc pc' rest _ here move =>
    refine Or.inl (mem_pendingItems.2 ((mem_pendingItems.1 member).imp_left fun queued => ?_))
    cases move with
    | dequeued => exact mem_of_remove queued
    | stop _ _ _ move => rwa [move.queue] at queued
    | stopDone _ _ _ move => rwa [move.queue] at queued
    | _ => exact queued
  | unregistered u jobid pc rest _ result here move => cases move; exact Or.inl member
  | pop now wt queue idle popped ready =>
    refine Or.inl (mem_pendingItems.2 (Or.inl ?_))
    rw [(items_pop popped).2, Multiset.mem_cons]
    exact (mem_pendingItems.1 member).symm.imp_left Multiset.mem_singleton.1
  | handle env wt now pc pc' _ here move =>
    rw [here]
    exact move.pending member
  | handled env wt now pc _ here move =>
    cases move
    exact Or.inl (mem_pendingItems.2 (Or.inl (by simpa [mem_pendingItems, MonitorPc.inHand] using member)))
  | _ => exact Or.inl member

end QosPlanner
