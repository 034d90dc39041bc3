import QosPlanner.Run.Always
import QosPlanner.Concurrent.PendingStops

/-!
# What becomes of an accepted reservation

A reservation leaves `jobs_` through `RemoveJob` only: in the loop of `ServeJobRemove`, or
at the end of `Handle` for a JOBSTOP. The second names the job by its id and does not look
at the result of `StopJob`. So an item of an earlier reservation removes a later one of
the same id, if it was popped, or pushed, too late for `UnregisterJob` to take it out of
the queue. Where no id is reserved again while a JOBSTOP of it is pending, a reservation
leaves by a delete request or by its own JOBSTOP (`accepted_reservation_stays`).
-/

namespace QosPlanner
set_option autoImplicit false

open MemoryScheduleState JobPriorityQueue Run

/-! ## The invariants -/

/-- No JOBSTOP of the id is pending. -/
def NoStopPending (s : System) (jobid : JobId) : Prop :=
  ∀ wt ∈ pendingItems s.world.jobPriorityQueue s.monitor, wt.jobid = jobid → wt.eventType ≠ .JOBSTOP

instance (s : System) (jobid : JobId) : Decidable (NoStopPending s jobid) :=
  inferInstanceAs (Decidable (∀ wt ∈ _, _))

/-- The step adds no reservation under an id of which a JOBSTOP is pending. -/
def AddsNoneWithStopPending : System → Label → Prop := AddsOnlyWhere NoStopPending

instance (s : System) (l : Label) : Decidable (AddsNoneWithStopPending s l) :=
  inferInstanceAs (Decidable (AddsOnlyWhere _ s l))

/-- The event a place in `Handle` belongs to. -/
def HandlePc.event : HandlePc → Option JobEvent
  | .start _ => some .JOBSTART
  | .stop _ => some .JOBSTOP
  | .removeJob => some .JOBSTOP
  | _ => none

/-- Every pending JOBSTOP is that of the reservation stored under its id, and the monitor
handles an item that is due, at a place that belongs to its event. -/
structure StopsFit (s : System) : Prop where
  own : ∀ wt ∈ pendingItems s.world.jobPriorityQueue s.monitor, wt.eventType = .JOBSTOP →
    OwnStop s.world.scheduleState wt
  past : ∀ (wt : WaitingItem) (now : TimePoint) (pc : HandlePc), s.monitor = .handle wt now pc → wt.timeOfEvent < now
  event : ∀ (wt : WaitingItem) (now : TimePoint) (pc : HandlePc) (event : JobEvent), s.monitor = .handle wt now pc →
    pc.event = some event → wt.eventType = event

theorem OwnStop.of_removed {s : MemoryScheduleState} {wt : WaitingItem} (own : OwnStop s wt) (jobid : JobId) :
    OwnStop (s.removeJob jobid).2 wt := by
  intro p found
  rw [object_removeJob]
  exact own p (stored_of_removed found)

theorem OwnStop.of_kept {s s' : MemoryScheduleState} {wt : WaitingItem} (own : OwnStop s wt)
    (keeps : KeepsEnds s s') : OwnStop s' wt := by
  intro p found
  rw [keeps.jobs] at found
  rw [keeps.tend p (s.jobs_valid _ p found)]
  exact own p found

theorem OwnStop.of_added {s : MemoryScheduleState} {wt : WaitingItem} (own : OwnStop s wt) {job : Job}
    (fresh : s.jobOf job.jobid = none) (other : wt.jobid ≠ job.jobid) :
    OwnStop (s.addJob job.jobid job job.osts).2 wt := by
  intro p found
  simp only [addJob_jobs s _ fresh, Std.ExtTreeMap.getElem?_insert, Std.compare_eq_iff_eq, Ne.symm other,
    if_false] at found
  rw [object_addJob_old s _ (s.jobs_valid _ p found)]
  exact own p found

/-- The place in `Handle` a step leads to belongs to the event, if the place before did. -/
theorem HandleMove.event {jobid : JobId} {event : JobEvent} {m m' : JobMonitor} {pc pc' : HandlePc}
    (move : HandleMove jobid event m pc m' (.next pc')) (before : ∀ e, pc.event = some e → event = e) :
    ∀ e, pc'.event = some e → event = e := by
  intro e belongs
  cases move with
  | toStart isStart => cases belongs; exact isStart
  | toStop isStop => cases belongs; exact isStop
  | start => exact before e belongs
  | stop => exact before e belongs
  | stopDone => exact before e belongs
  | _ => cases belongs

/-- **A step keeps the pending JOBSTOPs fitting**, unless it adds a reservation under an id
of which one is pending. -/
theorem StopsFit.step {limits : Limits} {s s' : System} {l : Label} (fits : StopsFit s)
    (adds : AddsNoneWithStopPending s l) (taken : s.step limits l = some s') : StopsFit s' := by
  have move := System.step_move taken
  have own : ∀ wt ∈ pendingItems s'.world.jobPriorityQueue s'.monitor, wt.eventType = .JOBSTOP →
      OwnStop s'.world.scheduleState wt := by
    intro wt member stop
    rcases move.pending member stop with old | ⟨own, same⟩
    · have own := fits.own wt old stop
      cases move.index with
      | kept keeps => exact own.of_kept keeps
      | added u job label here fresh result =>
        subst label
        rw [result]
        exact own.of_added fresh fun named => adds.of_added here fresh wt old named stop
      | removed jobid rest here result => rw [result]; exact own.of_removed jobid
      | ended wt' now here result => rw [result]; exact own.of_removed wt'.jobid
    · rw [same]
      exact own
  obtain ⟨⟨m', held, asleep⟩, server', monitor'⟩ := s'
  dsimp only at move
  cases move with
  | pop now wt queue idle popped ready =>
    refine ⟨own, fun _ _ _ there => ?_, fun _ _ _ _ there belongs => ?_⟩
    · cases there
      exact ready
    · cases there
      cases belongs
  | handle env wt now pc pc' _ here move =>
    refine ⟨own, fun _ _ _ there => ?_, fun _ _ _ _ there belongs => ?_⟩
    · cases there
      exact fits.past wt now pc here
    · cases there
      exact move.event (fits.event wt now pc · here) _ belongs
  | handled => exact ⟨own, nofun, nofun⟩
  | _ => exact ⟨own, fits.past, fits.event⟩

/-- The ids the server has still to remove from `jobs_`. -/
def ServerPc.toRemove : ServerPc → List JobId
  | .unregisterJob jobid _ rest => jobid :: rest
  | .removeJob jobid rest => jobid :: rest
  | _ => []

theorem toRemove_nextDelete (ids : List JobId) : (nextDelete ids).toRemove = ids := by
  cases ids <;> rfl

/-- What the server is removing was asked for: a delete request names the ids, and what is
still stored was stored when the server took the request. -/
def Requested (trace : List (System × Label)) (s : System) : Prop :=
  s.server.toRemove ≠ [] → ∃ (before : System) (request : Rpc.DeleteRequest), (before, .delete request) ∈ trace ∧
    s.server.toRemove ⊆ request.id ∧ ∀ (id : JobId) (p : Nat), s.world.scheduleState.jobs[id]? = some p →
      before.world.scheduleState.jobs[id]? = some p

/-- The request stays the same while the ids to remove get fewer. -/
theorem Requested.of_fewer {trace : List (System × Label)} {s s' : System} {l : Label} (requested : Requested trace s)
    (index : IndexMove s l s'.world.scheduleState) (fewer : s'.server.toRemove ⊆ s.server.toRemove) :
    Requested (trace ++ [(s, l)]) s' := by
  intro left
  have before_left : s.server.toRemove ≠ [] := fun none => left (List.subset_nil.1 (none ▸ fewer))
  have adds : ∀ job, s.server ≠ .addJob job := fun job here => before_left (by rw [here]; rfl)
  obtain ⟨before, request, served, named, since⟩ := requested before_left
  exact ⟨before, request, List.mem_append_left _ served, fun id member => named (fewer member),
    fun id p found => since id p (index.shrinks adds found)⟩

theorem Requested.step {limits : Limits} {trace : List (System × Label)} {s s' : System} {l : Label}
    (requested : Requested trace s) (taken : s.step limits l = some s') : Requested (trace ++ [(s, l)]) s' := by
  have move := System.step_move taken
  have index := move.index
  obtain ⟨⟨m', held, asleep⟩, server', monitor'⟩ := s'
  dsimp only at move
  cases move with
  | delete request idle =>
    refine fun _ => ⟨s, request, List.mem_append_right _ (List.mem_singleton_self _), ?_, fun _ _ found => found⟩
    rw [toRemove_nextDelete]
    exact List.Subset.refl _
  | unregister u jobid pc pc' rest _ here move =>
    exact requested.of_fewer index (by rw [here]; exact List.Subset.refl _)
  | unregistered u jobid pc rest _ result here move =>
    exact requested.of_fewer index (by rw [here]; exact List.Subset.refl _)
  | removed u jobid rest here =>
    refine requested.of_fewer index ?_
    rw [toRemove_nextDelete, here]
    exact List.subset_cons_self jobid rest
  | pop => exact requested.of_fewer index (List.Subset.refl _)
  | handle => exact requested.of_fewer index (List.Subset.refl _)
  | handled => exact requested.of_fewer index (List.Subset.refl _)
  | wake => exact requested.of_fewer index (List.Subset.refl _)
  | _ => exact fun left => absurd rfl left

/-! ## Leaving `jobs_` -/

/-- What may take reservation `p`, stored under `id`, out of `jobs_`: a delete request that
names `id` and was served when `p` was already stored, or a JOBSTOP made for `p`, with
its end, that the monitor found past and is handling. -/
inductive Released (trace : List (System × Label)) (s : System) (id : JobId) (p : Nat) : Prop
  | deleteServed (before : System) (request : Rpc.DeleteRequest) (served : (before, .delete request) ∈ trace)
      (named : id ∈ request.id) (accepted : before.world.scheduleState.jobs[id]? = some p)
  | stopHandled (wt : WaitingItem) (now : TimePoint) (pc : HandlePc) (handled : s.monitor = .handle wt now pc)
      (named : wt.jobid = id) (event : wt.eventType = .JOBSTOP) (own : wt.reservation = p)
      (time : wt.timeOfEvent = (s.world.scheduleState.object p).tend) (past : wt.timeOfEvent < now)

/-- **An accepted reservation stays**, in every run that reserves no id again while a
JOBSTOP of it is pending: whatever step takes it out of `jobs_`, a delete request or its
own JOBSTOP is the reason. -/
theorem accepted_reservation_stays (limits : Limits) (trace : List (System × Label)) (s s' : System) (l : Label)
    (path : Path (System.step limits) AddsNoneWithStopPending System.init trace s)
    (taken : s.step limits l = some s') (id : JobId) (p : Nat)
    (stored : s.world.scheduleState.jobs[id]? = some p) (gone : s'.world.scheduleState.jobs[id]? ≠ some p) :
    Released trace s id p := by
  have fits : StopsFit s := by
    refine path.invariant ⟨?_, nofun, nofun⟩ fun _ _ _ fits adds taken => fits.step adds taken
    intro wt member
    simp [pendingItems, System.init, JobMonitor.empty, MonitorPc.inHand] at member
  have requested : Requested trace s :=
    path.invariant_trace (fun left => absurd rfl left) fun _ _ _ _ requested _ taken => requested.step taken
  rcases (System.step_move taken).index.removes stored gone with ⟨rest, here⟩ | ⟨wt, now, here, named⟩
  · obtain ⟨before, request, served, ids, since⟩ := requested (by simp [here, ServerPc.toRemove])
    have removing : id ∈ s.server.toRemove := by simp [here, ServerPc.toRemove]
    exact .deleteServed before request served (ids removing) (since id p stored)
  · have stop : wt.eventType = .JOBSTOP := fits.event wt now _ _ here rfl
    have pending : wt ∈ pendingItems s.world.jobPriorityQueue s.monitor := by
      simp [mem_pendingItems, here, MonitorPc.inHand]
    obtain ⟨own, time⟩ := fits.own wt pending stop p (by rw [named]; exact stored)
    exact .stopHandled wt now _ here named stop own time (fits.past wt now _ here)

/-- The reservation `foo` up to the moment at which the monitor removes it. -/
def fooUntilItsEnd : List Label :=
  reserveFoo 0 10 ++ .pop 1 :: List.replicate 9 (.monitor allSucceed) ++
    .pop 11 :: List.replicate 4 (.monitor allSucceed)

/-- Here `foo` leaves by its own JOBSTOP. -/
theorem foo_stays_until_its_end :
    ∃ s s', execWhile (System.step oneOst) AddsNoneWithStopPending System.init fooUntilItsEnd = some s ∧
      s.step oneOst (.monitor allSucceed) = some s' ∧
      s.world.scheduleState.jobs["foo"]? = some 0 ∧ s'.world.scheduleState.jobs["foo"]? = none ∧
      Released (traceOf (System.step oneOst) System.init fooUntilItsEnd) s "foo" 0 := by
  have run : (execWhile (System.step oneOst) AddsNoneWithStopPending System.init fooUntilItsEnd).map (fun s =>
      (s.world.scheduleState.jobs["foo"]?,
        (s.step oneOst (.monitor allSucceed)).map fun s' => s'.world.scheduleState.jobs["foo"]?)) =
      some (some 0, some none) := by decide +kernel
  obtain ⟨s, reached, found⟩ := Option.map_eq_some_iff.1 run
  simp only [Prod.mk.injEq, Option.map_eq_some_iff] at found
  obtain ⟨stored, s', taken, gone⟩ := found
  have path := Path.of_execWhile .nil reached
  exact ⟨s, s', reached, taken, stored, gone,
    accepted_reservation_stays oneOst _ s s' _ path taken "foo" 0 stored (by rw [gone]; nofun)⟩

/-- The monitor has popped the JOBSTOP of `foo` when the server deletes `foo` and accepts a
new one; then the monitor handles the item. -/
def stopAfterDelete : List Label :=
  reserveFoo 0 10 ++ .pop 1 :: List.replicate 9 (.monitor allSucceed) ++ [.pop 11, .delete ⟨["foo"], false⟩] ++
    List.replicate 8 (.server 0) ++ reserveFoo 12 30 ++ List.replicate 2 (.monitor allSucceed)

/-- **A lost reservation.** `StopJob` refuses the new `foo`, which is SCHEDULED, and
`Handle` removes it all the same, at time 11 although it ends at 30. -/
theorem stale_stop_removes_new_foo :
    ∃ s s', exec (System.step oneOst) System.init stopAfterDelete = some s ∧
      s.step oneOst (.monitor allSucceed) = some s' ∧
      s.world.scheduleState.jobs["foo"]? = some 1 ∧ s'.world.scheduleState.jobs["foo"]? = none ∧
      ¬ Released (traceOf (System.step oneOst) System.init stopAfterDelete) s "foo" 1 := by
  have run : (exec (System.step oneOst) System.init stopAfterDelete).map (fun s =>
      (decide (s.monitor = .handle ⟨"foo", 10, .JOBSTOP, 0⟩ 11 .removeJob), s.world.scheduleState.jobs["foo"]?,
        (s.step oneOst (.monitor allSucceed)).map fun s' => s'.world.scheduleState.jobs["foo"]?)) =
      some (true, some 1, some none) := by decide +kernel
  have unasked : ((traceOf (System.step oneOst) System.init stopAfterDelete).all fun (before, l) =>
      match l with
      | .delete _ => before.world.scheduleState.jobs["foo"]? ≠ some 1
      | _ => true) = true := by decide +kernel
  obtain ⟨s, reached, found⟩ := Option.map_eq_some_iff.1 run
  simp only [Prod.mk.injEq, decide_eq_true_eq, Option.map_eq_some_iff] at found
  obtain ⟨here, stored, s', taken, gone⟩ := found
  refine ⟨s, s', reached, taken, stored, gone, fun released => ?_⟩
  cases released with
  | deleteServed before request served named accepted =>
    have fresh := List.all_eq_true.1 unasked _ served
    exact absurd accepted (by simpa using fresh)
  | stopHandled wt now pc handled named event own time past =>
    rw [here] at handled
    cases handled
    cases own

end QosPlanner
