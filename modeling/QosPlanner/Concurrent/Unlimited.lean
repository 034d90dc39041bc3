import QosPlanner.Monitor.EarliestFirst
import QosPlanner.Planner.Submission
import QosPlanner.Concurrent.System

/-!
# A reservation without an end

A request without a duration ends at the last time point of the clock, and so does the
event that is to stop its job. `Push` sifts later events towards the root, so the event
goes to the root; `Monitor` looks at the root only, and the event never becomes ready.
Nothing that is registered afterwards is later, and `Remove` leaves the root alone unless
it is asked for that very job. So from then on the monitor takes no event: no job is
started and none is stopped, until somebody deletes the reservation
(`unlimited_job_blocks`).
-/

namespace QosPlanner
set_option autoImplicit false

open MemoryScheduleState JobPriorityQueue Run

/-! ## The root of the queue -/

namespace JobPriorityQueue

variable {q : JobPriorityQueue} {wt : WaitingItem}

theorem peek_eq_some : q.peek = some wt ↔ ∃ bound : 0 < q.heap.size, q.heap[0] = wt := by
  simp [peek, Array.getElem?_eq_some_iff]

/-- `Up` leaves the root alone, unless the item is later. -/
theorem up_root (queue : Array WaitingItem) (pos : Nat) (bound : pos < queue.size) (below : pos ≠ 0)
    (noLater : timeAt queue pos ≤ timeAt queue 0) : (up queue pos bound)[0]? = queue[0]? := by
  fun_induction up queue pos bound with
  | case1 => exact absurd rfl below
  | case2 queue pos bound nonroot parent earlier ih =>
    have bound' : parent < queue.size := by omega
    rw [← timeAt_eq bound', ← timeAt_eq bound] at earlier
    have inner : parent ≠ 0 := by
      intro top
      rw [top] at earlier
      exact absurd earlier (not_lt_of_ge noLater)
    rw [ih inner ?_]
    · rw [Array.getElem?_eq_getElem (by simp; omega), Array.getElem?_eq_getElem (by omega),
        Array.getElem_swap_of_ne (Ne.symm inner) (Ne.symm nonroot)]
    · rw [timeAt_swap bound' bound, if_pos rfl, timeAt_swap bound' bound, if_neg (Ne.symm inner),
        if_neg (Ne.symm nonroot)]
      exact noLater
  | case3 => rfl

/-- It brings the latest item to the root. -/
theorem up_latest (queue : Array WaitingItem) (pos : Nat) (bound : pos < queue.size)
    (latest : ∀ j < queue.size, j ≠ pos → timeAt queue j < timeAt queue pos) :
    (up queue pos bound)[0]? = some queue[pos] := by
  fun_induction up queue pos bound with
  | case1 queue bound => simp
  | case2 queue pos bound nonroot parent earlier ih =>
    have bound' : parent < queue.size := by omega
    rw [ih ?_]
    · simp
    · intro j small other
      rw [Array.size_swap] at small
      rw [timeAt_swap bound' bound, timeAt_swap bound' bound, if_pos rfl, if_neg other]
      split
      · exact latest parent bound' (by omega)
      · exact latest j small ‹_›
  | case3 queue pos bound nonroot parent later =>
    rw [← timeAt_eq (by omega), ← timeAt_eq bound] at later
    exact absurd (latest parent (by omega) (by omega)) later

/-- `Down` from below leaves the root alone. -/
theorem down_root (queue : Array WaitingItem) (pos : Nat) (bound : pos < queue.size) (below : pos ≠ 0) :
    (down queue pos bound)[0]? = queue[0]? := by
  fun_induction down queue pos bound with
  | case1 => rfl
  | case2 => rfl
  | case3 => rfl
  | case4 queue pos bound one two child range later ih =>
    rw [ih (by omega), Array.getElem?_eq_getElem (by simp; omega), Array.getElem?_eq_getElem (by omega),
      Array.getElem_swap_of_ne (by omega) (Ne.symm below)]

theorem peek_push (item : WaitingItem) (root : q.peek = some wt) (noLater : item.timeOfEvent ≤ wt.timeOfEvent) :
    (q.push item).peek = some wt := by
  obtain ⟨bound, here⟩ := peek_eq_some.1 root
  have last : timeAt (q.heap.push item) q.heap.size = item.timeOfEvent := by simp [timeAt]
  have first : timeAt (q.heap.push item) 0 = wt.timeOfEvent := by rw [timeAt_push_old bound, timeAt_eq bound, here]
  show (up (q.heap.push item) q.heap.size _)[0]? = some wt
  rw [up_root _ _ _ (by omega) (by rw [last, first]; exact noLater)]
  rw [Array.getElem?_push_lt bound, here]

theorem peek_push_latest (item : WaitingItem) (latest : ∀ x ∈ q.items, x.timeOfEvent < item.timeOfEvent) :
    (q.push item).peek = some item := by
  have last : timeAt (q.heap.push item) q.heap.size = item.timeOfEvent := by simp [timeAt]
  show (up (q.heap.push item) q.heap.size _)[0]? = some item
  rw [up_latest]
  · simp
  · intro j small other
    have old : j < q.heap.size := by simp at small; omega
    rw [timeAt_push_old old, last, timeAt_eq old]
    exact latest _ (by simp [items])

theorem peek_remove {jobid : JobId} (root : q.peek = some wt) (other : wt.jobid ≠ jobid) :
    (q.remove jobid).2.peek = some wt := by
  obtain ⟨bound, here⟩ := peek_eq_some.1 root
  unfold remove
  split
  · exact root
  · rename_i i found
    obtain ⟨inside, carries, -⟩ := Array.findIdx?_eq_some_iff_getElem.1 found
    have below : i ≠ 0 := by
      rintro rfl
      rw [here] at carries
      exact other (by simpa using carries)
    have dropped : (dropAt q.heap i inside)[0]? = some wt := by
      rw [Array.getElem?_eq_getElem (by simp; omega)]
      simp [dropAt, Array.getElem_set, below, here]
    show (removeAt q.heap i inside)[0]? = some wt
    unfold removeAt
    split
    · exact dropped
    · rw [down_root _ _ _ below]
      exact dropped

end JobPriorityQueue

/-! ## Times the clock can show -/

/-- The job starts and ends at times the clock can show. -/
structure Job.Representable (job : Job) : Prop where
  tstart : job.tstart ≤ timePointMax
  tend : job.tend ≤ timePointMax

/-- Requests are for such times, and such times are read from the clock. -/
def Label.Representable : Label → Prop
  | .reserve job => job.Representable
  | .pop now => now ≤ timePointMax
  | _ => True

instance (job : Job) : Decidable job.Representable :=
  decidable_of_iff (job.tstart ≤ timePointMax ∧ job.tend ≤ timePointMax)
    ⟨fun fits => ⟨fits.1, fits.2⟩, fun fits => ⟨fits.tstart, fits.tend⟩⟩

instance : DecidablePred Label.Representable
  | .reserve job => inferInstanceAs (Decidable job.Representable)
  | .pop now => inferInstanceAs (Decidable (now ≤ timePointMax))
  | .delete _ => inferInstanceAs (Decidable True)
  | .server _ => inferInstanceAs (Decidable True)
  | .monitor _ => inferInstanceAs (Decidable True)
  | .wake _ => inferInstanceAs (Decidable True)

/-- The job the server is about to enter. -/
def ServerPc.job : ServerPc → Option Job
  | .checkOst job _ => some job
  | .addJob job => some job
  | .registerJob job _ => some job
  | _ => none

/-- The end of every stored job is such a time. -/
def EndsRepresentable (s : MemoryScheduleState) : Prop :=
  ∀ id job, s.jobOf id = some job → job.tend ≤ timePointMax

theorem EndsRepresentable.updateJob {s : MemoryScheduleState} (ends : EndsRepresentable s) (jobid : JobId)
    (st : JobState) : EndsRepresentable (s.updateJob jobid st).2 := by
  intro id job stored
  rw [jobOf_updateJob] at stored
  split at stored
  · obtain ⟨old, there, rfl⟩ := Option.map_eq_some_iff.1 stored
    exact ends id old there
  · exact ends id job stored

theorem EndsRepresentable.removeJob {s : MemoryScheduleState} (ends : EndsRepresentable s) (jobid : JobId) :
    EndsRepresentable (s.removeJob jobid).2 := by
  intro id job stored
  rw [jobOf_removeJob] at stored
  split at stored
  · cases stored
  · exact ends id job stored

theorem EndsRepresentable.addJob {s : MemoryScheduleState} (ends : EndsRepresentable s) {job : Job}
    (fresh : s.jobOf job.jobid = none) (fits : job.tend ≤ timePointMax) :
    EndsRepresentable (s.addJob job.jobid job job.osts).2 := by
  intro id other stored
  rw [jobOf_addJob _ _ _ fresh] at stored
  split at stored
  · cases stored
    exact fits
  · exact ends id other stored

section Calls

variable {jobid : JobId} {m m' : JobMonitor}

theorem StartMove.ends {pc : StartPc} {control : Control StartPc Bool} (move : StartMove jobid m pc m' control)
    (ends : EndsRepresentable m.scheduleState) : EndsRepresentable m'.scheduleState := by
  cases move with
  | updated => exact ends.updateJob jobid _
  | _ => exact ends

theorem StopMove.ends {pc : StopPc} {control : Control StopPc Bool} (move : StopMove jobid m pc m' control)
    (ends : EndsRepresentable m.scheduleState) : EndsRepresentable m'.scheduleState := by
  cases move with
  | updated => exact ends.updateJob jobid _
  | _ => exact ends

theorem HandleMove.ends {event : JobEvent} {pc : HandlePc} {control : Control HandlePc Unit}
    (move : HandleMove jobid event m pc m' control) (ends : EndsRepresentable m.scheduleState) :
    EndsRepresentable m'.scheduleState := by
  cases move with
  | start _ _ _ move => exact move.ends ends
  | startDone _ _ _ move => exact move.ends ends
  | stop _ _ _ move => exact move.ends ends
  | stopDone _ _ _ move => exact move.ends ends
  | removed => exact ends.removeJob jobid
  | _ => exact ends

theorem UnregisterMove.ends {pc : UnregisterPc} {control : Control UnregisterPc Bool}
    (move : UnregisterMove jobid m pc m' control) (ends : EndsRepresentable m.scheduleState) :
    EndsRepresentable m'.scheduleState := by
  cases move with
  | stop _ _ _ move => exact move.ends ends
  | stopDone _ _ _ move => exact move.ends ends
  | _ => exact ends

end Calls

namespace System

/-- No time that a thread is about to register is later than the clock's last. -/
structure Representable (s : System) : Prop where
  stored : EndsRepresentable s.world.scheduleState
  server : ∀ job, s.server.job = some job → job.Representable
  monitor : ∀ wt now tend reservation, s.monitor = .handle wt now (.start (.push tend reservation)) →
    tend ≤ timePointMax

theorem representable_init : init.Representable where
  stored := by simp [EndsRepresentable, init, JobMonitor.empty]
  server := nofun
  monitor := nofun

theorem Representable.step {limits : Limits} {s s' : System} {l : Label} (fits : s.Representable)
    (label : l.Representable) (taken : s.step limits l = some s') : s'.Representable := by
  have move := step_move taken
  obtain ⟨⟨m', held, asleep⟩, server', monitor'⟩ := s'
  dsimp only at move
  cases move with
  | reserve job idle =>
    refine ⟨fits.stored, fun job' here => ?_, fits.monitor⟩
    cases here
    exact label
  | delete request idle =>
    refine ⟨fits.stored, fun job here => ?_, fits.monitor⟩
    cases ids : request.id <;> rw [ids] at here <;> cases here
  | checkFails _ job ost osts here => exact ⟨fits.stored, nofun, fits.monitor⟩
  | checkNext _ job ost osts here =>
    refine ⟨fits.stored, fun job' there => fits.server job' ?_, fits.monitor⟩
    rw [here]
    exact there
  | checksDone _ job here =>
    refine ⟨fits.stored, fun job' there => ?_, fits.monitor⟩
    cases there
    obtain ⟨tstart, tend⟩ := fits.server job (by rw [here]; rfl)
    exact ⟨tstart, tend⟩
  | refused _ job here => exact ⟨fits.stored, nofun, fits.monitor⟩
  | added _ job here fresh =>
    have own := fits.server job (by rw [here]; rfl)
    refine ⟨fits.stored.addJob fresh own.tend, fun job' there => ?_, fits.monitor⟩
    cases there
    exact own
  | registered _ job reservation here => exact ⟨fits.stored, nofun, fits.monitor⟩
  | unregister _ jobid pc pc' rest m' here move => exact ⟨move.ends fits.stored, nofun, fits.monitor⟩
  | unregistered _ jobid pc rest m' result here move => exact ⟨move.ends fits.stored, nofun, fits.monitor⟩
  | removed _ jobid rest here =>
    refine ⟨fits.stored.removeJob jobid, fun job there => ?_, fits.monitor⟩
    cases ids : rest <;> rw [ids] at there <;> cases there
  | pop now wt queue idle popped ready => exact ⟨fits.stored, fits.server, nofun⟩
  | handle env wt now pc pc' _ here move =>
    refine ⟨move.ends fits.stored, fits.server, fun wt' now' tend reservation there => ?_⟩
    cases there
    cases move with
    | start pc _ _ move =>
      cases move with
      | jobEnd job stored => exact fits.stored wt.jobid job stored
  | handled env wt now pc _ here move => exact ⟨move.ends fits.stored, fits.server, nofun⟩
  | wake t => exact ⟨fits.stored, fits.server, fits.monitor⟩

end System

/-! ## The root stays -/

/-- The request does not name the job. -/
def Label.Spares (jobid : JobId) : Label → Prop
  | .delete request => jobid ∉ request.id
  | _ => True

/-- The server has yet to unregister the job. -/
def ServerPc.Deletes (jobid : JobId) : ServerPc → Prop
  | .unregisterJob id _ rest => jobid = id ∨ jobid ∈ rest
  | .removeJob _ rest => jobid ∈ rest
  | _ => False

theorem nextDelete_deletes {jobid : JobId} {ids : List JobId} :
    (nextDelete ids).Deletes jobid ↔ jobid ∈ ids := by
  cases ids <;> simp [nextDelete, ServerPc.Deletes]

section Calls

variable {jobid : JobId} {m m' : JobMonitor} {wt : WaitingItem}

theorem StartMove.peek {pc : StartPc} {control : Control StartPc Bool} (move : StartMove jobid m pc m' control)
    (root : m.jobPriorityQueue.peek = some wt)
    (noLater : ∀ tend reservation, pc = .push tend reservation → tend ≤ wt.timeOfEvent) :
    m'.jobPriorityQueue.peek = some wt := by
  cases move with
  | pushed tend reservation => exact peek_push _ root (noLater tend reservation rfl)
  | _ => exact root

theorem StopMove.peek {pc : StopPc} {control : Control StopPc Bool} (move : StopMove jobid m pc m' control)
    (root : m.jobPriorityQueue.peek = some wt) : m'.jobPriorityQueue.peek = some wt := by
  cases move <;> exact root

theorem HandleMove.peek {event : JobEvent} {pc : HandlePc} {control : Control HandlePc Unit}
    (move : HandleMove jobid event m pc m' control) (root : m.jobPriorityQueue.peek = some wt)
    (noLater : ∀ tend reservation, pc = .start (.push tend reservation) → tend ≤ wt.timeOfEvent) :
    m'.jobPriorityQueue.peek = some wt := by
  cases move with
  | start pc _ _ move => exact move.peek root fun tend reservation here => noLater tend reservation (by rw [here])
  | startDone pc _ _ move => exact move.peek root fun tend reservation here => noLater tend reservation (by rw [here])
  | stop _ _ _ move => exact move.peek root
  | stopDone _ _ _ move => exact move.peek root
  | _ => exact root

theorem UnregisterMove.peek {pc : UnregisterPc} {control : Control UnregisterPc Bool}
    (move : UnregisterMove jobid m pc m' control) (root : m.jobPriorityQueue.peek = some wt)
    (other : wt.jobid ≠ jobid) : m'.jobPriorityQueue.peek = some wt := by
  cases move with
  | dequeued => exact peek_remove root other
  | stop _ _ _ move => exact move.peek root
  | stopDone _ _ _ move => exact move.peek root
  | _ => exact root

end Calls

namespace System

/-- An event is at the root, and the server will not remove it. -/
structure Blocked (wt : WaitingItem) (s : System) : Prop where
  fits : s.Representable
  root : s.world.jobPriorityQueue.peek = some wt
  spared : ¬ s.server.Deletes wt.jobid

/-- **One step**: the event stays at the root, and is not taken. -/
theorem Blocked.step {limits : Limits} {s s' : System} {l : Label} {wt : WaitingItem} (blocked : Blocked wt s)
    (unlimited : wt.timeOfEvent = timePointMax) (label : l.Representable) (spares : l.Spares wt.jobid)
    (taken : s.step limits l = some s') : Blocked wt s' ∧ ∀ now, l ≠ .pop now := by
  have after := blocked.fits.step label taken
  have move := step_move taken
  obtain ⟨fits, root, spared⟩ := blocked
  obtain ⟨⟨m', held, asleep⟩, server', monitor'⟩ := s'
  dsimp only at move
  cases move with
  | delete request idle => exact ⟨⟨after, root, mt nextDelete_deletes.1 spares⟩, nofun⟩
  | registered _ job reservation here =>
    have noLater : job.tstart ≤ wt.timeOfEvent := by
      rw [unlimited]
      exact (fits.server job (by rw [here]; rfl)).tstart
    exact ⟨⟨after, peek_push _ root noLater, not_false⟩, nofun⟩
  | unregister _ jobid pc pc' rest m' here move =>
    rw [here] at spared
    exact ⟨⟨after, move.peek root fun same => spared (Or.inl same), spared⟩, nofun⟩
  | unregistered _ jobid pc rest m' result here move =>
    rw [here] at spared
    exact ⟨⟨after, move.peek root fun same => spared (Or.inl same), fun later => spared (Or.inr later)⟩, nofun⟩
  | removed _ jobid rest here =>
    rw [here] at spared
    exact ⟨⟨after, root, mt nextDelete_deletes.1 spared⟩, nofun⟩
  | pop now item queue idle popped ready =>
    -- The clock does not get past the time of the event at the root.
    obtain rfl : item = wt := Option.some.inj ((items_pop popped).1.symm.trans root)
    rw [unlimited] at ready
    exact absurd ready (not_lt_of_ge label)
  | handle env other now pc pc' _ here move =>
    refine ⟨⟨after, move.peek root fun tend reservation there => ?_, spared⟩, nofun⟩
    rw [unlimited]
    exact fits.monitor other now tend reservation (by rw [here, there])
  | handled env other now pc _ here move =>
    refine ⟨⟨after, move.peek root fun tend reservation there => ?_, spared⟩, nofun⟩
    rw [unlimited]
    exact fits.monitor other now tend reservation (by rw [here, there])
  | wake t => exact ⟨⟨after, root, spared⟩, nofun⟩
  | _ => exact ⟨⟨after, root, not_false⟩, nofun⟩

/-- Along a run. -/
theorem Blocked.run {limits : Limits} {s s' : System} {future : List (System × Label)} {wt : WaitingItem}
    (blocked : Blocked wt s) (unlimited : wt.timeOfEvent = timePointMax)
    (goesOn : Path (System.step limits) (fun _ l => l.Representable ∧ l.Spares wt.jobid) s future s') :
    Blocked wt s' ∧ ∀ taken ∈ future, ∀ now, taken.2 ≠ .pop now := by
  refine goesOn.invariant_trace (P := fun trace s => Blocked wt s ∧ ∀ taken ∈ trace, ∀ now, taken.2 ≠ .pop now)
    ⟨blocked, List.forall_mem_nil _⟩ ?_
  rintro trace s l s' ⟨blocked, before⟩ ⟨clock, spares⟩ taken
  obtain ⟨blocked', none⟩ := blocked.step unlimited clock spares taken
  refine ⟨blocked', fun entry member => ?_⟩
  rcases List.mem_append.1 member with old | new
  · exact before entry old
  · rw [List.mem_singleton.1 new]
    exact none

/-- **A job without an end blocks all others.** In any run whose times the clock can show: when
the monitor starts a job whose end is the clock's last time point, and no queued event is as
late, then the stop of that job stays at the root and the monitor takes no event any more,
whatever else is due, for as long as no request to delete names the job. The queue is that
of the code while it holds fewer than `2^31` items. -/
theorem unlimited_job_blocks (limits : Limits) {past future : List (System × Label)} {s s₁ s' : System}
    (reached : Path (step limits) (fun _ l => l.Representable) init past s) {wt : WaitingItem} {now : TimePoint}
    {reservation : Nat} (starts : s.monitor = .handle wt now (.start (.push timePointMax reservation)))
    (earlier : ∀ x ∈ s.world.jobPriorityQueue.items, x.timeOfEvent < timePointMax) (env : RemoteEnv)
    (taken : s.step limits (.monitor env) = some s₁) (spared : ¬ s.server.Deletes wt.jobid)
    (goesOn : Path (step limits) (fun _ l => l.Representable ∧ l.Spares wt.jobid) s₁ future s') :
    s'.world.jobPriorityQueue.peek = some ⟨wt.jobid, timePointMax, .JOBSTOP, reservation⟩ ∧
      ∀ taken ∈ future, ∀ now, taken.2 ≠ .pop now := by
  have fits : s.Representable :=
    reached.invariant (P := Representable) representable_init fun _ _ _ fits clock taken => fits.step clock taken
  have blocked : Blocked ⟨wt.jobid, timePointMax, .JOBSTOP, reservation⟩ s₁ := by
    refine ⟨fits.step (show Label.Representable (.monitor env) from trivial) taken, ?_, ?_⟩
    all_goals
      obtain ⟨-, wt', now', pc, here, went⟩ := step_monitor taken
      rw [starts] at here
      cases here
    · rcases went with ⟨w, pc', ran, rfl⟩ | ⟨w, ran, rfl⟩ <;> cases ran
      exact peek_push_latest _ earlier
    · rcases went with ⟨w, pc', -, rfl⟩ | ⟨w, -, rfl⟩ <;> exact spared
  obtain ⟨blocked', none⟩ := blocked.run rfl goesOn
  exact ⟨blocked'.root, none⟩

/-- `foo` is reserved without an end, `bar` for a few seconds; `foo` is being started. -/
def startFooForEver : List Label :=
  reserveFoo 0 timePointMax ++ [.pop 1] ++
    .reserve ⟨.INITIALIZED, "bar", 5, 10, ["OST_a"], 42⟩ :: List.replicate 4 (.server 0) ++
    List.replicate 7 (.monitor allSucceed)

/-- Until `foo` is deleted, `bar` is not started. -/
theorem bar_waits_for_foo :
    ∃ past s s₁, Path (step oneOst) (fun _ l => l.Representable) init past s ∧
      s.world.jobPriorityQueue.heap = #[⟨"bar", 5, .JOBSTART, 1⟩] ∧ s.step oneOst (.monitor allSucceed) = some s₁ ∧
      ∀ future s', Path (step oneOst) (fun _ l => l.Representable ∧ l.Spares "foo") s₁ future s' →
        s'.world.jobPriorityQueue.peek = some ⟨"foo", timePointMax, .JOBSTOP, 0⟩ ∧
          ∀ taken ∈ future, ∀ now, taken.2 ≠ .pop now := by
  have runs : (execWhile (step oneOst) (fun _ l => l.Representable) init startFooForEver).map (fun s =>
      decide (s.monitor = .handle ⟨"foo", 0, .JOBSTART, 0⟩ 1 (.start (.push timePointMax 0)) ∧ s.server = .idle ∧
        s.world.jobPriorityQueue.heap = #[⟨"bar", 5, .JOBSTART, 1⟩] ∧ .monitor ∉ s.world.inFlightJobsCv)) =
      some true := by decide +kernel
  obtain ⟨s, ran, here⟩ := Option.map_eq_some_iff.1 runs
  obtain ⟨starts, server, heap, awake⟩ := of_decide_eq_true here
  obtain ⟨s₁, taken⟩ : ∃ s₁, s.step oneOst (.monitor allSucceed) = some s₁ := by
    simp [step, awake, starts, handleStep, startStep]
  have path := Path.of_execWhile .nil ran
  refine ⟨_, s, s₁, path, heap, taken, fun future s' goesOn => ?_⟩
  refine unlimited_job_blocks oneOst path starts ?_ allSucceed taken (by rw [server]; exact not_false) goesOn
  simp [items, heap, timePointMax]

end System

end QosPlanner
