import QosPlanner.Concurrent.Exclusion

/-!
# The life cycle of a reservation

`StartJob` and `StopJob` check the state of a job, and write the next one in a later
section. In between the job is protected by its id: whoever changes the state of a stored
job holds the id. But `AddJob` does not ask for it. When a reservation is deleted and its
id reserved again between the check of `StopJob` and its write, the write marks a
reservation DONE that has never been ACTIVE. Where no id is reserved again at that moment,
every write finds the state its check has found (`legal_life_cycle`).
-/

namespace QosPlanner
set_option autoImplicit false

open MemoryScheduleState Run Lock

/-! ## What a call has checked -/

/-- The state a call at `pc` has found its job in. -/
def StartPc.expects : StartPc → Option JobState
  | .getJobThroughput => some .SCHEDULED
  | .getJobOstIds _ => some .SCHEDULED
  | .setRules _ _ => some .SCHEDULED
  | .updateJob => some .SCHEDULED
  | _ => none

def StopPc.expects : StopPc → Option JobState
  | .getJobStatus => none
  | .removeRules => some .ACTIVE
  | .updateJob => some .ACTIVE

def HandlePc.expects : HandlePc → Option JobState
  | .start pc => pc.expects
  | .stop pc => pc.expects
  | _ => none

def UnregisterPc.expects : UnregisterPc → Option JobState
  | .stop pc => pc.expects
  | _ => none

/-- The job stored under the id, if any, is in the expected state. -/
def Meets (m : JobMonitor) (jobid : JobId) (expected : Option JobState) : Prop :=
  ∀ (st : JobState) (job : Job), expected = some st → m.scheduleState.jobOf jobid = some job → job.state = st

theorem meets_none (m : JobMonitor) (jobid : JobId) : Meets m jobid none := by
  intro _ _ expected
  cases expected

theorem Meets.congr {m m' : JobMonitor} {jobid : JobId} {expected : Option JobState}
    (meets : Meets m jobid expected) (same : m'.scheduleState.jobOf jobid = m.scheduleState.jobOf jobid) :
    Meets m' jobid expected := by
  intro st job expects stored
  rw [same] at stored
  exact meets st job expects stored

theorem meets_of_absent {m : JobMonitor} {jobid : JobId} (expected : Option JobState)
    (absent : m.scheduleState.jobOf jobid = none) : Meets m jobid expected := by
  intro st job _ stored
  rw [absent] at stored
  cases stored

section Own

variable {jobid : JobId} {m m' : JobMonitor}

/-- A call keeps finding the state it has checked, until it has written the next one. -/
theorem StartMove.meets {pc pc' : StartPc} (move : StartMove jobid m pc m' (.next pc'))
    (meets : Meets m jobid pc.expects) : Meets m' jobid pc'.expects := by
  cases move with
  | checked job stored state =>
    intro st job' expects stored'
    rw [stored] at stored'
    cases stored'
    cases expects
    exact state
  | updated => exact meets_none _ _
  | jobEnd => exact meets_none _ _
  | _ => exact meets

theorem StopMove.meets {pc pc' : StopPc} (move : StopMove jobid m pc m' (.next pc'))
    (meets : Meets m jobid pc.expects) : Meets m' jobid pc'.expects := by
  cases move with
  | checked job stored state =>
    intro st job' expects stored'
    rw [stored] at stored'
    cases stored'
    cases expects
    exact state
  | rulesRemoved => exact meets

theorem HandleMove.meets {event : JobEvent} {pc pc' : HandlePc} (move : HandleMove jobid event m pc m' (.next pc'))
    (meets : Meets m jobid pc.expects) : Meets m' jobid pc'.expects := by
  cases move with
  | start _ _ _ move => exact move.meets meets
  | stop _ _ _ move => exact move.meets meets
  | _ => exact meets_none _ _

theorem UnregisterMove.meets {pc pc' : UnregisterPc} (move : UnregisterMove jobid m pc m' (.next pc'))
    (meets : Meets m jobid pc.expects) : Meets m' jobid pc'.expects := by
  cases move with
  | stop _ _ _ move => exact move.meets meets
  | _ => exact meets_none _ _

end Own

/-! ## The invariant -/

/-- Both threads find the states they have checked. -/
structure Checked (s : System) : Prop where
  monitor : ∀ (wt : WaitingItem) (now : TimePoint) (pc : HandlePc), s.monitor = .handle wt now pc →
    Meets s.world.toJobMonitor wt.jobid pc.expects
  server : ∀ (jobid : JobId) (pc : UnregisterPc) (rest : List JobId), s.server = .unregisterJob jobid pc rest →
    Meets s.world.toJobMonitor jobid pc.expects

/-- The id for which the monitor is in `StopJob`, past the check of the state. -/
def MonitorPc.stopping : MonitorPc → Option JobId
  | .handle wt _ (.stop .removeRules) => some wt.jobid
  | .handle wt _ (.stop .updateJob) => some wt.jobid
  | _ => none

theorem MonitorPc.place_of_stopping {monitor : MonitorPc} {jobid : JobId} (stopping : monitor.stopping = some jobid) :
    ∃ wt now pc, monitor = .handle wt now (.stop pc) ∧ wt.jobid = jobid ∧ pc ≠ .getJobStatus := by
  unfold MonitorPc.stopping at stopping
  split at stopping
  · exact ⟨_, _, _, rfl, Option.some.inj stopping, by decide⟩
  · exact ⟨_, _, _, rfl, Option.some.inj stopping, by decide⟩
  · cases stopping

/-- The step does not add a reservation under an id the monitor is about to mark DONE. -/
def AddsNoneBeingStopped : System → Label → Prop := AddsOnlyWhere fun s jobid => s.monitor.stopping ≠ some jobid

instance (s : System) (l : Label) : Decidable (AddsNoneBeingStopped s l) :=
  inferInstanceAs (Decidable (AddsOnlyWhere _ s l))

/-- A call that expects a state holds its id. -/
theorem HandlePc.holds_of_expects {pc : HandlePc} {st : JobState} (jobid : JobId) (expects : pc.expects = some st) :
    pc.phase jobid = .holding jobid := by
  refine pc.holds_of_ne_block jobid ?_
  rintro rfl
  cases expects

theorem UnregisterPc.holds_of_expects {pc : UnregisterPc} {st : JobState} (jobid : JobId)
    (expects : pc.expects = some st) : pc.phase jobid = .holding jobid := by
  refine pc.holds_of_ne_block jobid ?_
  rintro rfl
  cases expects

/-- A step of the monitor keeps what the server, who holds another id, has checked. -/
theorem Checked.server_of_handle {s : System} (checked : Checked s) (sound : Sound s.lock) {wt : WaitingItem}
    {now : TimePoint} {pc : HandlePc} {m' : JobMonitor} {control : Control HandlePc Unit}
    (here : s.monitor = .handle wt now pc) (move : HandleMove wt.jobid wt.eventType s.world.toJobMonitor pc m' control)
    {jobid : JobId} {pc' : UnregisterPc} {rest : List JobId} (there : s.server = .unregisterJob jobid pc' rest) :
    Meets m' jobid pc'.expects := by
  intro st job expects stored
  have holds : s.server.phase = .holding jobid := by rw [there]; exact pc'.holds_of_expects jobid expects
  have same := move.same_of_server_holds sound here holds
  exact checked.server jobid pc' rest there st job expects (same.1 ▸ stored)

/-- And the other way round. -/
theorem Checked.monitor_of_unregister {s : System} (checked : Checked s) (sound : Sound s.lock) {jobid : JobId}
    {pc : UnregisterPc} {rest : List JobId} {m' : JobMonitor} {control : Control UnregisterPc Bool}
    (here : s.server = .unregisterJob jobid pc rest) (move : UnregisterMove jobid s.world.toJobMonitor pc m' control)
    {wt : WaitingItem} {now : TimePoint} {pc' : HandlePc} (there : s.monitor = .handle wt now pc') :
    Meets m' wt.jobid pc'.expects := by
  intro st job expects stored
  have holds : s.monitor.phase = .holding wt.jobid := by rw [there]; exact pc'.holds_of_expects wt.jobid expects
  have same := move.same_of_monitor_holds sound here holds
  exact checked.monitor wt now pc' there st job expects (same.1 ▸ stored)

/-- The loop of a delete request starts with nothing checked. -/
theorem meets_nextDelete (m : JobMonitor) {ids rest : List JobId} {jobid : JobId} {pc : UnregisterPc}
    (next : nextDelete ids = .unregisterJob jobid pc rest) : Meets m jobid pc.expects := by
  rw [(nextDelete_unregisterJob next).1]
  exact meets_none m jobid

/-- A reservation added while the monitor is not stopping its id is what `StartJob` expects. -/
theorem Checked.monitor_of_added {s : System} (checked : Checked s) (valid : s.Valid) {job : Job}
    (here : s.server = .addJob job) (fresh : s.world.scheduleState.jobOf job.jobid = none)
    (idle : s.monitor.stopping ≠ some job.jobid) {wt : WaitingItem} {now : TimePoint} {pc : HandlePc}
    (there : s.monitor = .handle wt now pc) :
    Meets { s.world.toJobMonitor with scheduleState := (s.world.scheduleState.addJob job.jobid job job.osts).2 }
      wt.jobid pc.expects := by
  intro st stored expects found
  rw [show MemoryScheduleState.jobOf _ wt.jobid = _ from jobOf_addJob _ _ _ fresh] at found
  split at found
  · rename_i named
    cases found
    rw [valid.adds job here]
    rw [there] at idle
    rcases pc with _ | pc | pc | _ | _
    · cases expects
    · rcases pc with _ | _ | _ | _ | _ | _ | _ <;> cases expects <;> rfl
    · rcases pc with _ | _ | _
      · cases expects
      · exact absurd (congrArg some named.symm) idle
      · exact absurd (congrArg some named.symm) idle
    · cases expects
    · cases expects
  · exact checked.monitor wt now pc there st stored expects found

/-- **A step keeps what the calls have checked**, unless it adds a reservation under an id
that is being stopped. -/
theorem Checked.step {limits : Limits} {s s' : System} {l : Label} (checked : Checked s) (valid : s.Valid)
    (adds : AddsNoneBeingStopped s l) (taken : s.step limits l = some s') : Checked s' := by
  have move := System.step_move taken
  have sound := valid.sound
  obtain ⟨⟨m', held, asleep⟩, server', monitor'⟩ := s'
  dsimp only at move
  cases move with
  | delete request idle => exact ⟨checked.monitor, fun _ _ _ there => meets_nextDelete _ there⟩
  | added u job here fresh =>
    refine ⟨fun wt now pc there => ?_, nofun⟩
    exact checked.monitor_of_added valid here fresh (adds.of_added here fresh) there
  | unregister u jobid pc pc' rest m' here move =>
    refine ⟨fun wt now pc there => checked.monitor_of_unregister sound here move there, fun _ _ _ there => ?_⟩
    cases there
    exact move.meets (checked.server jobid pc rest here)
  | unregistered u jobid pc rest m' result here move =>
    exact ⟨fun wt now pc there => checked.monitor_of_unregister sound here move there, nofun⟩
  | removed u jobid rest here =>
    refine ⟨fun wt now pc there => ?_, fun _ _ _ there => meets_nextDelete _ there⟩
    by_cases named : jobid = wt.jobid
    · exact meets_of_absent _ ((jobOf_removeJob _ _ _).trans (if_pos named))
    · exact (checked.monitor wt now pc there).congr ((jobOf_removeJob _ _ _).trans (if_neg named))
  | pop now wt queue idle popped ready =>
    refine ⟨fun _ _ _ there => ?_, checked.server⟩
    cases there
    exact meets_none _ _
  | handle env wt now pc pc' m' here move =>
    refine ⟨fun _ _ _ there => ?_, fun _ _ _ there => checked.server_of_handle sound here move there⟩
    cases there
    exact move.meets (checked.monitor wt now pc here)
  | handled env wt now pc m' here move =>
    exact ⟨nofun, fun _ _ _ there => checked.server_of_handle sound here move there⟩
  | wake t => exact ⟨checked.monitor, checked.server⟩
  | _ => exact ⟨checked.monitor, nofun⟩

/-! ## The writes -/

/-- Every write of a state that a thread is about to make finds the state before it:
ACTIVE is written to a SCHEDULED job, DONE to an ACTIVE one. -/
structure LegalWrites (s : System) : Prop where
  start : ∀ (wt : WaitingItem) (now : TimePoint) (job : Job), s.monitor = .handle wt now (.start .updateJob) →
    s.world.scheduleState.jobOf wt.jobid = some job → job.state = .SCHEDULED
  stop : ∀ (wt : WaitingItem) (now : TimePoint) (job : Job), s.monitor = .handle wt now (.stop .updateJob) →
    s.world.scheduleState.jobOf wt.jobid = some job → job.state = .ACTIVE
  unregister : ∀ (jobid : JobId) (rest : List JobId) (job : Job),
    s.server = .unregisterJob jobid (.stop .updateJob) rest →
    s.world.scheduleState.jobOf jobid = some job → job.state = .ACTIVE

/-- The moves of a reservation. -/
inductive LegalMove : JobState → JobState → Prop
  | same (st : JobState) : LegalMove st st
  | start : LegalMove .SCHEDULED .ACTIVE
  | stop : LegalMove .ACTIVE .DONE

/-- Every reservation ever stored makes a legal move or none, and a new one is SCHEDULED. -/
structure KeepsLifeCycle (s s' : MemoryScheduleState) : Prop where
  stored : ∀ p, p < s.objects.length → LegalMove (s.object p).state (s'.object p).state
  new : ∀ p, s.objects.length ≤ p → p < s'.objects.length → (s'.object p).state = .SCHEDULED

theorem KeepsLifeCycle.refl (s : MemoryScheduleState) : KeepsLifeCycle s s where
  stored := fun _ _ => .same _
  new := fun _ above below => absurd below (Nat.not_lt.2 above)

theorem keepsLifeCycle_removeJob (s : MemoryScheduleState) (jobid : JobId) :
    KeepsLifeCycle s (s.removeJob jobid).2 where
  stored := fun p _ => by rw [object_removeJob]; exact .same _
  new := fun p above below => by
    rw [removeJob_objects] at below
    exact absurd below (Nat.not_lt.2 above)

/-- A write that is legal for the stored job. -/
theorem keepsLifeCycle_updateJob (s : MemoryScheduleState) (jobid : JobId) (st : JobState)
    (legal : ∀ job, s.jobOf jobid = some job → LegalMove job.state st) :
    KeepsLifeCycle s (s.updateJob jobid st).2 where
  stored := by
    intro p valid
    rw [object_updateJob s jobid st p valid]
    split
    · rename_i found
      exact legal (s.object p) ((jobOf_eq_some s jobid).2 ⟨p, found, rfl⟩)
    · exact .same _
  new := by
    intro p above below
    have : (s.updateJob jobid st).2.objects.length = s.objects.length := by
      unfold MemoryScheduleState.updateJob
      split <;> simp
    rw [this] at below
    exact absurd below (Nat.not_lt.2 above)

theorem keepsLifeCycle_addJob (s : MemoryScheduleState) {job : Job} (fresh : s.jobOf job.jobid = none)
    (state : job.state = .SCHEDULED) : KeepsLifeCycle s (s.addJob job.jobid job job.osts).2 where
  stored := fun p valid => by rw [object_addJob_old s job.jobid valid]; exact .same _
  new := by
    intro p above below
    rw [addJob_objects s job.jobid fresh, List.length_append, List.length_singleton] at below
    obtain rfl : p = s.objects.length := Nat.le_antisymm (Nat.lt_succ_iff.1 below) above
    rw [object_addJob_new s job.jobid fresh]
    exact state

section Own

variable {jobid : JobId} {m m' : JobMonitor}

theorem StartMove.keepsLifeCycle {pc : StartPc} {control : Control StartPc Bool}
    (move : StartMove jobid m pc m' control) (meets : Meets m jobid pc.expects) :
    KeepsLifeCycle m.scheduleState m'.scheduleState := by
  cases move with
  | updated job stored =>
    refine keepsLifeCycle_updateJob _ _ _ fun job' stored' => ?_
    rw [meets _ job' rfl stored']
    exact .start
  | _ => exact .refl _

theorem StopMove.keepsLifeCycle {pc : StopPc} {control : Control StopPc Bool}
    (move : StopMove jobid m pc m' control) (meets : Meets m jobid pc.expects) :
    KeepsLifeCycle m.scheduleState m'.scheduleState := by
  cases move with
  | updated result =>
    refine keepsLifeCycle_updateJob _ _ _ fun job stored => ?_
    rw [meets _ job rfl stored]
    exact .stop
  | _ => exact .refl _

theorem HandleMove.keepsLifeCycle {event : JobEvent} {pc : HandlePc} {control : Control HandlePc Unit}
    (move : HandleMove jobid event m pc m' control) (meets : Meets m jobid pc.expects) :
    KeepsLifeCycle m.scheduleState m'.scheduleState := by
  cases move with
  | start _ _ _ move => exact move.keepsLifeCycle meets
  | startDone _ _ _ move => exact move.keepsLifeCycle meets
  | stop _ _ _ move => exact move.keepsLifeCycle meets
  | stopDone _ _ _ move => exact move.keepsLifeCycle meets
  | removed => exact keepsLifeCycle_removeJob _ _
  | _ => exact .refl _

theorem UnregisterMove.keepsLifeCycle {pc : UnregisterPc} {control : Control UnregisterPc Bool}
    (move : UnregisterMove jobid m pc m' control) (meets : Meets m jobid pc.expects) :
    KeepsLifeCycle m.scheduleState m'.scheduleState := by
  cases move with
  | stop _ _ _ move => exact move.keepsLifeCycle meets
  | stopDone _ _ _ move => exact move.keepsLifeCycle meets
  | _ => exact .refl _

end Own

namespace Checked

theorem legalWrites {s : System} (checked : Checked s) : LegalWrites s where
  start := fun wt now job here stored => checked.monitor wt now _ here _ job rfl stored
  stop := fun wt now job here stored => checked.monitor wt now _ here _ job rfl stored
  unregister := fun jobid rest job here stored => checked.server jobid _ rest here _ job rfl stored

/-- While the calls find what they have checked, every reservation keeps to its life cycle. -/
theorem keepsLifeCycle {limits : Limits} {s s' : System} {l : Label} (checked : Checked s) (valid : s.Valid)
    (taken : s.step limits l = some s') :
    KeepsLifeCycle s.world.scheduleState s'.world.scheduleState := by
  have move := System.step_move taken
  obtain ⟨⟨m', held, asleep⟩, server', monitor'⟩ := s'
  dsimp only at move
  cases move with
  | added u job here fresh => exact keepsLifeCycle_addJob _ fresh (valid.adds job here)
  | unregister u jobid pc pc' rest m' here move => exact move.keepsLifeCycle (checked.server jobid pc rest here)
  | unregistered u jobid pc rest m' result here move =>
    exact move.keepsLifeCycle (checked.server jobid pc rest here)
  | removed u jobid rest here => exact keepsLifeCycle_removeJob _ _
  | handle env wt now pc pc' m' here move => exact move.keepsLifeCycle (checked.monitor wt now pc here)
  | handled env wt now pc m' here move => exact move.keepsLifeCycle (checked.monitor wt now pc here)
  | _ => exact .refl _

theorem of_path {limits : Limits} {trace : List (System × Label)} {s : System}
    (path : Path (System.step limits) AddsNoneBeingStopped System.init trace s) : Checked s ∧ s.Valid := by
  refine path.invariant (P := fun s => Checked s ∧ s.Valid) ⟨⟨nofun, nofun⟩, System.valid_init⟩ ?_
  exact fun _ _ _ ⟨checked, valid⟩ adds taken => ⟨checked.step valid adds taken, valid.step taken⟩

end Checked

/-- **The legal life cycle**, in every run that adds no reservation under an id the monitor
is about to mark DONE: all writes are legal, and every reservation ever stored moves from
SCHEDULED to ACTIVE to DONE. -/
theorem legal_life_cycle (limits : Limits) (trace : List (System × Label)) (s : System)
    (path : Path (System.step limits) AddsNoneBeingStopped System.init trace s) :
    LegalWrites s ∧ ∀ (l : Label) (s' : System), s.step limits l = some s' →
      KeepsLifeCycle s.world.scheduleState s'.world.scheduleState := by
  obtain ⟨checked, valid⟩ := Checked.of_path path
  exact ⟨checked.legalWrites, fun _ _ taken => checked.keepsLifeCycle valid taken⟩

/-- Such a run, up to the moment at which the monitor writes ACTIVE. -/
theorem foo_starts_legally :
    ∃ s, execWhile (System.step oneOst) AddsNoneBeingStopped System.init
        (reserveFoo 0 10 ++ .pop 1 :: List.replicate 5 (.monitor allSucceed)) = some s ∧
      s.monitor = .handle ⟨"foo", 0, .JOBSTART, 0⟩ 1 (.start .updateJob) ∧ LegalWrites s := by
  have run : (execWhile (System.step oneOst) AddsNoneBeingStopped System.init
      (reserveFoo 0 10 ++ .pop 1 :: List.replicate 5 (.monitor allSucceed))).map (·.monitor) =
        some (.handle ⟨"foo", 0, .JOBSTART, 0⟩ 1 (.start .updateJob)) := by decide +kernel
  obtain ⟨s, reached, here⟩ := Option.map_eq_some_iff.1 run
  have path := Path.of_execWhile .nil reached
  exact ⟨s, reached, here, (legal_life_cycle oneOst _ s path).1⟩

/-- The monitor pops the JOBSTOP of `foo` and finds it ACTIVE; the server removes `foo` and
accepts a new one; the monitor goes on to its write. -/
def addWhileStopping : List Label :=
  startAfterUnregister ++ [.pop 11, .monitor allSucceed, .monitor allSucceed, .server 0] ++ reserveFoo 12 20 ++
    [.monitor allSucceed]

/-- **DONE before ACTIVE.** The monitor finds the old `foo` ACTIVE and past its end; before
it writes DONE, the server removes `foo` and accepts a new one, and the write goes there. -/
theorem done_without_active :
    ∃ s s', exec (System.step oneOst) System.init addWhileStopping = some s ∧
      s.step oneOst (.monitor allSucceed) = some s' ∧ ¬ LegalWrites s ∧
      ¬ KeepsLifeCycle s.world.scheduleState s'.world.scheduleState := by
  have run : (exec (System.step oneOst) System.init addWhileStopping).map (fun s =>
      (decide (s.monitor = .handle ⟨"foo", 10, .JOBSTOP, 0⟩ 11 (.stop .updateJob)),
        (s.world.scheduleState.jobOf "foo").map (·.state),
        decide (1 < s.world.scheduleState.objects.length), (s.world.scheduleState.object 1).state,
        (s.step oneOst (.monitor allSucceed)).map fun s' => (s'.world.scheduleState.object 1).state)) =
      some (true, some .SCHEDULED, true, .SCHEDULED, some .DONE) := by decide +kernel
  obtain ⟨s, reached, found⟩ := Option.map_eq_some_iff.1 run
  simp only [Prod.mk.injEq, decide_eq_true_eq, Option.map_eq_some_iff] at found
  obtain ⟨here, ⟨job, stored, scheduled⟩, valid, before, s', taken, after⟩ := found
  refine ⟨s, s', reached, taken, fun legal => ?_, fun keeps => ?_⟩
  · cases (legal.stop _ _ job here stored).symm.trans scheduled
  · have moved := keeps.stored 1 valid
    rw [before, after] at moved
    cases moved

end QosPlanner
