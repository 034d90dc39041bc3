import QosPlanner.Concurrent.LifeCycle
import QosPlanner.Concurrent.RulePlaces

/-!
# The rules and the active jobs

While a thread holds an id, the rule and the state of the job may disagree: `StartJob` sets
the rule before it writes ACTIVE, `StopJob` takes it away before it writes DONE. When the
id is free they agree. This is how the lock protects a rule (`RulesFit`), but `RemoveJob` and
`AddJob` of the server do not ask for it: a job removed before `StartJob` sets its rule, or
after that, leaves the rule behind. Where no rule is set for a job that is gone, and no job
is removed under its rule, the rules are those of the ACTIVE jobs whenever both threads are
idle (`rules_match_active_jobs`).
-/

namespace QosPlanner
set_option autoImplicit false

open MemoryScheduleState RuleManager Run Lock

/-! ## What the steps may meet -/

/-- The id whose job the monitor has read, and whose rule it has not yet set. -/
def MonitorPc.reading : MonitorPc → Option JobId
  | .handle wt _ (.start (.getJobOstIds _)) => some wt.jobid
  | .handle wt _ (.start (.setRules _ osts)) => if osts = [] then none else some wt.jobid
  | _ => none

/-- The id whose rule the monitor has set, and whose job it has not yet made ACTIVE. -/
def MonitorPc.activating : MonitorPc → Option JobId
  | .handle wt _ (.start .updateJob) => some wt.jobid
  | _ => none

/-- The job is not ACTIVE, unless the monitor is about to take its rule away, and the
monitor has not just given it one. -/
def LeavesNoRule (s : System) (jobid : JobId) : Prop :=
  (s.monitor.stopping ≠ some jobid → s.world.scheduleState.getJobStatus jobid ≠ some .ACTIVE) ∧
    s.monitor.activating ≠ some jobid

/-- A `SetRules` that is not refused finds a job stored under the id. -/
def SetsOnlyForJobs (s : System) : Label → Prop
  | .monitor env =>
    match s.monitor with
    | .handle wt _ (.start (.setRules mbs osts)) =>
      wt.jobid ∉ s.world.ruleManager.activeRules → CanSetRules env osts wt.jobid mbs →
        s.world.scheduleState.jobOf wt.jobid ≠ none
    | _ => True
  | _ => True

/-- The step takes out of `jobs_` no job whose rule stays, brings in none under an id the
monitor has read, and sets no rule for a job that is gone. -/
structure StrandsNoRule (s : System) (l : Label) : Prop where
  removes : RemovesOnlyWhere LeavesNoRule s l
  adds : AddsOnlyWhere (fun s jobid => s.monitor.reading ≠ some jobid) s l
  sets : SetsOnlyForJobs s l

instance (s : System) (jobid : JobId) : Decidable (LeavesNoRule s jobid) :=
  inferInstanceAs (Decidable (_ ∧ _))

instance (s : System) (l : Label) : Decidable (SetsOnlyForJobs s l) := by
  unfold SetsOnlyForJobs
  split
  · split <;> infer_instance
  · infer_instance

instance (s : System) (l : Label) : Decidable (StrandsNoRule s l) :=
  decidable_of_iff (_ ∧ _ ∧ _) ⟨fun ⟨removes, adds, sets⟩ => ⟨removes, adds, sets⟩, fun h => ⟨h.1, h.2, h.3⟩⟩

/-- The step of the monitor that sets a rule finds the job stored. -/
theorem SetsOnlyForJobs.present {limits : Limits} {s s' : System} {env : RemoteEnv} {wt : WaitingItem}
    {now : TimePoint} {pc : HandlePc} (sets : SetsOnlyForJobs s (.monitor env))
    (taken : s.step limits (.monitor env) = some s') (here : s.monitor = .handle wt now pc)
    (there : s'.monitor = .handle wt now (.start .updateJob)) :
    s.world.scheduleState.jobOf wt.jobid ≠ none := by
  obtain ⟨-, _, _, _, here', ⟨world, pc', ran, rfl⟩ | ⟨world, -, rfl⟩⟩ := System.step_monitor taken
  · rw [here] at here'
    cases here'
    cases there
    have move := handleStep_move Thread.monitor env wt.jobid wt.eventType s.world pc
    rw [ran] at move
    generalize world.toJobMonitor = m' at move
    cases move with
    | start pc _ _ move =>
      cases move with
      | rulesSet mbs osts =>
        -- `SetRules` has succeeded, so nothing stood in its way
        simp only [SetsOnlyForJobs, here] at sets
        rcases s.world.ruleManager.setRules_cases env osts wt.jobid mbs with ⟨unset, can, -⟩ | ⟨-, calls, refused⟩
        · exact sets unset can
        · simp [handleStep, startStep, refused] at ran
  · cases there

theorem Settled.removed {rule : Option RuleDefinition} {job : Option Job} (settled : Settled rule job)
    (inactive : ∀ j, job = some j → j.state ≠ .ACTIVE) : Settled rule none := by
  rw [settled.rule_eq_none inactive]
  exact .unruled none nofun

theorem Settled.added {rule : Option RuleDefinition} {job : Job} (settled : Settled rule none)
    (scheduled : job.state = .SCHEDULED) : Settled rule (some job) := by
  rw [settled.rule_eq_none nofun]
  refine .unruled _ fun j found => ?_
  cases found
  rw [scheduled]
  decide

/-- A job may be removed under the monitor if it has no rule or is about to lose it. -/
theorem HandlePc.Inv.removed {rule : Option RuleDefinition} {job : Option Job} {pc : HandlePc} (inv : pc.Inv rule job)
    (inactive : (∀ stop, pc = .stop stop → stop = .getJobStatus) → ∀ j, job = some j → j.state ≠ .ACTIVE)
    (unset : pc ≠ .start .updateJob) : pc.Inv rule none := by
  cases pc with
  | block => trivial
  | start pc =>
    have still := inactive nofun
    cases pc with
    | getJobOstIds mbs => exact ⟨inv.1.removed still, nofun⟩
    | setRules mbs osts => exact ⟨inv.1.removed still, fun _ => nofun⟩
    | updateJob => exact absurd rfl unset
    | _ => exact Settled.removed inv still
  | stop pc =>
    cases pc with
    | getJobStatus => exact Settled.removed inv (inactive fun _ same => by cases same; rfl)
    | removeRules => exact nofun
    | updateJob => exact inv
  | removeJob => exact ⟨Stopped.unruled inv, nofun⟩
  | unblock => exact Settled.removed inv (inactive nofun)

/-- A job may be added under the monitor if it has not read one. -/
theorem HandlePc.Inv.added {rule : Option RuleDefinition} {job : Job} {pc : HandlePc} (inv : pc.Inv rule none)
    (scheduled : job.state = .SCHEDULED) (unread : ∀ mbs, pc ≠ .start (.getJobOstIds mbs))
    (unset : ∀ mbs osts, pc = .start (.setRules mbs osts) → osts = []) : pc.Inv rule (some job) := by
  have inactive : ∀ j, some job = some j → j.state ≠ .ACTIVE := by
    rintro j ⟨⟩
    rw [scheduled]
    decide
  cases pc with
  | block => trivial
  | start pc =>
    cases pc with
    | getJobOstIds mbs => exact absurd rfl (unread mbs)
    | setRules mbs osts => exact ⟨inv.1.added scheduled, fun some_ost => absurd (unset mbs osts rfl) some_ost⟩
    | updateJob =>
      obtain ⟨_, j, _, stored, _⟩ := inv
      cases stored
    | _ => exact Settled.added inv scheduled
  | stop pc =>
    cases pc with
    | getJobStatus => exact Settled.added inv scheduled
    | removeRules => exact fun j found active => absurd active (inactive j found)
    | updateJob => exact inv
  | removeJob => exact ⟨Stopped.unruled inv, inactive⟩
  | unblock => exact Settled.added inv scheduled

/-! ## The invariant -/

/-- The rule and the job of an id agree while nobody holds it, and whoever holds it knows
where it stands. -/
structure RulesFit (s : System) : Prop where
  monitor : ∀ (wt : WaitingItem) (now : TimePoint) (pc : HandlePc), s.monitor = .handle wt now pc →
    pc.Inv (s.world.ruleManager.ruleOf wt.jobid) (s.world.scheduleState.jobOf wt.jobid)
  server : ∀ (jobid : JobId) (pc : UnregisterPc) (rest : List JobId), s.server = .unregisterJob jobid pc rest →
    pc.Inv (s.world.ruleManager.ruleOf jobid) (s.world.scheduleState.jobOf jobid)
  free : ∀ id, s.server.phase ≠ .holding id → s.monitor.phase ≠ .holding id →
    Settled (s.world.ruleManager.ruleOf id) (s.world.scheduleState.jobOf id)

namespace RulesFit

variable {s : System}

section Monitor

variable {wt : WaitingItem} {now : TimePoint} {pc : HandlePc} {m' : JobMonitor}

/-- What the server holds stays as it is in a step of the monitor. -/
theorem server_of_handle (fits : RulesFit s) (sound : Sound s.lock) {control : Control HandlePc Unit}
    (here : s.monitor = .handle wt now pc) (move : HandleMove wt.jobid wt.eventType s.world.toJobMonitor pc m' control)
    {jobid : JobId} {pc' : UnregisterPc} {rest : List JobId} (there : s.server = .unregisterJob jobid pc' rest) :
    pc'.Inv (m'.ruleManager.ruleOf jobid) (m'.scheduleState.jobOf jobid) := by
  by_cases inside : pc' = .block
  · subst inside
    trivial
  · have holds : s.server.phase = .holding jobid := by rw [there]; exact pc'.holds_of_ne_block jobid inside
    have same := move.same_of_server_holds sound here holds
    rw [same.1, same.2]
    exact fits.server jobid pc' rest there

/-- What nobody holds stays settled in a step of the monitor. -/
theorem free_of_handle (fits : RulesFit s) {control : Control HandlePc Unit} (here : s.monitor = .handle wt now pc)
    (move : HandleMove wt.jobid wt.eventType s.world.toJobMonitor pc m' control) {id : JobId} (other : id ≠ wt.jobid)
    (server : s.server.phase ≠ .holding id) :
    Settled (m'.ruleManager.ruleOf id) (m'.scheduleState.jobOf id) := by
  have same := move.frame other
  rw [same.1, same.2]
  exact fits.free id server (by rw [here]; exact pc.phase_ne other)

/-- The id the monitor waits for is settled, unless the server holds it. -/
theorem settled_at_block (fits : RulesFit s) (here : s.monitor = .handle wt now .block)
    (server : s.server.phase ≠ .holding wt.jobid) :
    Settled (s.world.ruleManager.ruleOf wt.jobid) (s.world.scheduleState.jobOf wt.jobid) :=
  fits.free _ server (by simp [here, MonitorPc.phase, HandlePc.phase])

end Monitor

/-- What the monitor holds stays as it is in a step of `UnregisterJob`. -/
theorem monitor_of_unregister (fits : RulesFit s) (sound : Sound s.lock) {jobid : JobId} {pc : UnregisterPc}
    {rest : List JobId} {m' : JobMonitor} {control : Control UnregisterPc Bool}
    (here : s.server = .unregisterJob jobid pc rest) (move : UnregisterMove jobid s.world.toJobMonitor pc m' control)
    {wt : WaitingItem} {now : TimePoint} {pc' : HandlePc} (there : s.monitor = .handle wt now pc') :
    pc'.Inv (m'.ruleManager.ruleOf wt.jobid) (m'.scheduleState.jobOf wt.jobid) := by
  by_cases inside : pc' = .block
  · subst inside
    trivial
  · have holds : s.monitor.phase = .holding wt.jobid := by rw [there]; exact pc'.holds_of_ne_block wt.jobid inside
    have same := move.same_of_monitor_holds sound here holds
    rw [same.1, same.2]
    exact fits.monitor wt now pc' there

/-- What nobody holds stays settled in a step of `UnregisterJob`. -/
theorem free_of_unregister (fits : RulesFit s) {jobid : JobId} {pc : UnregisterPc} {rest : List JobId}
    {m' : JobMonitor} {control : Control UnregisterPc Bool} (here : s.server = .unregisterJob jobid pc rest)
    (move : UnregisterMove jobid s.world.toJobMonitor pc m' control) {id : JobId} (other : id ≠ jobid)
    (monitor : s.monitor.phase ≠ .holding id) :
    Settled (m'.ruleManager.ruleOf id) (m'.scheduleState.jobOf id) := by
  have same := move.frame other
  rw [same.1, same.2]
  exact fits.free id (by rw [here]; exact pc.phase_ne other) monitor

/-- The monitor goes on in `Handle`. -/
theorem handle (fits : RulesFit s) (sound : Sound s.lock) {wt : WaitingItem} {now : TimePoint} {pc pc' : HandlePc}
    {m' : JobMonitor} (here : s.monitor = .handle wt now pc)
    (move : HandleMove wt.jobid wt.eventType s.world.toJobMonitor pc m' (.next pc'))
    (present : pc' = .start .updateJob → s.world.scheduleState.jobOf wt.jobid ≠ none)
    (exclusive : ∀ id, s.server.phase = .holding id → pc'.phase wt.jobid ≠ .holding id) (held : Finset JobId)
    (asleep : Finset Thread) : RulesFit ⟨⟨m', held, asleep⟩, s.server, .handle wt now pc'⟩ where
  monitor := by
    rintro _ _ _ ⟨⟩
    by_cases inside : pc = .block
    · subst inside
      -- the id was free, as the monitor holds it now
      have settled (holds : pc'.phase wt.jobid = .holding wt.jobid) :
          Settled (s.world.ruleManager.ruleOf wt.jobid) (s.world.scheduleState.jobOf wt.jobid) :=
        fits.settled_at_block here fun server => exclusive _ server holds
      cases move with
      | blocked => trivial
      | toStart => exact settled rfl
      | toStop => exact settled rfl
    · exact move.inv inside present (fits.monitor wt now pc here)
  server := fun _ _ _ there => fits.server_of_handle sound here move there
  free := by
    intro id server monitor
    by_cases named : id = wt.jobid
    · subst named
      have waits : pc' = .block := by
        by_contra inside
        exact monitor (pc'.holds_of_ne_block wt.jobid inside)
      subst waits
      cases move with
      | blocked => exact fits.settled_at_block here server
    · exact fits.free_of_handle here move named server

/-- The server goes on in `UnregisterJob`. -/
theorem unregister (fits : RulesFit s) (sound : Sound s.lock) {jobid : JobId} {pc pc' : UnregisterPc}
    {rest : List JobId} {m' : JobMonitor} (here : s.server = .unregisterJob jobid pc rest)
    (move : UnregisterMove jobid s.world.toJobMonitor pc m' (.next pc'))
    (exclusive : ∀ id, s.monitor.phase = .holding id → pc'.phase jobid ≠ .holding id) (held : Finset JobId)
    (asleep : Finset Thread) : RulesFit ⟨⟨m', held, asleep⟩, .unregisterJob jobid pc' rest, s.monitor⟩ where
  monitor := fun _ _ _ there => fits.monitor_of_unregister sound here move there
  server := by
    rintro _ _ _ ⟨⟩
    by_cases inside : pc = .block
    · subst inside
      cases move with
      | blocked => trivial
      | taken =>
        refine fits.free jobid (by simp [here, ServerPc.phase, UnregisterPc.phase]) fun monitor => ?_
        exact exclusive _ monitor rfl
    · exact move.inv inside (fits.server jobid pc rest here)
  free := by
    intro id server monitor
    by_cases named : id = jobid
    · subst named
      have waits : pc' = .block := by
        by_contra inside
        exact server (pc'.holds_of_ne_block id inside)
      subst waits
      cases move with
      | blocked => exact fits.free id (by simp [here, ServerPc.phase, UnregisterPc.phase]) monitor
    · exact fits.free_of_unregister here move named monitor

/-- `AddJob` stores a SCHEDULED job. -/
theorem added (fits : RulesFit s) {job : Job} (scheduled : job.state = .SCHEDULED)
    (fresh : s.world.scheduleState.jobOf job.jobid = none) (unread : s.monitor.reading ≠ some job.jobid)
    {server' : ServerPc} (out : s.server.phase = .out) (next : ∀ jobid pc rest, server' ≠ .unregisterJob jobid pc rest)
    (held : Finset JobId) (asleep : Finset Thread) :
    RulesFit ⟨⟨{ s.world.toJobMonitor with
      scheduleState := (s.world.scheduleState.addJob job.jobid job job.osts).2 }, held, asleep⟩,
      server', s.monitor⟩ where
  monitor := by
    intro wt now pc there
    have inv := fits.monitor wt now pc there
    show pc.Inv (s.world.ruleManager.ruleOf wt.jobid) (MemoryScheduleState.jobOf _ wt.jobid)
    rw [jobOf_addJob _ _ _ fresh]
    split
    · rename_i named
      rw [← named, fresh, named] at inv
      rw [there] at unread
      refine inv.added scheduled ?_ fun mbs osts same => ?_
      · rintro mbs rfl
        exact unread (by rw [MonitorPc.reading, named])
      · subst same
        by_contra some_ost
        exact unread (by rw [MonitorPc.reading, if_neg some_ost, named])
    · exact inv
  server := fun jobid pc rest there => absurd there (next jobid pc rest)
  free := by
    intro id _ monitor
    have settled := fits.free id (by simp [out]) monitor
    show Settled (s.world.ruleManager.ruleOf id) (MemoryScheduleState.jobOf _ id)
    rw [jobOf_addJob _ _ _ fresh]
    split
    · rename_i named
      rw [← named, fresh, named] at settled
      exact settled.added scheduled
    · exact settled

/-- `RemoveJob` of the server, where it leaves no rule behind. -/
theorem removed (fits : RulesFit s) {jobid : JobId} (safe : LeavesNoRule s jobid) {server' : ServerPc}
    (out : s.server.phase = .out) (next : ∀ jobid pc rest, server' = .unregisterJob jobid pc rest → pc = .block)
    (held : Finset JobId) (asleep : Finset Thread) :
    RulesFit ⟨⟨{ s.world.toJobMonitor with
      scheduleState := (s.world.scheduleState.removeJob jobid).2 }, held, asleep⟩, server', s.monitor⟩ where
  monitor := by
    intro wt now pc there
    have inv := fits.monitor wt now pc there
    show pc.Inv (s.world.ruleManager.ruleOf wt.jobid) (MemoryScheduleState.jobOf _ wt.jobid)
    rw [jobOf_removeJob]
    split
    · rename_i named
      obtain ⟨inactive, unset⟩ := safe
      rw [there] at unset
      refine inv.removed (fun still j stored active => inactive (fun past => ?_) ?_) ?_
      · obtain ⟨_, _, stop, there', -, checked⟩ := MonitorPc.place_of_stopping past
        rw [there] at there'
        cases there'
        exact checked (still stop rfl)
      · rw [named, getJobStatus, stored, Option.map_some, active]
      · rintro rfl
        exact unset (by rw [MonitorPc.activating, named])
    · exact inv
  server := by
    intro id pc rest there
    rw [next id pc rest there]
    trivial
  free := by
    intro id _ monitor
    have settled := fits.free id (by simp [out]) monitor
    show Settled (s.world.ruleManager.ruleOf id) (MemoryScheduleState.jobOf _ id)
    rw [jobOf_removeJob]
    split
    · rename_i named
      subst named
      refine settled.removed fun j stored active => safe.1 ?_ ?_
      · -- past its check the monitor holds the id
        intro past
        obtain ⟨_, _, _, there, named, -⟩ := MonitorPc.place_of_stopping past
        exact monitor (by rw [there, ← named]; rfl)
      · rw [getJobStatus, stored, Option.map_some, active]
    · exact settled

/-- **A step keeps the rules fitting**, unless it strands one. -/
theorem step {limits : Limits} {s' : System} {l : Label} (fits : RulesFit s) (valid : s.Valid)
    (strands : StrandsNoRule s l) (taken : s.step limits l = some s') : RulesFit s' := by
  have move := System.step_move taken
  have sound := valid.sound
  have sound' := (valid.step taken).sound
  obtain ⟨⟨m', held, asleep⟩, server', monitor'⟩ := s'
  dsimp only at move
  -- the server moves while it holds nothing, and touches neither jobs nor rules
  have outside (out : s.server.phase = .out)
      (next : ∀ jobid pc rest, server' = .unregisterJob jobid pc rest → pc = .block) {m : JobMonitor}
      (same : ∀ id, SameAt s.world.toJobMonitor m id) :
      RulesFit ⟨⟨m, held, asleep⟩, server', s.monitor⟩ := by
    refine ⟨fun wt now pc there => ?_, fun jobid pc rest there => ?_, fun id _ monitor => ?_⟩
    · show pc.Inv (m.ruleManager.ruleOf wt.jobid) (m.scheduleState.jobOf wt.jobid)
      rw [(same wt.jobid).1, (same wt.jobid).2]
      exact fits.monitor wt now pc there
    · rw [next jobid pc rest there]
      trivial
    · show Settled (m.ruleManager.ruleOf id) (m.scheduleState.jobOf id)
      rw [(same id).1, (same id).2]
      exact fits.free id (by simp [out]) monitor
  cases move with
  | reserve job idle => exact outside (by rw [idle]; rfl) nofun fun _ => ⟨rfl, rfl⟩
  | delete request idle =>
    exact outside (by rw [idle]; rfl) (fun _ _ _ there => (nextDelete_unregisterJob there).1) fun _ => ⟨rfl, rfl⟩
  | checkFails u job ost osts here => exact outside (by rw [here]; rfl) nofun fun _ => ⟨rfl, rfl⟩
  | checkNext u job ost osts here => exact outside (by rw [here]; rfl) nofun fun _ => ⟨rfl, rfl⟩
  | checksDone u job here => exact outside (by rw [here]; rfl) nofun fun _ => ⟨rfl, rfl⟩
  | refused u job here present => exact outside (by rw [here]; rfl) nofun fun _ => ⟨rfl, rfl⟩
  | added u job here fresh =>
    refine fits.added (valid.adds job here) fresh (strands.adds.of_added here fresh) (by rw [here]; rfl) ?_ held asleep
    rintro _ _ _ ⟨⟩
  | registered u job reservation here => exact outside (by rw [here]; rfl) nofun fun _ => ⟨rfl, rfl⟩
  | unregister u jobid pc pc' rest m' here move =>
    refine fits.unregister sound here move (fun id monitor server => ?_) held asleep
    exact System.not_both_hold sound' server monitor
  | unregistered u jobid pc rest m' result here move =>
    refine ⟨fun _ _ _ there => fits.monitor_of_unregister sound here move there, ?_, fun id _ monitor => ?_⟩
    · rintro _ _ _ ⟨⟩
    by_cases named : id = jobid
    · subst named
      cases move
      exact fits.server id _ rest here
    · exact fits.free_of_unregister here move named monitor
  | removed u jobid rest here =>
    exact fits.removed (strands.removes.of_removed here) (by rw [here]; rfl)
      (fun _ _ _ there => (nextDelete_unregisterJob there).1) held asleep
  | pop now wt queue idle popped ready =>
    refine ⟨?_, fits.server, fun id server _ => fits.free id server (by simp [idle, MonitorPc.phase])⟩
    rintro _ _ _ ⟨⟩
    trivial
  | handle env wt now pc pc' m' here move =>
    refine fits.handle sound here move (fun sets => ?_) (fun id server monitor => ?_) held asleep
    · exact strands.sets.present taken here (congrArg _ sets)
    exact System.not_both_hold sound' server monitor
  | handled env wt now pc m' here move =>
    refine ⟨nofun, fun _ _ _ there => fits.server_of_handle sound here move there, fun id server _ => ?_⟩
    by_cases named : id = wt.jobid
    · subst named
      cases move
      exact fits.monitor wt now _ here
    · exact fits.free_of_handle here move named server
  | wake t => exact ⟨fits.monitor, fits.server, fits.free⟩

theorem init : RulesFit System.init where
  monitor := nofun
  server := nofun
  free := fun id _ _ => by
    show Settled (RuleManager.empty.ruleOf id) (MemoryScheduleState.empty.jobOf id)
    rw [ruleOf_empty, jobOf_empty]
    exact .unruled none nofun

end RulesFit

/-- **Rules and active jobs match** whenever both threads are idle, in every run in which
the server strands no rule. The remote calls may succeed or fail. -/
theorem rules_match_active_jobs (limits : Limits) (trace : List (System × Label)) (s : System)
    (path : Path (System.step limits) StrandsNoRule System.init trace s) (server : s.server = .idle)
    (monitor : s.monitor = .idle) : RulesMatch s.world.toJobMonitor := by
  have holds : RulesFit s ∧ s.Valid := by
    refine path.invariant (P := fun s => RulesFit s ∧ s.Valid) ⟨RulesFit.init, System.valid_init⟩ ?_
    exact fun _ _ _ ⟨fits, valid⟩ strands taken => ⟨fits.step valid strands taken, valid.step taken⟩
  refine rulesMatch_of_settled fun id => holds.1.free id ?_ ?_
  · simp [server, ServerPc.phase]
  · simp [monitor, MonitorPc.phase]

/-- Here the rule of `foo` has been set and `foo` is ACTIVE. -/
theorem foo_has_its_rule :
    ∃ s, execWhile (System.step oneOst) StrandsNoRule System.init
        (reserveFoo 0 10 ++ .pop 1 :: List.replicate 9 (.monitor allSucceed)) = some s ∧
      s.world.scheduleState.getJobStatus "foo" = some .ACTIVE ∧ RulesMatch s.world.toJobMonitor := by
  have run : (execWhile (System.step oneOst) StrandsNoRule System.init
      (reserveFoo 0 10 ++ .pop 1 :: List.replicate 9 (.monitor allSucceed))).map (fun s =>
        (s.server, s.monitor, s.world.scheduleState.getJobStatus "foo")) = some (.idle, .idle, some .ACTIVE) := by
    decide +kernel
  obtain ⟨s, reached, found⟩ := Option.map_eq_some_iff.1 run
  simp only [Prod.mk.injEq] at found
  obtain ⟨server, monitor, active⟩ := found
  exact ⟨s, reached, active, rules_match_active_jobs oneOst _ s (Path.of_execWhile .nil reached) server monitor⟩

/-- **A leaked rule.** `UnregisterJob` finds `foo` SCHEDULED and lets go of the id; the
monitor starts `foo`; `RemoveJob` removes it. The rule of `foo` stays, without a job. -/
theorem rule_without_job :
    ∃ s, exec (System.step oneOst) System.init (startAfterUnregister ++ [.server 0]) = some s ∧
      s.server = .idle ∧ s.monitor = .idle ∧ ¬ RulesMatch s.world.toJobMonitor := by
  have run : (exec (System.step oneOst) System.init (startAfterUnregister ++ [.server 0])).map (fun s =>
      (s.server, s.monitor, decide ("foo" ∈ s.world.ruleManager.activeRules),
        s.world.scheduleState.jobOf "foo")) = some (.idle, .idle, true, none) := by decide +kernel
  obtain ⟨s, reached, found⟩ := Option.map_eq_some_iff.1 run
  simp only [Prod.mk.injEq, decide_eq_true_eq] at found
  obtain ⟨server, monitor, ruled, absent⟩ := found
  refine ⟨s, reached, server, monitor, fun rules => ?_⟩
  obtain ⟨job, stored, -⟩ := (rules.keys "foo").1 ruled
  rw [absent] at stored
  cases stored

end QosPlanner
