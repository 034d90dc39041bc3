import QosPlanner.Concurrent.Moves

/-!
# Rules and jobs at each place of a call

`Settled` says that the rule and the job of an id agree. Within a call they may not:
`StartJob` sets the rule before it writes ACTIVE, `StopJob` takes it away before it writes
DONE. `Inv` says for each place of a call what the call knows there; each step of a call
leads from what holds at one place to what holds at the next.
-/

namespace QosPlanner
set_option autoImplicit false

open MemoryScheduleState RuleManager Run

/-! ## Rules and jobs that agree -/

/-- The rule was set from the OST list and the throughput of the job. -/
structure SetFor (rule : RuleDefinition) (job : Job) : Prop where
  osts : rule.ostIds = job.osts
  rate : rule.minThroughputMbs = job.minReadThroughputMB

/-- An id has a rule iff its job is ACTIVE, and the rule was set for that job. -/
inductive Settled : Option RuleDefinition → Option Job → Prop
  | unruled (job : Option Job) (inactive : ∀ j, job = some j → j.state ≠ .ACTIVE) : Settled none job
  | ruled (rule : RuleDefinition) (job : Job) (active : job.state = .ACTIVE) (setFor : SetFor rule job) :
      Settled (some rule) (some job)

/-- The rules are exactly those of the ACTIVE jobs. -/
structure RulesMatch (m : JobMonitor) : Prop where
  keys : ∀ id, id ∈ m.ruleManager.activeRules ↔ ∃ job, m.scheduleState.jobOf id = some job ∧ job.state = .ACTIVE
  own : ∀ (id : JobId) (rule : RuleDefinition), m.ruleManager.ruleOf id = some rule →
    ∃ job, m.scheduleState.jobOf id = some job ∧ SetFor rule job

theorem rulesMatch_of_settled {m : JobMonitor}
    (settled : ∀ id, Settled (m.ruleManager.ruleOf id) (m.scheduleState.jobOf id)) : RulesMatch m where
  keys := by
    intro id
    have here := settled id
    constructor
    · intro member
      cases rule : m.ruleManager.ruleOf id with
      | none => exact absurd member ((ruleOf_eq_none _ _).1 rule)
      | some rule' =>
        rw [rule] at here
        generalize stored : m.scheduleState.jobOf id = job at here
        cases here with
        | ruled _ job active => exact ⟨job, rfl, active⟩
    · rintro ⟨job, stored, active⟩
      by_contra absent
      rw [(ruleOf_eq_none _ _).2 absent] at here
      cases here with
      | unruled _ inactive => exact inactive job stored active
  own := by
    intro id rule found
    have here := settled id
    rw [found] at here
    generalize stored : m.scheduleState.jobOf id = job at here
    cases here with
    | ruled _ job active setFor => exact ⟨job, rfl, setFor⟩

theorem Settled.rule_eq_none {rule : Option RuleDefinition} {job : Option Job} (settled : Settled rule job)
    (inactive : ∀ j, job = some j → j.state ≠ .ACTIVE) : rule = none := by
  cases settled with
  | unruled => rfl
  | ruled _ j active => exact absurd active (inactive j rfl)

theorem Settled.of_active {rule : Option RuleDefinition} {job : Job} (settled : Settled rule (some job))
    (active : job.state = .ACTIVE) : ∃ r, rule = some r ∧ SetFor r job := by
  cases settled with
  | unruled _ inactive => exact absurd active (inactive job rfl)
  | ruled r _ _ setFor => exact ⟨r, rfl, setFor⟩

/-! ## What holds at each place of a call -/

/-- What `StartJob` knows at each place; at `setRules` the job it has read may be gone. -/
def StartPc.Inv (rule : Option RuleDefinition) (job : Option Job) : StartPc → Prop
  | .getJobOstIds mbs => Settled rule job ∧ ∀ j, job = some j → j.minReadThroughputMB = mbs
  | .setRules mbs osts =>
    Settled rule job ∧ (osts ≠ [] → ∀ j, job = some j → j.osts = osts ∧ j.minReadThroughputMB = mbs)
  | .updateJob => ∃ r j, rule = some r ∧ job = some j ∧ SetFor r j
  | _ => Settled rule job

def StopPc.Inv (rule : Option RuleDefinition) (job : Option Job) : StopPc → Prop
  | .getJobStatus => Settled rule job
  | .removeRules => ∀ j, job = some j → j.state = .ACTIVE → ∃ r, rule = some r ∧ SetFor r j
  | .updateJob => rule = none

/-- After `StopJob`, whatever its result. -/
structure Stopped (rule : Option RuleDefinition) (job : Option Job) : Prop where
  unruled : rule = none
  inactive : ∀ j, job = some j → j.state ≠ .ACTIVE

theorem Stopped.settled {rule : Option RuleDefinition} {job : Option Job} (stopped : Stopped rule job) :
    Settled rule job := by
  rw [stopped.unruled]
  exact .unruled job stopped.inactive

/-- Nothing is known at `block`, where another thread may hold the id. -/
def HandlePc.Inv (rule : Option RuleDefinition) (job : Option Job) : HandlePc → Prop
  | .block => True
  | .start pc => pc.Inv rule job
  | .stop pc => pc.Inv rule job
  | .removeJob => Stopped rule job
  | .unblock => Settled rule job

def UnregisterPc.Inv (rule : Option RuleDefinition) (job : Option Job) : UnregisterPc → Prop
  | .block => True
  | .stop pc => pc.Inv rule job
  | _ => Settled rule job

section Own

variable {jobid : JobId} {m m' : JobMonitor}

/-- What holds after a step of `StartJob`, here at its return. -/
theorem StartMove.settled {pc : StartPc} {result : Bool} (move : StartMove jobid m pc m' (.done result))
    (inv : pc.Inv (m.ruleManager.ruleOf jobid) (m.scheduleState.jobOf jobid)) :
    Settled (m'.ruleManager.ruleOf jobid) (m'.scheduleState.jobOf jobid) := by
  cases move with
  | refused => exact inv
  | noThroughput => exact inv
  | rulesRefused => exact inv.1
  | notUpdated absent =>
    obtain ⟨_, j, _, stored, _⟩ := inv
    rw [absent] at stored
    cases stored
  | noEnd => exact inv
  | pushed => exact inv

/-- A rule is set for the job that is stored. -/
theorem StartMove.inv {pc pc' : StartPc} (move : StartMove jobid m pc m' (.next pc'))
    (present : pc' = .updateJob → m.scheduleState.jobOf jobid ≠ none)
    (inv : pc.Inv (m.ruleManager.ruleOf jobid) (m.scheduleState.jobOf jobid)) :
    pc'.Inv (m'.ruleManager.ruleOf jobid) (m'.scheduleState.jobOf jobid) := by
  cases move with
  | checked => exact inv
  | throughput job stored =>
    refine ⟨inv, fun j found => ?_⟩
    rw [stored] at found
    cases found
    rfl
  | ostIds mbs =>
    exact ⟨inv.1, fun _ j stored => ⟨by simp [ostsOf, stored], inv.2 j stored⟩⟩
  | rulesSet mbs osts rule some_ost setFor rate =>
    obtain ⟨j, stored⟩ := Option.ne_none_iff_exists'.1 (present rfl)
    obtain ⟨named, through⟩ := inv.2 some_ost j stored
    exact ⟨rule, j, (ruleOf_insert _ _ _ _).trans (if_pos rfl), stored, setFor.trans named.symm,
      rate.trans through.symm⟩
  | updated job stored =>
    obtain ⟨r, j, ruled, stored', setFor⟩ := inv
    show Settled (m.ruleManager.ruleOf jobid) ((m.scheduleState.updateJob jobid .ACTIVE).2.jobOf jobid)
    rw [jobOf_updateJob, if_pos rfl, stored', ruled]
    exact .ruled r _ rfl ⟨setFor.osts, setFor.rate⟩
  | jobEnd => exact inv

theorem StopMove.stopped {pc : StopPc} {result : Bool} (move : StopMove jobid m pc m' (.done result))
    (inv : pc.Inv (m.ruleManager.ruleOf jobid) (m.scheduleState.jobOf jobid)) :
    Stopped (m'.ruleManager.ruleOf jobid) (m'.scheduleState.jobOf jobid) := by
  cases move with
  | refused other => exact ⟨Settled.rule_eq_none inv other, other⟩
  | updated =>
    refine ⟨inv, fun j found => ?_⟩
    rw [show MemoryScheduleState.jobOf _ jobid = _ from jobOf_updateJob _ _ _ _, if_pos rfl] at found
    obtain ⟨job, -, rfl⟩ := Option.map_eq_some_iff.1 found
    simp

theorem StopMove.inv {pc pc' : StopPc} (move : StopMove jobid m pc m' (.next pc'))
    (inv : pc.Inv (m.ruleManager.ruleOf jobid) (m.scheduleState.jobOf jobid)) :
    pc'.Inv (m'.ruleManager.ruleOf jobid) (m'.scheduleState.jobOf jobid) := by
  cases move with
  | checked job stored state =>
    intro j found active
    have settled : Settled (m.ruleManager.ruleOf jobid) (m.scheduleState.jobOf jobid) := inv
    rw [found] at settled
    exact settled.of_active active
  | rulesRemoved => exact (ruleOf_removeRules _ _ _).trans (if_pos rfl)

/-- A step of `Handle` past `block`. -/
theorem HandleMove.inv {event : JobEvent} {pc pc' : HandlePc} (move : HandleMove jobid event m pc m' (.next pc'))
    (inside : pc ≠ .block) (present : pc' = .start .updateJob → m.scheduleState.jobOf jobid ≠ none)
    (inv : pc.Inv (m.ruleManager.ruleOf jobid) (m.scheduleState.jobOf jobid)) :
    pc'.Inv (m'.ruleManager.ruleOf jobid) (m'.scheduleState.jobOf jobid) := by
  cases move with
  | start _ _ _ move => exact move.inv (fun sets => present (congrArg _ sets)) inv
  | startDone _ _ _ move => exact move.settled inv
  | stop _ _ _ move => exact move.inv inv
  | stopDone _ _ _ move => exact move.stopped inv
  | removed =>
    have stopped : Stopped (m.ruleManager.ruleOf jobid) (m.scheduleState.jobOf jobid) := inv
    show Settled (m.ruleManager.ruleOf jobid) ((m.scheduleState.removeJob jobid).2.jobOf jobid)
    rw [jobOf_removeJob, if_pos rfl, stopped.unruled]
    exact .unruled none nofun
  | _ => exact absurd rfl inside

theorem UnregisterMove.inv {pc pc' : UnregisterPc} (move : UnregisterMove jobid m pc m' (.next pc'))
    (inside : pc ≠ .block) (inv : pc.Inv (m.ruleManager.ruleOf jobid) (m.scheduleState.jobOf jobid)) :
    pc'.Inv (m'.ruleManager.ruleOf jobid) (m'.scheduleState.jobOf jobid) := by
  cases move with
  | stop _ _ _ move => exact move.inv inv
  | stopDone _ _ _ move => exact (move.stopped inv).settled
  | blocked => exact absurd rfl inside
  | taken => exact absurd rfl inside
  | _ => exact inv

end Own

end QosPlanner
