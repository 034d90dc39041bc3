import QosPlanner.Run.Always
import QosPlanner.Concurrent.Moves

/-!
# One thread at a time for each job

Any number of threads run `Handle` and `UnregisterJob`. Both wait for their job id with a
loop of their own, and both erase it before they return; the steps in between may do what
they like to the schedule, the queue and the rules, and so may everybody else. To the set
and the condition variable the steps of either call are steps of the same lock
(`handleStep_lock`, `unregisterStep_lock`), so what holds of the lock holds of them. Who holds
an id never waits and gets to the end of its call within a bounded number of its own steps
(`gets_out`).
-/

namespace QosPlanner
set_option autoImplicit false

open Run Lock

variable {T : Type} [DecidableEq T]

/-! ## The steps as steps of a lock -/

/-- Where a call at `pc` is, seen from the lock. -/
def HandlePc.phase (jobid : JobId) : HandlePc → Phase JobId
  | .block => .wanting jobid
  | _ => .holding jobid

def UnregisterPc.phase (jobid : JobId) : UnregisterPc → Phase JobId
  | .block => .wanting jobid
  | _ => .holding jobid

/-- A call that has returned is out. -/
def phaseAfter {Pc R : Type} (phase : Pc → Phase JobId) : Control Pc R → Phase JobId
  | .next pc => phase pc
  | .done _ => .out

/-- What a step of a call does to the lock. -/
inductive LockEffect (t : T) (w w' : World T) : Phase JobId → Phase JobId → Prop
  | sleep (jobid : JobId) (taken : jobid ∈ w.inFlightJobs) (held : w'.inFlightJobs = w.inFlightJobs)
      (asleep : w'.inFlightJobsCv = insert t w.inFlightJobsCv) :
      LockEffect t w w' (.wanting jobid) (.wanting jobid)
  | acquire (jobid : JobId) (free : jobid ∉ w.inFlightJobs) (held : w'.inFlightJobs = insert jobid w.inFlightJobs)
      (asleep : w'.inFlightJobsCv = w.inFlightJobsCv) : LockEffect t w w' (.wanting jobid) (.holding jobid)
  | inside (jobid : JobId) (held : w'.inFlightJobs = w.inFlightJobs)
      (asleep : w'.inFlightJobsCv = w.inFlightJobsCv) : LockEffect t w w' (.holding jobid) (.holding jobid)
  | release (jobid : JobId) (held : w'.inFlightJobs = w.inFlightJobs.erase jobid)
      (asleep : w'.inFlightJobsCv = ∅) : LockEffect t w w' (.holding jobid) .out

/-- **The steps of `Handle`** are steps of the lock of its job. -/
theorem handleStep_lock (t : T) (env : RemoteEnv) (jobid : JobId) (event : JobEvent) (w : World T)
    (pc : HandlePc) :
    LockEffect t w (handleStep t env jobid event w pc).1 (pc.phase jobid)
      (phaseAfter (HandlePc.phase jobid) (handleStep t env jobid event w pc).2) := by
  cases pc with
  | block =>
    by_cases taken : jobid ∈ w.inFlightJobs
    · simp only [handleStep, blockStep, if_pos taken]
      exact .sleep jobid taken rfl rfl
    · simp only [handleStep, blockStep, if_neg taken]
      cases event <;> exact .acquire jobid taken rfl rfl
  | start pc =>
    rw [handleStep]
    rcases startStep env jobid w.toJobMonitor pc with ⟨m, pc | result⟩ <;> exact .inside jobid rfl rfl
  | stop pc =>
    rw [handleStep]
    rcases stopStep jobid w.toJobMonitor pc with ⟨m, pc | result⟩ <;> exact .inside jobid rfl rfl
  | removeJob => exact .inside jobid rfl rfl
  | unblock => exact .release jobid rfl rfl

/-- **The steps of `UnregisterJob`** are steps of the lock of its job. -/
theorem unregisterStep_lock (t : T) (jobid : JobId) (w : World T) (pc : UnregisterPc) :
    LockEffect t w (unregisterStep t jobid w pc).1 (pc.phase jobid)
      (phaseAfter (UnregisterPc.phase jobid) (unregisterStep t jobid w pc).2) := by
  cases pc with
  | block =>
    by_cases taken : jobid ∈ w.inFlightJobs
    · simp only [unregisterStep, blockStep, if_pos taken]
      exact .sleep jobid taken rfl rfl
    · simp only [unregisterStep, blockStep, if_neg taken]
      exact .acquire jobid taken rfl rfl
  | removeJobFromPrioQueue => exact .inside jobid rfl rfl
  | getJobStatus =>
    rw [unregisterStep]
    split
    · exact .inside jobid rfl rfl
    · split <;> exact .inside jobid rfl rfl
  | stop pc =>
    rw [unregisterStep]
    rcases stopStep jobid w.toJobMonitor pc with ⟨m, pc | result⟩ <;> exact .inside jobid rfl rfl
  | unblock result => exact .release jobid rfl rfl

/-- The lock among threads whose places are known by their phases. -/
def lockOf (w : World T) (phase : T → Phase JobId) : KeyedLock T JobId := ⟨w.inFlightJobs, w.inFlightJobsCv, phase⟩

/-- A step of one thread is a step of the lock, or none. -/
theorem LockEffect.step {t : T} {w w' : World T} {before after : Phase JobId}
    (effect : LockEffect t w w' before after) {phase : T → Phase JobId} (here : phase t = before)
    (awake : t ∉ w.inFlightJobsCv) :
    Relation.ReflTransGen Step (lockOf w phase) (lockOf w' (Function.update phase t after)) := by
  cases effect with
  | sleep jobid taken held asleep =>
    have same : Function.update phase t (.wanting jobid) = phase := by rw [← here, Function.update_eq_self]
    rw [lockOf, lockOf, held, asleep, same]
    exact .single (.sleep (s := lockOf w phase) t jobid here taken)
  | acquire jobid free held asleep =>
    rw [lockOf, lockOf, held, asleep]
    exact .single (.acquire (s := lockOf w phase) t jobid here awake free)
  | inside jobid held asleep =>
    have same : Function.update phase t (.holding jobid) = phase := by rw [← here, Function.update_eq_self]
    rw [lockOf, lockOf, held, asleep, same]
  | release jobid held asleep =>
    rw [lockOf, lockOf, held, asleep]
    exact .single (.release (s := lockOf w phase) t jobid here)

/-- A call that gets out has held its id, and releases it. -/
theorem LockEffect.releases {t : T} {w w' : World T} {before : Phase JobId}
    (effect : LockEffect t w w' before .out) :
    ∃ jobid, before = .holding jobid ∧ w'.inFlightJobs = w.inFlightJobs.erase jobid := by
  cases effect with
  | release jobid held => exact ⟨jobid, rfl, held⟩

/-! ## What is left of a call -/

section Rank

variable {jobid : JobId} {m m' : JobMonitor}

theorem StartMove.nearer {pc : StartPc} {control : Control StartPc Bool} (move : StartMove jobid m pc m' control) :
    rankAfter StartPc.rank control < pc.rank := by
  cases move <;> simp [rankAfter, StartPc.rank]

theorem StopMove.nearer {pc : StopPc} {control : Control StopPc Bool} (move : StopMove jobid m pc m' control) :
    rankAfter StopPc.rank control < pc.rank := by
  cases move <;> simp [rankAfter, StopPc.rank]

/-- Past its waiting loop `Handle` gets nearer to its return with each step. -/
theorem HandleMove.nearer {event : JobEvent} {pc : HandlePc} {control : Control HandlePc Unit}
    (move : HandleMove jobid event m pc m' control) (inside : pc ≠ .block) :
    rankAfter (HandlePc.rank event) control < pc.rank event := by
  cases move with
  | start pc pc' _ move =>
    have less := move.nearer
    simp only [rankAfter, HandlePc.rank] at less ⊢
    omega
  | startDone pc _ result move =>
    have less := move.nearer
    simp only [rankAfter, HandlePc.rank] at less ⊢
    omega
  | stop pc pc' _ move =>
    have less := move.nearer
    simp only [rankAfter, HandlePc.rank] at less ⊢
    omega
  | stopDone pc _ result move =>
    have less := move.nearer
    simp only [rankAfter, HandlePc.rank] at less ⊢
    omega
  | removed => simp [rankAfter, HandlePc.rank]
  | unblocked => simp [rankAfter, HandlePc.rank]
  | _ => exact absurd rfl inside

theorem UnregisterMove.nearer {pc : UnregisterPc} {control : Control UnregisterPc Bool}
    (move : UnregisterMove jobid m pc m' control) (inside : pc ≠ .block) :
    rankAfter UnregisterPc.rank control < pc.rank := by
  cases move with
  | blocked => exact absurd rfl inside
  | taken => exact absurd rfl inside
  | stop pc pc' _ move =>
    have less := move.nearer
    simp only [rankAfter, UnregisterPc.rank] at less ⊢
    omega
  | stopDone pc _ result move =>
    have less := move.nearer
    simp only [rankAfter, UnregisterPc.rank] at less ⊢
    omega
  | _ => simp [rankAfter, UnregisterPc.rank, StopPc.rank]

end Rank

/-! ## Any number of threads -/

/-- A call in progress. -/
inductive Call where
  | handle (jobid : JobId) (event : JobEvent) (pc : HandlePc)
  | unregisterJob (jobid : JobId) (pc : UnregisterPc)

/-- The threads, each at most in one call. -/
structure Calls (T : Type) where
  world : World T
  call : T → Option Call

/-- A thread makes a call, takes a step of its call, or wakes without being notified; or
somebody changes the schedule, the queue and the rules. -/
inductive CallLabel (T : Type) where
  | handle (t : T) (jobid : JobId) (event : JobEvent)
  | unregisterJob (t : T) (jobid : JobId)
  | step (t : T) (env : RemoteEnv)
  | wake (t : T)
  | interfere (m : JobMonitor)

/-- A step of a call; the call is over when it returns. -/
def Call.step (t : T) (env : RemoteEnv) (w : World T) : Call → World T × Option Call
  | .handle jobid event pc =>
    match handleStep t env jobid event w pc with
    | (w, .next pc) => (w, some (.handle jobid event pc))
    | (w, .done _) => (w, none)
  | .unregisterJob jobid pc =>
    match unregisterStep t jobid w pc with
    | (w, .next pc) => (w, some (.unregisterJob jobid pc))
    | (w, .done _) => (w, none)

/-- The label is a step of the call of `t`. -/
def CallLabel.isStepOf (t : T) : CallLabel T → Bool
  | .step u _ => u = t
  | _ => false

/-- The phase of a thread. -/
def callPhase : Option Call → Phase JobId
  | none => .out
  | some (.handle jobid _ pc) => pc.phase jobid
  | some (.unregisterJob jobid pc) => pc.phase jobid

/-- The id a call is about. -/
def Call.jobid : Call → JobId
  | .handle jobid _ _ => jobid
  | .unregisterJob jobid _ => jobid

/-- How far a call is from its return. -/
def Call.rank : Call → ℕ
  | .handle _ event pc => pc.rank event
  | .unregisterJob _ pc => pc.rank

/-- A call only ever holds its own id. -/
theorem Call.jobid_of_phase {call : Call} {jobid : JobId} (holds : callPhase (some call) = .holding jobid) :
    call.jobid = jobid := by
  rcases call with ⟨_, _, _ | _ | _ | _ | _⟩ | ⟨_, _ | _ | _ | _ | _⟩ <;> cases holds <;> rfl

namespace Calls

/-- No call in progress. -/
def init (m : JobMonitor) : Calls T := ⟨⟨m, ∅, ∅⟩, fun _ => none⟩

/-- A step of the threads. -/
def step (s : Calls T) : CallLabel T → Option (Calls T)
  | .handle t jobid event =>
    if (s.call t).isNone then some ⟨s.world, Function.update s.call t (some (.handle jobid event .block))⟩ else none
  | .unregisterJob t jobid =>
    if (s.call t).isNone then some ⟨s.world, Function.update s.call t (some (.unregisterJob jobid .block))⟩ else none
  | .step t env =>
    if t ∈ s.world.inFlightJobsCv then none
    else
      match s.call t with
      | none => none
      | some call => some ⟨(call.step t env s.world).1, Function.update s.call t (call.step t env s.world).2⟩
  | .wake t => some { s with world := { s.world with inFlightJobsCv := s.world.inFlightJobsCv.erase t } }
  | .interfere m => some { s with world := { s.world with toJobMonitor := m } }

/-- The thread is between its insertion of the id and its erasure. -/
def Holds (s : Calls T) (t : T) (jobid : JobId) : Prop := callPhase (s.call t) = .holding jobid

/-- The thread is in the waiting loop for the id. -/
def Waits (s : Calls T) (t : T) (jobid : JobId) : Prop := callPhase (s.call t) = .wanting jobid

/-- The lock of the threads. -/
def lock (s : Calls T) : KeyedLock T JobId := lockOf s.world fun t => callPhase (s.call t)

/-- **Each id has one holder at most**, the set is the ids that are held, and a thread
asleep waits for an id that another thread holds, who is not asleep and waits for none. -/
structure PerJobExclusion (s : Calls T) : Prop where
  one_holder : ∀ (t t' : T) (jobid : JobId), s.Holds t jobid → s.Holds t' jobid → t = t'
  in_flight : ∀ jobid, jobid ∈ s.world.inFlightJobs ↔ ∃ t, s.Holds t jobid
  waiting : ∀ t ∈ s.world.inFlightJobsCv, ∃ (jobid : JobId) (t' : T),
    s.Waits t jobid ∧ t' ≠ t ∧ s.Holds t' jobid ∧ t' ∉ s.world.inFlightJobsCv ∧ ∀ id, ¬ s.Waits t' id

/-- A call that returns has held its id until then, and releases it. -/
def ReleasesOnReturn (s s' : Calls T) : Prop :=
  ∀ (t : T) (call : Call), s.call t = some call → s'.call t = none →
    s.Holds t call.jobid ∧ call.jobid ∈ s.world.inFlightJobs ∧ call.jobid ∉ s'.world.inFlightJobs

/-- The thread can always take its next step, and within 18 of its own, whatever happens
between them, its call returns and the id is free. -/
structure GetsOut (s : Calls T) (t : T) (jobid : JobId) : Prop where
  goes_on : ∀ env, (s.step (.step t env)).isSome
  returns : ∀ (labels : List (CallLabel T)) (s' : Calls T), exec step s labels = some s' →
    18 ≤ labels.countP (CallLabel.isStepOf t) → ∃ (past rest : List (CallLabel T)) (out : Calls T),
      labels = past ++ rest ∧ exec step s past = some out ∧ out.call t = none ∧ jobid ∉ out.world.inFlightJobs

end Calls

/-- A step of a call is one of the lock. -/
theorem Call.step_lock (t : T) (env : RemoteEnv) (w : World T) (call : Call) :
    LockEffect t w (call.step t env w).1 (callPhase (some call)) (callPhase (call.step t env w).2) := by
  cases call with
  | handle jobid event pc =>
    have effect := handleStep_lock t env jobid event w pc
    rw [Call.step]
    rcases moved : handleStep t env jobid event w pc with ⟨w', pc' | result⟩ <;> rw [moved] at effect <;> exact effect
  | unregisterJob jobid pc =>
    have effect := unregisterStep_lock t jobid w pc
    rw [Call.step]
    rcases moved : unregisterStep t jobid w pc with ⟨w', pc' | result⟩ <;> rw [moved] at effect <;> exact effect

/-- Who holds its id is past the waiting loop, and gets nearer to its return. -/
theorem Call.rank_lt (t : T) (env : RemoteEnv) (w : World T) {call : Call} {jobid : JobId}
    (holds : callPhase (some call) = .holding jobid) : (call.step t env w).2.elim 0 Call.rank < call.rank := by
  cases call with
  | handle own event pc =>
    have inside : pc ≠ .block := by rintro rfl; cases holds
    have less := (handleStep_move t env own event w pc).nearer inside
    rw [Call.step]
    rcases ran : handleStep t env own event w pc with ⟨w', pc' | result⟩ <;> rw [ran] at less <;> exact less
  | unregisterJob own pc =>
    have inside : pc ≠ .block := by rintro rfl; cases holds
    have less := (unregisterStep_move t own w pc).nearer inside
    rw [Call.step]
    rcases ran : unregisterStep t own w pc with ⟨w', pc' | result⟩ <;> rw [ran] at less <;> exact less

/-- From its insertion to its erasure it is at most 18 steps. -/
theorem Call.rank_le {call : Call} {jobid : JobId} (holds : callPhase (some call) = .holding jobid) :
    call.rank ≤ 18 := by
  rcases call with ⟨_, _, _ | pc | pc | _ | _⟩ | ⟨_, _ | _ | _ | pc | _⟩
  case handle.block => cases holds
  case unregisterJob.block => cases holds
  all_goals try cases pc
  all_goals simp [Call.rank, HandlePc.rank, UnregisterPc.rank, StartPc.rank, StopPc.rank]

theorem Call.phase_ne_out (call : Call) : callPhase (some call) ≠ .out := by
  rcases call with ⟨_, _, _ | _ | _ | _ | _⟩ | ⟨_, _ | _ | _ | _ | _⟩ <;> intro out <;> cases out

/-- A call holds its id until it returns. -/
theorem Call.holds_step (t : T) (env : RemoteEnv) (w : World T) {call call' : Call} {jobid : JobId}
    (holds : callPhase (some call) = .holding jobid) (goes : (call.step t env w).2 = some call') :
    callPhase (some call') = .holding jobid := by
  have effect := call.step_lock t env w
  rw [goes, holds] at effect
  generalize after : callPhase (some call') = phase at effect
  cases effect with
  | inside => rfl
  | release => exact absurd after (Call.phase_ne_out call')

namespace Calls

/-- The phases after the call of one thread has changed. -/
theorem phase_update (s : Calls T) (t : T) (call : Option Call) :
    (fun u => callPhase (Function.update s.call t call u)) =
      Function.update (fun u => callPhase (s.call u)) t (callPhase call) := by
  funext u
  by_cases same : u = t
  · subst same; simp
  · simp [same]

/-- **The threads refine the lock.** -/
theorem step_lock {s s' : Calls T} {l : CallLabel T} (taken : s.step l = some s') :
    Relation.ReflTransGen Step s.lock s'.lock := by
  cases l with
  | handle t jobid event =>
    simp only [step, Option.ite_none_right_eq_some, Option.some.injEq, Option.isNone_iff_eq_none] at taken
    obtain ⟨idle, rfl⟩ := taken
    rw [lock, lock, phase_update]
    exact .single (.enter t jobid (congrArg callPhase idle))
  | unregisterJob t jobid =>
    simp only [step, Option.ite_none_right_eq_some, Option.some.injEq, Option.isNone_iff_eq_none] at taken
    obtain ⟨idle, rfl⟩ := taken
    rw [lock, lock, phase_update]
    exact .single (.enter t jobid (congrArg callPhase idle))
  | step t env =>
    rw [step] at taken
    split at taken
    · cases taken
    · rename_i awake
      split at taken
      · cases taken
      · rename_i call here
        cases taken
        rw [lock, lock, phase_update]
        exact (call.step_lock t env s.world).step (congrArg callPhase here) awake
  | wake t =>
    cases taken
    exact .single (.wake t)
  | interfere m =>
    cases taken
    exact .refl

/-- The invariant of the lock, in every state reached. -/
theorem sound_of_exec {m : JobMonitor} {labels : List (CallLabel T)} {s : Calls T}
    (reached : exec step (init m) labels = some s) : Sound s.lock := by
  have path := Path.of_exec .nil reached
  refine path.invariant (P := fun s => Sound s.lock) sound_init ?_
  exact fun _ _ _ sound _ taken => sound.steps (step_lock taken)

/-- A call that returns releases its id. -/
theorem releases_on_return {s s' : Calls T} {l : CallLabel T} (sound : Sound s.lock)
    (taken : s.step l = some s') : ReleasesOnReturn s s' := by
  intro t call here returned
  cases l with
  | handle u jobid event =>
    simp only [step, Option.ite_none_right_eq_some, Option.some.injEq] at taken
    obtain ⟨idle, rfl⟩ := taken
    by_cases same : t = u
    · subst same; simp at returned
    · simp [same, here] at returned
  | unregisterJob u jobid =>
    simp only [step, Option.ite_none_right_eq_some, Option.some.injEq] at taken
    obtain ⟨idle, rfl⟩ := taken
    by_cases same : t = u
    · subst same; simp at returned
    · simp [same, here] at returned
  | step u env =>
    rw [step] at taken
    split at taken
    · cases taken
    · split at taken
      · cases taken
      · rename_i call' here'
        cases taken
        by_cases same : t = u
        · subst same
          rw [here] at here'
          cases here'
          simp only [Function.update_self] at returned
          have effect := call.step_lock t env s.world
          rw [returned] at effect
          obtain ⟨jobid, holds, held⟩ := effect.releases
          obtain rfl := Call.jobid_of_phase holds
          have mine : s.Holds t call.jobid := by rw [Holds, here, holds]
          exact ⟨mine, (sound.held_iff call.jobid).2 ⟨t, mine⟩, by simp [held]⟩
        · simp [same, here] at returned
  | wake u => cases taken; rw [here] at returned; cases returned
  | interfere m => cases taken; rw [here] at returned; cases returned

/-- Nobody else ends or changes the call of a thread. -/
theorem call_of_other {s s' : Calls T} {l : CallLabel T} (taken : s.step l = some s') {t : T} {call : Call}
    (here : s.call t = some call) (other : l.isStepOf t = false) : s'.call t = some call := by
  cases l with
  | handle u jobid event =>
    simp only [step, Option.ite_none_right_eq_some, Option.some.injEq, Option.isNone_iff_eq_none] at taken
    obtain ⟨idle, rfl⟩ := taken
    have apart : t ≠ u := by rintro rfl; rw [here] at idle; cases idle
    simp [apart, here]
  | unregisterJob u jobid =>
    simp only [step, Option.ite_none_right_eq_some, Option.some.injEq, Option.isNone_iff_eq_none] at taken
    obtain ⟨idle, rfl⟩ := taken
    have apart : t ≠ u := by rintro rfl; rw [here] at idle; cases idle
    simp [apart, here]
  | step u env =>
    have apart : t ≠ u := by rintro rfl; simp [CallLabel.isStepOf] at other
    rw [step] at taken
    split at taken
    · cases taken
    · split at taken
      · cases taken
      · cases taken
        simp [apart, here]
  | wake u => cases taken; exact here
  | interfere m => cases taken; exact here

/-- A step of the thread itself. -/
theorem call_of_own {s s' : Calls T} {t : T} {env : RemoteEnv} (taken : s.step (.step t env) = some s') {call : Call}
    (here : s.call t = some call) : s'.call t = (call.step t env s.world).2 := by
  rw [step] at taken
  split at taken
  · cases taken
  · rw [here] at taken
    cases taken
    simp

/-- **Who holds an id gets out**: as many of its own steps as its call has left are enough. The
induction is on the run; only the thread's own steps count. -/
theorem returns_of_turns {s s' : Calls T} (sound : Sound s.lock) {t : T} {call : Call} {jobid : JobId}
    (here : s.call t = some call) (holds : callPhase (some call) = .holding jobid) {labels : List (CallLabel T)}
    (run : exec step s labels = some s') (turns : call.rank ≤ labels.countP (CallLabel.isStepOf t)) :
    ∃ (past rest : List (CallLabel T)) (out : Calls T), labels = past ++ rest ∧ exec step s past = some out ∧
      out.call t = none ∧ jobid ∉ out.world.inFlightJobs := by
  induction labels generalizing s call with
  | nil =>
    have left := call.rank_lt t default s.world holds
    simp only [List.countP_nil] at turns
    omega
  | cons l ls ih =>
    obtain ⟨s₁, taken, run⟩ := Option.bind_eq_some_iff.1 run
    have sound₁ := sound.steps (step_lock taken)
    have further {call₁ : Call} (there : s₁.call t = some call₁) (holds₁ : callPhase (some call₁) = .holding jobid)
        (turns₁ : call₁.rank ≤ ls.countP (CallLabel.isStepOf t)) : ∃ (past rest : List (CallLabel T))
          (out : Calls T), l :: ls = past ++ rest ∧ exec step s past = some out ∧ out.call t = none ∧
            jobid ∉ out.world.inFlightJobs := by
      obtain ⟨past, rest, out, rfl, reached, returned⟩ := ih sound₁ there holds₁ run turns₁
      exact ⟨l :: past, rest, out, rfl, by simp [exec, taken, reached], returned⟩
    by_cases own : l.isStepOf t = true
    · rw [List.countP_cons_of_pos own] at turns
      cases l with
      | step u env =>
        obtain rfl : u = t := by simpa [CallLabel.isStepOf] using own
        have after := call_of_own taken here
        have left := call.rank_lt u env s.world holds
        cases goes : (call.step u env s.world).2 with
        | none =>
          rw [goes] at after
          obtain rfl := Call.jobid_of_phase holds
          exact ⟨[.step u env], ls, s₁, rfl, by simp [exec, taken], after,
            (releases_on_return sound taken u call here after).2.2⟩
        | some call₁ =>
          rw [goes] at after left
          simp only [Option.elim_some] at left
          exact further after (call.holds_step u env s.world holds goes) (by omega)
      | _ => cases own
    · rw [List.countP_cons_of_neg own] at turns
      exact further (call_of_other taken here (by simpa using own)) holds turns

/-- Who holds an id is awake, and gets out. -/
theorem gets_out {s : Calls T} (sound : Sound s.lock) {t : T} {jobid : JobId} (holds : s.Holds t jobid) :
    s.GetsOut t jobid := by
  cases here : s.call t with
  | none => rw [Holds, here] at holds; cases holds
  | some call =>
    have holds' : callPhase (some call) = .holding jobid := by rw [← here]; exact holds
    refine ⟨fun env => ?_, fun labels s' run turns => ?_⟩
    · have awake : t ∉ s.world.inFlightJobsCv := by
        intro sleeps
        obtain ⟨id, -, waits⟩ := sound.asleep t sleeps
        cases waits.symm.trans holds
      simp [step, awake, here]
    · exact returns_of_turns sound here holds' run ((Call.rank_le holds').trans turns)

/-- **Per-job mutual exclusion without wait cycles**, for any threads and any interleaving:
in every state reached, and for every call that returns next. Who holds an id does return. -/
theorem per_job_exclusion (m : JobMonitor) (labels : List (CallLabel T)) (s : Calls T)
    (reached : exec step (init m) labels = some s) :
    s.PerJobExclusion ∧ (∀ (l : CallLabel T) (s' : Calls T), s.step l = some s' → ReleasesOnReturn s s') ∧
      ∀ (t : T) (jobid : JobId), s.Holds t jobid → s.GetsOut t jobid := by
  have sound := sound_of_exec reached
  refine ⟨⟨sound.exclusive, sound.held_iff, fun t sleeps => ?_⟩, fun _ _ taken => releases_on_return sound taken,
    fun _ _ holds => gets_out sound holds⟩
  obtain ⟨jobid, t', waits, other, holds, awake⟩ := sound.holder sleeps
  refine ⟨jobid, t', waits, other, holds, awake, fun id waits' => ?_⟩
  cases holds.symm.trans waits'

/-- The monitor handles a job while the server waits to unregister it. -/
theorem server_waits_for_monitor :
    ∃ s : Calls Bool,
      exec step (init .empty) [.handle false "foo" .JOBSTART, .unregisterJob true "foo",
        .step false default, .step true default] = some s ∧
      true ∈ s.world.inFlightJobsCv ∧
      s.PerJobExclusion ∧
      (∀ (l : CallLabel Bool) (s' : Calls Bool), s.step l = some s' → ReleasesOnReturn s s') ∧
      ∀ (t : Bool) (jobid : JobId), s.Holds t jobid → s.GetsOut t jobid := by
  have waits : (exec step (init .empty) [.handle false "foo" .JOBSTART, .unregisterJob true "foo",
      .step false default, .step true default]).map (fun s : Calls Bool =>
        decide (true ∈ s.world.inFlightJobsCv)) = some true := by decide +kernel
  obtain ⟨s, reached, sleeps⟩ := Option.map_eq_some_iff.1 waits
  exact ⟨s, reached, of_decide_eq_true sleeps, per_job_exclusion .empty _ s reached⟩

end Calls

end QosPlanner
