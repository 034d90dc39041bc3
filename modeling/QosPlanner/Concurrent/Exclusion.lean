import QosPlanner.Concurrent.Mutex
import QosPlanner.Concurrent.System

/-!
# The lock of the two threads

Seen from `in_flight_jobs_`, the server is inside only during `UnregisterJob` and the
monitor only during `Handle`: the two threads refine the lock of `QosPlanner.Lock.KeyedLock`
(`System.step_lock`). So while one of them holds an id, no step of a call of the other
touches the job or the rule of that id. `AddJob` and `RemoveJob` of the server are outside
the lock.
-/

namespace QosPlanner
set_option autoImplicit false

open MemoryScheduleState RuleManager Run Lock

/-! ## The phases of the threads -/

/-- The server seen from the lock: it holds an id only within `UnregisterJob`. -/
def ServerPc.phase : ServerPc → Phase JobId
  | .unregisterJob jobid pc _ => pc.phase jobid
  | _ => .out

/-- The monitor seen from the lock. -/
def MonitorPc.phase : MonitorPc → Phase JobId
  | .handle wt _ pc => pc.phase wt.jobid
  | .idle => .out

theorem HandlePc.holds_of_ne_block {pc : HandlePc} (jobid : JobId) (inside : pc ≠ .block) :
    pc.phase jobid = .holding jobid := by
  cases pc with
  | block => exact absurd rfl inside
  | _ => rfl

theorem UnregisterPc.holds_of_ne_block {pc : UnregisterPc} (jobid : JobId) (inside : pc ≠ .block) :
    pc.phase jobid = .holding jobid := by
  cases pc with
  | block => exact absurd rfl inside
  | _ => rfl

theorem HandlePc.phase_ne {pc : HandlePc} {jobid id : JobId} (other : id ≠ jobid) : pc.phase jobid ≠ .holding id := by
  cases pc <;> simp [HandlePc.phase, Ne.symm other]

theorem UnregisterPc.phase_ne {pc : UnregisterPc} {jobid id : JobId} (other : id ≠ jobid) :
    pc.phase jobid ≠ .holding id := by
  cases pc <;> simp [UnregisterPc.phase, Ne.symm other]

/-- The phases of the two threads. -/
def phases (server : ServerPc) (monitor : MonitorPc) : Thread → Phase JobId
  | .server => server.phase
  | .monitor => monitor.phase

theorem phases_update_server (server server' : ServerPc) (monitor : MonitorPc) :
    Function.update (phases server monitor) .server server'.phase = phases server' monitor := by
  funext t
  cases t <;> simp [phases]

theorem phases_update_monitor (server : ServerPc) (monitor monitor' : MonitorPc) :
    Function.update (phases server monitor) .monitor monitor'.phase = phases server monitor' := by
  funext t
  cases t <;> simp [phases]

namespace System

/-- The lock of the system. -/
def lock (s : System) : KeyedLock Thread JobId := lockOf s.world (phases s.server s.monitor)

/-- A thread that is out may start to want an id. -/
theorem enters_server (w : World Thread) {server server' : ServerPc} (monitor : MonitorPc)
    (out : server.phase = .out) (goes : server'.phase = .out ∨ ∃ jobid, server'.phase = .wanting jobid) :
    Relation.ReflTransGen Step (lockOf w (phases server monitor)) (lockOf w (phases server' monitor)) := by
  rw [← phases_update_server server server' monitor]
  rcases goes with still | ⟨jobid, wants⟩
  · rw [still, ← out]
    rw [show Function.update (phases server monitor) .server server.phase = phases server monitor from
      Function.update_eq_self _ _]
  · rw [wants]
    exact .single (.enter (s := lockOf w (phases server monitor)) .server jobid out)

theorem nextDelete_phase (rest : List JobId) :
    (nextDelete rest).phase = .out ∨ ∃ jobid, (nextDelete rest).phase = .wanting jobid := by
  cases rest with
  | nil => exact Or.inl rfl
  | cons jobid rest => exact Or.inr ⟨jobid, rfl⟩

/-- Outside `UnregisterJob` the server does not touch the set. -/
theorem serverStep_outside {limits : Limits} {u : UInt32} {w w' : World Thread} {server server' : ServerPc}
    (outside : ∀ jobid pc rest, server ≠ .unregisterJob jobid pc rest)
    (moved : serverStep limits u w server = some (w', server')) :
    server.phase = .out ∧ w'.inFlightJobs = w.inFlightJobs ∧ w'.inFlightJobsCv = w.inFlightJobsCv ∧
      (server'.phase = .out ∨ ∃ jobid, server'.phase = .wanting jobid) := by
  cases server with
  | idle => cases moved
  | checkOst job osts =>
    cases osts with
    | nil => cases moved; exact ⟨rfl, rfl, rfl, Or.inl rfl⟩
    | cons ost osts =>
      simp only [serverStep, getMaxLoadInTimeInterval_eq] at moved
      split at moved
      · cases moved; exact ⟨rfl, rfl, rfl, Or.inl rfl⟩
      · split at moved <;> cases moved <;> exact ⟨rfl, rfl, rfl, Or.inl rfl⟩
  | addJob job =>
    simp only [serverStep] at moved
    split at moved <;> cases moved <;> exact ⟨rfl, rfl, rfl, Or.inl rfl⟩
  | registerJob job reservation => cases moved; exact ⟨rfl, rfl, rfl, Or.inl rfl⟩
  | unregisterJob jobid pc rest => exact absurd rfl (outside jobid pc rest)
  | removeJob jobid rest => cases moved; exact ⟨rfl, rfl, rfl, nextDelete_phase rest⟩

/-- **The two threads refine the lock.** -/
theorem step_lock {limits : Limits} {s s' : System} {l : Label} (taken : s.step limits l = some s') :
    Relation.ReflTransGen Step s.lock s'.lock := by
  cases l with
  | reserve job =>
    rw [step] at taken
    split at taken
    · rename_i idle
      cases taken
      exact enters_server s.world s.monitor (by rw [idle]; rfl) (Or.inl rfl)
    · cases taken
  | delete request =>
    rw [step] at taken
    split at taken
    · rename_i idle
      cases taken
      exact enters_server s.world s.monitor (by rw [idle]; rfl) (nextDelete_phase request.id)
    · cases taken
  | server u =>
    obtain ⟨awake, w, server, moved, rfl⟩ := step_server taken
    show Relation.ReflTransGen Step (lockOf s.world (phases s.server s.monitor)) (lockOf w (phases server s.monitor))
    by_cases inside : ∃ jobid pc rest, s.server = .unregisterJob jobid pc rest
    · obtain ⟨jobid, pc, rest, here⟩ := inside
      have effect := unregisterStep_lock Thread.server jobid s.world pc
      rw [here, serverStep] at moved
      rw [here]
      rcases ran : unregisterStep Thread.server jobid s.world pc with ⟨w', pc' | result⟩ <;>
        rw [ran] at effect moved <;> cases moved
      · rw [← phases_update_server (.unregisterJob jobid pc rest) (.unregisterJob jobid pc' rest)]
        exact effect.step rfl awake
      · rw [← phases_update_server (.unregisterJob jobid pc rest) (.removeJob jobid rest)]
        exact effect.step rfl awake
    · obtain ⟨out, held, asleep, goes⟩ :=
        serverStep_outside (fun jobid pc rest here => inside ⟨jobid, pc, rest, here⟩) moved
      rw [show lockOf w = lockOf s.world by unfold lockOf; rw [held, asleep]]
      exact enters_server s.world s.monitor out goes
  | pop now =>
    obtain ⟨idle, wt, queue, -, -, rfl⟩ := step_pop taken
    have out : s.monitor.phase = .out := by rw [idle]; rfl
    show Relation.ReflTransGen Step (lockOf s.world (phases s.server s.monitor)) _
    rw [lock, ← phases_update_monitor s.server s.monitor (.handle wt now .block)]
    exact .single (.enter (s := lockOf s.world (phases s.server s.monitor)) .monitor wt.jobid out)
  | monitor env =>
    obtain ⟨awake, wt, poppedAt, pc, here, went⟩ := step_monitor taken
    have effect := handleStep_lock Thread.monitor env wt.jobid wt.eventType s.world pc
    show Relation.ReflTransGen Step (lockOf s.world (phases s.server s.monitor)) _
    rw [here]
    rcases went with ⟨w, pc', ran, rfl⟩ | ⟨w, ran, rfl⟩ <;> rw [ran] at effect
    · rw [lock, ← phases_update_monitor s.server (.handle wt poppedAt pc) (.handle wt poppedAt pc')]
      exact effect.step rfl awake
    · rw [lock, ← phases_update_monitor s.server (.handle wt poppedAt pc) .idle]
      exact effect.step rfl awake
  | wake t =>
    cases taken
    exact .single (.wake t)

theorem sound_lock_init : Sound init.lock := by
  have out : phases .idle .idle = fun _ => .out := by funext t; cases t <;> rfl
  rw [lock, init, lockOf, out]
  exact sound_init

/-- No id is held by both threads. -/
theorem not_both_hold {s : System} (sound : Sound s.lock) {jobid : JobId} (server : s.server.phase = .holding jobid)
    (monitor : s.monitor.phase = .holding jobid) : False := by
  cases sound.exclusive .server .monitor jobid server monitor

/-- What holds in every state: the lock is sound, and what `AddJob` is about to store is
SCHEDULED. -/
structure Valid (s : System) : Prop where
  sound : Sound s.lock
  adds : ∀ job, s.server = .addJob job → job.state = .SCHEDULED

theorem valid_init : Valid init := ⟨sound_lock_init, nofun⟩

theorem Valid.step {limits : Limits} {s s' : System} {l : Label} (valid : Valid s)
    (taken : s.step limits l = some s') : Valid s' := by
  refine ⟨valid.sound.steps (step_lock taken), ?_⟩
  have move := step_move taken
  obtain ⟨⟨m', held, asleep⟩, server', monitor'⟩ := s'
  dsimp only at move
  cases move with
  | delete request idle => exact fun _ there => absurd there (nextDelete_ne_addJob _ _)
  | checksDone u job here =>
    rintro _ ⟨⟩
    rfl
  | removed u jobid rest here => exact fun _ there => absurd there (nextDelete_ne_addJob _ _)
  | pop => exact valid.adds
  | handle => exact valid.adds
  | handled => exact valid.adds
  | wake => exact valid.adds
  | _ => exact nofun

end System

/-! ## What a thread leaves alone -/

/-- Within a call that waits, nothing stored changes. -/
theorem HandleMove.same_of_waiting {jobid id : JobId} {event : JobEvent} {m m' : JobMonitor} {pc : HandlePc}
    {control : Control HandlePc Unit} (move : HandleMove jobid event m pc m' control)
    (waits : pc.phase jobid ≠ .holding jobid) : SameAt m m' id := by
  cases move with
  | blocked => exact ⟨rfl, rfl⟩
  | toStart => exact ⟨rfl, rfl⟩
  | toStop => exact ⟨rfl, rfl⟩
  | _ => exact absurd rfl waits

theorem UnregisterMove.same_of_waiting {jobid id : JobId} {m m' : JobMonitor} {pc : UnregisterPc}
    {control : Control UnregisterPc Bool} (move : UnregisterMove jobid m pc m' control)
    (waits : pc.phase jobid ≠ .holding jobid) : SameAt m m' id := by
  cases move with
  | blocked => exact ⟨rfl, rfl⟩
  | taken => exact ⟨rfl, rfl⟩
  | _ => exact absurd rfl waits

/-- The monitor does not touch what the server holds. -/
theorem HandleMove.same_of_server_holds {s : System} (sound : Sound s.lock) {wt : WaitingItem} {now : TimePoint}
    {pc : HandlePc} {m' : JobMonitor} {control : Control HandlePc Unit} (here : s.monitor = .handle wt now pc)
    (move : HandleMove wt.jobid wt.eventType s.world.toJobMonitor pc m' control) {id : JobId}
    (holds : s.server.phase = .holding id) : SameAt s.world.toJobMonitor m' id := by
  by_cases other : id = wt.jobid
  · subst other
    refine move.same_of_waiting fun mine => System.not_both_hold sound holds ?_
    rw [here]
    exact mine
  · exact move.frame other

/-- And the other way round. -/
theorem UnregisterMove.same_of_monitor_holds {s : System} (sound : Sound s.lock) {jobid : JobId} {pc : UnregisterPc}
    {rest : List JobId} {m' : JobMonitor} {control : Control UnregisterPc Bool}
    (here : s.server = .unregisterJob jobid pc rest) (move : UnregisterMove jobid s.world.toJobMonitor pc m' control)
    {id : JobId} (holds : s.monitor.phase = .holding id) : SameAt s.world.toJobMonitor m' id := by
  by_cases other : id = jobid
  · subst other
    refine move.same_of_waiting fun mine => System.not_both_hold sound ?_ holds
    rw [here]
    exact mine
  · exact move.frame other

end QosPlanner
