import QosPlanner.Planner.Restart
import QosPlanner.Concurrent.Progress

/-!
# `Init`, `Monitor` and `TearDown`

The thread of the monitor is started by `Init` and asked to stop by `TearDown`, which sets
`monitor_thread_exit_flag_`, waits on `monitor_thread_finish_cv_` while the thread is
active, and joins it. The thread looks at the flag only between two rounds, and in a round
handles every event that is ready; so `TearDown` returns once the events in the queue have
run out (`tearDown_returns`), unless new ones are registered all the time.

The flag is never cleared. Whatever is called after `TearDown` has returned, no event is
taken any more: a thread that is started then ends at once (`nothing_after_tearDown`).

Each section under a mutex is one step, and so is `Handle`: no other thread holds a job.
-/

namespace QosPlanner
set_option autoImplicit false

open MemoryScheduleState JobPriorityQueue Run

/-- The places in `Monitor`. -/
inductive MonitorThreadPc where
  /-- No thread has been started. -/
  | absent
  | enter
  /-- `while (!monitor_thread_exit_flag_)` -/
  | outer
  /-- `while (isThereAReadyJob())` -/
  | inner
  | handle (wt : WaitingItem)
  /-- In `wait_for`, which ends after `waiting_time_sec_` at the latest. -/
  | waiting
  | leave
  | ended
  deriving DecidableEq

/-- The places of the thread that calls `Init` and `TearDown`. -/
inductive CallerPc where
  | idle
  /-- `while (monitor_thread_is_active_)` -/
  | finishing
  | join
  deriving DecidableEq

structure MonitorThread where
  m : JobMonitor
  monitorThreadStarted : Bool
  monitorThreadExitFlag : Bool
  monitorThreadIsActive : Bool
  thread : MonitorThreadPc
  caller : CallerPc
  /-- The caller is asleep on `monitor_thread_finish_cv_`. -/
  monitorThreadFinishCv : Bool

inductive MonitorThreadLabel where
  | init
  | tearDown
  /-- Some thread calls `RegisterJob`. -/
  | registerJob (job : Job)
  | caller
  | monitor (now : TimePoint) (env : RemoteEnv)
  | wake

def MonitorThreadLabel.thread : MonitorThreadLabel → Option Thread
  | .caller => some .server
  | .monitor _ _ => some .monitor
  | _ => none

namespace MonitorThread

/-- A monitor that has just been constructed, over a schedule and rules. -/
def new (m : JobMonitor) : MonitorThread := ⟨restarted m, false, false, false, .absent, .idle, false⟩

/-- A step of `Monitor`. -/
def monitorStep (now : TimePoint) (env : RemoteEnv) (s : MonitorThread) : Option MonitorThread :=
  match s.thread with
  | .absent => none
  | .enter => some { s with monitorThreadIsActive := true, monitorThreadFinishCv := false, thread := .outer }
  | .outer => some { s with thread := if !s.monitorThreadExitFlag then .inner else .leave }
  | .inner =>
    if s.m.jobPriorityQueue.isThereAReadyJob now then
      s.m.jobPriorityQueue.pop.map fun (wt, jobPriorityQueue) =>
        { s with m := { s.m with jobPriorityQueue }, thread := .handle wt }
    else some { s with thread := .waiting }
  | .handle wt => some { s with m := s.m.handle env wt.jobid wt.eventType, thread := .inner }
  | .waiting => some { s with thread := .outer }
  | .leave => some { s with monitorThreadIsActive := false, monitorThreadFinishCv := false, thread := .ended }
  | .ended => none

/-- One round of the waiting loop of `TearDown`. -/
def finishStep (s : MonitorThread) : MonitorThread :=
  if s.monitorThreadIsActive then { s with monitorThreadFinishCv := true, caller := .finishing }
  else { s with caller := .join }

/-- A step of `TearDown`. -/
def callerStep (s : MonitorThread) : Option MonitorThread :=
  match s.caller with
  | .idle => none
  | .finishing => if s.monitorThreadFinishCv then none else some (finishStep s)
  | .join => if s.thread = .absent ∨ s.thread = .ended then some { s with caller := .idle } else none

def step (s : MonitorThread) : MonitorThreadLabel → Option MonitorThread
  | .init =>
    match s.caller with
    | .idle =>
      let (_, monitorThreadStarted, m) := s.m.init s.monitorThreadStarted
      some { s with m, monitorThreadStarted, thread := if !s.monitorThreadStarted then .enter else s.thread }
    | _ => none
  | .tearDown =>
    match s.caller with
    | .idle => some (finishStep { s with monitorThreadExitFlag := true })
    | _ => none
  | .registerJob job =>
    some { s with m := { s.m with jobPriorityQueue := (JobMonitor.registerJob s.m.jobPriorityQueue job
      (reservationOf s.m.scheduleState job.jobid)).2 } }
  | .caller => callerStep s
  | .monitor now env => monitorStep now env s
  | .wake => some { s with monitorThreadFinishCv := false }

/-- A turn that cannot be taken passes by. -/
def attempt (s : MonitorThread) (l : MonitorThreadLabel) : MonitorThread := (s.step l).getD s

/-! ## The flags -/

end MonitorThread

/-- The thread has set `monitor_thread_is_active_`, and not yet cleared it. -/
def MonitorThreadPc.Active : MonitorThreadPc → Prop
  | .absent => False
  | .enter => False
  | .ended => False
  | _ => True

namespace MonitorThread

/-- The flags tell where the threads are, and the caller sleeps only while it will be woken. -/
structure Valid (s : MonitorThread) : Prop where
  started : s.monitorThreadStarted = false ↔ s.thread = .absent
  active : s.monitorThreadIsActive = true ↔ s.thread.Active
  asleep : s.monitorThreadFinishCv = true → s.caller = .finishing ∧ s.monitorThreadIsActive = true
  flag : s.caller ≠ .idle → s.monitorThreadExitFlag = true

theorem valid_new (m : JobMonitor) : (new m).Valid where
  started := by simp [new]
  active := by simp [new, MonitorThreadPc.Active]
  asleep := by simp [new]
  flag := by simp [new]

theorem Valid.finishStep {s : MonitorThread} (valid : s.Valid) (flag : s.monitorThreadExitFlag = true)
    (awake : s.monitorThreadFinishCv = false) : (finishStep s).Valid := by
  unfold MonitorThread.finishStep
  split
  · rename_i active
    exact ⟨valid.started, valid.active, fun _ => ⟨rfl, active⟩, fun _ => flag⟩
  · exact ⟨valid.started, valid.active, fun asleep => absurd (awake.symm.trans asleep) nofun, fun _ => flag⟩

theorem Valid.monitorStep {s s' : MonitorThread} {now : TimePoint} {env : RemoteEnv} (valid : s.Valid)
    (taken : monitorStep now env s = some s') : s'.Valid := by
  unfold MonitorThread.monitorStep at taken
  obtain ⟨started, active, asleep, flag⟩ := valid
  cases here : s.thread <;> rw [here] at taken active started <;> dsimp only at taken
  case absent => cases taken
  case ended => cases taken
  case enter =>
    cases taken
    exact ⟨iff_of_false (fun none => nomatch started.1 none) nofun, iff_of_true rfl trivial, nofun, flag⟩
  case outer =>
    cases taken
    have goesOn : s.monitorThreadStarted ≠ false := fun none => nomatch started.1 none
    refine ⟨iff_of_false goesOn ?_, ?_, asleep, flag⟩
    · dsimp only
      split <;> exact nofun
    · dsimp only
      split <;> exact active
  case inner =>
    have goesOn : s.monitorThreadStarted ≠ false := fun none => nomatch started.1 none
    split at taken
    · obtain ⟨⟨wt, queue⟩, -, rfl⟩ := Option.map_eq_some_iff.1 taken
      exact ⟨iff_of_false goesOn nofun, active, asleep, flag⟩
    · cases taken
      exact ⟨iff_of_false goesOn nofun, active, asleep, flag⟩
  case handle wt =>
    cases taken
    exact ⟨iff_of_false (fun none => nomatch started.1 none) nofun, active, asleep, flag⟩
  case waiting =>
    cases taken
    exact ⟨iff_of_false (fun none => nomatch started.1 none) nofun, active, asleep, flag⟩
  case leave =>
    cases taken
    exact ⟨iff_of_false (fun none => nomatch started.1 none) nofun, iff_of_false nofun id, nofun, flag⟩

theorem Valid.awake {s : MonitorThread} (valid : s.Valid) (idle : s.caller = .idle) :
    s.monitorThreadFinishCv = false := by
  cases asleep : s.monitorThreadFinishCv with
  | false => rfl
  | true => exact absurd (idle.symm.trans (valid.asleep asleep).1) nofun

/-- A call of `Init`. -/
theorem step_init {s s' : MonitorThread} (taken : s.step .init = some s') :
    s.caller = .idle ∧ s' = { s with
      m := s.m.fillWithExistingJobs
      monitorThreadStarted := true
      thread := if s.monitorThreadStarted = false then .enter else s.thread } := by
  rw [MonitorThread.step] at taken
  split at taken
  · simp only [JobMonitor.init_eq, Bool.not_eq_true', Option.some.injEq] at taken
    exact ⟨‹_›, taken.symm⟩
  · cases taken

theorem Valid.step {s s' : MonitorThread} {l : MonitorThreadLabel} (valid : s.Valid) (taken : s.step l = some s') :
    s'.Valid := by
  cases l with
  | init =>
    obtain ⟨-, rfl⟩ := step_init taken
    obtain ⟨started, active, asleep, flag⟩ := valid
    cases first : s.monitorThreadStarted with
    | true =>
      have goesOn : s.thread ≠ .absent := fun none => nomatch first.symm.trans (started.2 none)
      exact ⟨by simpa using goesOn, by simpa using active, asleep, flag⟩
    | false =>
      rw [started.1 first] at active
      exact ⟨by simp, by simpa [MonitorThreadPc.Active] using active, asleep, flag⟩
  | tearDown =>
    rw [MonitorThread.step] at taken
    split at taken
    · rename_i idle
      cases taken
      have flagged : Valid { s with monitorThreadExitFlag := true } :=
        ⟨valid.started, valid.active, valid.asleep, fun _ => rfl⟩
      exact flagged.finishStep rfl (valid.awake idle)
    · cases taken
  | registerJob job =>
    cases taken
    exact ⟨valid.started, valid.active, valid.asleep, valid.flag⟩
  | caller =>
    rw [MonitorThread.step, callerStep] at taken
    split at taken
    · cases taken
    · rename_i here
      split at taken
      · cases taken
      · cases taken
        rename_i awake
        exact valid.finishStep (valid.flag (by rw [here]; nofun)) (by simpa using awake)
    · rename_i here
      split at taken
      · cases taken
        refine ⟨valid.started, valid.active, fun asleep => ?_, fun busy => absurd rfl busy⟩
        exact absurd (here.symm.trans (valid.asleep asleep).1) nofun
      · cases taken
  | monitor now env => exact valid.monitorStep taken
  | wake =>
    cases taken
    exact ⟨valid.started, valid.active, nofun, valid.flag⟩

end MonitorThread

/-! ## After `TearDown` -/

/-- The thread is not in a round. -/
def MonitorThreadPc.OutsideRound : MonitorThreadPc → Prop
  | .inner => False
  | .handle _ => False
  | .waiting => False
  | _ => True

namespace MonitorThread

/-- The thread has been asked to stop, and takes no event any more. -/
structure Stopping (s : MonitorThread) : Prop where
  flag : s.monitorThreadExitFlag = true
  outside : s.thread.OutsideRound

/-- It stays so, whatever is called, and the schedule and the rules stay as they are. -/
theorem Stopping.step {s s' : MonitorThread} {l : MonitorThreadLabel} (stopping : s.Stopping)
    (taken : s.step l = some s') : s'.Stopping ∧ s'.m.scheduleState = s.m.scheduleState ∧
      s'.m.ruleManager = s.m.ruleManager := by
  obtain ⟨flag, outside⟩ := stopping
  cases l with
  | init =>
    obtain ⟨-, rfl⟩ := step_init taken
    refine ⟨⟨flag, ?_⟩, rfl, rfl⟩
    dsimp only
    split
    · trivial
    · exact outside
  | tearDown =>
    rw [MonitorThread.step] at taken
    split at taken
    · cases taken
      unfold finishStep
      split <;> exact ⟨⟨rfl, outside⟩, rfl, rfl⟩
    · cases taken
  | registerJob job =>
    cases taken
    exact ⟨⟨flag, outside⟩, rfl, rfl⟩
  | caller =>
    rw [MonitorThread.step, callerStep] at taken
    split at taken
    · cases taken
    · split at taken
      · cases taken
      · cases taken
        unfold finishStep
        split <;> exact ⟨⟨flag, outside⟩, rfl, rfl⟩
    · split at taken
      · cases taken
        exact ⟨⟨flag, outside⟩, rfl, rfl⟩
      · cases taken
  | monitor now env =>
    rw [MonitorThread.step, MonitorThread.monitorStep] at taken
    cases here : s.thread <;> rw [here] at taken outside <;> dsimp only at taken
    case absent => cases taken
    case ended => cases taken
    case enter => cases taken; exact ⟨⟨flag, trivial⟩, rfl, rfl⟩
    case outer =>
      cases taken
      refine ⟨⟨flag, ?_⟩, rfl, rfl⟩
      simp [flag, MonitorThreadPc.OutsideRound]
    case leave => cases taken; exact ⟨⟨flag, trivial⟩, rfl, rfl⟩
    all_goals exact absurd outside id
  | wake =>
    cases taken
    exact ⟨⟨flag, outside⟩, rfl, rfl⟩

/-- Between the calls, the flag tells that the thread takes no event any more. -/
structure Sound (s : MonitorThread) : Prop extends Valid s where
  stopped : s.monitorThreadExitFlag = true → s.caller = .idle → s.Stopping

theorem sound_new (m : JobMonitor) : (new m).Sound := ⟨valid_new m, nofun⟩

/-- A step of the thread leaves the caller and the flag alone. -/
theorem monitorStep_caller {s s' : MonitorThread} {now : TimePoint} {env : RemoteEnv}
    (taken : monitorStep now env s = some s') :
    s'.caller = s.caller ∧ s'.monitorThreadExitFlag = s.monitorThreadExitFlag := by
  unfold monitorStep at taken
  cases here : s.thread <;> rw [here] at taken <;> dsimp only at taken
  case absent => cases taken
  case ended => cases taken
  case inner =>
    split at taken
    · obtain ⟨⟨wt, queue⟩, -, rfl⟩ := Option.map_eq_some_iff.1 taken
      exact ⟨rfl, rfl⟩
    · cases taken
      exact ⟨rfl, rfl⟩
  all_goals
    cases taken
    exact ⟨rfl, rfl⟩

theorem Sound.step {s s' : MonitorThread} {l : MonitorThreadLabel} (sound : s.Sound) (taken : s.step l = some s') :
    s'.Sound := by
  refine ⟨sound.toValid.step taken, fun flag idle => ?_⟩
  cases l with
  | init =>
    obtain ⟨before, same⟩ := step_init taken
    exact ((sound.stopped (by rw [same] at flag; exact flag) before).step taken).1
  | tearDown =>
    rw [MonitorThread.step] at taken
    split at taken
    · cases taken
      unfold finishStep at idle
      split at idle <;> cases idle
    · cases taken
  | registerJob job =>
    have same := taken
    cases same
    exact ((sound.stopped flag idle).step taken).1
  | caller =>
    rw [MonitorThread.step, callerStep] at taken
    split at taken
    · cases taken
    · split at taken
      · cases taken
      · cases taken
        unfold finishStep at idle
        split at idle <;> cases idle
    · split at taken
      · rename_i done
        cases taken
        refine ⟨flag, ?_⟩
        rcases done with absent | ended
        · rw [absent]; trivial
        · rw [ended]; trivial
      · cases taken
  | monitor now env =>
    obtain ⟨caller, exitFlag⟩ := monitorStep_caller taken
    exact ((sound.stopped (exitFlag ▸ flag) (caller ▸ idle)).step taken).1
  | wake =>
    have same := taken
    cases same
    exact ((sound.stopped flag idle).step taken).1

theorem sound_of_path {m : JobMonitor} {past : List (MonitorThread × MonitorThreadLabel)} {s : MonitorThread}
    (reached : Path step (fun _ _ => True) (new m) past s) : s.Sound :=
  reached.invariant (P := Sound) (sound_new m) fun _ _ _ sound _ taken => sound.step taken

/-- **`TearDown` is final.** Once it has returned, no event is handled any more, whatever the
calling thread calls afterwards and in whatever order, `Init` included: the schedule and the
rules stay as they are. -/
theorem nothing_after_tearDown (m : JobMonitor) {past future : List (MonitorThread × MonitorThreadLabel)}
    {s s' : MonitorThread} (reached : Path step (fun _ _ => True) (new m) past s)
    (toldToStop : s.monitorThreadExitFlag = true) (returned : s.caller = .idle)
    (goesOn : Path step (fun _ _ => True) s future s') :
    (∀ taken ∈ future, taken.1.thread.OutsideRound) ∧ s'.thread.OutsideRound ∧
      s'.m.scheduleState = s.m.scheduleState ∧ s'.m.ruleManager = s.m.ruleManager := by
  have start := (sound_of_path reached).stopped toldToStop returned
  obtain ⟨before, stopping, same⟩ := goesOn.invariant_trace (P := fun trace t =>
    (∀ taken ∈ trace, taken.1.thread.OutsideRound) ∧ t.Stopping ∧
      t.m.scheduleState = s.m.scheduleState ∧ t.m.ruleManager = s.m.ruleManager)
    ⟨by simp, start, rfl, rfl⟩ (by
      rintro trace t l t' ⟨before, stopping, schedule, rules⟩ - taken
      obtain ⟨stopping', schedule', rules'⟩ := stopping.step taken
      refine ⟨fun entry member => ?_, stopping', schedule'.trans schedule, rules'.trans rules⟩
      rcases List.mem_append.1 member with old | new
      · exact before entry old
      · rw [List.mem_singleton.1 new]
        exact stopping.outside)
  exact ⟨before, stopping.outside, same⟩

/-- `foo` is due, but the monitor is torn down before its thread looks. A second `Init` queues the
event once more, and starts no thread. -/
theorem foo_is_not_started :
    ∃ s s', exec step (new (scheduled .empty ⟨.INITIALIZED, "foo", 0, 10, ["OST_a"], 42⟩))
        [.init, .tearDown, .monitor 1 allSucceed, .monitor 1 allSucceed, .monitor 1 allSucceed, .caller] = some s ∧
      exec step s [.init] = some s' ∧ s'.m.jobPriorityQueue.items.card = 2 ∧
      s'.thread.OutsideRound ∧ s'.m.scheduleState = s.m.scheduleState := by
  have runs : ((exec step (new (scheduled .empty ⟨.INITIALIZED, "foo", 0, 10, ["OST_a"], 42⟩))
      [.init, .tearDown, .monitor 1 allSucceed, .monitor 1 allSucceed, .monitor 1 allSucceed, .caller]).map fun s =>
        decide (s.monitorThreadExitFlag = true ∧ s.caller = .idle ∧
          s.m.fillWithExistingJobs.jobPriorityQueue.items.card = 2)) = some true := by decide +kernel
  obtain ⟨s, reached, here⟩ := Option.map_eq_some_iff.1 runs
  obtain ⟨toldToStop, returned, events⟩ := of_decide_eq_true here
  obtain ⟨s', goesOn⟩ : ∃ s', exec step s [.init] = some s' := by simp [exec, step, returned]
  obtain ⟨-, outside, schedule, -⟩ := nothing_after_tearDown _ (Path.of_exec .nil reached) toldToStop returned
    (Path.of_exec .nil goesOn)
  have queued : s'.m = s.m.fillWithExistingJobs := by
    obtain ⟨t, taken, same⟩ := Option.bind_eq_some_iff.1 goesOn
    cases same
    rw [(step_init taken).2]
  exact ⟨s, s', reached, goesOn, by rw [queued, events], outside, schedule⟩

/-! ## `TearDown` returns -/

end MonitorThread

def MonitorThreadPc.rank : MonitorThreadPc → ℕ
  | .absent => 0
  | .ended => 0
  | .leave => 1
  | .outer => 2
  | .enter => 3
  | .waiting => 3
  | .inner => 4
  | .handle wt => 3 + wt.rank

def CallerPc.rank : CallerPc → ℕ
  | .idle => 0
  | .join => 1
  | .finishing => 2

namespace MonitorThread

def rank (s : MonitorThread) : ℕ := s.m.jobPriorityQueue.rank + s.thread.rank + s.caller.rank

/-- The next turn of the thread counts. -/
def Ready (s : MonitorThread) : Thread → Prop
  | .monitor => s.monitorThreadExitFlag = true ∧ s.thread ≠ .absent ∧ s.thread ≠ .ended
  | .server =>
    s.caller = .finishing ∧ s.monitorThreadFinishCv = false ∧ s.monitorThreadIsActive = false ∨
      s.caller = .join ∧ (s.thread = .absent ∨ s.thread = .ended)

/-- Handling an event queues at most one, which counts for less. -/
theorem rank_handle (m : JobMonitor) (env : RemoteEnv) (wt : WaitingItem) :
    (m.handle env wt.jobid wt.eventType).jobPriorityQueue.rank + 1 < m.jobPriorityQueue.rank + wt.rank := by
  cases event : wt.eventType with
  | JOBSTART =>
    have own : wt.rank = 20 := by simp [WaitingItem.rank, event]
    rw [JobMonitor.handle]
    rcases m.startJob_cases env wt.jobid with ⟨job, rule, -, -, -, start⟩ | ⟨-, start⟩ <;> rw [start]
    · simp only [JobMonitor.started, rank_push, WaitingItem.rank]
      simp [event]
      omega
    · dsimp only
      omega
  | JOBSTOP =>
    have own : wt.rank = 7 := by simp [WaitingItem.rank, event]
    rw [JobMonitor.handle]
    rcases m.stopJob_cases wt.jobid with ⟨-, stop⟩ | ⟨-, stop⟩ <;> rw [stop]
    · simp only [JobMonitor.stopped]
      omega
    · dsimp only
      omega

/-- A turn of the thread, once it has been asked to stop. -/
theorem rank_monitorStep {s : MonitorThread} (ready : s.Ready .monitor) (now : TimePoint) (env : RemoteEnv) :
    ∃ s', monitorStep now env s = some s' ∧ s'.rank < s.rank := by
  obtain ⟨flag, present, alive⟩ := ready
  cases here : s.thread with
  | absent => exact absurd here present
  | ended => exact absurd here alive
  | inner =>
    by_cases readyJob : s.m.jobPriorityQueue.isThereAReadyJob now
    · cases popped : s.m.jobPriorityQueue.pop with
      | none =>
        have empty : s.m.jobPriorityQueue.heap = #[] := by simpa [items] using pop_eq_none.1 popped
        simp [isThereAReadyJob, JobPriorityQueue.peek, empty] at readyJob
      | some taken =>
        obtain ⟨wt, queue⟩ := taken
        refine ⟨_, by rw [monitorStep, here]; dsimp only; rw [if_pos readyJob, popped]; rfl, ?_⟩
        simp only [rank, here, MonitorThreadPc.rank, rank_pop popped]
        omega
    · refine ⟨_, by rw [monitorStep, here]; dsimp only; rw [if_neg readyJob], ?_⟩
      simp [rank, here, MonitorThreadPc.rank]
  | handle wt =>
    refine ⟨_, by rw [monitorStep, here], ?_⟩
    have less := rank_handle s.m env wt
    simp only [rank, here, MonitorThreadPc.rank]
    omega
  | outer =>
    refine ⟨_, by rw [monitorStep, here], ?_⟩
    simp [rank, here, flag, MonitorThreadPc.rank]
  | _ =>
    refine ⟨_, by rw [monitorStep, here], ?_⟩
    simp [rank, here, MonitorThreadPc.rank]

/-- A turn of the caller, when the thread is done or about to be waited for. -/
theorem rank_callerStep {s : MonitorThread} (ready : s.Ready .server) :
    ∃ s', callerStep s = some s' ∧ s'.rank < s.rank := by
  rcases ready with ⟨here, awake, inactive⟩ | ⟨here, done⟩
  · refine ⟨_, by rw [callerStep, here]; dsimp only; rw [awake]; rfl, ?_⟩
    simp [rank, finishStep, inactive, here, CallerPc.rank]
  · refine ⟨_, by rw [callerStep, here]; dsimp only; rw [if_pos done], ?_⟩
    simp [rank, here, CallerPc.rank]

/-- A turn of the caller that is not ready. -/
theorem callerStep_waits {s s' : MonitorThread} (waits : ¬ s.Ready .server)
    (taken : callerStep s = some s') : s'.rank = s.rank ∧ s'.thread = s.thread ∧
      s'.monitorThreadExitFlag = s.monitorThreadExitFlag := by
  unfold callerStep at taken
  split at taken
  · cases taken
  · rename_i here
    split at taken
    · cases taken
    · rename_i awake
      cases taken
      have active : s.monitorThreadIsActive = true := by
        by_contra inactive
        exact waits (Or.inl ⟨here, by simpa using awake, by simpa using inactive⟩)
      simp [finishStep, active, rank, here]
  · rename_i here
    split at taken
    · rename_i done
      exact absurd (Or.inr ⟨here, done⟩) waits
    · cases taken

theorem attempt_of_none {s : MonitorThread} {l : MonitorThreadLabel} (stays : s.step l = none) : s.attempt l = s := by
  rw [attempt, stays]
  rfl

theorem attempt_of_some {s s' : MonitorThread} {l : MonitorThreadLabel} (taken : s.step l = some s') :
    s.attempt l = s' := by
  rw [attempt, taken]
  rfl

theorem Valid.attempt {s : MonitorThread} (valid : s.Valid) (l : MonitorThreadLabel) : (s.attempt l).Valid := by
  cases taken : s.step l with
  | none => rwa [attempt_of_none taken]
  | some s' => rw [attempt_of_some taken]; exact valid.step taken

def IsRegister : MonitorThreadLabel → Prop
  | .registerJob _ => True
  | _ => False

/-- While `TearDown` runs, every turn of a ready thread brings it nearer to its return. -/
def tearDownProgress : Progress attempt MonitorThreadLabel.thread (fun l => ¬ IsRegister l) Valid
    (fun s => s.caller = .idle) where
  rank := rank
  ready := Ready
  keeps s l valid _ := valid.attempt l
  some_ready s valid busy := by
    have flag := valid.flag busy
    by_cases done : s.thread = .absent ∨ s.thread = .ended
    · -- The thread is not active, so the caller is not asleep.
      have inactive : s.monitorThreadIsActive = false := by
        by_contra active
        have running := valid.active.1 (by simpa using active)
        rcases done with there | there <;> rw [there] at running <;> exact running
      have awake : s.monitorThreadFinishCv = false := by
        by_contra asleep
        have active := (valid.asleep (by simpa using asleep)).2
        rw [inactive] at active
        cases active
      refine ⟨.server, ?_⟩
      cases here : s.caller with
      | idle => exact absurd here busy
      | finishing => exact Or.inl ⟨here, awake, inactive⟩
      | join => exact Or.inr ⟨here, done⟩
    · rw [not_or] at done
      exact ⟨.monitor, flag, done⟩
  turn s t l _ ready own := by
    cases l with
    | caller =>
      cases own
      obtain ⟨s', taken, less⟩ := rank_callerStep ready
      rw [attempt_of_some (l := .caller) taken]
      exact less
    | monitor now env =>
      cases own
      obtain ⟨s', taken, less⟩ := rank_monitorStep ready now env
      rw [attempt_of_some (l := .monitor now env) taken]
      exact less
    | _ => cases own
  others s t l valid busy ready allowed other := by
    cases l with
    | init =>
      have stays : s.step .init = none := by
        cases here : s.caller with
        | idle => exact absurd here busy
        | _ => simp [MonitorThread.step, here]
      rw [attempt_of_none stays]
      exact Or.inr ⟨rfl, ready⟩
    | tearDown =>
      have stays : s.step .tearDown = none := by
        cases here : s.caller with
        | idle => exact absurd here busy
        | _ => simp [MonitorThread.step, here]
      rw [attempt_of_none stays]
      exact Or.inr ⟨rfl, ready⟩
    | registerJob job => exact absurd trivial allowed
    | caller =>
      cases t with
      | server => exact absurd rfl other
      | monitor =>
        by_cases ready' : s.Ready .server
        · obtain ⟨s', taken, less⟩ := rank_callerStep ready'
          rw [attempt_of_some (l := .caller) taken]
          exact Or.inl less
        · cases taken : callerStep s with
          | none =>
            rw [attempt_of_none (l := .caller) taken]
            exact Or.inr ⟨rfl, ready⟩
          | some s' =>
            obtain ⟨same, thread, flag⟩ := callerStep_waits ready' taken
            rw [attempt_of_some (l := .caller) taken]
            exact Or.inr ⟨same, by rw [Ready, thread, flag]; exact ready⟩
    | monitor now env =>
      cases t with
      | monitor => exact absurd rfl other
      | server =>
        by_cases ready' : s.Ready .monitor
        · obtain ⟨s', taken, less⟩ := rank_monitorStep ready' now env
          rw [attempt_of_some (l := .monitor now env) taken]
          exact Or.inl less
        · have stays : monitorStep now env s = none := by
            rw [Ready, not_and, not_and_or, not_not, not_not] at ready'
            rcases ready' (valid.flag busy) with here | here <;> rw [monitorStep, here]
          rw [attempt_of_none (l := .monitor now env) stays]
          exact Or.inr ⟨rfl, ready⟩
    | wake =>
      refine Or.inr ⟨rfl, ?_⟩
      cases t with
      | monitor => exact ready
      | server =>
        rcases ready with ⟨here, -, inactive⟩ | done
        · exact Or.inl ⟨here, rfl, inactive⟩
        · exact Or.inr done

theorem valid_states (m : JobMonitor) (labels : ℕ → MonitorThreadLabel) (n : ℕ) :
    (states attempt labels (new m) n).Valid := by
  induction n with
  | zero => exact valid_new m
  | succ n ih => exact ih.attempt _

/-- **`TearDown` returns.** Over every schedule that leaves out neither the caller nor the thread
of the monitor for good, whatever calls of `Init` and `TearDown` are made and however the
events turn out: every call of `TearDown` returns, unless jobs are registered for ever. -/
theorem tearDown_returns (m : JobMonitor) (labels : ℕ → MonitorThreadLabel)
    (fair : Fair MonitorThreadLabel.thread labels) (last : ℕ) (none_left : ∀ n ≥ last, ¬ IsRegister (labels n)) :
    ∀ k, ∃ n ≥ k, (states attempt labels (new m) n).caller = .idle := by
  intro k
  obtain ⟨n, returned⟩ := tearDownProgress.eventually (fair.drop (max last k))
    (fun n => none_left _ (by omega)) (valid_states m labels (max last k))
  exact ⟨n + max last k, by omega, by rwa [states_add]⟩

/-- `TearDown` is called while `foo` is about to be started. -/
theorem tearDown_returns_during_start :
    let labels (n : ℕ) : MonitorThreadLabel :=
      [.init, .monitor 1 allSucceed, .monitor 1 allSucceed, .monitor 1 allSucceed, .tearDown].getD n
        (if n % 2 = 0 then .caller else .monitor 1 allSucceed)
    ∀ k, ∃ n ≥ k, (states attempt labels
      (new (scheduled .empty ⟨.INITIALIZED, "foo", 0, 10, ["OST_a"], 42⟩)) n).caller = .idle := by
  intro labels
  have later (n : ℕ) (after : 5 ≤ n) : labels n = if n % 2 = 0 then .caller else .monitor 1 allSucceed := by
    simp only [labels]
    rw [List.getD_eq_default _ _ after]
  refine tearDown_returns _ labels (fun t n => ?_) 5 fun n after => ?_
  · cases t with
    | server =>
      refine ⟨2 * (n + 5), by omega, ?_⟩
      rw [later _ (by omega)]
      simp [MonitorThreadLabel.thread]
    | monitor =>
      refine ⟨2 * (n + 5) + 1, by omega, ?_⟩
      rw [later _ (by omega)]
      simp [MonitorThreadLabel.thread, Nat.add_mod]
  · rw [later n after]
    split <;> exact not_false

end MonitorThread

end QosPlanner
