import QosPlanner.Concurrent.Progress
import QosPlanner.Planner.Operations

/-!
# Runs without overlap

The two threads against the functions that they run: if each call is over before the next
one starts, the steps of the server and of the monitor add up to the operations of the
planner. So every run of the planner, one operation at a time, is among the interleavings
(`planner_run_is_interleaving`), and what holds of all of them holds of it.
-/

namespace QosPlanner
set_option autoImplicit false

open MemoryScheduleState JobPriorityQueue JobMonitor Run

/-- Some steps lead from one state to the other. -/
def Leads {σ ℓ : Type*} (step : σ → ℓ → Option σ) (s s' : σ) : Prop := ∃ labels, exec step s labels = some s'

namespace Leads

variable {σ ℓ : Type*} {step : σ → ℓ → Option σ} {s s' s'' : σ}

theorem refl (s : σ) : Leads step s s := ⟨[], rfl⟩

/-- One step, and then some. -/
theorem cons (l : ℓ) (taken : step s l = some s') (rest : Leads step s' s'') : Leads step s s'' := by
  obtain ⟨labels, run⟩ := rest
  exact ⟨l :: labels, by rw [exec, taken, Option.bind_some, run]⟩

theorem trans (first : Leads step s s') (second : Leads step s' s'') : Leads step s s'' := by
  obtain ⟨labels, run⟩ := first
  induction labels generalizing s with
  | nil => cases run; exact second
  | cons l labels ih =>
    obtain ⟨t, taken, rest⟩ := Option.bind_eq_some_iff.1 run
    exact cons l taken (ih rest)

end Leads

namespace System

variable (limits : Limits)

/-- Both threads are idle, and no id is in flight. -/
def resting (m : JobMonitor) : System := ⟨⟨m, ∅, ∅⟩, .idle, .idle⟩

/-! ## The calls -/

/-- A step of a call that does not wait puts nobody to sleep. -/
theorem awake_of_lockEffect {w w' : World Thread} {t : Thread} {before after : Lock.Phase JobId}
    (effect : LockEffect t w w' before after) (awake : w.inFlightJobsCv = ∅)
    (free : ∀ jobid, before = .wanting jobid → jobid ∉ w.inFlightJobs) : w'.inFlightJobsCv = ∅ := by
  cases effect with
  | sleep jobid taken => exact absurd taken (free jobid rfl)
  | acquire _ _ _ asleep => rw [asleep, awake]
  | inside _ _ asleep => rw [asleep, awake]
  | release _ _ asleep => exact asleep

/-- `UnregisterJob`, without interruption. -/
theorem leads_unregister {jobid : JobId} (rest : List JobId) {w w' : World Thread} {pc : UnregisterPc} {r : Bool}
    (finishes : Finishes (unregisterStep .server jobid) w pc w' r) (awake : w.inFlightJobsCv = ∅)
    (free : pc = .block → jobid ∉ w.inFlightJobs) :
    Leads (step limits) ⟨w, .unregisterJob jobid pc rest, .idle⟩ ⟨w', .removeJob jobid rest, .idle⟩ := by
  induction finishes with
  | done taken =>
    refine .cons (.server 0) ?_ (.refl _)
    simp [step, awake, serverStep, taken]
  | @next w _ pc _ w₁ pc₁ taken _ ih =>
    have first : step limits ⟨w, .unregisterJob jobid pc rest, .idle⟩ (.server 0) =
        some ⟨w₁, .unregisterJob jobid pc₁ rest, .idle⟩ := by simp [step, awake, serverStep, taken]
    refine .cons _ first (ih ?_ fun blocks => ?_)
    · have effect := unregisterStep_lock .server jobid w pc
      rw [taken] at effect
      refine awake_of_lockEffect effect awake fun id wants => ?_
      cases pc <;> cases wants
      exact free rfl
    · have goes := unregisterStep_ne_block .server jobid w pc free
      rw [taken, blocks] at goes
      exact absurd rfl goes

/-- `Handle`, without interruption. -/
theorem leads_handle {wt : WaitingItem} (now : TimePoint) (env : RemoteEnv) {w w' : World Thread} {pc : HandlePc}
    {r : Unit} (finishes : Finishes (handleStep .monitor env wt.jobid wt.eventType) w pc w' r)
    (awake : w.inFlightJobsCv = ∅) (free : pc = .block → wt.jobid ∉ w.inFlightJobs) :
    Leads (step limits) ⟨w, .idle, .handle wt now pc⟩ ⟨w', .idle, .idle⟩ := by
  induction finishes with
  | done taken =>
    refine .cons (.monitor env) ?_ (.refl _)
    simp [step, awake, taken]
  | @next w _ pc _ w₁ pc₁ taken _ ih =>
    have first : step limits ⟨w, .idle, .handle wt now pc⟩ (.monitor env) =
        some ⟨w₁, .idle, .handle wt now pc₁⟩ := by simp [step, awake, taken]
    refine .cons _ first (ih ?_ fun blocks => ?_)
    · have effect := handleStep_lock .monitor env wt.jobid wt.eventType w pc
      rw [taken] at effect
      refine awake_of_lockEffect effect awake fun id wants => ?_
      cases pc <;> cases wants
      exact free rfl
    · have goes := handleStep_ne_block .monitor env wt.eventType w pc free
      rw [taken, blocks] at goes
      exact absurd rfl goes

/-- The loop of `ServeJobRemove`. -/
theorem leads_delete (m : JobMonitor) (ids : List JobId) :
    Leads (step limits) ⟨⟨m, ∅, ∅⟩, nextDelete ids, .idle⟩ (resting (ids.foldl deleteJob m)) := by
  induction ids generalizing m with
  | nil => exact .refl _
  | cons jobid rest ih =>
    have unregister := unregisterJob_uninterrupted jobid Thread.server ⟨m, ∅, ∅⟩ (Finset.notMem_empty jobid)
    refine (leads_unregister limits rest unregister rfl fun _ => Finset.notMem_empty jobid).trans ?_
    exact .cons (.server 0) (by simp [step, serverStep, deleteJob]) (ih (deleteJob m jobid))

/-- The checks of `ScheduleJob`. -/
theorem leads_checks (m : JobMonitor) (job : Job) (unassigned : Nat → UInt32) (i : Nat) (osts : List Ost) :
    Leads (step limits) ⟨⟨m, ∅, ∅⟩, .checkOst job osts, .idle⟩
      (if checkOsts limits m.scheduleState job unassigned i osts then
        ⟨⟨m, ∅, ∅⟩, .addJob (job.setState .SCHEDULED), .idle⟩ else resting m) := by
  induction osts generalizing i with
  | nil => exact .cons (.server 0) (by simp [step, serverStep, checkOsts]) (.refl _)
  | cons ost osts ih =>
    rw [checkOsts, getMaxLoadInTimeInterval_eq]
    cases enough : areEnoughResAvail limits job ost (assumedLoad m.scheduleState ost (unassigned i)) with
    | false =>
      refine .cons (.server (unassigned i)) ?_ (.refl _)
      simp [step, serverStep, getMaxLoadInTimeInterval_eq, enough, resting]
    | true =>
      have first : step limits ⟨⟨m, ∅, ∅⟩, .checkOst job (ost :: osts), .idle⟩ (.server (unassigned i)) =
          some ⟨⟨m, ∅, ∅⟩, .checkOst job osts, .idle⟩ := by
        simp [step, serverStep, getMaxLoadInTimeInterval_eq, enough]
      refine .cons _ first ?_
      simpa [enough] using ih (i + 1)

/-- `ScheduleJob`, after the checks. -/
theorem leads_add (m : JobMonitor) (job : Job) :
    Leads (step limits) ⟨⟨m, ∅, ∅⟩, .addJob (job.setState .SCHEDULED), .idle⟩
      (resting (if m.scheduleState.jobOf job.jobid = none then scheduled m job else m)) := by
  by_cases fresh : m.scheduleState.jobOf job.jobid = none
  · have added : (m.scheduleState.addJob job.jobid (job.setState .SCHEDULED) job.osts).1 = true :=
      (addJob_accepts m.scheduleState job.jobid).2 fresh
    refine .cons (.server 0) (by simp [step, serverStep, added]; rfl) (.cons (.server 0) ?_ (.refl _))
    simp [step, serverStep, registerJob, resting, scheduled, fresh, reservationOf_addJob m.scheduleState fresh]
  · have present : job.jobid ∈ m.scheduleState.jobs := by simpa [jobOf_eq_none] using fresh
    refine .cons (.server 0) ?_ (.refl _)
    simp [step, serverStep, resting, fresh, addJob_of_mem m.scheduleState job.jobid present]

/-! ## The operations -/

/-- **One operation**, from a resting state to a resting state. -/
theorem leads_apply (m : JobMonitor) (op : PlannerOp) :
    Leads (step limits) (resting m) (resting (op.apply limits m)) := by
  cases op with
  | scheduleJob job unassigned =>
    refine .cons (.reserve job) rfl ?_
    have checks := leads_checks limits m job unassigned 0 job.osts
    rcases scheduleJob_cases limits unassigned m job with ⟨room, fresh, result⟩ | ⟨refused, result⟩
    · rw [room, if_pos rfl] at checks
      have add := leads_add limits m job
      rw [if_pos fresh] at add
      rw [PlannerOp.apply, result]
      exact checks.trans add
    · rw [PlannerOp.apply, result]
      split at checks
      · rename_i room
        have add := leads_add limits m job
        rw [if_neg fun fresh => refused ⟨room, fresh⟩] at add
        exact checks.trans add
      · exact checks
  | serveJobRemove request => exact .cons (.delete request) rfl (leads_delete limits m request.id)
  | removeJob jobid =>
    rcases removeJob_cases m jobid with ⟨-, result⟩ | ⟨-, result⟩
    · rw [PlannerOp.apply, result]
      exact .cons (.delete ⟨[jobid], false⟩) rfl (leads_delete limits m [jobid])
    · rw [PlannerOp.apply, result]
      exact .refl _
  | monitor now env =>
    rw [PlannerOp.apply]
    rcases m.monitorIteration_cases env now with ⟨wt, queue, popped, ready, result⟩ | ⟨-, result⟩
    · rw [result]
      have isReady : m.jobPriorityQueue.isThereAReadyJob now = true := by
        simpa [isThereAReadyJob, (items_pop popped).1] using ready
      have pops : step limits (resting m) (.pop now) =
          some ⟨⟨{ m with jobPriorityQueue := queue }, ∅, ∅⟩, .idle, .handle wt now .block⟩ := by
        simp [step, resting, isReady, popped]
      have handles := handle_uninterrupted env wt.jobid Thread.monitor wt.eventType
        ⟨{ m with jobPriorityQueue := queue }, ∅, ∅⟩ (Finset.notMem_empty _)
      exact .cons _ pops (leads_handle limits now env handles rfl fun _ => Finset.notMem_empty _)
    · rw [result]
      exact .refl _

/-- **Every run of the planner is an interleaving.** -/
theorem planner_run_is_interleaving (ops : List PlannerOp) :
    ∃ labels, exec (step limits) init labels = some (resting (run limits .empty ops)) := by
  suffices ∀ m, Leads (step limits) (resting m) (resting (run limits m ops)) from this .empty
  induction ops with
  | nil => exact fun m => .refl _
  | cons op ops ih => exact fun m => (leads_apply limits m op).trans (ih _)

end System

end QosPlanner
