import QosPlanner.Planner.Listing
import QosPlanner.Planner.Orphans
import QosPlanner.Planner.Overcommit

/-!
# Starting the monitor

`Init` (`src/common/JobMonitor.cpp`) queues the due event of every stored job before it
starts the thread. On a new monitor this makes up for whatever the queue of the old one
has lost: a job that was left behind SCHEDULED without an event gets its start event back
(`init_restores`). But the queue is filled before the test of `monitor_thread_started_`,
so a second call, which returns false, has queued all the events once more.
-/

namespace QosPlanner
set_option autoImplicit false

open MemoryScheduleState JobPriorityQueue

namespace JobMonitor

/-- `FillWithExistingJobs`. -/
def fillWithExistingJobs (m : JobMonitor) : JobMonitor where
  scheduleState := m.scheduleState
  jobPriorityQueue := m.scheduleState.getAllJobs.foldl (fun queue (id, job) =>
    match job.state with
    | .SCHEDULED => queue.push ⟨job.jobid, job.tstart, .JOBSTART, reservationOf m.scheduleState id⟩
    | .ACTIVE => queue.push ⟨job.jobid, job.tend, .JOBSTOP, reservationOf m.scheduleState id⟩
    | .INITIALIZED => queue
    | .DONE => queue) m.jobPriorityQueue
  ruleManager := m.ruleManager

/-- `Init`: the result, and `monitor_thread_started_` after it. -/
def init (m : JobMonitor) (monitorThreadStarted : Bool) : Bool × Bool × JobMonitor :=
  let m := m.fillWithExistingJobs
  if !monitorThreadStarted then (true, true, m) else (false, monitorThreadStarted, m)

theorem init_eq (m : JobMonitor) (started : Bool) : m.init started = (!started, true, m.fillWithExistingJobs) := by
  cases started <;> rfl

end JobMonitor

/-! ## What is queued -/

/-- The event queued for a stored job. -/
def dueEvent (s : MemoryScheduleState) (id : JobId) (job : Job) : Option WaitingItem :=
  match job.state with
  | .SCHEDULED => some ⟨job.jobid, job.tstart, .JOBSTART, reservationOf s id⟩
  | .ACTIVE => some ⟨job.jobid, job.tend, .JOBSTOP, reservationOf s id⟩
  | _ => none

theorem isDue_dueEvent {s : MemoryScheduleState} {id : JobId} {job : Job} {wt : WaitingItem}
    (due : dueEvent s id job = some wt) : IsDue job wt ∧ wt.jobid = job.jobid := by
  unfold dueEvent at due
  split at due <;> cases due
  · exact ⟨Or.inl ⟨‹_›, rfl, rfl⟩, rfl⟩
  · exact ⟨Or.inr ⟨‹_›, rfl, rfl⟩, rfl⟩

/-- The loop queues the due events, whatever the queue holds. -/
theorem items_fill (m : JobMonitor) : m.fillWithExistingJobs.jobPriorityQueue.items =
    ↑(m.scheduleState.getAllJobs.filterMap fun entry => dueEvent m.scheduleState entry.1 entry.2) +
      m.jobPriorityQueue.items := by
  simp only [JobMonitor.fillWithExistingJobs]
  generalize m.jobPriorityQueue = queue
  induction m.scheduleState.getAllJobs generalizing queue with
  | nil => simp
  | cons entry rest ih =>
    obtain ⟨id, job⟩ := entry
    rw [List.foldl_cons, ih, List.filterMap_cons]
    cases state : job.state <;>
      simp [dueEvent, state, items_push, ← Multiset.cons_coe, Multiset.cons_add, Multiset.add_cons]

/-- The entry of a stored job in the list of all jobs. -/
theorem filter_getAllJobs {s : MemoryScheduleState} {id : JobId} {job : Job} (stored : s.jobOf id = some job) :
    s.getAllJobs.filter (·.1 = id) = [(id, job)] := by
  have only : ∀ entry ∈ s.getAllJobs.filter (·.1 = id), entry = (id, job) := by
    intro entry member
    obtain ⟨listed, named⟩ := List.mem_filter.1 member
    obtain ⟨key, job'⟩ := entry
    obtain rfl : key = id := of_decide_eq_true named
    rw [mem_getAllJobs, stored] at listed
    cases listed
    rfl
  have once := (getAllJobs_ascending s).sublist (List.filter_sublist (p := (·.1 = id)))
  have there : (id, job) ∈ s.getAllJobs.filter (·.1 = id) :=
    List.mem_filter.2 ⟨mem_getAllJobs.2 stored, decide_eq_true rfl⟩
  cases entries : s.getAllJobs.filter (·.1 = id) with
  | nil => rw [entries] at there; cases there
  | cons first rest =>
    rw [entries] at only once
    cases rest with
    | nil => rw [only first List.mem_cons_self]
    | cons second rest =>
      have ordered := (List.pairwise_cons.1 once).1 second List.mem_cons_self
      rw [only first List.mem_cons_self, only second (by simp)] at ordered
      exact absurd ordered (lt_irrefl id)

/-- Every job is stored under its own id. -/
def KeyedById (s : MemoryScheduleState) : Prop := ∀ id job, s.jobOf id = some job → job.jobid = id

/-- The events queued for an id: the due event of the job that is stored there, if any. -/
theorem itemsOf_fill {m : JobMonitor} (keyed : KeyedById m.scheduleState) (id : JobId) :
    m.fillWithExistingJobs.jobPriorityQueue.itemsOf id =
      ((m.scheduleState.jobOf id).bind (dueEvent m.scheduleState id)).elim 0 ({·}) +
        m.jobPriorityQueue.itemsOf id := by
  have own : ∀ entry ∈ m.scheduleState.getAllJobs, ∀ wt, dueEvent m.scheduleState entry.1 entry.2 = some wt →
      wt.jobid = entry.1 := by
    intro entry listed wt due
    rw [(isDue_dueEvent due).2]
    exact keyed entry.1 entry.2 (mem_getAllJobs.1 listed)
  have pulled : ∀ entries : List (JobId × Job), (∀ entry ∈ entries, entry ∈ m.scheduleState.getAllJobs) →
      (entries.filterMap fun entry => dueEvent m.scheduleState entry.1 entry.2).filter (·.jobid = id) =
        (entries.filter (·.1 = id)).filterMap fun entry => dueEvent m.scheduleState entry.1 entry.2 := by
    intro entries listed
    induction entries with
    | nil => rfl
    | cons entry rest ih =>
      obtain ⟨here, listed⟩ := List.forall_mem_cons.1 listed
      by_cases named : entry.1 = id
      · subst named
        cases due : dueEvent m.scheduleState entry.1 entry.2 with
        | none => simp [due, ih listed]
        | some wt => simp [due, own entry here wt due, ih listed]
      · cases due : dueEvent m.scheduleState entry.1 entry.2 with
        | none => simp [due, named, ih listed]
        | some wt => simp [due, named, own entry here wt due, ih listed]
  rw [itemsOf, items_fill, Multiset.filter_add, Multiset.filter_coe, pulled _ fun _ listed => listed]
  congr 1
  cases stored : m.scheduleState.jobOf id with
  | none =>
    have absent : m.scheduleState.getAllJobs.filter (·.1 = id) = [] := by
      refine List.filter_eq_nil_iff.2 fun entry listed named => ?_
      have there := mem_getAllJobs.1 listed
      rw [of_decide_eq_true named, stored] at there
      cases there
    simp [absent]
  | some job =>
    rw [filter_getAllJobs stored]
    cases due : dueEvent m.scheduleState id job <;> simp [due]

/-! ## After a run -/

theorem KeyedById.shrinks {s s' : MemoryScheduleState} (keyed : KeyedById s) (shrinks : Shrinks s s') :
    KeyedById s' := by
  intro id job' stored
  obtain ⟨job, st, before, rfl⟩ := shrinks.jobs id job' stored
  exact keyed id job before

theorem keyedById_apply (limits : Limits) {m : JobMonitor} (op : PlannerOp) (keyed : KeyedById m.scheduleState) :
    KeyedById (op.apply limits m).scheduleState := by
  cases op with
  | scheduleJob job unassigned =>
    rcases scheduleJob_cases limits unassigned m job with ⟨-, fresh, result⟩ | ⟨-, result⟩
    · intro id other stored
      simp only [PlannerOp.apply, result, jobOf_scheduled fresh] at stored
      split at stored
      · cases stored
        assumption
      · exact keyed id other stored
    · simp only [PlannerOp.apply, result]
      exact keyed
  | serveJobRemove request => exact keyed.shrinks (shrinks_serveJobRemove m request)
  | removeJob jobid => exact keyed.shrinks (shrinks_scheduler_removeJob m jobid)
  | monitor now env => exact keyed.shrinks (shrinks_monitorIteration m env now)

theorem keyedById_run (limits : Limits) (ops : List PlannerOp) : KeyedById (run limits .empty ops).scheduleState := by
  have start : KeyedById JobMonitor.empty.scheduleState := by simp [KeyedById, JobMonitor.empty]
  unfold run
  induction ops using List.reverseRecOn with
  | nil => exact start
  | append_singleton ops op ih =>
    rw [List.foldl_append]
    exact keyedById_apply limits op ih

/-- A stored job has a due event. -/
theorem Coherent.due {m : JobMonitor} (coherent : Coherent m) {id : JobId} {job : Job}
    (stored : m.scheduleState.jobOf id = some job) : ∃ wt, dueEvent m.scheduleState id job = some wt := by
  have legal := coherent id
  have here : (m.view id).job = some job := stored
  generalize m.view id = v at *
  cases legal with
  | free => cases here
  | waiting state => cases here; exact ⟨_, by rw [dueEvent, state]⟩
  | started state => cases here; exact ⟨_, by rw [dueEvent, state]⟩
  | stranded state => cases here; exact ⟨_, by rw [dueEvent, state]⟩

/-- The monitor that is started anew on the schedule and the rules. -/
def restarted (m : JobMonitor) : JobMonitor := { m with jobPriorityQueue := .empty }

/-- Filling the new queue leaves every id in order, and none without its event. -/
theorem coherent_fill {m : JobMonitor} (coherent : Coherent m) (keyed : KeyedById m.scheduleState) :
    Coherent (restarted m).fillWithExistingJobs ∧ NoOrphan (restarted m).fillWithExistingJobs := by
  have events (id : JobId) : (restarted m).fillWithExistingJobs.view id =
      ⟨(m.view id).job, ((m.view id).job.bind (dueEvent m.scheduleState id)).elim 0 ({·}), (m.view id).rule⟩ := by
    refine JobView.ext rfl ?_ rfl
    have filled := itemsOf_fill (m := restarted m) keyed id
    rw [show (restarted m).jobPriorityQueue = .empty from rfl, itemsOf_empty, add_zero] at filled
    exact filled
  have legal : Coherent (restarted m).fillWithExistingJobs := by
    intro id
    have before := coherent id
    rw [events]
    generalize m.view id = v at *
    cases before with
    | free => exact .free
    | waiting state => simpa [dueEvent, state] using JobView.Legal.waiting state rfl rfl
    | started state => simpa [dueEvent, state] using JobView.Legal.started state rfl rfl
    | stranded state => simpa [dueEvent, state] using JobView.Legal.waiting state rfl rfl
  refine ⟨legal, (noOrphan_iff legal).2 fun id stored => ?_⟩
  rw [events] at stored ⊢
  obtain ⟨job, stored⟩ := Option.ne_none_iff_exists'.1 stored
  obtain ⟨wt, due⟩ := coherent.due stored
  dsimp only at stored ⊢
  rw [stored, Option.bind_some, due]
  exact Multiset.singleton_ne_zero wt

/-- **`Init` restores the events, and a second `Init` doubles them.** After any run, a monitor
started anew on the schedule has queued the due event of every stored job and nothing else,
and over every further run no job loses its event iff none is started whose rules cannot be
set. `Init` of a monitor that is running returns false, and queues the due event of every
stored job once more. The queue is that of the code while it holds fewer than `2^31` items. -/
theorem init_restores (limits : Limits) (ops : List PlannerOp) :
    let m := run limits .empty ops
    (((restarted m).init false).1 = true ∧ NoOrphan ((restarted m).init false).2.2 ∧
      ∀ further, Run.Always (PlannerOp.apply limits) NoOrphan ((restarted m).init false).2.2 further ↔
        Run.EachStep (PlannerOp.apply limits) StartsSettable ((restarted m).init false).2.2 further) ∧
    (m.init true).1 = false ∧
      ∀ id job, m.scheduleState.jobOf id = some job → ∃ wt, IsDue job wt ∧ wt.jobid = id ∧
        (m.init true).2.2.jobPriorityQueue.itemsOf id = wt ::ₘ m.jobPriorityQueue.itemsOf id := by
  intro m
  have coherent : Coherent m := coherent_run limits ops
  have keyed : KeyedById m.scheduleState := keyedById_run limits ops
  obtain ⟨legal, attended⟩ := coherent_fill coherent keyed
  refine ⟨⟨rfl, attended, fun further => ?_⟩, rfl, fun id job stored => ?_⟩
  · exact Run.always_iff_eachStep (fun _ op coherent => coherent_apply limits op coherent)
      (fun _ op coherent fine => noOrphan_apply_iff limits op coherent fine) legal attended
  · obtain ⟨wt, due⟩ := coherent.due stored
    obtain ⟨isDue, carries⟩ := isDue_dueEvent due
    refine ⟨wt, isDue, carries.trans (keyed id job stored), ?_⟩
    show m.fillWithExistingJobs.jobPriorityQueue.itemsOf id = _
    rw [itemsOf_fill keyed, stored, Option.bind_some, due]
    exact Multiset.singleton_add wt _

/-- A job whose server refused the rule has no event left, and gets its start event back. -/
theorem init_restores_refused_job :
    let m := run ((∅ : Limits).insert "OST_a" 100) .empty
      [.scheduleJob ⟨.INITIALIZED, "foo", 0, 10, ["OST_a"], 42⟩ (fun _ => 0),
        .monitor 1 ⟨fun _ => "uuid", fun _ => "10.0.0.1", fun _ _ _ _ => false, fun _ _ _ => true⟩]
    m.jobPriorityQueue.heap = #[] ∧ NoOrphan ((restarted m).init false).2.2 ∧
      ∃ wt, IsDue ⟨.SCHEDULED, "foo", 0, 10, ["OST_a"], 42⟩ wt ∧
        (m.init true).2.2.jobPriorityQueue.itemsOf "foo" = {wt} := by
  intro m
  have none : m.jobPriorityQueue.heap = #[] := by decide +kernel
  have stored : m.scheduleState.jobOf "foo" = some ⟨.SCHEDULED, "foo", 0, 10, ["OST_a"], 42⟩ := by decide +kernel
  obtain ⟨⟨-, attended, -⟩, -, again⟩ := init_restores ((∅ : Limits).insert "OST_a" 100)
    [.scheduleJob ⟨.INITIALIZED, "foo", 0, 10, ["OST_a"], 42⟩ (fun _ => 0),
      .monitor 1 ⟨fun _ => "uuid", fun _ => "10.0.0.1", fun _ _ _ _ => false, fun _ _ _ => true⟩]
  obtain ⟨wt, due, -, events⟩ := again "foo" _ stored
  refine ⟨none, attended, wt, due, events.trans ?_⟩
  show wt ::ₘ m.jobPriorityQueue.itemsOf "foo" = {wt}
  simp [itemsOf, items, none]

end QosPlanner
