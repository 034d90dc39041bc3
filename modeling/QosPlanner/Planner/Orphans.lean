import QosPlanner.Planner.Operations

/-!
# Jobs without an event

A stored job is moved on by the event queued for it: its start while it is SCHEDULED,
its stop while it is ACTIVE. `StartJob` uses up the start event, and when the rules of
the job cannot be set it returns without queueing another one. The job then stays in
the schedule, SCHEDULED, and keeps its bandwidth until it is deleted by name.

That is the only way to lose an event: `every_job_has_its_event_iff`.
-/

namespace QosPlanner
set_option autoImplicit false

open MemoryScheduleState JobPriorityQueue

/-- Each stored job has exactly one queued event, the one that is due for it, and every
queued event is one of a stored job. -/
structure NoOrphan (m : JobMonitor) : Prop where
  pending : ∀ (id : JobId) (job : Job), m.scheduleState.jobOf id = some job →
    ∃ wt, m.jobPriorityQueue.itemsOf id = {wt} ∧ IsDue job wt
  alive : ∀ wt ∈ m.jobPriorityQueue.items, ∃ job, m.scheduleState.jobOf wt.jobid = some job

/-- An iteration of the monitor that takes a start event takes it for a job whose rules
can be set: it has an OST, its OSTs have addresses, and the servers accept the rules. -/
def StartsSettable (m : JobMonitor) : PlannerOp → Prop
  | .monitor now env => ∀ (wt : WaitingItem) (queue : JobPriorityQueue) (job : Job),
      m.jobPriorityQueue.pop = some (wt, queue) → wt.timeOfEvent < now → wt.eventType = .JOBSTART →
      m.scheduleState.jobOf wt.jobid = some job →
      CanSetRules env job.osts wt.jobid job.minReadThroughputMB
  | _ => True

theorem noOrphan_empty : NoOrphan JobMonitor.empty where
  pending := by simp [JobMonitor.empty]
  alive := by simp [JobMonitor.empty]

/-- In a coherent state an orphan is a job without any event. -/
theorem noOrphan_iff {m : JobMonitor} (coherent : Coherent m) :
    NoOrphan m ↔ ∀ id, (m.view id).job ≠ none → (m.view id).events ≠ 0 := by
  constructor
  · intro fine id stored
    obtain ⟨job, stored⟩ := Option.ne_none_iff_exists'.1 stored
    obtain ⟨wt, events, -⟩ := fine.pending id job stored
    show m.jobPriorityQueue.itemsOf id ≠ 0
    rw [events]
    exact Multiset.singleton_ne_zero wt
  · intro attended
    constructor
    · intro id job stored
      have legal := coherent id
      have events := attended id
      have here : (m.view id).job = some job := stored
      show ∃ wt, (m.view id).events = {wt} ∧ IsDue job wt
      generalize m.view id = v at *
      cases legal with
      | free => cases here
      | waiting state event time => cases here; exact ⟨_, rfl, Or.inl ⟨state, event, time⟩⟩
      | started state event time => cases here; exact ⟨_, rfl, Or.inr ⟨state, event, time⟩⟩
      | stranded => exact absurd rfl (events (by simp))
    · intro wt queued
      have legal := coherent wt.jobid
      have member : wt ∈ (m.view wt.jobid).events := mem_itemsOf.2 ⟨queued, rfl⟩
      show ∃ job, (m.view wt.jobid).job = some job
      generalize m.view wt.jobid = v at *
      cases legal with
      | free => simp at member
      | waiting => exact ⟨_, rfl⟩
      | started => exact ⟨_, rfl⟩
      | stranded => simp at member

/-- One operation orphans no job iff it starts none whose rules cannot be set. -/
theorem noOrphan_apply_iff (limits : Limits) {m : JobMonitor} (op : PlannerOp) (coherent : Coherent m)
    (fine : NoOrphan m) : NoOrphan (op.apply limits m) ↔ StartsSettable m op := by
  rw [noOrphan_iff (coherent_apply limits op coherent)]
  rw [noOrphan_iff coherent] at fine
  cases op with
  | scheduleJob job unassigned =>
    refine iff_of_true (fun id => ?_) trivial
    rcases view_scheduleJob limits unassigned job coherent with same | ⟨⟨start, -, view⟩, others⟩
    · simpa only [PlannerOp.apply, same] using fine id
    · by_cases named : id = job.jobid
      · subst named
        simp [PlannerOp.apply, view]
      · simpa only [PlannerOp.apply, others id named] using fine id
  | serveJobRemove request =>
    refine iff_of_true (fun id => ?_) trivial
    rw [PlannerOp.apply, view_serveJobRemove coherent]
    split
    · simp
    · exact fine id
  | removeJob jobid =>
    refine iff_of_true (fun id => ?_) trivial
    rcases view_removeJob coherent jobid id with same | ⟨-, freed⟩
    · simpa only [PlannerOp.apply, same] using fine id
    · simp [PlannerOp.apply, freed]
  | monitor now env =>
    simp only [PlannerOp.apply, StartsSettable]
    cases coherent.monitorIteration env now with
    | idle waits same =>
      refine iff_of_true (fun id => ?_) fun wt queue job popped ready => absurd ready (waits wt queue popped)
      rw [same]
      exact fine id
    | stopped wt queue popped _ event view others =>
      refine iff_of_true (fun id => ?_) fun wt' queue' job popped' _ start => ?_
      · by_cases named : id = wt.jobid
        · simp [named, view]
        · rw [others id named]
          exact fine id
      · rw [popped'] at popped
        cases popped
        rw [event] at start
        cases start
    | started wt stop queue job rule popped _ _ stored settable _ view others =>
      refine iff_of_true (fun id => ?_) fun wt' queue' job' popped' _ _ stored' => ?_
      · by_cases named : id = wt.jobid
        · simp [named, view]
        · rw [others id named]
          exact fine id
      · rw [popped'] at popped
        cases popped
        rw [stored'] at stored
        cases stored
        exact settable
    | stranded wt queue job popped ready event stored _ refused view _ =>
      refine iff_of_false (fun attended => ?_) fun settable => ?_
      · exact attended wt.jobid (by simp [view]) (by simp [view])
      · exact refused (settable wt queue job popped ready event stored)

/-- **When no job is orphaned.** Over any run, every stored job has exactly its next event
queued, and every queued event its job, in every state reached iff no start event is
handled for a job whose rules cannot be set. The queue is that of the code while it holds
fewer than `2^31` items. -/
theorem every_job_has_its_event_iff (limits : Limits) (ops : List PlannerOp) :
    Run.Always (PlannerOp.apply limits) NoOrphan JobMonitor.empty ops ↔
      Run.EachStep (PlannerOp.apply limits) StartsSettable JobMonitor.empty ops :=
  Run.always_iff_eachStep (fun _ op coherent => coherent_apply limits op coherent)
    (fun _ op coherent fine => noOrphan_apply_iff limits op coherent fine) coherent_empty noOrphan_empty

/-- A job whose server refuses the rule is left behind without an event. -/
theorem refused_rule_orphans_job :
    ¬ Run.Always (PlannerOp.apply ((∅ : Limits).insert "OST_a" 100)) NoOrphan JobMonitor.empty
      [.scheduleJob ⟨.INITIALIZED, "foo", 0, 10, ["OST_a"], 42⟩ (fun _ => 0),
        .monitor 1 ⟨fun _ => "uuid", fun _ => "10.0.0.1", fun _ _ _ _ => false, fun _ _ _ => true⟩] := by
  rintro ⟨-, -, fine⟩
  obtain ⟨wt, events, -⟩ := fine.pending "foo" ⟨.SCHEDULED, "foo", 0, 10, ["OST_a"], 42⟩ (by decide +kernel)
  have none := congrArg Multiset.card events
  rw [Multiset.card_singleton] at none
  revert none
  decide +kernel

end QosPlanner
