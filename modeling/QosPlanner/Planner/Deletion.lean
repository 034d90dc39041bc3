import QosPlanner.Planner.Operations

/-!
# What a delete request leaves behind

`UnregisterJob` takes at most one event of the job from the queue and removes its rule
only while the job is ACTIVE. Over runs whose operations do not overlap that is enough,
since an id never has more than one event, and no rule unless its job is ACTIVE.

A delete request also has a flag, `all`, "signals to delete every single resource
reservation". `ServeJobRemove` does not read it: such a request deletes the ids it lists.
-/

namespace QosPlanner
set_option autoImplicit false

open MemoryScheduleState JobPriorityQueue RuleManager

/-- **A delete request leaves no trace and touches nothing else.** After any run, the ids
it names are gone from the schedule, the queue and the rules, and every other id keeps its
job, its events and its rule. Of the queue this speaks while it holds fewer than `2^31`
items. -/
theorem delete_leaves_no_trace (limits : Limits) (ops : List PlannerOp) (ids : List JobId) :
    let before := run limits .empty ops
    let after := (serveJobRemove before ⟨ids, false⟩).2
    (∀ id ∈ ids, id ∉ after.scheduleState.jobs ∧ (∀ wt ∈ after.jobPriorityQueue.items, wt.jobid ≠ id) ∧
      id ∉ after.ruleManager.activeRules) ∧
    ∀ id, id ∉ ids →
      after.scheduleState.jobOf id = before.scheduleState.jobOf id ∧
      after.jobPriorityQueue.itemsOf id = before.jobPriorityQueue.itemsOf id ∧
      after.ruleManager.ruleOf id = before.ruleManager.ruleOf id := by
  intro before after
  have view := view_serveJobRemove (coherent_run limits ops) ⟨ids, false⟩
  constructor
  · intro id named
    have freed : after.view id = ⟨none, 0, none⟩ := (view id).trans (if_pos named)
    refine ⟨?_, ?_, ?_⟩
    · exact (jobOf_eq_none _ _).1 (congrArg JobView.job freed)
    · intro wt queued carries
      have events : after.jobPriorityQueue.itemsOf id = 0 := congrArg JobView.events freed
      exact Multiset.notMem_zero wt (events ▸ mem_itemsOf.2 ⟨queued, carries⟩)
    · exact (ruleOf_eq_none _ _).1 (congrArg JobView.rule freed)
  · intro id other
    have same : after.view id = before.view id := (view id).trans (if_neg other)
    exact ⟨congrArg JobView.job same, congrArg JobView.events same, congrArg JobView.rule same⟩

/-! ## Delete all -/

/-- No job is stored, no event queued and no rule active. -/
structure Cleared (m : JobMonitor) : Prop where
  jobs : ∀ id, id ∉ m.scheduleState.jobs
  events : m.jobPriorityQueue.items = 0
  rules : ∀ id, id ∉ m.ruleManager.activeRules

/-- Nothing is left when every id is free. -/
theorem cleared_iff (m : JobMonitor) : Cleared m ↔ ∀ id, m.view id = ⟨none, 0, none⟩ := by
  constructor
  · intro cleared id
    ext1
    · exact (jobOf_eq_none _ id).2 (cleared.jobs id)
    · show m.jobPriorityQueue.items.filter _ = 0
      rw [cleared.events, Multiset.filter_zero]
    · exact (ruleOf_eq_none _ id).2 (cleared.rules id)
  · intro free
    refine ⟨fun id => ?_, Multiset.eq_zero_of_forall_notMem fun wt queued => ?_, fun id => ?_⟩
    · exact (jobOf_eq_none _ id).1 (congrArg JobView.job (free id))
    · have events : m.jobPriorityQueue.itemsOf wt.jobid = 0 := congrArg JobView.events (free wt.jobid)
      exact Multiset.notMem_zero wt (events ▸ mem_itemsOf.2 ⟨queued, rfl⟩)
    · exact (ruleOf_eq_none _ id).1 (congrArg JobView.rule (free id))

/-- An id without a job has neither an event nor a rule. -/
theorem Coherent.free_of_not_mem {m : JobMonitor} (coherent : Coherent m) {id : JobId}
    (absent : id ∉ m.scheduleState.jobs) : m.view id = ⟨none, 0, none⟩ := by
  have job : (m.view id).job = none := (jobOf_eq_none _ id).2 absent
  have legal := coherent id
  generalize m.view id = v at *
  cases legal with
  | free => rfl
  | waiting => cases job
  | started => cases job
  | stranded => cases job

/-- **When delete-all deletes everything.** After any run, a delete request with the flag
`all` leaves nothing behind iff it lists every id that is stored. Of the queue this speaks
while it holds fewer than `2^31` items. -/
theorem delete_all_clears_iff (limits : Limits) (ops : List PlannerOp) (ids : List JobId) :
    Cleared (serveJobRemove (run limits .empty ops) ⟨ids, true⟩).2 ↔
      ∀ id ∈ (run limits .empty ops).scheduleState.jobs, id ∈ ids := by
  have coherent := coherent_run limits ops
  have view := view_serveJobRemove coherent ⟨ids, true⟩
  rw [cleared_iff]
  constructor
  · intro free id stored
    by_contra unlisted
    have kept : (run limits .empty ops).view id = ⟨none, 0, none⟩ := by
      rw [← free id, view id, if_neg unlisted]
    exact (jobOf_eq_none _ id).1 (congrArg JobView.job kept) stored
  · intro listed id
    rw [view id]
    split
    · rfl
    · rename_i unlisted
      exact coherent.free_of_not_mem fun stored => unlisted (listed id stored)

/-- One job is stored, and the request lists no id. -/
theorem delete_all_leaves_job :
    ¬ Cleared (serveJobRemove (run ((∅ : Limits).insert "OST_a" 100) .empty
      [.scheduleJob ⟨.INITIALIZED, "foo", 0, 10, ["OST_a"], 42⟩ (fun _ => 0)]) ⟨[], true⟩).2 := by
  intro cleared
  refine cleared.jobs "foo" ?_
  decide +kernel

end QosPlanner
