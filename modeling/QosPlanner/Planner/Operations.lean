import QosPlanner.Run.Always
import QosPlanner.Rpc.Message
import QosPlanner.Scheduler.StaticWorkloads

/-!
# Runs of the planner, one operation at a time

The planner's operations, each complete before the next one starts. What an operation
does to one job id is read off the three components at once: `JobView` is the stored
job, the queued events and the rule of an id. The life of an id is then a small machine,
`JobView.Legal`: free; waiting for its start; started, with a rule, waiting for its stop;
or stranded, still SCHEDULED but with no event left to start it. Every operation keeps
every id in one of these four (`legal_apply`).
-/

namespace QosPlanner
set_option autoImplicit false

open MemoryScheduleState JobPriorityQueue RuleManager JobMonitor

/-- The loop body of `ServeJobRemove`; neither result is used. -/
def deleteJob (m : JobMonitor) (jobid : JobId) : JobMonitor :=
  let m := (m.unregisterJob jobid).2
  { m with scheduleState := (m.scheduleState.removeJob jobid).2 }

/-- `ServeJobRemove`: the value given to `set_rc`, and the state after it. -/
def serveJobRemove (m : JobMonitor) (request : Rpc.DeleteRequest) : Int × JobMonitor :=
  (0, request.id.foldl deleteJob m)

/-- The operations of a run. -/
inductive PlannerOp where
  | scheduleJob (job : Job) (unassigned : Nat → UInt32)
  | serveJobRemove (request : Rpc.DeleteRequest)
  | removeJob (jobid : JobId)
  | monitor (now : TimePoint) (env : RemoteEnv)

/-- The state after an operation. -/
def PlannerOp.apply (limits : Limits) (m : JobMonitor) : PlannerOp → JobMonitor
  | .scheduleJob job unassigned => (QosPlanner.scheduleJob limits unassigned m job).2
  | .serveJobRemove request => (QosPlanner.serveJobRemove m request).2
  | .removeJob jobid => (QosPlanner.removeJob m jobid).2
  | .monitor now env => m.monitorIteration env now

/-! ## The view of one id -/

/-- What the three components hold under one id. -/
@[ext]
structure JobView where
  job : Option Job
  events : Multiset WaitingItem
  rule : Option RuleDefinition

/-- The view of an id. -/
def JobMonitor.view (m : JobMonitor) (id : JobId) : JobView where
  job := m.scheduleState.jobOf id
  events := m.jobPriorityQueue.itemsOf id
  rule := m.ruleManager.ruleOf id

/-- The event is the next one of the job: its start if it is SCHEDULED, its stop if it
is ACTIVE. -/
def IsDue (job : Job) (wt : WaitingItem) : Prop :=
  job.state = .SCHEDULED ∧ wt.eventType = .JOBSTART ∧ wt.timeOfEvent = job.tstart ∨
    job.state = .ACTIVE ∧ wt.eventType = .JOBSTOP ∧ wt.timeOfEvent = job.tend

/-- The states an id goes through. -/
inductive JobView.Legal : JobView → Prop
  | free : Legal ⟨none, 0, none⟩
  | waiting {job : Job} {wt : WaitingItem} (state : job.state = .SCHEDULED)
      (event : wt.eventType = .JOBSTART) (time : wt.timeOfEvent = job.tstart) : Legal ⟨some job, {wt}, none⟩
  | started {job : Job} {wt : WaitingItem} {rule : RuleDefinition} (state : job.state = .ACTIVE)
      (event : wt.eventType = .JOBSTOP) (time : wt.timeOfEvent = job.tend) :
      Legal ⟨some job, {wt}, some rule⟩
  | stranded {job : Job} (state : job.state = .SCHEDULED) : Legal ⟨some job, 0, none⟩

section Effects

variable (m : JobMonitor) (jobid id : JobId)

@[simp] theorem view_empty : JobMonitor.empty.view id = ⟨none, 0, none⟩ := by
  simp [JobMonitor.view, JobMonitor.empty]

/-- An accepted reservation. -/
theorem view_scheduled {job : Job} (fresh : m.scheduleState.jobOf job.jobid = none) :
    (scheduled m job).view id =
      if job.jobid = id then
        ⟨some (job.setState .SCHEDULED),
          ⟨id, job.tstart, .JOBSTART, m.scheduleState.objects.length⟩ ::ₘ (m.view id).events, (m.view id).rule⟩
      else m.view id := by
  simp only [JobMonitor.view, scheduled, jobOf_addJob _ _ _ fresh, itemsOf_push]
  split
  · rename_i same; subst same; rfl
  · rfl

/-- A started job. -/
theorem view_started (job : Job) (rule : RuleDefinition) :
    (m.started jobid job rule).view id =
      if jobid = id then
        ⟨(m.view id).job.map (·.setState .ACTIVE),
          ⟨jobid, job.tend, .JOBSTOP, reservationOf m.scheduleState jobid⟩ ::ₘ (m.view id).events, some rule⟩
      else m.view id := by
  simp only [JobMonitor.view, started, jobOf_updateJob, itemsOf_push, ruleOf_insert]
  split <;> rfl

/-- The view of an id whose job is stopped, if it is ACTIVE, and taken from the schedule. -/
def JobView.dropped (v : JobView) : JobView where
  job := none
  events := v.events
  rule := if v.job.map (·.state) = some .ACTIVE then none else v.rule

/-- A job handled by its stop event. -/
theorem view_handle_stop (env : RemoteEnv) :
    (m.handle env jobid .JOBSTOP).view id = if jobid = id then (m.view id).dropped else m.view id := by
  rcases m.stopJob_cases jobid with ⟨⟨job, stored, active⟩, stop⟩ | ⟨inactive, stop⟩
  · simp only [JobMonitor.view, handle, stop, stopped, jobOf_removeJob, jobOf_updateJob, ruleOf_removeRules]
    split
    · rename_i same
      subst same
      simp [JobView.dropped, stored, active]
    · rfl
  · simp only [JobMonitor.view, handle, stop, jobOf_removeJob]
    split
    · rename_i same
      subst same
      have : (m.scheduleState.jobOf jobid).map (·.state) ≠ some .ACTIVE := by
        rw [Ne, Option.map_eq_some_iff]
        exact inactive
      simp [JobView.dropped, this]
    · rfl

/-- `UnregisterJob` takes an item of the job and goes through `StopJob`, whose own check
covers the one it makes before the call. -/
theorem unregisterJob_snd :
    (m.unregisterJob jobid).2 =
      ({ m with jobPriorityQueue := (m.jobPriorityQueue.remove jobid).2 }.stopJob jobid).2 := by
  rcases m.unregisterJob_cases jobid with ⟨active, unregister⟩ | ⟨inactive, unregister⟩ <;>
  rcases JobMonitor.stopJob_cases { m with jobPriorityQueue := (m.jobPriorityQueue.remove jobid).2 } jobid with
    ⟨active', stop⟩ | ⟨inactive', stop⟩
  · rw [unregister, stop]
  · exact absurd active inactive'
  · exact absurd active' inactive
  · rw [unregister, stop]

/-- So a delete handles a stop event that it first takes from the queue. -/
theorem deleteJob_eq (env : RemoteEnv) :
    deleteJob m jobid =
      { m with jobPriorityQueue := (m.jobPriorityQueue.remove jobid).2 }.handle env jobid .JOBSTOP := by
  simp only [deleteJob, unregisterJob_snd, handle]

/-- Only the named id is touched by a delete. -/
theorem view_deleteJob_of_ne (other : id ≠ jobid) : (deleteJob m jobid).view id = m.view id := by
  rw [deleteJob_eq m jobid default, view_handle_stop,
    if_neg (Ne.symm other)]
  simp only [JobMonitor.view, (itemsOf_remove m.jobPriorityQueue jobid id).2.2 other]

theorem JobView.Legal.events_card {v : JobView} (legal : v.Legal) : v.events.card ≤ 1 := by
  cases legal with
  | free => simp
  | waiting => simp
  | started => simp
  | stranded => simp

/-- Only an ACTIVE job has a rule, so a dropped job leaves none. -/
theorem JobView.Legal.dropped_rule {v : JobView} (legal : v.Legal) : v.dropped.rule = none := by
  cases legal with
  | free => simp [JobView.dropped]
  | waiting => simp [JobView.dropped]
  | started state => simp [JobView.dropped, state]
  | stranded => simp [JobView.dropped]

/-- A delete frees an id, whatever it holds. -/
theorem view_deleteJob_self (legal : (m.view jobid).Legal) : (deleteJob m jobid).view jobid = ⟨none, 0, none⟩ := by
  have emptied : ((m.jobPriorityQueue.remove jobid).2.itemsOf jobid) = 0 := by
    rw [← Multiset.card_eq_zero, (itemsOf_remove m.jobPriorityQueue jobid jobid).2.1 rfl]
    have : (m.jobPriorityQueue.itemsOf jobid).card ≤ 1 := legal.events_card
    omega
  rw [deleteJob_eq m jobid default, view_handle_stop, if_pos rfl]
  exact JobView.ext rfl emptied legal.dropped_rule

/-- Taking an item from the queue. -/
theorem view_pop {queue : JobPriorityQueue} {wt : WaitingItem}
    (popped : m.jobPriorityQueue.pop = some (wt, queue)) :
    m.view id = { JobMonitor.view { m with jobPriorityQueue := queue } id with
      events := if wt.jobid = id
        then wt ::ₘ (JobMonitor.view { m with jobPriorityQueue := queue } id).events
        else (JobMonitor.view { m with jobPriorityQueue := queue } id).events } :=
  JobView.ext rfl (itemsOf_pop popped id) rfl

end Effects

/-! ## The life of an id over a run -/

/-- Every id is in one of the four states. -/
def Coherent (m : JobMonitor) : Prop := ∀ id, (m.view id).Legal

theorem coherent_empty : Coherent JobMonitor.empty := by
  intro id
  rw [view_empty]
  exact .free

/-- The view of an id whose only event has just been taken from the queue. -/
inductive JobView.Popped (wt : WaitingItem) : JobView → Prop
  | start {job : Job} (state : job.state = .SCHEDULED) (event : wt.eventType = .JOBSTART)
      (time : wt.timeOfEvent = job.tstart) : Popped wt ⟨some job, 0, none⟩
  | stop {job : Job} {rule : RuleDefinition} (state : job.state = .ACTIVE) (event : wt.eventType = .JOBSTOP)
      (time : wt.timeOfEvent = job.tend) : Popped wt ⟨some job, 0, some rule⟩

theorem JobView.Legal.popped {v : JobView} {wt : WaitingItem} {events : Multiset WaitingItem}
    (legal : JobView.Legal { v with events := wt ::ₘ events }) : JobView.Popped wt { v with events } := by
  obtain ⟨job, _, rule⟩ := v
  generalize held : wt ::ₘ events = all at legal
  cases legal with
  | free => cases Multiset.zero_ne_cons held.symm
  | stranded => cases Multiset.zero_ne_cons held.symm
  | waiting state event time =>
    obtain ⟨rfl, rfl⟩ := (Multiset.singleton_eq_cons_iff _).1 held.symm
    exact .start state event time
  | started state event time =>
    obtain ⟨rfl, rfl⟩ := (Multiset.singleton_eq_cons_iff _).1 held.symm
    exact .stop state event time

section Steps

variable {m : JobMonitor}

/-- **What a popped item tells about its job.** It was the only event of its id, and the
one that is due; all other ids keep their view. -/
theorem Coherent.pop (coherent : Coherent m) {queue : JobPriorityQueue} {wt : WaitingItem}
    (popped : m.jobPriorityQueue.pop = some (wt, queue)) :
    JobView.Popped wt (JobMonitor.view { m with jobPriorityQueue := queue } wt.jobid) ∧
      ∀ id, id ≠ wt.jobid → JobMonitor.view { m with jobPriorityQueue := queue } id = m.view id := by
  constructor
  · have legal := coherent wt.jobid
    rw [view_pop m wt.jobid popped, if_pos rfl] at legal
    exact legal.popped
  · intro id other
    rw [view_pop m id popped, if_neg (Ne.symm other)]

/-- What an iteration of the monitor can do to the views. -/
inductive MonitorOutcome (m m' : JobMonitor) (env : RemoteEnv) (now : TimePoint) : Prop
  /-- No event is ready. -/
  | idle (waits : ∀ wt queue, m.jobPriorityQueue.pop = some (wt, queue) → ¬ wt.timeOfEvent < now) (same : m' = m)
  /-- A stop event frees its id. -/
  | stopped (wt : WaitingItem) (queue : JobPriorityQueue) (popped : m.jobPriorityQueue.pop = some (wt, queue))
      (ready : wt.timeOfEvent < now) (event : wt.eventType = .JOBSTOP)
      (view : m'.view wt.jobid = ⟨none, 0, none⟩) (others : ∀ id, id ≠ wt.jobid → m'.view id = m.view id)
  /-- A start event starts its job. -/
  | started (wt stop : WaitingItem) (queue : JobPriorityQueue) (job : Job) (rule : RuleDefinition)
      (popped : m.jobPriorityQueue.pop = some (wt, queue))
      (ready : wt.timeOfEvent < now) (event : wt.eventType = .JOBSTART)
      (stored : m.scheduleState.jobOf wt.jobid = some job)
      (settable : CanSetRules env job.osts wt.jobid job.minReadThroughputMB)
      (due : IsDue (job.setState .ACTIVE) stop)
      (view : m'.view wt.jobid = ⟨some (job.setState .ACTIVE), {stop}, some rule⟩)
      (others : ∀ id, id ≠ wt.jobid → m'.view id = m.view id)
  /-- A start event is used up, and its job stays as it is: the rules cannot be set. -/
  | stranded (wt : WaitingItem) (queue : JobPriorityQueue) (job : Job)
      (popped : m.jobPriorityQueue.pop = some (wt, queue))
      (ready : wt.timeOfEvent < now) (event : wt.eventType = .JOBSTART)
      (stored : m.scheduleState.jobOf wt.jobid = some job) (state : job.state = .SCHEDULED)
      (refused : ¬ CanSetRules env job.osts wt.jobid job.minReadThroughputMB)
      (view : m'.view wt.jobid = ⟨some job, 0, none⟩)
      (others : ∀ id, id ≠ wt.jobid → m'.view id = m.view id)

theorem Coherent.monitorIteration (coherent : Coherent m) (env : RemoteEnv) (now : TimePoint) :
    MonitorOutcome m (m.monitorIteration env now) env now := by
  rcases m.monitorIteration_cases env now with ⟨wt, queue, popped, ready, result⟩ | ⟨waits, same⟩
  · obtain ⟨took, others⟩ := coherent.pop popped
    rw [result]
    have stored : (JobMonitor.view { m with jobPriorityQueue := queue } wt.jobid).job =
      m.scheduleState.jobOf wt.jobid := rfl
    have rule : (JobMonitor.view { m with jobPriorityQueue := queue } wt.jobid).rule =
      m.ruleManager.ruleOf wt.jobid := rfl
    generalize view : JobMonitor.view { m with jobPriorityQueue := queue } wt.jobid = v at *
    cases took with
    | stop state event time =>
      rw [event]
      refine .stopped wt queue popped ready event ?_ fun id other => ?_
      · rw [view_handle_stop, if_pos rfl, view]
        simp [JobView.dropped, state]
      · rw [view_handle_stop, if_neg (Ne.symm other), others id other]
    | start state event time =>
      rename_i job
      rw [event]
      rcases JobMonitor.startJob_cases { m with jobPriorityQueue := queue } env wt.jobid with
        ⟨job', rule', can, -, -, start⟩ | ⟨cannot, start⟩
      · have same : job' = job := by
          have := can.stored
          simpa [← stored] using this.symm
        subst same
        refine .started wt ⟨wt.jobid, job'.tend, .JOBSTOP, reservationOf m.scheduleState wt.jobid⟩ queue job' rule'
          popped ready event stored.symm can.settable (Or.inr ⟨rfl, rfl, rfl⟩) ?_ fun id other => ?_
        · simp only [handle, start]
          rw [view_started, if_pos rfl, view]
          rfl
        · simp only [handle, start]
          rw [view_started, if_neg (Ne.symm other), others id other]
      · refine .stranded wt queue job popped ready event stored.symm state (fun settable => ?_) ?_ fun id other => ?_
        · exact cannot job ⟨stored.symm, state, by simpa [ruleOf_eq_none] using rule.symm, settable⟩
        · simp only [handle, start]
          exact view
        · simp only [handle, start]
          exact others id other
  · rw [same]
    refine .idle (fun wt queue popped => ?_) rfl
    simpa [isThereAReadyJob, (items_pop popped).1] using waits

/-- `ScheduleJob` fills a free id or has no effect. -/
theorem view_scheduleJob (limits : Limits) (unassigned : Nat → UInt32) (job : Job) (coherent : Coherent m) :
    (scheduleJob limits unassigned m job).2 = m ∨
    (∃ start : WaitingItem, IsDue (job.setState .SCHEDULED) start ∧
      (scheduleJob limits unassigned m job).2.view job.jobid = ⟨some (job.setState .SCHEDULED), {start}, none⟩) ∧
    ∀ id, id ≠ job.jobid → (scheduleJob limits unassigned m job).2.view id = m.view id := by
  rcases scheduleJob_cases limits unassigned m job with ⟨-, fresh, result⟩ | ⟨-, result⟩
  · right
    rw [result]
    have free : m.view job.jobid = ⟨none, 0, none⟩ := by
      have legal := coherent job.jobid
      have absent : (m.view job.jobid).job = none := fresh
      generalize m.view job.jobid = v at *
      cases legal with
      | free => rfl
      | waiting => cases absent
      | started => cases absent
      | stranded => cases absent
    refine ⟨⟨⟨job.jobid, job.tstart, .JOBSTART, m.scheduleState.objects.length⟩, Or.inl ⟨rfl, rfl, rfl⟩, ?_⟩,
      fun id other => ?_⟩
    · rw [view_scheduled m job.jobid fresh, if_pos rfl, free]
      rfl
    · rw [view_scheduled m id fresh, if_neg (Ne.symm other)]
  · exact Or.inl (by rw [result])

/-- **`ServeJobRemove`** frees the ids it names and touches no other id. -/
theorem view_serveJobRemove (coherent : Coherent m) (request : Rpc.DeleteRequest) (id : JobId) :
    (serveJobRemove m request).2.view id = if id ∈ request.id then ⟨none, 0, none⟩ else m.view id := by
  obtain ⟨ids, all⟩ := request
  show (ids.foldl deleteJob m).view id = _
  induction ids generalizing m with
  | nil => rfl
  | cons first rest ih =>
    have next : Coherent (deleteJob m first) := by
      intro other
      by_cases same : other = first
      · subst same
        rw [view_deleteJob_self m other (coherent other)]
        exact .free
      · rw [view_deleteJob_of_ne m first other same]
        exact coherent other
    rw [List.foldl_cons, ih next]
    by_cases same : id = first
    · subst same
      simp [view_deleteJob_self m id (coherent id)]
    · simp [view_deleteJob_of_ne m first id same, same]

/-- `RemoveJob` is a delete of an id that is stored. -/
theorem view_removeJob (coherent : Coherent m) (jobid id : JobId) :
    (removeJob m jobid).2.view id = m.view id ∨
      (id = jobid ∧ (removeJob m jobid).2.view id = ⟨none, 0, none⟩) := by
  rcases removeJob_cases m jobid with ⟨-, result⟩ | ⟨-, result⟩
  · rw [result]
    by_cases same : id = jobid
    · subst same
      exact Or.inr ⟨rfl, view_deleteJob_self m id (coherent id)⟩
    · exact Or.inl (view_deleteJob_of_ne m jobid id same)
  · exact Or.inl (by rw [result])

/-- **Every operation keeps every id in one of the four states.** -/
theorem coherent_apply (limits : Limits) (op : PlannerOp) (coherent : Coherent m) :
    Coherent (op.apply limits m) := by
  intro id
  cases op with
  | scheduleJob job unassigned =>
    rcases view_scheduleJob limits unassigned job coherent with same | ⟨⟨start, due, view⟩, others⟩
    · show JobView.Legal ((scheduleJob limits unassigned m job).2.view id)
      rw [same]
      exact coherent id
    · show JobView.Legal ((scheduleJob limits unassigned m job).2.view id)
      by_cases named : id = job.jobid
      · subst named
        rw [view]
        rcases due with ⟨state, event, time⟩ | ⟨active, -, -⟩
        · exact .waiting state event time
        · cases active
      · rw [others id named]
        exact coherent id
  | serveJobRemove request =>
    show JobView.Legal ((serveJobRemove m request).2.view id)
    rw [view_serveJobRemove coherent]
    split
    · exact .free
    · exact coherent id
  | removeJob jobid =>
    show JobView.Legal ((removeJob m jobid).2.view id)
    rcases view_removeJob coherent jobid id with same | ⟨-, freed⟩
    · rw [same]
      exact coherent id
    · rw [freed]
      exact .free
  | monitor now env =>
    show JobView.Legal ((m.monitorIteration env now).view id)
    cases coherent.monitorIteration env now with
    | idle _ same =>
      rw [same]
      exact coherent id
    | stopped wt _ _ _ _ view others =>
      by_cases named : id = wt.jobid
      · rw [named, view]
        exact .free
      · rw [others id named]
        exact coherent id
    | started wt _ _ _ _ _ _ _ _ _ due view others =>
      by_cases named : id = wt.jobid
      · rw [named, view]
        rcases due with ⟨scheduled, -, -⟩ | ⟨state, event, time⟩
        · cases scheduled
        · exact .started state event time
      · rw [others id named]
        exact coherent id
    | stranded wt _ _ _ _ _ _ state _ view others =>
      by_cases named : id = wt.jobid
      · rw [named, view]
        exact .stranded state
      · rw [others id named]
        exact coherent id

end Steps

/-- The state after a list of operations. -/
def run (limits : Limits) (m : JobMonitor) (ops : List PlannerOp) : JobMonitor :=
  ops.foldl (PlannerOp.apply limits) m

/-- So does every run. -/
theorem coherent_run (limits : Limits) (ops : List PlannerOp) : Coherent (run limits .empty ops) := by
  suffices ∀ m, Coherent m → Coherent (run limits m ops) from this _ coherent_empty
  induction ops with
  | nil => exact fun _ coherent => coherent
  | cons op ops ih => exact fun m coherent => ih _ (coherent_apply limits op coherent)

end QosPlanner
