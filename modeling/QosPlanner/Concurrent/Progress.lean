import QosPlanner.Run.Fair
import QosPlanner.Concurrent.Exclusion

/-!
# Both threads get on

Both threads wait for job ids on one condition variable, and either may be woken for
nothing. That is no deadlock: a sleeper waits for the other thread, which holds the id and
is awake. Nor can it go on for ever within one request. Every turn of a thread that does
not wait takes something off a rank, in which a queued JOBSTART counts for its own
handling and for that of the JOBSTOP it makes; so the server gets to the end of every
request, whatever the monitor does meanwhile, and the monitor to the end of every event,
if there are only finitely many requests to delete (`threads_return`). An endless stream of
them can starve it: `notify_all` wakes it, but does not give it the id (`monitor_starves`).
-/

namespace QosPlanner
set_option autoImplicit false

open JobPriorityQueue Run Lock

/-! ## The rank -/

/-- What is left of a call of a thread, as `HandlePc.rank` and `UnregisterPc.rank` count it. -/
def MonitorPc.rank : MonitorPc → ℕ
  | .idle => 0
  | .handle wt _ pc => pc.rank wt.eventType

def ServerPc.rank : ServerPc → ℕ
  | .idle => 0
  | .checkOst _ osts => 23 + osts.length
  | .addJob _ => 22
  | .registerJob _ _ => 21
  | .unregisterJob _ pc rest => pc.rank + (1 + 8 * rest.length)
  | .removeJob _ rest => 1 + 8 * rest.length

/-- What handling an item takes, with the item it may push. -/
def WaitingItem.rank (wt : WaitingItem) : ℕ := if wt.eventType = .JOBSTART then 20 else 7

namespace JobPriorityQueue

def rank (q : JobPriorityQueue) : ℕ := (q.items.map WaitingItem.rank).sum

theorem rank_push (q : JobPriorityQueue) (wt : WaitingItem) : (q.push wt).rank = wt.rank + q.rank := by
  rw [rank, items_push, Multiset.map_cons, Multiset.sum_cons, rank]

theorem rank_pop {q q' : JobPriorityQueue} {wt : WaitingItem} (popped : q.pop = some (wt, q')) :
    q.rank = wt.rank + q'.rank := by
  rw [rank, (items_pop popped).2, Multiset.map_cons, Multiset.sum_cons, rank]

theorem rank_remove (q : JobPriorityQueue) (jobid : JobId) : (q.remove jobid).2.rank ≤ q.rank := by
  by_cases queued : ∃ wt ∈ q.items, wt.jobid = jobid
  · obtain ⟨wt, member, carries⟩ := queued
    obtain ⟨-, taken, -, split⟩ := remove_of_mem member carries
    rw [rank, rank, split, Multiset.map_cons, Multiset.sum_cons]
    omega
  · rw [remove_of_absent fun wt member carries => queued ⟨wt, member, carries⟩]

end JobPriorityQueue

theorem nextDelete_rank (rest : List JobId) : (nextDelete rest).rank = 8 * rest.length := by
  cases rest with
  | nil => rfl
  | cons jobid rest =>
    simp only [nextDelete, ServerPc.rank, UnregisterPc.rank, List.length_cons]
    omega

/-! ## What a step takes off the rank -/

section Calls

variable {jobid : JobId} {m m' : JobMonitor}

theorem StartMove.rank_lt {pc : StartPc} {control : Control StartPc Bool} (move : StartMove jobid m pc m' control) :
    m'.jobPriorityQueue.rank + rankAfter StartPc.rank control < m.jobPriorityQueue.rank + pc.rank := by
  cases move with
  | pushed tend reservation =>
    simp only [rank_push, WaitingItem.rank, rankAfter, StartPc.rank]
    simp
    omega
  | _ => simp [rankAfter, StartPc.rank]

theorem StopMove.rank_lt {pc : StopPc} {control : Control StopPc Bool} (move : StopMove jobid m pc m' control) :
    rankAfter StopPc.rank control < pc.rank ∧ m'.jobPriorityQueue = m.jobPriorityQueue := by
  refine ⟨move.nearer, ?_⟩
  cases move <;> rfl

/-- A step of `Handle`, except in the waiting loop. -/
theorem HandleMove.rank_lt {event : JobEvent} {pc : HandlePc} {control : Control HandlePc Unit}
    (move : HandleMove jobid event m pc m' control) (goes : control ≠ .next .block) :
    m'.jobPriorityQueue.rank + rankAfter (HandlePc.rank event) control < m.jobPriorityQueue.rank + pc.rank event := by
  cases move with
  | blocked => exact absurd rfl goes
  | toStart isStart => simp [rankAfter, HandlePc.rank, StartPc.rank, isStart]
  | toStop isStop => simp [rankAfter, HandlePc.rank, StopPc.rank, isStop]
  | start pc pc' m' move =>
    have less := move.rank_lt
    simp only [rankAfter, HandlePc.rank] at less ⊢
    omega
  | startDone pc m' result move =>
    have less := move.rank_lt
    simp only [rankAfter, HandlePc.rank] at less ⊢
    omega
  | stop pc pc' m' move =>
    obtain ⟨less, queue⟩ := move.rank_lt
    simp only [rankAfter, HandlePc.rank, queue] at less ⊢
    omega
  | stopDone pc m' result move =>
    obtain ⟨less, queue⟩ := move.rank_lt
    simp only [rankAfter, HandlePc.rank, queue] at less ⊢
    omega
  | removed => simp [rankAfter, HandlePc.rank]
  | unblocked => simp [rankAfter, HandlePc.rank]

/-- `Handle` takes nothing from the queue. -/
theorem HandleMove.queue_le {event : JobEvent} {pc : HandlePc} {control : Control HandlePc Unit}
    (move : HandleMove jobid event m pc m' control) : m.jobPriorityQueue.rank ≤ m'.jobPriorityQueue.rank := by
  cases move with
  | startDone pc m' result move =>
    cases move with
    | pushed tend reservation => simp [rank_push]
    | _ => exact le_rfl
  | start _ _ _ move => cases move <;> exact le_rfl
  | stop _ _ _ move => rw [move.rank_lt.2]
  | stopDone _ _ _ move => rw [move.rank_lt.2]
  | _ => exact le_rfl

/-- A step of `UnregisterJob`, except in the waiting loop. -/
theorem UnregisterMove.rank_lt {pc : UnregisterPc} {control : Control UnregisterPc Bool}
    (move : UnregisterMove jobid m pc m' control) (goes : control ≠ .next .block) :
    rankAfter UnregisterPc.rank control < pc.rank := by
  cases move with
  | blocked => exact absurd rfl goes
  | stop _ _ _ move => simpa [rankAfter, UnregisterPc.rank] using move.rank_lt.1
  | stopDone _ _ _ move =>
    have less := move.rank_lt.1
    simp only [rankAfter, UnregisterPc.rank] at less ⊢
    omega
  | _ => simp [rankAfter, UnregisterPc.rank, StopPc.rank]

/-- `UnregisterJob` puts nothing into the queue. -/
theorem UnregisterMove.queue_le {pc : UnregisterPc} {control : Control UnregisterPc Bool}
    (move : UnregisterMove jobid m pc m' control) : m'.jobPriorityQueue.rank ≤ m.jobPriorityQueue.rank := by
  cases move with
  | dequeued => exact rank_remove _ _
  | stop _ _ _ move => rw [move.rank_lt.2]
  | stopDone _ _ _ move => rw [move.rank_lt.2]
  | _ => exact le_rfl

end Calls

/-! ## Turns -/

/-- The thread whose turn a label is. -/
def Label.thread : Label → Option Thread
  | .server _ => some .server
  | .monitor _ => some .monitor
  | _ => none

namespace System

/-- A turn that cannot be taken passes by. -/
def attempt (limits : Limits) (s : System) (l : Label) : System := (s.step limits l).getD s

/-- The thread has something to do. -/
def Busy (s : System) : Thread → Prop
  | .server => s.server ≠ .idle
  | .monitor => s.monitor ≠ .idle

/-- The thread has something to do, is awake, and does not want an id that is held. -/
structure Ready (s : System) (t : Thread) : Prop where
  busy : s.Busy t
  awake : t ∉ s.world.inFlightJobsCv
  free : ∀ jobid, phases s.server s.monitor t = .wanting jobid → jobid ∉ s.world.inFlightJobs

/-- What is left to do: for the requests and events begun, and for the events in the queue. -/
def rank (s : System) : ℕ := s.world.jobPriorityQueue.rank + s.monitor.rank + s.server.rank

/-! ### The turn of a thread that is ready -/

theorem serverStep_ne_none (limits : Limits) (u : UInt32) (w : World Thread) {server : ServerPc}
    (busy : server ≠ .idle) : serverStep limits u w server ≠ none := by
  cases server with
  | idle => exact absurd rfl busy
  | checkOst job osts =>
    cases osts with
    | nil => simp [serverStep]
    | cons ost osts => simp only [serverStep, getMaxLoadInTimeInterval_eq]; split <;> [simp; (split <;> simp)]
  | addJob job => simp only [serverStep]; split <;> simp
  | registerJob job reservation => simp [serverStep]
  | unregisterJob jobid pc rest => simp only [serverStep]; split <;> simp
  | removeJob jobid rest => simp [serverStep]

/-- Whose id is free does not stay in the waiting loop. -/
theorem unregisterStep_ne_block (t : Thread) (jobid : JobId) (w : World Thread) (pc : UnregisterPc)
    (free : pc = .block → jobid ∉ w.inFlightJobs) : (unregisterStep t jobid w pc).2 ≠ .next .block := by
  intro blocked
  have effect := unregisterStep_lock t jobid w pc
  rw [blocked] at effect
  cases pc with
  | block =>
    cases effect with
    | sleep _ taken => exact free rfl taken
  | _ => cases effect

theorem handleStep_ne_block (t : Thread) (env : RemoteEnv) {jobid : JobId} (event : JobEvent) (w : World Thread)
    (pc : HandlePc) (free : pc = .block → jobid ∉ w.inFlightJobs) :
    (handleStep t env jobid event w pc).2 ≠ .next .block := by
  intro blocked
  have effect := handleStep_lock t env jobid event w pc
  rw [blocked] at effect
  cases pc with
  | block =>
    cases effect with
    | sleep _ taken => exact free rfl taken
  | _ => cases effect

variable (limits : Limits) {s : System}

variable {limits} in
/-- A step of the server, except in the waiting loop. -/
theorem server_rank_lt {u : UInt32} {w : World Thread} {server : ServerPc}
    (moved : serverStep limits u s.world s.server = some (w, server))
    (free : ∀ jobid, s.server.phase = .wanting jobid → jobid ∉ s.world.inFlightJobs) :
    w.jobPriorityQueue.rank + server.rank < s.world.jobPriorityQueue.rank + s.server.rank := by
  have move := serverStep_move moved
  obtain ⟨m', held, asleep⟩ := w
  dsimp only at move ⊢
  cases move with
  | checkFails _ job ost osts here => simp [here, ServerPc.rank]
  | checkNext _ job ost osts here => simp [here, ServerPc.rank]
  | checksDone _ job here => simp [here, ServerPc.rank]
  | refused _ job here => simp [here, ServerPc.rank]
  | added _ job here => simp [here, ServerPc.rank]
  | registered _ job reservation here =>
    simp only [here, ServerPc.rank, rank_push, WaitingItem.rank, if_true]
    omega
  | unregister _ jobid pc pc' rest m' here move =>
    have goes : (unregisterStep Thread.server jobid s.world pc).2 ≠ .next .block := by
      refine unregisterStep_ne_block _ _ _ _ fun wants => free jobid ?_
      rw [here, wants]
      rfl
    have leads : (unregisterStep Thread.server jobid s.world pc).2 = .next pc' := by
      rw [here, serverStep] at moved
      split at moved <;> cases moved
      rename_i ran
      rw [ran]
    have less := move.rank_lt (leads ▸ goes)
    have queue := move.queue_le
    simp only [here, ServerPc.rank, rankAfter] at less ⊢
    omega
  | unregistered _ jobid pc rest m' result here move =>
    have less := move.rank_lt fun blocked => by cases blocked
    have queue := move.queue_le
    simp only [here, ServerPc.rank, rankAfter] at less ⊢
    omega
  | removed _ jobid rest here =>
    rw [here, nextDelete_rank, ServerPc.rank]
    dsimp only
    omega

/-- The server takes its turn. -/
theorem Ready.server_turn (ready : s.Ready .server) (u : UInt32) :
    ∃ w server, serverStep limits u s.world s.server = some (w, server) ∧
      s.attempt limits (.server u) = { s with world := w, server } := by
  obtain ⟨⟨w, server⟩, moved⟩ := Option.ne_none_iff_exists'.1 (serverStep_ne_none limits u s.world ready.busy)
  exact ⟨w, server, moved, by simp [attempt, step, ready.awake, moved]⟩

/-- The monitor takes its turn. -/
theorem Ready.monitor_turn (ready : s.Ready .monitor) (env : RemoteEnv) :
    (s.attempt limits (.monitor env)).server = s.server ∧
      (s.attempt limits (.monitor env)).monitor.rank < s.monitor.rank ∧
      (s.attempt limits (.monitor env)).world.jobPriorityQueue.rank + (s.attempt limits (.monitor env)).monitor.rank <
        s.world.jobPriorityQueue.rank + s.monitor.rank := by
  cases here : s.monitor with
  | idle => exact absurd here ready.busy
  | handle wt poppedAt pc =>
    have goes : (handleStep .monitor env wt.jobid wt.eventType s.world pc).2 ≠ .next .block := by
      refine handleStep_ne_block _ _ _ _ _ fun wants => ready.free wt.jobid ?_
      rw [here, wants]
      rfl
    have move := handleStep_move Thread.monitor env wt.jobid wt.eventType s.world pc
    have less := move.rank_lt goes
    have queue := move.queue_le
    rcases ran : handleStep Thread.monitor env wt.jobid wt.eventType s.world pc with ⟨w, pc' | result⟩ <;>
      rw [ran] at less queue <;> simp only [rankAfter] at less
    · have after : s.attempt limits (.monitor env) = { s with world := w, monitor := .handle wt poppedAt pc' } := by
        simp [attempt, step, ready.awake, here, ran]
      rw [after]
      refine ⟨rfl, ?_, less⟩
      dsimp only [MonitorPc.rank] at queue ⊢
      omega
    · have after : s.attempt limits (.monitor env) = { s with world := w, monitor := .idle } := by
        simp [attempt, step, ready.awake, here, ran]
      rw [after]
      refine ⟨rfl, ?_, less⟩
      dsimp only [MonitorPc.rank] at queue ⊢
      omega

/-- **A turn of a ready thread** lowers the rank. -/
theorem Ready.turn {t : Thread} {l : Label} (ready : s.Ready t) (own : l.thread = some t) :
    (s.attempt limits l).rank < s.rank := by
  cases l with
  | server u =>
    cases own
    obtain ⟨w, server, moved, after⟩ := ready.server_turn limits u
    have less := server_rank_lt moved ready.free
    rw [after, rank, rank]
    dsimp only
    omega
  | monitor env =>
    cases own
    obtain ⟨same, -, less⟩ := ready.monitor_turn limits env
    rw [rank, rank, same]
    omega
  | _ => cases own

/-! ### Everything else -/

/-- Nothing has happened, except that some of `who` may have gone to sleep and others have woken. -/
def OnlySleeps (who : Finset Thread) (s s' : System) : Prop :=
  ∃ asleep ⊆ s.world.inFlightJobsCv ∪ who, s' = { s with world := { s.world with inFlightJobsCv := asleep } }

theorem OnlySleeps.refl (who : Finset Thread) (s : System) : OnlySleeps who s s :=
  ⟨s.world.inFlightJobsCv, Finset.subset_union_left, rfl⟩

/-- A thread that is ready stays so. -/
theorem Ready.of_onlySleeps {s' : System} {t : Thread} {who : Finset Thread} (ready : s.Ready t)
    (sleeps : OnlySleeps who s s') (other : t ∉ who) : s'.rank = s.rank ∧ s'.Ready t := by
  obtain ⟨asleep, within, rfl⟩ := sleeps
  refine ⟨rfl, ready.busy, fun sleeping => ?_, ready.free⟩
  rcases Finset.mem_union.1 (within sleeping) with before | new
  · exact ready.awake before
  · exact other new

/-- A thread that has something to do and is not ready sleeps, or wants an id that is held. -/
theorem not_ready {t : Thread} (waits : ¬ s.Ready t) (busy : s.Busy t) (awake : t ∉ s.world.inFlightJobsCv) :
    ∃ jobid ∈ s.world.inFlightJobs, phases s.server s.monitor t = .wanting jobid := by
  by_contra none
  refine waits ⟨busy, awake, fun jobid wants held => none ⟨jobid, held, wants⟩⟩

/-- **A turn of a thread that is not ready** passes by, or the thread goes to sleep. -/
theorem onlySleeps_turn {t : Thread} {l : Label} (waits : ¬ s.Ready t) (own : l.thread = some t) :
    OnlySleeps {t} s (s.attempt limits l) := by
  cases l with
  | server u =>
    cases own
    by_cases awake : .server ∈ s.world.inFlightJobsCv
    · have stays : s.attempt limits (.server u) = s := by simp [attempt, step, awake]
      rw [stays]
      exact .refl _ _
    by_cases idle : s.server = .idle
    · have stays : s.attempt limits (.server u) = s := by simp [attempt, step, awake, idle, serverStep]
      rw [stays]
      exact .refl _ _
    obtain ⟨jobid, held, wants⟩ := not_ready waits idle awake
    cases here : s.server with
    | unregisterJob id pc rest =>
      rw [here] at wants
      cases pc with
      | block =>
        cases wants
        refine ⟨insert .server s.world.inFlightJobsCv, ?_, ?_⟩
        · rw [Finset.insert_eq, Finset.union_comm]
        · simp [attempt, step, awake, here, serverStep, unregisterStep, blockStep, held]
      | _ => cases wants
    | _ => rw [here] at wants; cases wants
  | monitor env =>
    cases own
    by_cases awake : .monitor ∈ s.world.inFlightJobsCv
    · have stays : s.attempt limits (.monitor env) = s := by simp [attempt, step, awake]
      rw [stays]
      exact .refl _ _
    cases here : s.monitor with
    | idle =>
      have stays : s.attempt limits (.monitor env) = s := by simp [attempt, step, awake, here]
      rw [stays]
      exact .refl _ _
    | handle wt poppedAt pc =>
      obtain ⟨jobid, held, wants⟩ := not_ready waits (fun idle => by rw [here] at idle; cases idle) awake
      rw [here] at wants
      cases pc with
      | block =>
        cases wants
        refine ⟨insert .monitor s.world.inFlightJobsCv, ?_, ?_⟩
        · rw [Finset.insert_eq, Finset.union_comm]
        · simp [attempt, step, awake, here, handleStep, blockStep, held]
      | _ => cases wants
  | _ => cases own

/-- A request that comes while the server is busy is not taken, and what belongs to no thread
is the waking of a thread or the taking of an event. -/
theorem rank_of_no_thread {l : Label} (busy : s.server ≠ .idle) (none : l.thread = none) :
    (s.attempt limits l).rank < s.rank ∨ OnlySleeps ∅ s (s.attempt limits l) := by
  cases taken : s.step limits l with
  | none =>
    rw [attempt, taken]
    exact Or.inr (.refl _ _)
  | some s' =>
    rw [attempt, taken, Option.getD_some]
    cases l with
    | reserve job =>
      rw [step] at taken
      split at taken
      · exact absurd ‹_› busy
      · cases taken
    | delete request =>
      rw [step] at taken
      split at taken
      · exact absurd ‹_› busy
      · cases taken
    | pop now =>
      obtain ⟨idle, wt, queue, popped, -, rfl⟩ := step_pop taken
      refine Or.inl ?_
      rw [rank, rank, rank_pop popped, idle]
      simp only [MonitorPc.rank, HandlePc.rank, WaitingItem.rank]
      split <;> omega
    | wake t =>
      cases taken
      exact Or.inr ⟨_, (Finset.erase_subset _ _).trans Finset.subset_union_left, rfl⟩
    | _ => cases none

/-! ## The server -/

theorem Valid.attempt (valid : s.Valid) (l : Label) : (s.attempt limits l).Valid := by
  cases taken : s.step limits l with
  | none => rwa [System.attempt, taken]
  | some s' =>
    rw [System.attempt, taken]
    exact valid.step taken

theorem Valid.held_iff (valid : s.Valid) {jobid : JobId} :
    jobid ∈ s.world.inFlightJobs ↔ ∃ t, phases s.server s.monitor t = .holding jobid :=
  valid.sound.held_iff jobid

theorem Valid.wants_of_asleep (valid : s.Valid) {t : Thread} (sleeps : t ∈ s.world.inFlightJobsCv) :
    ∃ jobid, phases s.server s.monitor t = .wanting jobid := by
  obtain ⟨jobid, -, wants⟩ := valid.sound.asleep t sleeps
  exact ⟨jobid, wants⟩

/-- A thread that wants no id is awake. -/
theorem Valid.ready_of_wants_none (valid : s.Valid) {t : Thread} (busy : s.Busy t)
    (wants_none : ∀ jobid, phases s.server s.monitor t ≠ .wanting jobid) : s.Ready t where
  busy := busy
  awake sleeps := by
    obtain ⟨jobid, wants⟩ := valid.wants_of_asleep sleeps
    exact wants_none jobid wants
  free jobid wants := absurd wants (wants_none jobid)

/-- Who holds an id is ready. -/
theorem Valid.ready_of_holds (valid : s.Valid) {t : Thread} {jobid : JobId}
    (holds : phases s.server s.monitor t = .holding jobid) : s.Ready t := by
  refine valid.ready_of_wants_none ?_ fun id wants => by cases holds.symm.trans wants
  cases t with
  | server => rintro (idle : s.server = .idle); rw [idle] at holds; cases holds
  | monitor => rintro (idle : s.monitor = .idle); rw [idle] at holds; cases holds

/-- **No deadlock**: a thread that has something to do is ready, or another holds the id that it wants. -/
theorem Valid.ready_or_held (valid : s.Valid) {t : Thread} (busy : s.Busy t) :
    s.Ready t ∨ ∃ t' ≠ t, ∃ jobid, phases s.server s.monitor t' = .holding jobid := by
  by_cases ready : s.Ready t
  · exact Or.inl ready
  refine Or.inr ?_
  by_cases sleeps : t ∈ s.world.inFlightJobsCv
  · obtain ⟨jobid, t', -, other, holds, -⟩ := valid.sound.holder sleeps
    exact ⟨t', other, jobid, holds⟩
  · obtain ⟨jobid, held, wants⟩ := not_ready ready busy sleeps
    obtain ⟨t', holds⟩ := valid.held_iff.1 held
    refine ⟨t', ?_, jobid, holds⟩
    rintro rfl
    cases holds.symm.trans wants

/-- As long as the server is busy, every turn of a ready thread brings it nearer to its return. -/
def serverProgress (limits : Limits) :
    Progress (attempt limits) Label.thread (fun _ => True) Valid (fun s => s.server = .idle) where
  rank := rank
  ready := Ready
  keeps s l valid _ := valid.attempt limits l
  some_ready s valid busy := by
    rcases valid.ready_or_held (t := .server) busy with ready | ⟨t', -, jobid, holds⟩
    · exact ⟨.server, ready⟩
    · exact ⟨t', valid.ready_of_holds holds⟩
  turn s t l _ ready own := ready.turn limits own
  others s t l _ busy ready _ other := by
    cases own : l.thread with
    | none =>
      rcases rank_of_no_thread limits busy own with less | sleeps
      · exact Or.inl less
      · exact Or.inr (ready.of_onlySleeps sleeps (Finset.notMem_empty t))
    | some t' =>
      by_cases ready' : s.Ready t'
      · exact Or.inl (ready'.turn limits own)
      · refine Or.inr (ready.of_onlySleeps (onlySleeps_turn limits ready' own) ?_)
        rintro same
        exact other (Finset.mem_singleton.1 same ▸ own)

/-! ## The monitor -/

/-- The server is serving a request to delete. -/
def Deletes (s : System) : Prop :=
  match s.server with
  | .unregisterJob _ _ _ => True
  | .removeJob _ _ => True
  | _ => False

def IsDelete (l : Label) : Prop := ∃ request, l = .delete request

/-- Only a new request to delete makes the server delete. -/
theorem not_deletes_attempt (serves : ¬ s.Deletes) {l : Label} (other : ¬ IsDelete l) :
    ¬ (s.attempt limits l).Deletes := by
  cases taken : s.step limits l with
  | none => rwa [attempt, taken]
  | some s' =>
    rw [attempt, taken, Option.getD_some]
    have move := step_move taken
    obtain ⟨⟨m', held, asleep⟩, server', monitor'⟩ := s'
    dsimp only at move
    unfold Deletes at serves
    cases move with
    | delete request => exact absurd ⟨request, rfl⟩ other
    | unregister _ _ _ _ _ _ here => rw [here] at serves; exact absurd trivial serves
    | unregistered _ _ _ _ _ _ here => rw [here] at serves; exact absurd trivial serves
    | removed _ _ _ here => rw [here] at serves; exact absurd trivial serves
    | handle => exact serves
    | handled => exact serves
    | pop => exact serves
    | wake => exact serves
    | _ => exact not_false

/-- Then it holds no id, and the monitor is ready if it has something to do. -/
theorem Valid.monitor_ready (valid : s.Valid) (serves : ¬ s.Deletes) (busy : s.monitor ≠ .idle) : s.Ready .monitor := by
  rcases valid.ready_or_held (t := .monitor) busy with ready | ⟨t', other, jobid, holds⟩
  · exact ready
  · cases t' with
    | monitor => exact absurd rfl other
    | server =>
      unfold Deletes at serves
      cases here : s.server with
      | unregisterJob => rw [here] at serves; exact absurd trivial serves
      | _ => rw [here] at holds; cases holds

/-- Whoever else has a turn, a busy monitor stays where it is. -/
theorem monitor_of_other {l : Label} (busy : s.monitor ≠ .idle) (other : l.thread ≠ some .monitor) :
    (s.attempt limits l).monitor = s.monitor := by
  cases taken : s.step limits l with
  | none => rw [attempt, taken]; rfl
  | some s' =>
    rw [attempt, taken, Option.getD_some]
    have move := step_move taken
    obtain ⟨⟨m', held, asleep⟩, server', monitor'⟩ := s'
    dsimp only at move ⊢
    cases move with
    | handle => exact absurd rfl other
    | handled => exact absurd rfl other
    | pop _ _ _ idle => exact absurd idle busy
    | _ => rfl

/-- While the server does not delete, every turn of a busy monitor brings it nearer to its return. -/
def monitorProgress (limits : Limits) :
    Progress (attempt limits) Label.thread (fun l => ¬ IsDelete l) (fun s => s.Valid ∧ ¬ s.Deletes)
      (fun s => s.monitor = .idle) where
  rank s := s.monitor.rank
  ready s t := t = .monitor ∧ s.Ready .monitor
  keeps s l inv other := ⟨inv.1.attempt limits l, not_deletes_attempt limits inv.2 other⟩
  some_ready s inv busy := ⟨.monitor, rfl, inv.1.monitor_ready inv.2 busy⟩
  turn s t l _ ready own := by
    obtain ⟨rfl, ready⟩ := ready
    cases l with
    | monitor env => exact (ready.monitor_turn limits env).2.1
    | _ => cases own
  others s t l inv busy ready allowed other := by
    obtain ⟨rfl, ready⟩ := ready
    have same := monitor_of_other limits busy other
    refine Or.inr ⟨congrArg MonitorPc.rank same, rfl, ?_⟩
    exact (inv.1.attempt limits l).monitor_ready (not_deletes_attempt limits inv.2 allowed) (same ▸ busy)

/-! ## Every schedule -/

/-- **Both threads get on.** From the start, along every schedule that leaves out neither
thread for good: the server gets back to its loop again and again, whatever requests come,
whatever the monitor handles meanwhile and however often the threads are woken for
nothing; and if only finitely many requests to delete come, so does the monitor. -/
theorem threads_return (limits : Limits) (labels : ℕ → Label) (fair : Fair Label.thread labels) :
    (∀ k, ∃ n ≥ k, (states (attempt limits) labels init n).server = .idle) ∧
      ((∃ last, ∀ n ≥ last, ¬ IsDelete (labels n)) →
        ∀ k, ∃ n ≥ k, (states (attempt limits) labels init n).monitor = .idle) := by
  have server := (serverProgress limits).again_and_again fair (fun _ => trivial) valid_init
  refine ⟨server, ?_⟩
  rintro ⟨last, none_left⟩ k
  obtain ⟨n, later, idle⟩ := server (max last k)
  have valid : (states (attempt limits) labels init n).Valid :=
    states_invariant (serverProgress limits).keeps (fun _ => trivial) valid_init n
  have serves : ¬ (states (attempt limits) labels init n).Deletes := by
    unfold Deletes
    rw [idle]
    exact not_false
  obtain ⟨m, returned⟩ := (monitorProgress limits).eventually (fair.drop n)
    (fun i => none_left (i + n) (by omega)) ⟨valid, serves⟩
  exact ⟨m + n, by omega, by rwa [states_add]⟩

/-- A reservation is made and started while it is deleted, and the threads take turns for ever. -/
theorem threads_return_from_startAfterUnregister :
    let labels (n : ℕ) : Label :=
      startAfterUnregister.getD n (if n % 2 = 0 then .server 0 else .monitor allSucceed)
    (∀ k, ∃ n ≥ k, (states (attempt oneOst) labels init n).server = .idle) ∧
      ∀ k, ∃ n ≥ k, (states (attempt oneOst) labels init n).monitor = .idle := by
  intro labels
  have later (n : ℕ) (after : startAfterUnregister.length ≤ n) :
      labels n = if n % 2 = 0 then .server 0 else .monitor allSucceed := by
    simp only [labels, List.getD_eq_default _ _ after]
  have fair : Fair Label.thread labels := by
    have short : startAfterUnregister.length ≤ 20 := by decide
    intro t n
    cases t with
    | server =>
      refine ⟨2 * (n + 20), by omega, ?_⟩
      rw [later _ (by omega)]
      simp [Label.thread]
    | monitor =>
      refine ⟨2 * (n + 20) + 1, by omega, ?_⟩
      rw [later _ (by omega)]
      simp [Label.thread, Nat.add_mod]
  obtain ⟨server, monitor⟩ := threads_return oneOst labels fair
  refine ⟨server, monitor ⟨startAfterUnregister.length, fun n after => ?_⟩⟩
  rw [later n after]
  rintro ⟨request, delete⟩
  split at delete <;> cases delete

/-! ## A schedule without end for the monitor -/

/-- Ten turns: the id is deleted once more, and the monitor looks just when the server holds it. -/
def tenTurns (jobid : JobId) : ℕ → Label
  | 0 => .delete ⟨[jobid], false⟩
  | 2 => .monitor default
  | _ => .server 0

def againAndAgain (jobid : JobId) (n : ℕ) : Label := tenTurns jobid (n % 10)

theorem fair_againAndAgain (jobid : JobId) : Fair Label.thread (againAndAgain jobid) := by
  intro t n
  cases t with
  | server => exact ⟨10 * n + 1, by omega, by simp [againAndAgain, tenTurns, Nat.add_mod, Label.thread]⟩
  | monitor => exact ⟨10 * n + 2, by omega, by simp [againAndAgain, tenTurns, Nat.add_mod, Label.thread]⟩

/-- The server is past the waiting loop of its last id, with at most so many turns to go. -/
inductive Finishing (jobid : JobId) (turns : ℕ) : ServerPc → Prop
  | unregisterJob (pc : UnregisterPc) (inside : pc ≠ .block) (left : pc.rank + 1 ≤ turns) :
      Finishing jobid turns (.unregisterJob jobid pc [])
  | removeJob (left : 1 ≤ turns) : Finishing jobid turns (.removeJob jobid [])
  | idle : Finishing jobid turns .idle

/-- Where the server is before each of the ten turns. -/
def ServerAt (jobid : JobId) (s : System) : ℕ → Prop
  | 0 => s.server = .idle
  | 1 => s.server = .unregisterJob jobid .block [] ∧ .server ∉ s.world.inFlightJobsCv
  | 2 => s.server = .unregisterJob jobid .removeJobFromPrioQueue []
  | k => Finishing jobid (10 - k) s.server

/-- One turn nearer to the end. -/
theorem Finishing.turn {jobid : JobId} {turns : ℕ} (valid : s.Valid) (finishing : Finishing jobid (turns + 1) s.server)
    (u : UInt32) : (s.attempt limits (.server u)).monitor = s.monitor ∧
      Finishing jobid turns (s.attempt limits (.server u)).server := by
  generalize here : s.server = server at finishing
  cases finishing with
  | unregisterJob pc inside left =>
    have holds : phases s.server s.monitor .server = .holding jobid := by
      rw [here]
      exact pc.holds_of_ne_block jobid inside
    obtain ⟨w, server, moved, after⟩ := (valid.ready_of_holds holds).server_turn limits u
    rw [after]
    refine ⟨rfl, ?_⟩
    have goes := unregisterStep_ne_block Thread.server jobid s.world pc fun block => absurd block inside
    have less := (unregisterStep_move Thread.server jobid s.world pc).rank_lt goes
    rw [here, serverStep] at moved
    rcases ran : unregisterStep Thread.server jobid s.world pc with ⟨w', pc' | result⟩ <;>
      rw [ran] at moved less goes <;> cases moved <;> simp only [rankAfter] at less
    · exact .unregisterJob pc' (fun block => goes (by rw [block])) (by omega)
    · exact .removeJob (by omega)
  | removeJob left =>
    have ready : s.Ready .server := by
      refine valid.ready_of_wants_none (fun idle => ?_) fun id wants => ?_
      · rw [here] at idle
        cases idle
      · rw [here] at wants
        cases wants
    obtain ⟨w, server, moved, after⟩ := ready.server_turn limits u
    rw [after]
    rw [here] at moved
    cases moved
    exact ⟨rfl, .idle⟩
  | idle =>
    have stays : s.attempt limits (.server u) = s := by simp [attempt, step, here, serverStep]
    rw [stays, here]
    exact ⟨rfl, .idle⟩

/-- What holds before each turn: the monitor is where it was, and the server where it should be. -/
structure Starved (jobid : JobId) (monitor : MonitorPc) (k : ℕ) (s : System) : Prop where
  valid : s.Valid
  monitor : s.monitor = monitor
  server : ServerAt jobid s k

/-- One turn after the other. -/
theorem Starved.turn {wt : WaitingItem} {now : TimePoint} {k : ℕ} (small : k < 10)
    (starved : Starved wt.jobid (.handle wt now .block) k s) :
    Starved wt.jobid (.handle wt now .block) ((k + 1) % 10) (s.attempt limits (tenTurns wt.jobid k)) := by
  obtain ⟨valid, here, server⟩ := starved
  suffices goes : (s.attempt limits (tenTurns wt.jobid k)).monitor = .handle wt now .block ∧
      ServerAt wt.jobid (s.attempt limits (tenTurns wt.jobid k)) ((k + 1) % 10) from
    ⟨valid.attempt limits _, goes.1, goes.2⟩
  match k with
  | 0 =>
    have idle : s.server = .idle := server
    have after : s.attempt limits (tenTurns wt.jobid 0) = { s with server := .unregisterJob wt.jobid .block [] } := by
      simp [attempt, tenTurns, step, idle, nextDelete]
    rw [after]
    refine ⟨here, rfl, fun sleeps => ?_⟩
    obtain ⟨id, wants⟩ := valid.wants_of_asleep sleeps
    rw [idle] at wants
    cases wants
  | 1 =>
    obtain ⟨there, awake⟩ := server
    have free : wt.jobid ∉ s.world.inFlightJobs := by
      intro held
      obtain ⟨t, holds⟩ := valid.held_iff.1 held
      cases t with
      | server => rw [there] at holds; cases holds
      | monitor => rw [here] at holds; cases holds
    have after : s.attempt limits (tenTurns wt.jobid 1) =
        { s with
          world := { s.world with inFlightJobs := insert wt.jobid s.world.inFlightJobs }
          server := .unregisterJob wt.jobid .removeJobFromPrioQueue [] } := by
      simp [attempt, tenTurns, step, awake, there, serverStep, unregisterStep, blockStep, free]
    rw [after]
    exact ⟨here, rfl⟩
  | 2 =>
    have there : s.server = .unregisterJob wt.jobid .removeJobFromPrioQueue [] := server
    have held : wt.jobid ∈ s.world.inFlightJobs := valid.held_iff.2 ⟨.server, by rw [there]; rfl⟩
    have waits : ¬ s.Ready .monitor := fun ready => ready.free wt.jobid (by rw [here]; rfl) held
    obtain ⟨asleep, -, after⟩ := onlySleeps_turn limits waits (rfl : (tenTurns wt.jobid 2).thread = some .monitor)
    rw [after]
    refine ⟨here, ?_⟩
    show Finishing wt.jobid 7 s.server
    rw [there]
    exact .unregisterJob _ (by decide) (by decide)
  | k + 3 =>
    have finishing : Finishing wt.jobid (10 - (k + 4) + 1) s.server := by
      rw [show 10 - (k + 4) + 1 = 10 - (k + 3) by omega]
      exact server
    obtain ⟨same, nearer⟩ := finishing.turn limits valid 0
    refine ⟨same.trans here, ?_⟩
    by_cases last : k = 6
    · subst last
      show (s.attempt limits (.server 0)).server = .idle
      generalize (s.attempt limits (.server 0)).server = after at nearer
      cases nearer with
      | unregisterJob pc inside left => omega
      | removeJob left => omega
      | idle => rfl
    · rw [show (k + 3 + 1) % 10 = k + 1 + 3 by omega]
      exact nearer

/-- **The monitor can starve.** Whenever it waits for an id and the server is in its loop, there
is a schedule that leaves out neither thread and keeps the monitor waiting for ever. -/
theorem monitor_starves (limits : Limits) (past : List Label) (s : System)
    (reached : exec (step limits) init past = some s) (wt : WaitingItem) (now : TimePoint)
    (waits : s.monitor = .handle wt now .block) (idle : s.server = .idle) :
    ∃ labels, Fair Label.thread labels ∧
      ∀ n, (states (attempt limits) labels s n).monitor = .handle wt now .block := by
  have valid : s.Valid := (Path.of_exec .nil reached).invariant valid_init fun _ _ _ valid _ taken => valid.step taken
  refine ⟨againAndAgain wt.jobid, fair_againAndAgain wt.jobid, fun n => ?_⟩
  have starved : Starved wt.jobid (.handle wt now .block) (n % 10)
      (states (attempt limits) (againAndAgain wt.jobid) s n) := by
    induction n with
    | zero => exact ⟨valid, waits, idle⟩
    | succ n ih =>
      rw [show (n + 1) % 10 = (n % 10 + 1) % 10 by omega]
      exact ih.turn limits (by omega)
  exact starved.monitor

/-- The monitor takes the start of `foo`, and does not get to handle it. -/
theorem monitor_starves_at_start :
    ∃ s wt, exec (step oneOst) init (reserveFoo 0 10 ++ [.pop 1]) = some s ∧ s.monitor = .handle wt 1 .block ∧
      ∃ labels, Fair Label.thread labels ∧
        ∀ n, (states (attempt oneOst) labels s n).monitor = .handle wt 1 .block := by
  have waits : (exec (step oneOst) init (reserveFoo 0 10 ++ [.pop 1])).map (fun s =>
      decide (s.server = .idle ∧ s.monitor = .handle ⟨"foo", 0, .JOBSTART, 0⟩ 1 .block)) = some true := by
    decide +kernel
  obtain ⟨s, reached, here⟩ := Option.map_eq_some_iff.1 waits
  obtain ⟨idle, there⟩ := of_decide_eq_true here
  exact ⟨s, _, reached, there, monitor_starves oneOst _ s reached _ 1 there idle⟩

end System

end QosPlanner
