import QosPlanner.Schedule.Job

/-!
# The event queue

`JobPriorityQueue` (`src/common/JobPriorityQueue.cpp`): a vector of waiting items that
`Up` and `Down` sift. Positions are natural numbers (the source's `int`s, on a vector
of fewer than 2^31 items); every access carries its bound, so `up` and `down` are only
called, and only recurse, at positions inside the vector. What is proved of the planner
over this queue is meant for fewer than 2^31 queued items: up to there its operations are
those on `int` positions (`IntPositions.push_eq`, `pop_eq`, `remove_eq`).

Whatever order the sifts leave behind, they permute the vector. So the queue is a bag of
items, and `items` is that bag: `push` adds the item, `pop` takes the one `peek` shows,
`remove` takes one item of the job.
-/

namespace QosPlanner
set_option autoImplicit false

/-- `JobPriorityQueue::WaitingItem`. -/
structure WaitingItem where
  jobid : JobId
  timeOfEvent : TimePoint
  eventType : JobEvent
  /-- Ghost: the address of the stored job the item was made for. The queue and the
  monitor never read it. -/
  reservation : Nat
  deriving DecidableEq, Repr, Inhabited

/-- `JobPriorityQueue`, by its `heap_`. -/
structure JobPriorityQueue where
  heap : Array WaitingItem
  deriving DecidableEq, Repr

/-- `Up`: the item at `pos` moves up while its parent's event is the earlier one. -/
def up (queue : Array WaitingItem) (pos : Nat) (bound : pos < queue.size) : Array WaitingItem :=
  if pos = 0 then queue
  else
    let parent := (pos - 1) / 2
    if queue[parent].timeOfEvent < queue[pos].timeOfEvent then
      up (queue.swap parent pos) parent (by simp; omega)
    else queue
termination_by pos
decreasing_by omega

/-- `pos_to_check`: the child of `pos` with the earlier event, the second one on a tie. -/
def posToCheck (queue : Array WaitingItem) (pos : Nat) (bound : 2 * pos + 2 < queue.size) : Nat :=
  if queue[2 * pos + 1].timeOfEvent < queue[2 * pos + 2].timeOfEvent then 2 * pos + 1 else 2 * pos + 2

theorem posToCheck_range {queue : Array WaitingItem} {pos : Nat} (bound : 2 * pos + 2 < queue.size) :
    pos < posToCheck queue pos bound ∧ posToCheck queue pos bound < queue.size := by
  unfold posToCheck; split <;> omega

/-- `Down`: the item at `pos` changes places with its earlier child, unless its own event
is earlier still. A node with fewer than two children is left as it is. -/
def down (queue : Array WaitingItem) (pos : Nat) (bound : pos < queue.size) : Array WaitingItem :=
  if 2 * pos + 1 ≥ queue.size then queue
  else if h : 2 * pos + 2 ≥ queue.size then queue
  else
    let child := posToCheck queue pos (by omega)
    have range : pos < child ∧ child < queue.size := posToCheck_range _
    if queue[pos].timeOfEvent < queue[child].timeOfEvent then queue
    else down (queue.swap child pos) child (by simpa using range.2)
termination_by queue.size - pos
decreasing_by simp; omega

theorem up_perm (queue : Array WaitingItem) (pos : Nat) (bound : pos < queue.size) :
    (up queue pos bound).toList.Perm queue.toList := by
  fun_induction up queue pos bound with
  | case1 => rfl
  | case2 queue pos bound nonroot parent earlier ih => exact ih.trans (Array.swap_perm _ _).toList
  | case3 => rfl

theorem down_perm (queue : Array WaitingItem) (pos : Nat) (bound : pos < queue.size) :
    (down queue pos bound).toList.Perm queue.toList := by
  fun_induction down queue pos bound with
  | case1 => rfl
  | case2 => rfl
  | case3 => rfl
  | case4 queue pos bound one two child range later ih => exact ih.trans (Array.swap_perm _ _).toList

/-- `heap_[i] = heap_[heap_.size() - 1]; heap_.pop_back()`: the last item takes the place
of the one at `i`. -/
def dropAt (heap : Array WaitingItem) (i : Nat) (bound : i < heap.size) : Array WaitingItem :=
  (heap.set i heap[heap.size - 1]).pop

@[simp] theorem dropAt_size (heap : Array WaitingItem) (i : Nat) (bound : i < heap.size) :
    (dropAt heap i bound).size = heap.size - 1 := by simp [dropAt]

theorem dropAt_perm (heap : Array WaitingItem) (i : Nat) (bound : i < heap.size) :
    heap.toList.Perm (heap[i] :: (dropAt heap i bound).toList) := by
  have last : heap.size - 1 < heap.size := by omega
  have swapped : (heap.swap i (heap.size - 1)).pop = dropAt heap i bound := by
    apply Array.ext
    · simp
    · intro j hj hj'
      simp only [Array.size_pop, Array.size_swap] at hj
      simp only [dropAt, Array.getElem_pop, Array.getElem_swap, Array.getElem_set]
      by_cases same : j = i
      · simp [same]
      · simp [same, Ne.symm same, show j ≠ heap.size - 1 by omega]
  have whole : heap.swap i (heap.size - 1) =
      (heap.swap i (heap.size - 1)).pop.push heap[i] := by
    apply Array.ext
    · simp; omega
    · intro j hj hj'
      simp only [Array.size_swap] at hj
      simp only [Array.getElem_push, Array.size_pop, Array.size_swap, Array.getElem_pop]
      by_cases inner : j < heap.size - 1
      · simp [inner]
      · have : j = heap.size - 1 := by omega
        simp [this]
  have perm := (Array.swap_perm bound last).toList.symm
  rw [whole, swapped, Array.toList_push] at perm
  exact perm.trans (List.perm_append_singleton _ _)

namespace JobPriorityQueue

/-- A queue without items. -/
def empty : JobPriorityQueue := ⟨#[]⟩

/-- The bag of the queued items. -/
def items (q : JobPriorityQueue) : Multiset WaitingItem := q.heap.toList

/-- `Push`. -/
def push (q : JobPriorityQueue) (newItem : WaitingItem) : JobPriorityQueue :=
  ⟨up (q.heap.push newItem) q.heap.size (by simp)⟩

/-- `Pop`: the item returned and the queue after it; `none` is the null pointer. -/
def pop (q : JobPriorityQueue) : Option (WaitingItem × JobPriorityQueue) :=
  if h : q.heap.size = 0 then none
  else
    let returnItem := q.heap[0]
    let heap := dropAt q.heap 0 (by omega)
    if h' : heap.size ≠ 0 then some (returnItem, ⟨down heap 0 (by omega)⟩)
    else some (returnItem, ⟨heap⟩)

/-- `Peek`. -/
def peek (q : JobPriorityQueue) : Option WaitingItem := q.heap[0]?

/-- What `Remove` does once its scan has found the job at `i`. -/
def removeAt (heap : Array WaitingItem) (i : Nat) (bound : i < heap.size) : Array WaitingItem :=
  if h : i = heap.size - 1 then dropAt heap i bound
  else down (dropAt heap i bound) i (by simp; omega)

/-- `Remove`: the scan stops at the first item of the job. -/
def remove (q : JobPriorityQueue) (job : JobId) : Bool × JobPriorityQueue :=
  match h : q.heap.findIdx? (·.jobid = job) with
  | none => (false, q)
  | some i => (true, ⟨removeAt q.heap i (Array.findIdx?_eq_some_iff_getElem.1 h).1⟩)

/-- `JobMonitor::isThereAReadyJob` at the time `now`. -/
def isThereAReadyJob (q : JobPriorityQueue) (now : TimePoint) : Bool :=
  match q.peek with
  | none => false
  | some wt => wt.timeOfEvent < now

/-! ## The queue as a bag -/

@[simp] theorem items_empty : empty.items = 0 := rfl

theorem items_push (q : JobPriorityQueue) (newItem : WaitingItem) :
    (q.push newItem).items = newItem ::ₘ q.items := by
  have perm := up_perm (q.heap.push newItem) q.heap.size (by simp)
  rw [Array.toList_push] at perm
  exact Multiset.coe_eq_coe.2 (perm.trans (List.perm_append_singleton _ _))

theorem pop_eq_none {q : JobPriorityQueue} : q.pop = none ↔ q.items = 0 := by
  unfold pop items
  split
  · rename_i none; simpa using none
  · rename_i some
    have : q.heap ≠ #[] := by simpa using some
    dsimp only
    split <;> simpa using this

theorem items_pop {q q' : JobPriorityQueue} {wt : WaitingItem} (popped : q.pop = some (wt, q')) :
    q.peek = some wt ∧ q.items = wt ::ₘ q'.items := by
  unfold pop at popped
  split at popped
  · cases popped
  · rename_i some
    have bound : 0 < q.heap.size := by omega
    have perm := dropAt_perm q.heap 0 bound
    dsimp only at popped
    split at popped <;> cases popped
    · refine ⟨by simp [peek, bound], Multiset.coe_eq_coe.2 (perm.trans ?_)⟩
      exact (down_perm _ _ _).symm.cons _
    · exact ⟨by simp [peek, bound], Multiset.coe_eq_coe.2 perm⟩

theorem removeAt_perm (heap : Array WaitingItem) (i : Nat) (bound : i < heap.size) :
    heap.toList.Perm (heap[i] :: (removeAt heap i bound).toList) := by
  unfold removeAt
  split
  · exact dropAt_perm heap i bound
  · exact (dropAt_perm heap i bound).trans ((down_perm _ _ _).symm.cons _)

/-- `Remove` takes nothing when no item carries the job id. -/
theorem remove_of_absent {q : JobPriorityQueue} {job : JobId}
    (absent : ∀ wt ∈ q.items, wt.jobid ≠ job) : q.remove job = (false, q) := by
  unfold remove
  split
  · rfl
  · rename_i i found
    obtain ⟨bound, here, -⟩ := Array.findIdx?_eq_some_iff_getElem.1 found
    exact absurd (by simpa using here) (absent q.heap[i] (by simp [items]))

/-- Otherwise it takes exactly one item of the job. -/
theorem remove_of_mem {q : JobPriorityQueue} {job : JobId} {wt : WaitingItem}
    (queued : wt ∈ q.items) (carries : wt.jobid = job) :
    (q.remove job).1 = true ∧
      ∃ taken : WaitingItem, taken.jobid = job ∧ q.items = taken ::ₘ (q.remove job).2.items := by
  unfold remove
  split
  · rename_i absent
    rw [Array.findIdx?_eq_none_iff] at absent
    have := absent wt (by simpa [items] using queued)
    simp [carries] at this
  · rename_i i found
    obtain ⟨bound, here, -⟩ := Array.findIdx?_eq_some_iff_getElem.1 found
    exact ⟨rfl, q.heap[i], by simpa using here, Multiset.coe_eq_coe.2 (removeAt_perm q.heap i bound)⟩

/-! ## The items of one job -/

/-- The queued items that carry a job id. -/
def itemsOf (q : JobPriorityQueue) (jobid : JobId) : Multiset WaitingItem :=
  q.items.filter (·.jobid = jobid)

@[simp] theorem itemsOf_empty (jobid : JobId) : empty.itemsOf jobid = 0 := rfl

theorem mem_itemsOf {q : JobPriorityQueue} {jobid : JobId} {wt : WaitingItem} :
    wt ∈ q.itemsOf jobid ↔ wt ∈ q.items ∧ wt.jobid = jobid := Multiset.mem_filter

theorem itemsOf_push (q : JobPriorityQueue) (wt : WaitingItem) (jobid : JobId) :
    (q.push wt).itemsOf jobid = if wt.jobid = jobid then wt ::ₘ q.itemsOf jobid else q.itemsOf jobid := by
  rw [itemsOf, items_push]
  split
  · rename_i same; exact Multiset.filter_cons_of_pos _ same
  · rename_i other; exact Multiset.filter_cons_of_neg _ other

theorem itemsOf_pop {q q' : JobPriorityQueue} {wt : WaitingItem} (popped : q.pop = some (wt, q'))
    (jobid : JobId) :
    q.itemsOf jobid = if wt.jobid = jobid then wt ::ₘ q'.itemsOf jobid else q'.itemsOf jobid := by
  rw [itemsOf, (items_pop popped).2]
  split
  · rename_i same; exact Multiset.filter_cons_of_pos _ same
  · rename_i other; exact Multiset.filter_cons_of_neg _ other

/-- `Remove` takes one item of the job, if there is one, and no item of another job. -/
theorem itemsOf_remove (q : JobPriorityQueue) (job jobid : JobId) :
    (q.remove job).2.itemsOf jobid ≤ q.itemsOf jobid ∧
      (jobid = job → ((q.remove job).2.itemsOf jobid).card = (q.itemsOf jobid).card - 1) ∧
      (jobid ≠ job → (q.remove job).2.itemsOf jobid = q.itemsOf jobid) := by
  by_cases queued : ∃ wt ∈ q.items, wt.jobid = job
  · obtain ⟨wt, member, carries⟩ := queued
    obtain ⟨-, taken, named, split⟩ := remove_of_mem member carries
    have before : q.itemsOf jobid = if taken.jobid = jobid
        then taken ::ₘ (q.remove job).2.itemsOf jobid else (q.remove job).2.itemsOf jobid := by
      rw [itemsOf, split]
      split_ifs with same
      · exact Multiset.filter_cons_of_pos _ same
      · exact Multiset.filter_cons_of_neg _ same
    subst named
    refine ⟨?_, ?_, ?_⟩
    · rw [before]
      split_ifs
      · exact Multiset.le_cons_self _ _
      · exact le_rfl
    · rintro rfl
      rw [before, if_pos rfl, Multiset.card_cons, Nat.add_sub_cancel]
    · intro other
      rw [before, if_neg (Ne.symm other)]
  · simp only [not_exists, not_and] at queued
    rw [remove_of_absent queued]
    refine ⟨le_rfl, ?_, fun _ => rfl⟩
    rintro rfl
    have none : q.itemsOf jobid = 0 :=
      Multiset.eq_zero_of_forall_notMem fun wt member => queued wt (mem_itemsOf.1 member).1 (mem_itemsOf.1 member).2
    rw [none, Multiset.card_zero]

end JobPriorityQueue

/-- The calls on the queue. -/
inductive QueueOp where
  | push (item : WaitingItem)
  | pop
  | remove (job : JobId)

end QosPlanner
