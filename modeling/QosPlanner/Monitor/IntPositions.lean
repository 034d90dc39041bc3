import QosPlanner.Run.Always
import QosPlanner.Monitor.JobPriorityQueue

/-!
# The event queue with its positions as `int`s

`JobPriorityQueue` indexes its vector by `int`s, while the size of the vector is a
`size_t`. Here `Up`, `Down` and the scan of `Remove` compute with these types: signed
arithmetic wraps (the test for a negative child in `Down` is written for that), a
comparison with `size()` converts the `int`, and `none` stands for an access outside the
vector, after which nothing is known of the program.

`Down` looks at the sign of a child's position, so it is right for every queue whose
positions are `int`s. `Up` does not look at the sign of its own: `Push` on a queue that
already holds 2^31 items passes it the position 2^31, a negative `int`. Up to there the
operations are those with natural positions (`push_eq`, `pop_eq`, `remove_eq`).
-/

namespace QosPlanner
set_option autoImplicit false

namespace IntPositions

open JobPriorityQueue (items items_push items_pop pop_eq_none remove_of_absent remove_of_mem removeAt)

/-- An `int` as a `size_t`. -/
def sizeT (pos : Int32) : Nat := (pos.toInt % 2 ^ 64).toNat

/-- The place a position that is not negative stands for. -/
def index (pos : Int32) : Nat := pos.toInt.toNat

/-- `queue[pos]` is an element of the vector. -/
structure Inside (queue : Array WaitingItem) (pos : Int32) : Prop where
  nonneg : 0 ≤ pos.toInt
  lt : index pos < queue.size

instance (queue : Array WaitingItem) (pos : Int32) : Decidable (Inside queue pos) :=
  decidable_of_iff (0 ≤ pos.toInt ∧ index pos < queue.size) ⟨fun h => ⟨h.1, h.2⟩, fun h => ⟨h.1, h.2⟩⟩

/-- A number below 2^32 as an `int`: from 2^31 on a negative one. -/
theorem toInt_ofNat {n : Nat} (below : n < 2 ^ 32) :
    (Int32.ofNat n).toInt = if n < 2 ^ 31 then (n : Int) else n - 2 ^ 32 := by
  rw [Int32.toInt_ofNat', Int.bmod_def, show Int32.size = 2 ^ 32 from rfl]
  split <;> split <;> omega

/-- A position that is not negative is a number below 2^31. -/
theorem exists_ofNat {pos : Int32} (nonneg : 0 ≤ pos.toInt) : ∃ n < 2 ^ 31, pos = Int32.ofNat n := by
  have below := pos.toInt_lt
  refine ⟨pos.toInt.toNat, by omega, ?_⟩
  rw [← Int32.toInt_inj, toInt_ofNat (by omega), if_pos (by omega)]
  omega

theorem index_ofNat {n : Nat} (small : n < 2 ^ 31) : index (Int32.ofNat n) = n := by
  rw [index, toInt_ofNat (by omega), if_pos small]
  omega

theorem parent_ofNat {n : Nat} (nonroot : n ≠ 0) (small : n < 2 ^ 31) :
    (Int32.ofNat n - 1) / 2 = Int32.ofNat ((n - 1) / 2) := by
  rw [Int32.ofNat_div (by omega) (by decide), Int32.ofNat_sub n 1 (by omega)]
  rfl

theorem child_ofNat (n k : Nat) : 2 * Int32.ofNat n + Int32.ofNat k = Int32.ofNat (2 * n + k) := by
  rw [Int32.ofNat_add, Int32.ofNat_mul]
  rfl

/-- The parent of a position comes before it. -/
theorem index_parent_lt {pos : Int32} (nonneg : 0 ≤ pos.toInt) (nonroot : pos ≠ 0) :
    index ((pos - 1) / 2) < index pos := by
  obtain ⟨n, small, rfl⟩ := exists_ofNat nonneg
  have positive : n ≠ 0 := by rintro rfl; exact nonroot rfl
  rw [parent_ofNat positive small, index_ofNat small, index_ofNat (by omega)]
  omega

/-- A child that is not negative comes after its parent. -/
theorem index_lt_child {pos : Int32} (nonneg : 0 ≤ pos.toInt) (child1 : 0 ≤ (2 * pos + 1).toInt) :
    index pos < index (2 * pos + 1) ∧ (0 ≤ (2 * pos + 2).toInt → index pos < index (2 * pos + 2)) := by
  obtain ⟨n, small, rfl⟩ := exists_ofNat nonneg
  have first : 2 * Int32.ofNat n + 1 = Int32.ofNat (2 * n + 1) := child_ofNat n 1
  have second : 2 * Int32.ofNat n + 2 = Int32.ofNat (2 * n + 2) := child_ofNat n 2
  rw [first, toInt_ofNat (by omega)] at child1
  split at child1
  · rename_i inRange
    rw [first, second, index_ofNat small, index_ofNat inRange, index, toInt_ofNat (by omega)]
    split <;> omega
  · omega

/-- `Up`. -/
def up (queue : Array WaitingItem) (pos : Int32) : Option (Array WaitingItem) :=
  if nonroot : pos = 0 then some queue
  else
    let parent := (pos - 1) / 2
    if inside : Inside queue parent ∧ Inside queue pos then
      have := inside.1.lt
      have := inside.2.lt
      if queue[index parent].timeOfEvent < queue[index pos].timeOfEvent then
        up (queue.swap (index parent) (index pos)) parent
      else some queue
    else none
termination_by index pos
decreasing_by exact index_parent_lt inside.2.nonneg nonroot

/-- `Down`. -/
def down (queue : Array WaitingItem) (pos : Int32) : Option (Array WaitingItem) :=
  let posChild1 := 2 * pos + 1
  if sizeT posChild1 ≥ queue.size ∨ posChild1 < 0 then some queue
  else
    let posChild2 := 2 * pos + 2
    if sizeT posChild2 ≥ queue.size ∨ posChild2 < 0 then some queue
    else if children : Inside queue posChild1 ∧ Inside queue posChild2 then
      have := children.1.lt
      have := children.2.lt
      let posToCheck :=
        if queue[index posChild1].timeOfEvent < queue[index posChild2].timeOfEvent then posChild1 else posChild2
      if inside : Inside queue pos ∧ Inside queue posToCheck then
        have := inside.1.lt
        have := inside.2.lt
        if queue[index pos].timeOfEvent < queue[index posToCheck].timeOfEvent then some queue
        else down (queue.swap (index posToCheck) (index pos)) posToCheck
      else none
    else none
termination_by queue.size - index pos
decreasing_by
  have after := index_lt_child inside.1.nonneg children.1.nonneg
  have deeper : index pos < index posToCheck := by
    simp only [posToCheck]
    split
    · exact after.1
    · exact after.2 children.2.nonneg
  have := inside.1.lt
  rw [Array.size_swap]
  exact Nat.sub_lt_sub_left this deeper

/-- `Push`. -/
def push (q : JobPriorityQueue) (newItem : WaitingItem) : Option JobPriorityQueue :=
  let heap := q.heap.push newItem
  (up heap (UInt32.ofNat (heap.size - 1)).toInt32).map JobPriorityQueue.mk

theorem heap_pos {q : JobPriorityQueue} (some : ¬ q.heap.size = 0) : 0 < q.heap.size := Nat.pos_of_ne_zero some

/-- `Pop`: the item returned, `none` for the null pointer, and the queue after it. -/
def pop (q : JobPriorityQueue) : Option (Option WaitingItem × JobPriorityQueue) :=
  if h : q.heap.size = 0 then some (none, q)
  else
    have bound : 0 < q.heap.size := heap_pos h
    let returnItem := q.heap[0]
    let heap := dropAt q.heap 0 bound
    if heap.size ≠ 0 then (down heap 0).map fun heap => (some returnItem, ⟨heap⟩)
    else some (some returnItem, ⟨heap⟩)

/-- The loop of `Remove`, from the position `i` on. -/
def removeFrom (heap : Array WaitingItem) (job : JobId) (i : Int32) : Option (Bool × Array WaitingItem) :=
  if sizeT i < heap.size then
    if inside : Inside heap i then
      have := inside.lt
      if heap[index i].jobid = job then
        if sizeT i = heap.size - 1 then some (true, dropAt heap (index i) inside.lt)
        else (down (dropAt heap (index i) inside.lt) i).map fun heap => (true, heap)
      else removeFrom heap job (i + 1)
    else none
  else some (false, heap)
termination_by if i.toInt < 0 then 0 else (2 ^ 31 - i.toInt).toNat
decreasing_by
  obtain ⟨n, small, rfl⟩ := exists_ofNat inside.nonneg
  rw [show Int32.ofNat n + 1 = Int32.ofNat (n + 1) from (Int32.ofNat_add n 1).symm, toInt_ofNat (by omega),
    toInt_ofNat (by omega), if_pos small, if_neg (Int.not_lt.2 (Int.natCast_nonneg n))]
  by_cases last : n + 1 < 2 ^ 31
  · rw [if_pos last, if_neg (Int.not_lt.2 (Int.natCast_nonneg _))]; omega
  · rw [if_neg last, if_pos (by omega)]; omega

/-- `Remove`. -/
def remove (q : JobPriorityQueue) (job : JobId) : Option (Bool × JobPriorityQueue) :=
  (removeFrom q.heap job 0).map fun (found, heap) => (found, ⟨heap⟩)

/-! ## Up to 2^31 items -/

theorem sizeT_ofNat {n : Nat} (small : n < 2 ^ 31) : sizeT (Int32.ofNat n) = n := by
  rw [sizeT, toInt_ofNat (by omega), if_pos small]
  omega

theorem inside_ofNat {queue : Array WaitingItem} {n : Nat} (small : n < 2 ^ 31) :
    Inside queue (Int32.ofNat n) ↔ n < queue.size := by
  constructor
  · intro inside
    rw [← index_ofNat small]
    exact inside.lt
  · intro bound
    refine ⟨?_, by rwa [index_ofNat small]⟩
    rw [toInt_ofNat (by omega), if_pos small]
    omega

/-- How many positions of a vector `Down` sees: those that are `int`s. -/
def visible (size : Nat) : Nat := min size (2 ^ 31)

theorem visible_of_few {size : Nat} (few : size ≤ 2 ^ 31) : visible size = size := Nat.min_eq_left few

/-- The two tests of `Down` on a child, by the number it stands for. -/
theorem noChild_ofNat {queue : Array WaitingItem} {n : Nat} (below : n < 2 ^ 32) :
    (sizeT (Int32.ofNat n) ≥ queue.size ∨ Int32.ofNat n < 0) ↔ visible queue.size ≤ n := by
  rw [Int32.lt_iff_toInt_lt, sizeT, toInt_ofNat below, show (0 : Int32).toInt = 0 from rfl, visible]
  split <;> omega

/-- One call of `Up`, at a natural position. -/
theorem up_ofNat {queue : Array WaitingItem} {n : Nat} (nonroot : n ≠ 0) (bound : n < queue.size)
    (few : queue.size ≤ 2 ^ 31) :
    up queue (Int32.ofNat n) =
      if queue[(n - 1) / 2].timeOfEvent < queue[n].timeOfEvent then
        up (queue.swap ((n - 1) / 2) n) (Int32.ofNat ((n - 1) / 2))
      else some queue := by
  have small : n < 2 ^ 31 := by omega
  have small' : (n - 1) / 2 < 2 ^ 31 := by omega
  have notZero : Int32.ofNat n ≠ 0 := by
    intro h
    have := congrArg index h
    rw [index_ofNat small] at this
    exact nonroot this
  have inside : Inside queue (Int32.ofNat ((n - 1) / 2)) ∧ Inside queue (Int32.ofNat n) :=
    ⟨(inside_ofNat small').2 (by omega), (inside_ofNat small).2 bound⟩
  rw [up, dif_neg notZero]
  simp only [parent_ofNat nonroot small, dif_pos inside, index_ofNat small, index_ofNat small']

/-- `Up` agrees with its form on natural positions. -/
theorem up_eq (queue : Array WaitingItem) (pos : Nat) (bound : pos < queue.size) (few : queue.size ≤ 2 ^ 31) :
    up queue (Int32.ofNat pos) = some (QosPlanner.up queue pos bound) := by
  fun_induction QosPlanner.up queue pos bound with
  | case1 => rw [up]; rfl
  | case2 queue pos bound nonroot parent earlier ih =>
    rw [up_ofNat nonroot bound few, if_pos earlier]
    exact ih (by simpa using few)
  | case3 queue pos bound nonroot parent later => rw [up_ofNat nonroot bound few, if_neg later]

/-- `Down` stops at a node of which it sees fewer than two children. -/
theorem down_childless {queue : Array WaitingItem} {n : Nat} (small : n < 2 ^ 31)
    (childless : visible queue.size ≤ 2 * n + 2) : down queue (Int32.ofNat n) = some queue := by
  have first : 2 * Int32.ofNat n + 1 = Int32.ofNat (2 * n + 1) := child_ofNat n 1
  have second : 2 * Int32.ofNat n + 2 = Int32.ofNat (2 * n + 2) := child_ofNat n 2
  rw [down]
  simp only [first, noChild_ofNat (by omega : 2 * n + 1 < 2 ^ 32)]
  split
  · rfl
  · rename_i one
    have inRange : 2 * n + 2 < 2 ^ 32 := by rw [visible] at one; omega
    simp only [second, noChild_ofNat inRange]
    rw [if_pos childless]

/-- One call of `Down` at a node of which it sees both children. -/
theorem down_ofNat {queue : Array WaitingItem} {n child : Nat} (two : 2 * n + 2 < visible queue.size)
    {bound : 2 * n + 2 < queue.size} (isChild : posToCheck queue n bound = child) (inRange : child < queue.size) :
    down queue (Int32.ofNat n) =
      if queue[n].timeOfEvent < queue[child].timeOfEvent then some queue
      else down (queue.swap child n) (Int32.ofNat child) := by
  have first : 2 * Int32.ofNat n + 1 = Int32.ofNat (2 * n + 1) := child_ofNat n 1
  have second : 2 * Int32.ofNat n + 2 = Int32.ofNat (2 * n + 2) := child_ofNat n 2
  have unseen1 : ¬ visible queue.size ≤ 2 * n + 1 := by omega
  have unseen2 : ¬ visible queue.size ≤ 2 * n + 2 := Nat.not_le.2 two
  rw [visible] at two
  have small : n < 2 ^ 31 := by omega
  have small1 : 2 * n + 1 < 2 ^ 31 := by omega
  have small2 : 2 * n + 2 < 2 ^ 31 := by omega
  have children : Inside queue (Int32.ofNat (2 * n + 1)) ∧ Inside queue (Int32.ofNat (2 * n + 2)) :=
    ⟨(inside_ofNat small1).2 (by omega), (inside_ofNat small2).2 bound⟩
  have chosen : (if queue[2 * n + 1].timeOfEvent < queue[2 * n + 2].timeOfEvent
      then Int32.ofNat (2 * n + 1) else Int32.ofNat (2 * n + 2)) = Int32.ofNat child := by
    rw [← isChild, posToCheck]
    split <;> rfl
  have smallChild : child < 2 ^ 31 := by
    rw [← isChild, posToCheck]
    split <;> assumption
  have inside : Inside queue (Int32.ofNat n) ∧ Inside queue (Int32.ofNat child) :=
    ⟨(inside_ofNat small).2 (by omega), (inside_ofNat smallChild).2 inRange⟩
  rw [down]
  simp only [first, second, noChild_ofNat (by omega : 2 * n + 1 < 2 ^ 32), noChild_ofNat (by omega : 2 * n + 2 < 2 ^ 32),
    if_neg unseen1, if_neg unseen2, dif_pos children, index_ofNat small1, index_ofNat small2, chosen, dif_pos inside,
    index_ofNat small, index_ofNat smallChild]

/-- `Down` agrees with its form on natural positions. -/
theorem down_eq (queue : Array WaitingItem) (pos : Nat) (bound : pos < queue.size) (few : queue.size ≤ 2 ^ 31) :
    down queue (Int32.ofNat pos) = some (QosPlanner.down queue pos bound) := by
  fun_induction QosPlanner.down queue pos bound with
  | case1 queue pos bound none => exact down_childless (by omega) (by rw [visible_of_few few]; omega)
  | case2 queue pos bound none one => exact down_childless (by omega) (by rwa [visible_of_few few])
  | case3 queue pos bound none one child range stays =>
    rw [down_ofNat (by rw [visible_of_few few]; omega) rfl range.2, if_pos stays]
  | case4 queue pos bound none one child range sinks ih =>
    rw [down_ofNat (by rw [visible_of_few few]; omega) rfl range.2, if_neg sinks]
    exact ih (by simpa using few)

/-- `Push`, with the item's position as it is passed to `Up`. -/
theorem push_eq {q : JobPriorityQueue} (room : q.heap.size < 2 ^ 31) (newItem : WaitingItem) :
    push q newItem = some (q.push newItem) := by
  have last : (q.heap.push newItem).size - 1 = q.heap.size := by simp
  have position := up_eq (q.heap.push newItem) q.heap.size (by simp) (by simpa using room)
  rw [push, last, UInt32.toInt32_ofNat', position]
  rfl

/-- The position after 2^31 items is negative. -/
theorem push_full {q : JobPriorityQueue} (full : q.heap.size = 2 ^ 31) (newItem : WaitingItem) :
    push q newItem = none := by
  have last : (q.heap.push newItem).size - 1 = 2 ^ 31 := by simp [full]
  have outside : ¬ Inside (q.heap.push newItem) (Int32.ofNat (2 ^ 31)) := fun inside =>
    absurd inside.nonneg (by decide)
  rw [push, last, UInt32.toInt32_ofNat', up, dif_neg (by decide)]
  rw [dif_neg fun inside => outside inside.2]
  rfl

theorem pop_eq {q : JobPriorityQueue} (few : q.heap.size ≤ 2 ^ 31) :
    pop q = some (q.pop.elim (none, q) fun (item, q') => (some item, q')) := by
  unfold pop JobPriorityQueue.pop
  split
  · rfl
  · rename_i some
    dsimp only
    split
    · rename_i rest
      have sift := down_eq (dropAt q.heap 0 (by omega)) 0 (by omega) (by simp; omega)
      rw [show (0 : Int32) = Int32.ofNat 0 from rfl, sift]
      rfl
    · rfl

/-- One turn of `Remove`'s loop, at a natural position. -/
theorem removeFrom_ofNat {heap : Array WaitingItem} (job : JobId) {i : Nat} (bound : i < heap.size) (small : i < 2 ^ 31) :
    removeFrom heap job (Int32.ofNat i) =
      if heap[i].jobid = job then
        if i = heap.size - 1 then some (true, dropAt heap i bound)
        else (down (dropAt heap i bound) (Int32.ofNat i)).map fun heap => (true, heap)
      else removeFrom heap job (Int32.ofNat (i + 1)) := by
  have inside : Inside heap (Int32.ofNat i) := (inside_ofNat small).2 bound
  have next : Int32.ofNat i + 1 = Int32.ofNat (i + 1) := (Int32.ofNat_add i 1).symm
  rw [removeFrom]
  simp only [sizeT_ofNat small, if_pos bound, dif_pos inside, index_ofNat small, next]

/-- The loop ends behind the last item, or where its position is no `int` any more. -/
theorem removeFrom_end {heap : Array WaitingItem} (job : JobId) (vector : heap.size < 2 ^ 63) :
    removeFrom heap job (Int32.ofNat (visible heap.size)) = some (false, heap) := by
  have below : visible heap.size < 2 ^ 32 := by rw [visible]; omega
  rw [removeFrom, if_neg]
  rw [sizeT, toInt_ofNat below, visible]
  split <;> omega

/-- A scan past other jobs only. -/
theorem removeFrom_past {heap : Array WaitingItem} {job : JobId} {i : Nat} (bound : i ≤ visible heap.size)
    (others : ∀ j, (h : j < heap.size) → j < i → heap[j].jobid ≠ job) :
    removeFrom heap job (Int32.ofNat 0) = removeFrom heap job (Int32.ofNat i) := by
  induction i with
  | zero => rfl
  | succ i ih =>
    have inVector : i < heap.size := by rw [visible] at bound; omega
    have small : i < 2 ^ 31 := by rw [visible] at bound; omega
    rw [ih (by omega) fun j h before => others j h (by omega), removeFrom_ofNat job inVector small,
      if_neg (others i inVector (by omega))]

/-- **`Remove` of a job it finds**: the first of its items leaves the vector. -/
theorem remove_found {q : JobPriorityQueue} {job : JobId} {i : Nat}
    (found : q.heap.findIdx? (·.jobid = job) = some i) (bound : i < q.heap.size) (small : i < 2 ^ 31) :
    remove q job =
      if i = q.heap.size - 1 then some (true, ⟨dropAt q.heap i bound⟩)
      else (down (dropAt q.heap i bound) (Int32.ofNat i)).map fun heap => (true, ⟨heap⟩) := by
  obtain ⟨_, here, first⟩ := Array.findIdx?_eq_some_iff_getElem.1 found
  have others : ∀ j, (h : j < q.heap.size) → j < i → q.heap[j].jobid ≠ job := fun j h before => by
    simpa using first j before
  have visibleHere : i ≤ visible q.heap.size := by rw [visible]; omega
  rw [remove, show (0 : Int32) = Int32.ofNat 0 from rfl, removeFrom_past visibleHere others,
    removeFrom_ofNat job bound small, if_pos (by simpa using here)]
  split
  · rfl
  · rw [Option.map_map]
    rfl

/-- **`Remove` of a job it does not find**, since no item at an `int` carries its id. -/
theorem remove_absent {q : JobPriorityQueue} {job : JobId} (vector : q.heap.size < 2 ^ 63)
    (absent : ∀ i, q.heap.findIdx? (·.jobid = job) = some i → 2 ^ 31 ≤ i) : remove q job = some (false, q) := by
  have others : ∀ j, (h : j < q.heap.size) → j < visible q.heap.size → q.heap[j].jobid ≠ job := by
    intro j h before carries
    cases found : q.heap.findIdx? (·.jobid = job) with
    | none =>
      rw [Array.findIdx?_eq_none_iff] at found
      simpa [carries] using found q.heap[j] (Array.getElem_mem h)
    | some i =>
      have far := absent i found
      obtain ⟨_, -, first⟩ := Array.findIdx?_eq_some_iff_getElem.1 found
      rw [visible] at before
      simpa [carries] using first j (by omega)
  rw [remove, show (0 : Int32) = Int32.ofNat 0 from rfl, removeFrom_past le_rfl others, removeFrom_end job vector]
  rfl

theorem remove_eq {q : JobPriorityQueue} (few : q.heap.size ≤ 2 ^ 31) (job : JobId) :
    remove q job = some (q.remove job) := by
  unfold JobPriorityQueue.remove
  split
  · rename_i absent
    exact remove_absent (by omega) fun i found => by simp [found] at absent
  · rename_i i found
    have bound := (Array.findIdx?_eq_some_iff_getElem.1 found).1
    rw [remove_found found bound (by omega), removeAt]
    split
    · rfl
    · rw [down_eq _ i (by simp; omega) (by simp; omega)]
      rfl

/-! ## The queue against a bag -/

/-- The queue after a call. -/
def call (q : JobPriorityQueue) : QueueOp → Option JobPriorityQueue
  | .push newItem => push q newItem
  | .pop => (pop q).map (·.2)
  | .remove job => (remove q job).map (·.2)

/-- A call in a run; `none` once a call has left the vector. -/
def apply (q : Option JobPriorityQueue) (op : QueueOp) : Option JobPriorityQueue := q.bind fun q => call q op

/-- What a plain bag answers to a call, and what it holds afterwards: the call stays inside
the vector, and does to the items what it would do to the bag. -/
def LikeBag : Option JobPriorityQueue → QueueOp → Prop
  | none, _ => False
  | some q, .push newItem => ∃ q', push q newItem = some q' ∧ q'.items = newItem ::ₘ q.items
  | some q, .pop => ∃ item q', pop q = some (item, q') ∧ item = q.peek ∧ (item = none ↔ q.items = 0) ∧
      q.items = item.elim 0 ({·}) + q'.items
  | some q, .remove job => ∃ found q', remove q job = some (found, q') ∧
      (found = true ↔ ∃ wt ∈ q.items, wt.jobid = job) ∧
      if found then ∃ taken : WaitingItem, taken.jobid = job ∧ q.items = taken ::ₘ q'.items else q'.items = q.items

/-- `Push` finds fewer than 2^31 items queued. -/
def RoomToPush : Option JobPriorityQueue → QueueOp → Prop
  | none, _ => False
  | some q, .push _ => q.items.card < 2 ^ 31
  | some _, _ => True

/-- The positions of the queue's items are `int`s. -/
def Few (q : Option JobPriorityQueue) : Prop := ∀ q', q = some q' → q'.items.card ≤ 2 ^ 31

theorem card_items (q : JobPriorityQueue) : q.items.card = q.heap.size := by
  rw [items, Multiset.coe_card, Array.length_toList]

theorem likeBag_pop {q : JobPriorityQueue} (few : q.items.card ≤ 2 ^ 31) : LikeBag (some q) .pop := by
  rw [card_items] at few
  have eq := pop_eq few
  cases popped : q.pop with
  | none =>
    rw [popped] at eq
    have none := pop_eq_none.1 popped
    refine ⟨Option.none, q, eq, ?_, by simp [none], by simp⟩
    have size := card_items q
    rw [none, Multiset.card_zero] at size
    simp [JobPriorityQueue.peek, ← size]
  | some p =>
    obtain ⟨item, q'⟩ := p
    rw [popped] at eq
    obtain ⟨shown, split⟩ := items_pop popped
    exact ⟨some item, q', eq, shown.symm, by simp [split], split⟩

theorem likeBag_remove {q : JobPriorityQueue} (few : q.items.card ≤ 2 ^ 31) (job : JobId) :
    LikeBag (some q) (.remove job) := by
  rw [card_items] at few
  refine ⟨(q.remove job).1, (q.remove job).2, remove_eq few job, ?_⟩
  by_cases queued : ∃ wt ∈ q.items, wt.jobid = job
  · obtain ⟨wt, member, carries⟩ := queued
    obtain ⟨found, taken⟩ := remove_of_mem member carries
    rw [found]
    exact ⟨iff_of_true rfl ⟨wt, member, carries⟩, taken⟩
  · have others : ∀ wt ∈ q.items, wt.jobid ≠ job := by simpa using queued
    rw [remove_of_absent others]
    exact ⟨iff_of_false (by simp) queued, rfl⟩

/-- A call does to the items what it would do to a bag iff it is no `Push` on a full queue. -/
theorem likeBag_iff {q : Option JobPriorityQueue} (op : QueueOp) (few : Few q) : LikeBag q op ↔ RoomToPush q op := by
  cases q with
  | none => exact Iff.rfl
  | some q =>
    have few := few q rfl
    cases op with
    | push newItem =>
      constructor
      · rintro ⟨q', pushed, -⟩
        refine lt_of_le_of_ne few fun full => ?_
        rw [push_full (by rwa [card_items] at full)] at pushed
        cases pushed
      · intro room
        rw [RoomToPush, card_items] at room
        exact ⟨_, push_eq room newItem, items_push q newItem⟩
    | pop => exact iff_of_true (likeBag_pop few) trivial
    | remove job => exact iff_of_true (likeBag_remove few job) trivial

/-- `Pop` and `Remove` add no item. -/
theorem card_items_call_le {q q' : JobPriorityQueue} (few : q.items.card ≤ 2 ^ 31) {op : QueueOp}
    (noPush : ∀ newItem, op ≠ .push newItem) (after : call q op = some q') : q'.items.card ≤ q.items.card := by
  cases op with
  | push newItem => exact absurd rfl (noPush newItem)
  | pop =>
    obtain ⟨item, next, popped, -, -, split⟩ := likeBag_pop few
    rw [call, popped] at after
    cases after
    rw [split]
    exact Multiset.card_le_card (Multiset.le_add_left _ _)
  | remove job =>
    obtain ⟨found, next, removed, -, left⟩ := likeBag_remove few job
    rw [call, removed] at after
    cases after
    split at left
    · obtain ⟨taken, -, split⟩ := left
      rw [split]
      exact Multiset.card_le_card (Multiset.le_cons_self _ taken)
    · rw [left]

/-- No call brings more items into the queue than there are positions. -/
theorem few_apply {q : Option JobPriorityQueue} (op : QueueOp) (few : Few q) : Few (apply q op) := by
  cases q with
  | none => exact few
  | some q =>
    have bound := few q rfl
    intro q' after
    rw [apply, Option.bind_some] at after
    cases op with
    | push newItem =>
      by_cases full : q.items.card = 2 ^ 31
      · rw [call, push_full (by rwa [card_items] at full)] at after
        cases after
      · have room : q.items.card < 2 ^ 31 := lt_of_le_of_ne bound full
        rw [call, push_eq (by rwa [card_items] at room)] at after
        cases after
        rw [items_push, Multiset.card_cons]
        exact room
    | pop => exact (card_items_call_le bound (by simp) after).trans bound
    | remove job => exact (card_items_call_le bound (by simp) after).trans bound

/-- Inside the range of `int`, `Up` and `Down` end inside the vector and permute it. -/
theorem sifts_permute (queue : Array WaitingItem) (pos : Nat) (bound : pos < queue.size)
    (few : queue.size ≤ 2 ^ 31) :
    (∃ sifted, up queue (Int32.ofNat pos) = some sifted ∧ sifted.toList.Perm queue.toList) ∧
      ∃ sifted, down queue (Int32.ofNat pos) = some sifted ∧ sifted.toList.Perm queue.toList :=
  ⟨⟨_, up_eq queue pos bound few, up_perm queue pos bound⟩, _, down_eq queue pos bound few, down_perm queue pos bound⟩

/-- **When the queue is a bag.** Over any sequence of calls on an empty queue, every call
stays inside the vector and does to the items what it would do to a plain bag iff no `Push`
finds 2^31 items queued. -/
theorem queue_like_bag_iff (ops : List QueueOp) :
    (Run.EachStep apply LikeBag (some JobPriorityQueue.empty) ops ↔
      Run.EachStep apply RoomToPush (some JobPriorityQueue.empty) ops) ∧
    ∀ (queue : Array WaitingItem) (pos : Nat), pos < queue.size → queue.size ≤ 2 ^ 31 →
      (∃ sifted, up queue (Int32.ofNat pos) = some sifted ∧ sifted.toList.Perm queue.toList) ∧
        ∃ sifted, down queue (Int32.ofNat pos) = some sifted ∧ sifted.toList.Perm queue.toList := by
  refine ⟨Run.eachStep_iff (I := Few) (fun _ op few => few_apply op few) (fun _ op few => likeBag_iff op few) ?_,
    sifts_permute⟩
  rintro _ ⟨⟩
  simp

/-- Pushes that fill the queue up and one more. -/
theorem not_likeBag_of_pushes (newItem : WaitingItem) {n : Nat} {q : JobPriorityQueue}
    (fills : q.heap.size + n = 2 ^ 31) :
    ¬ Run.EachStep apply LikeBag (some q) (List.replicate (n + 1) (.push newItem)) := by
  induction n generalizing q with
  | zero =>
    rintro ⟨⟨q', pushed, -⟩, -⟩
    rw [push_full fills] at pushed
    cases pushed
  | succ n ih =>
    rw [List.replicate_succ]
    rintro ⟨-, rest⟩
    have room := push_eq (q := q) (by omega) newItem
    rw [apply, Option.bind_some, call, room] at rest
    refine ih ?_ rest
    rw [← card_items, items_push, Multiset.card_cons, card_items]
    omega

/-- One item, pushed 2^31 + 1 times. -/
theorem push_leaves_vector :
    ¬ Run.EachStep apply LikeBag (some JobPriorityQueue.empty)
      (List.replicate (2 ^ 31 + 1) (.push ⟨"wt_1", 10, .JOBSTART, 0⟩)) :=
  not_likeBag_of_pushes _ rfl

end IntPositions

end QosPlanner
