import QosPlanner.Monitor.IntPositions

/-!
# Whether the queue shows its earliest event

The monitor looks only at the root of the vector, so the queue is a priority queue by
earliest time as long as the root is an earliest item (`RootMin`). `Down` moves the
earlier events up, but `Up` compares the other way round: it moves the *later* event up.
Hence `RootMin` is not an invariant, and what follows is exactly when each operation
keeps it, and so exactly which runs of the queue with its `int` positions keep it
(`earliest_first_iff`).
-/

namespace QosPlanner
set_option autoImplicit false

open JobPriorityQueue

/-- The time of the item at a position. -/
def timeAt (heap : Array WaitingItem) (i : Nat) : TimePoint := (heap.getD i default).timeOfEvent

theorem timeAt_eq {heap : Array WaitingItem} {i : Nat} (bound : i < heap.size) :
    timeAt heap i = heap[i].timeOfEvent := by simp [timeAt, bound]

theorem timeAt_swap {heap : Array WaitingItem} {i j : Nat} (hi : i < heap.size) (hj : j < heap.size) (k : Nat) :
    timeAt (heap.swap i j) k = if k = i then timeAt heap j else if k = j then timeAt heap i else timeAt heap k := by
  by_cases bound : k < heap.size
  · rw [timeAt_eq (by simpa using bound), Array.getElem_swap, timeAt_eq hi, timeAt_eq hj, timeAt_eq bound]
    split <;> [rfl; split <;> rfl]
  · have ki : k ≠ i := by omega
    have kj : k ≠ j := by omega
    simp [timeAt, bound, ki, kj]

/-- No queued item is earlier than the root. -/
def RootMin (q : JobPriorityQueue) : Prop := ∀ x ∈ q.items, timeAt q.heap 0 ≤ x.timeOfEvent

/-- The positions `Up` passes on its way from `pos` to the root. -/
def ancestors (pos : Nat) : List Nat :=
  if pos = 0 then [] else (pos - 1) / 2 :: ancestors ((pos - 1) / 2)
termination_by pos
decreasing_by omega

/-- Once the root has left, the item in its place is the earliest of the rest: the last
item comes to the root, and from four items on the root's two children compete with it. -/
def RootLeaves (heap : Array WaitingItem) : Prop :=
  if heap.size ≤ 3 then ∀ x ∈ heap.toList.tail, timeAt heap (heap.size - 1) ≤ x.timeOfEvent
  else ∀ x ∈ heap.toList.tail, timeAt heap (heap.size - 1) ≤ x.timeOfEvent ∨
    timeAt heap 1 ≤ x.timeOfEvent ∨ timeAt heap 2 ≤ x.timeOfEvent

/-- When a call leaves an earliest item at the root of a queue that has one there. -/
def KeepsEarliest (q : JobPriorityQueue) : QueueOp → Prop
  | .push item => q.items = 0 ∨ timeAt q.heap 0 ≤ item.timeOfEvent ∧
      ∃ a ∈ ancestors q.heap.size, item.timeOfEvent ≤ timeAt q.heap a
  | .pop => RootLeaves q.heap
  | .remove job => ∀ wt, q.peek = some wt → wt.jobid = job → RootLeaves q.heap

theorem rootMin_empty : RootMin JobPriorityQueue.empty := by simp [RootMin]

theorem mem_items {q : JobPriorityQueue} {x : WaitingItem} : x ∈ q.items ↔ x ∈ q.heap.toList := Multiset.mem_coe

theorem items_eq_zero {q : JobPriorityQueue} : q.items = 0 ↔ q.heap.size = 0 := by simp [items]

/-! ## `Push` -/

theorem ancestors_lt {pos a : Nat} (h : a ∈ ancestors pos) : a < pos := by
  fun_induction ancestors pos with
  | case1 => cases h
  | case2 pos nonroot ih =>
    rcases List.mem_cons.1 h with rfl | h
    · omega
    · have := ih h; omega

theorem zero_mem_ancestors {pos : Nat} (nonroot : pos ≠ 0) : 0 ∈ ancestors pos := by
  fun_induction ancestors pos with
  | case1 => exact absurd rfl nonroot
  | case2 pos _ ih =>
    by_cases top : (pos - 1) / 2 = 0
    · rw [top]; exact List.mem_cons_self
    · exact List.mem_cons_of_mem _ (ih top)

/-- `Up` brings the item at `pos` to the root iff it is later than all it passes. -/
theorem timeAt_up_zero (queue : Array WaitingItem) (pos : Nat) (bound : pos < queue.size) :
    timeAt (up queue pos bound) 0 =
      if ∀ a ∈ ancestors pos, timeAt queue a < timeAt queue pos then timeAt queue pos else timeAt queue 0 := by
  fun_induction up queue pos bound with
  | case1 queue bound => simp [ancestors]
  | case2 queue pos bound nonroot parent earlier ih =>
    have bound' : parent < queue.size := by omega
    have climbs : timeAt queue parent < timeAt queue pos := by rwa [timeAt_eq bound', timeAt_eq bound]
    have above : ∀ a ∈ ancestors parent, timeAt (queue.swap parent pos) a = timeAt queue a := fun a h => by
      have := ancestors_lt h
      rw [timeAt_swap bound' bound, if_neg (by omega), if_neg (by omega)]
    have same : (∀ a ∈ ancestors pos, timeAt queue a < timeAt queue pos) ↔
        ∀ a ∈ ancestors parent, timeAt (queue.swap parent pos) a < timeAt queue pos := by
      rw [ancestors, if_neg nonroot, List.forall_mem_cons]
      exact ⟨fun h a ha => by rw [above a ha]; exact h.2 a ha,
        fun h => ⟨climbs, fun a ha => by rw [← above a ha]; exact h a ha⟩⟩
    have moved : timeAt (queue.swap parent pos) parent = timeAt queue pos := by
      rw [timeAt_swap bound' bound, if_pos rfl]
    rw [ih, moved]
    simp only [same]
    split
    · rfl
    · rename_i stops
      have inner : parent ≠ 0 := fun top => stops (by simp [top, ancestors])
      rw [timeAt_swap bound' bound, if_neg (Ne.symm inner), if_neg (Ne.symm nonroot)]
  | case3 queue pos bound nonroot parent later =>
    rw [if_neg]
    intro all
    have := all parent (by rw [ancestors, if_neg nonroot]; exact List.mem_cons_self)
    rw [timeAt_eq (by omega), timeAt_eq bound] at this
    exact later this

theorem timeAt_push_old {heap : Array WaitingItem} {item : WaitingItem} {i : Nat} (bound : i < heap.size) :
    timeAt (heap.push item) i = timeAt heap i := by
  rw [timeAt_eq (by simp; omega), timeAt_eq bound, Array.getElem_push_lt bound]

theorem rootMin_push_iff {q : JobPriorityQueue} (root : RootMin q) (item : WaitingItem) :
    RootMin (q.push item) ↔ KeepsEarliest q (.push item) := by
  have last : timeAt (q.heap.push item) q.heap.size = item.timeOfEvent := by simp [timeAt]
  have up := timeAt_up_zero (q.heap.push item) q.heap.size (by simp)
  rw [last] at up
  unfold RootMin KeepsEarliest
  rw [items_push, items_eq_zero]
  simp only [Multiset.mem_cons, forall_eq_or_imp]
  change timeAt (QosPlanner.up _ _ _) 0 ≤ item.timeOfEvent ∧ (∀ x ∈ q.items, timeAt (QosPlanner.up _ _ _) 0 ≤ _) ↔ _
  rw [up]
  by_cases none : q.heap.size = 0
  · simp [none, ancestors, items_eq_zero.2 none]
  · have old : ∀ a ∈ ancestors q.heap.size, timeAt (q.heap.push item) a = timeAt q.heap a :=
      fun a h => timeAt_push_old (ancestors_lt h)
    have zero := zero_mem_ancestors none
    split
    · rename_i climbs
      have later : ∀ a ∈ ancestors q.heap.size, timeAt q.heap a < item.timeOfEvent :=
        fun a h => old a h ▸ climbs a h
      refine iff_of_false (fun h => ?_) (fun h => ?_)
      · have bound : 0 < q.heap.size := by omega
        have earlier := h.2 q.heap[0] (by simp [items])
        rw [← timeAt_eq bound] at earlier
        exact absurd (later 0 zero) (not_lt_of_ge earlier)
      · obtain ⟨a, h, stops⟩ := h.resolve_left none |>.2
        exact absurd (later a h) (not_lt_of_ge stops)
    · rename_i stops
      simp only [not_forall, not_lt] at stops
      obtain ⟨a, h, stops⟩ := stops
      rw [timeAt_push_old (by omega)]
      rw [old a h] at stops
      exact ⟨fun h' => Or.inr ⟨h'.1, a, h, stops⟩, fun h' => ⟨(h'.resolve_left none).1, root⟩⟩

/-! ## `Pop` and `Remove` -/

/-- `Down` leaves the positions above `pos` alone. -/
theorem timeAt_down_lt (queue : Array WaitingItem) (pos : Nat) (bound : pos < queue.size) {j : Nat}
    (above : j < pos) : timeAt (down queue pos bound) j = timeAt queue j := by
  fun_induction down queue pos bound with
  | case1 => rfl
  | case2 => rfl
  | case3 => rfl
  | case4 queue pos bound one two child range later ih =>
    rw [ih (by omega), timeAt_swap range.2 bound, if_neg (by omega), if_neg (by omega)]

/-- `Down` changes nothing at a node with fewer than two children. -/
theorem down_of_childless {queue : Array WaitingItem} {pos : Nat} {bound : pos < queue.size}
    (few : queue.size ≤ 2 * pos + 2) : down queue pos bound = queue := by
  unfold down
  split <;> rfl

/-- With at least three items, `Down` from the root ends with the earliest of the root and
its two children there. -/
theorem timeAt_down_zero_le {queue : Array WaitingItem} (size : 3 ≤ queue.size) (t : TimePoint) :
    timeAt (down queue 0 (by omega)) 0 ≤ t ↔
      timeAt queue 0 ≤ t ∨ timeAt queue 1 ≤ t ∨ timeAt queue 2 ≤ t := by
  have child : ∀ bound, timeAt queue (posToCheck queue 0 bound) ≤ t ↔ timeAt queue 1 ≤ t ∨ timeAt queue 2 ≤ t := by
    intro bound
    unfold posToCheck
    rw [← timeAt_eq, ← timeAt_eq]
    split
    · rename_i first
      exact ⟨Or.inl, fun h => h.elim id (le_trans (le_of_lt first))⟩
    · rename_i second
      exact ⟨Or.inr, fun h => h.elim (le_trans (not_lt.1 second)) id⟩
  have bound : 2 * 0 + 2 < queue.size := by omega
  have range := posToCheck_range bound
  rw [down, if_neg (by omega), dif_neg (by omega)]
  dsimp only
  split
  · rename_i stays
    rw [← timeAt_eq, ← timeAt_eq] at stays
    have := child (by omega)
    exact ⟨Or.inl, fun h => h.elim id fun h => le_trans (le_of_lt stays) (this.2 h)⟩
  · rename_i sinks
    rw [← timeAt_eq, ← timeAt_eq, not_lt] at sinks
    rw [timeAt_down_lt _ _ _ range.1, timeAt_swap range.2 (by omega), if_neg (by omega), if_pos rfl, child]
    exact ⟨Or.inr, fun h => h.elim (fun h => (child (by omega)).1 (le_trans sinks h)) id⟩

theorem timeAt_dropAt {heap : Array WaitingItem} {i j : Nat} (bound : i < heap.size) (hj : j < heap.size - 1) :
    timeAt (dropAt heap i bound) j = if i = j then timeAt heap (heap.size - 1) else timeAt heap j := by
  rw [timeAt_eq (by simpa using hj), timeAt_eq (by omega), timeAt_eq (by omega)]
  simp only [dropAt, Array.getElem_pop, Array.getElem_set]
  split <;> rfl

/-- The root of what is left when the item at the root has been dropped. -/
theorem timeAt_removeAt_zero_le {heap : Array WaitingItem} (bound : 0 < heap.size) (some : heap.size ≠ 1)
    (t : TimePoint) :
    timeAt (removeAt heap 0 bound) 0 ≤ t ↔ timeAt heap (heap.size - 1) ≤ t ∨
      3 < heap.size ∧ (timeAt heap 1 ≤ t ∨ timeAt heap 2 ≤ t) := by
  rw [removeAt, dif_neg (by omega)]
  by_cases three : heap.size ≤ 3
  · rw [down_of_childless (by simp; omega), timeAt_dropAt bound (by omega), if_pos rfl]
    simp [Nat.not_lt.2 three]
  · rw [timeAt_down_zero_le (by simp; omega), timeAt_dropAt bound (by omega), timeAt_dropAt bound (by omega),
      timeAt_dropAt bound (by omega), if_pos rfl, if_neg (by omega), if_neg (by omega)]
    simp [show 3 < heap.size by omega]

/-- When the root is dropped, the rest has an earliest item at the root iff `RootLeaves`. -/
theorem rootMin_removeAt_zero_iff (heap : Array WaitingItem) (bound : 0 < heap.size) :
    RootMin ⟨removeAt heap 0 bound⟩ ↔ RootLeaves heap := by
  have rest : (removeAt heap 0 bound).toList.Perm heap.toList.tail := by
    have perm := removeAt_perm heap 0 bound
    have split : heap.toList = heap[0] :: heap.toList.tail := by
      obtain ⟨_ | ⟨x, rest⟩⟩ := heap
      · cases bound
      · rfl
    rw [split] at perm
    exact (List.Perm.cons_inv perm).symm
  unfold RootMin RootLeaves
  simp only [mem_items, rest.mem_iff]
  by_cases one : heap.size = 1
  · have none : heap.toList.tail = [] := List.length_eq_zero_iff.1 (by simp [one])
    simp [none]
  · simp only [timeAt_removeAt_zero_le bound one]
    split
    · rename_i three; simp [Nat.not_lt.2 three]
    · rename_i more; simp [show 3 < heap.size by omega]

theorem pop_eq_some {q : JobPriorityQueue} (bound : 0 < q.heap.size) :
    q.pop = some (q.heap[0], ⟨removeAt q.heap 0 bound⟩) := by
  unfold pop removeAt
  rw [dif_neg (by omega)]
  dsimp only [dropAt_size]
  by_cases one : 0 = q.heap.size - 1
  · rw [dif_neg (by simp; omega), dif_pos one]
  · rw [dif_pos (by simp; omega), dif_neg one]

theorem rootMin_pop_iff {q : JobPriorityQueue} (root : RootMin q) :
    RootMin (q.pop.elim q (·.2)) ↔ KeepsEarliest q .pop := by
  by_cases none : q.heap.size = 0
  · have empty : q.heap = #[] := by simpa using none
    have pop : q.pop = Option.none := pop_eq_none.2 (items_eq_zero.2 none)
    rw [pop]
    exact iff_of_true root (by simp [KeepsEarliest, RootLeaves, empty])
  · have bound : 0 < q.heap.size := by omega
    rw [pop_eq_some bound]
    exact rootMin_removeAt_zero_iff q.heap bound

theorem rootMin_remove_iff {q : JobPriorityQueue} (root : RootMin q) (job : JobId) :
    RootMin (q.remove job).2 ↔ KeepsEarliest q (.remove job) := by
  unfold remove KeepsEarliest
  split
  · rename_i absent
    rw [Array.findIdx?_eq_none_iff] at absent
    refine iff_of_true root fun wt shown carries => ?_
    have := absent wt (Array.mem_of_getElem? shown)
    simp [carries] at this
  · rename_i i found
    obtain ⟨bound, here, first⟩ := Array.findIdx?_eq_some_iff_getElem.1 found
    have here : q.heap[i].jobid = job := by simpa using here
    by_cases top : i = 0
    · subst top
      rw [rootMin_removeAt_zero_iff q.heap bound]
      refine ⟨fun leaves _ _ _ => leaves, fun h => h q.heap[0] ?_ here⟩
      simp [JobPriorityQueue.peek, bound]
    · refine iff_of_true (fun x member => ?_) (fun wt shown carries => ?_)
      · have old : x ∈ q.items :=
          mem_items.2 ((removeAt_perm q.heap i bound).mem_iff.2 (List.mem_cons_of_mem _ (mem_items.1 member)))
        have same : timeAt (removeAt q.heap i bound) 0 = timeAt q.heap 0 := by
          unfold removeAt
          split
          · rw [timeAt_dropAt bound (by omega), if_neg top]
          · rw [timeAt_down_lt _ _ _ (by omega), timeAt_dropAt bound (by omega), if_neg top]
        exact same ▸ root x old
      · have := first 0 (by omega)
        simp only [JobPriorityQueue.peek, Array.getElem?_eq_some_iff] at shown
        obtain ⟨_, rfl⟩ := shown
        simp [carries] at this

namespace IntPositions

/-- **Earliest first.** A non-empty queue shows and hands out an item no other is earlier
than, and so a job is ready exactly when some queued event is overdue. -/
structure EarliestFirst (q : JobPriorityQueue) : Prop where
  peek : q.items ≠ 0 → ∃ wt, q.peek = some wt ∧ wt ∈ q.items ∧ ∀ x ∈ q.items, wt.timeOfEvent ≤ x.timeOfEvent
  pop : q.items ≠ 0 → ∃ wt q', IntPositions.pop q = some (some wt, q') ∧ wt ∈ q.items ∧
    ∀ x ∈ q.items, wt.timeOfEvent ≤ x.timeOfEvent
  ready : ∀ now, q.isThereAReadyJob now = true ↔ ∃ x ∈ q.items, x.timeOfEvent < now

/-- Every call so far has stayed inside the vector, and the queue is earliest first. -/
def ShowsEarliest (q : Option JobPriorityQueue) : Prop := ∃ q', q = some q' ∧ EarliestFirst q'

/-- When a call leaves the queue earliest first: a `Push` needs room, and each call the root. -/
def StaysEarliest (q : Option JobPriorityQueue) (op : QueueOp) : Prop :=
  RoomToPush q op ∧ ∃ q', q = some q' ∧ KeepsEarliest q' op

/-- The root decides what `EarliestFirst` says. -/
theorem earliestFirst_iff_rootMin {q : JobPriorityQueue} (few : q.items.card ≤ 2 ^ 31) :
    EarliestFirst q ↔ RootMin q := by
  by_cases none : q.heap.size = 0
  · have noItem : q.items = 0 := items_eq_zero.2 none
    refine iff_of_true ⟨fun h => absurd noItem h, fun h => absurd noItem h, fun now => ?_⟩ ?_
    · simp [isThereAReadyJob, JobPriorityQueue.peek, none, noItem]
    · simp [RootMin, noItem]
  · have bound : 0 < q.heap.size := by omega
    have root : q.peek = some q.heap[0] := by simp [JobPriorityQueue.peek, bound]
    have popped : IntPositions.pop q = some (some q.heap[0], ⟨removeAt q.heap 0 bound⟩) := by
      rw [pop_eq (by rwa [card_items] at few), pop_eq_some bound]
      rfl
    have member : q.heap[0] ∈ q.items := by simp [items]
    have some : q.items ≠ 0 := by rwa [Ne, items_eq_zero]
    rw [RootMin, timeAt_eq bound]
    constructor
    · intro first
      obtain ⟨wt, shown, -, least⟩ := first.peek some
      rw [root] at shown
      cases shown
      exact least
    · intro least
      refine ⟨fun _ => ⟨_, root, member, least⟩, fun _ => ⟨_, _, popped, member, least⟩, fun now => ?_⟩
      simp only [isThereAReadyJob, root, decide_eq_true_eq]
      refine ⟨fun ready => ⟨_, member, ready⟩, ?_⟩
      rintro ⟨x, queued, overdue⟩
      exact lt_of_le_of_lt (least x queued) overdue

theorem showsEarliest_some {q : JobPriorityQueue} (few : Few (some q)) : ShowsEarliest (some q) ↔ RootMin q := by
  rw [← earliestFirst_iff_rootMin (few q rfl)]
  constructor
  · rintro ⟨_, ⟨⟩, first⟩
    exact first
  · exact fun first => ⟨q, rfl, first⟩

theorem staysEarliest_some {q : JobPriorityQueue} {op : QueueOp} (room : RoomToPush (some q) op) :
    StaysEarliest (some q) op ↔ KeepsEarliest q op := by
  constructor
  · rintro ⟨-, _, ⟨⟩, keeps⟩
    exact keeps
  · exact fun keeps => ⟨room, q, rfl, keeps⟩

/-- **One call** on a queue with an earliest item at its root leaves one there iff it has room
and is one of those `KeepsEarliest` lists. -/
theorem showsEarliest_apply_iff {q : Option JobPriorityQueue} (op : QueueOp) (few : Few q)
    (first : ShowsEarliest q) : ShowsEarliest (apply q op) ↔ StaysEarliest q op := by
  obtain ⟨q, rfl, first⟩ := first
  have bound : q.heap.size ≤ 2 ^ 31 := by rw [← card_items]; exact few q rfl
  have root : RootMin q := (earliestFirst_iff_rootMin (few q rfl)).1 first
  have fewAfter : Few (apply (some q) op) := few_apply op few
  cases op with
  | push item =>
    by_cases room : q.heap.size < 2 ^ 31
    · have after : apply (some q) (.push item) = some (q.push item) := push_eq room item
      rw [after] at fewAfter ⊢
      rw [showsEarliest_some fewAfter, rootMin_push_iff root, staysEarliest_some]
      rwa [RoomToPush, card_items]
    · -- the position of the new item is negative: nothing is known after `Up`
      have after : apply (some q) (.push item) = none := push_full (le_antisymm bound (Nat.not_lt.1 room)) item
      rw [after]
      refine iff_of_false (by simp [ShowsEarliest]) fun stays => room ?_
      rw [← card_items]
      exact stays.1
  | pop =>
    have room : RoomToPush (some q) .pop := trivial
    have after : apply (some q) .pop = some (q.pop.elim q (·.2)) := by
      rw [apply, Option.bind_some, call, pop_eq bound]
      cases q.pop <;> rfl
    rw [after] at fewAfter ⊢
    rw [showsEarliest_some fewAfter, rootMin_pop_iff root, staysEarliest_some room]
  | remove job =>
    have room : RoomToPush (some q) (.remove job) := trivial
    have after : apply (some q) (.remove job) = some (q.remove job).2 := by
      rw [apply, Option.bind_some, call, remove_eq bound]
      rfl
    rw [after] at fewAfter ⊢
    rw [showsEarliest_some fewAfter, rootMin_remove_iff root, staysEarliest_some room]

theorem few_empty : Few (some JobPriorityQueue.empty) := by
  rintro _ ⟨⟩
  simp

/-- **When the queue is a priority queue.** Over any sequence of calls on an empty queue,
every call stays inside the vector and the earliest item is shown first in every state
reached iff no `Push` finds 2^31 items queued and every call is one of those
`KeepsEarliest` lists. -/
theorem earliest_first_iff (ops : List QueueOp) :
    Run.Always apply ShowsEarliest (some JobPriorityQueue.empty) ops ↔
      Run.EachStep apply StaysEarliest (some JobPriorityQueue.empty) ops :=
  Run.always_iff_eachStep (I := Few) (fun _ op few => few_apply op few)
    (fun _ op few first => showsEarliest_apply_iff op few first) few_empty
    ((showsEarliest_some few_empty).2 rootMin_empty)

/-- A later event pushed onto an earlier one takes the root and hides it. -/
theorem later_event_hides_earlier :
    ¬ Run.Always apply ShowsEarliest (some JobPriorityQueue.empty)
      [.push ⟨"wt_1", 10, .JOBSTART, 0⟩, .push ⟨"wt_2", 20, .JOBSTART, 1⟩] := by
  rintro ⟨-, -, q, reached, first⟩
  have both : apply (apply (some JobPriorityQueue.empty) (.push ⟨"wt_1", 10, .JOBSTART, 0⟩))
      (.push ⟨"wt_2", 20, .JOBSTART, 1⟩) =
        some ((JobPriorityQueue.empty.push ⟨"wt_1", 10, .JOBSTART, 0⟩).push ⟨"wt_2", 20, .JOBSTART, 1⟩) := by
    have one : push JobPriorityQueue.empty ⟨"wt_1", 10, .JOBSTART, 0⟩ = some _ := push_eq (by decide) _
    rw [apply, apply, Option.bind_some, call, one, Option.bind_some, call, push_eq (by decide +kernel)]
  rw [both] at reached
  cases reached
  have ready := (first.ready 15).2 ⟨⟨"wt_1", 10, .JOBSTART, 0⟩, by decide +kernel, by decide⟩
  revert ready
  decide +kernel

end IntPositions

end QosPlanner
