import QosPlanner.Heap.Sift
import QosPlanner.Monitor.EarliestFirst

/-!
# Whether `Down` and `Remove` keep the heap

The vector is a min-heap by the times of its items (`MinHeap`). `Down` is a sift that needs
two children (`Heap.Sinks`): at a node with a left child only it gives up, so the last item
of a vector of even length is compared with nothing. In vectors of more than 2^31 items
the children whose positions are no `int`s are overlooked in the same way. `Remove` puts
the last item into the place that becomes free and lets it sink, but never rise, so it
needs in addition that this item is not earlier than the parent of the place.
-/

namespace QosPlanner
set_option autoImplicit false

namespace IntPositions

open Heap

/-- Min-heap order: no item is earlier than its parent. -/
def MinHeap (queue : Array WaitingItem) : Prop := Ordered (timeAt queue) queue.size

instance (queue : Array WaitingItem) : Decidable (MinHeap queue) :=
  inferInstanceAs (Decidable (Ordered (timeAt queue) queue.size))

/-- No item that an item of the time `t` would be compared with at last, if it were to sink
from `pos`, is an earlier one that `Down` overlooks. -/
def NothingOverlooked (queue : Array WaitingItem) (size pos : Nat) (t : TimePoint) : Prop :=
  ∀ c, Overlooked (visible size) size c → Below (timeAt queue) pos c → t ≤ timeAt queue c

/-- Up to 2^31 items, only a last item without a sibling is overlooked. -/
theorem overlooked_iff {size p c : Nat} (few : size ≤ 2 ^ 31) (isChild : IsChild p c) :
    Overlooked (visible size) size c ↔ c = 2 * p + 1 ∧ c + 1 = size := by
  have children := isChild_iff.1 isChild
  constructor
  · rintro ⟨inHeap, missing⟩
    rw [visible_of_few few, isChild.parent] at missing
    omega
  · rintro ⟨first, last⟩
    refine ⟨by omega, ?_⟩
    rw [visible_of_few few, isChild.parent]
    omega

/-- A vector of an odd number of items, up to 2^31, has no such item. -/
theorem nothingOverlooked_of_odd (queue : Array WaitingItem) {size : Nat} (few : size ≤ 2 ^ 31) (odd : size % 2 = 1)
    (pos : Nat) (t : TimePoint) : NothingOverlooked queue size pos t := by
  intro c overlooked below
  have isChild : IsChild ((c - 1) / 2) c := ⟨Nat.zero_lt_of_lt below.lt, rfl⟩
  obtain ⟨first, last⟩ := (overlooked_iff few isChild).1 overlooked
  omega

/-! ## `Down` is a sift -/

theorem timeAt_swap_eq {queue : Array WaitingItem} {i j : Nat} (hi : i < queue.size) (hj : j < queue.size) :
    timeAt (queue.swap i j) = timeAt queue ∘ Equiv.swap i j := by
  funext k
  rw [timeAt_swap hi hj, Function.comp_apply, Equiv.swap_apply_def]
  split
  · rfl
  · split <;> rfl

/-- `pos_to_check` is the preferred child. -/
theorem posToCheck_preferred {queue : Array WaitingItem} {n : Nat} (bound : 2 * n + 2 < queue.size) :
    IsChild n (posToCheck queue n bound) ∧ Preferred (timeAt queue) (posToCheck queue n bound) := by
  unfold posToCheck
  rw [isChild_iff]
  split
  · rename_i first
    refine ⟨Or.inl rfl, ?_⟩
    rw [Preferred, if_pos (by omega), timeAt_eq (by omega), timeAt_eq (by omega)]
    exact first
  · rename_i second
    refine ⟨Or.inr rfl, ?_⟩
    rw [Preferred, if_neg (by omega), timeAt_eq (by omega), timeAt_eq (by omega)]
    exact not_lt.1 second

/-- **`Down` refines the sift**: it ends inside the vector, with the times that the sift of
the item at its position ends with. -/
theorem sinks_of_down (queue : Array WaitingItem) (n : Nat) (bound : n < queue.size) (small : n < 2 ^ 31) :
    ∃ sifted, down queue (Int32.ofNat n) = some sifted ∧ sifted.size = queue.size ∧
      Sinks (visible queue.size) (timeAt queue) n (timeAt sifted) := by
  by_cases two : 2 * n + 2 < visible queue.size
  · have bound2 : 2 * n + 2 < queue.size := two.trans_le (Nat.min_le_left _ _)
    obtain ⟨isChild, preferred⟩ := posToCheck_preferred bound2
    have inRange := (posToCheck_range bound2).2
    generalize chosen : posToCheck queue n bound2 = child at isChild preferred inRange
    have call := down_ofNat two chosen inRange
    split at call
    · rename_i stays
      rw [← timeAt_eq, ← timeAt_eq] at stays
      exact ⟨queue, call, rfl, .stays two isChild preferred stays⟩
    · rename_i sinks
      rw [← timeAt_eq, ← timeAt_eq, not_lt] at sinks
      have deeper := isChild.lt
      have smallChild : child < 2 ^ 31 := by
        have := isChild_iff.1 isChild
        rw [visible] at two
        omega
      obtain ⟨sifted, rest, size, sift⟩ :=
        sinks_of_down (queue.swap child n) child (by simpa using inRange) smallChild
      rw [Array.size_swap] at size sift
      rw [timeAt_swap_eq inRange bound] at sift
      exact ⟨sifted, call.trans rest, size, .sinks two isChild preferred sinks sift⟩
  · exact ⟨queue, down_childless small (Nat.not_lt.1 two), rfl, .blind (Nat.not_lt.1 two)⟩
termination_by queue.size - n
decreasing_by simp; omega

/-- What `Down` makes of a vector in order but at the children of its position. -/
theorem minHeap_down_iff {queue : Array WaitingItem} {n : Nat} (bound : n < queue.size) (small : n < 2 ^ 31)
    (but : OrderedBut (timeAt queue) queue.size n) :
    ∃ sifted, down queue (Int32.ofNat n) = some sifted ∧
      (MinHeap sifted ↔ NothingOverlooked queue queue.size n (timeAt queue n)) := by
  obtain ⟨sifted, sinks, size, sift⟩ := sinks_of_down queue n bound small
  refine ⟨sifted, sinks, ?_⟩
  rw [MinHeap, size]
  exact sift.ordered_iff (Nat.min_le_left _ _) but

/-- **When `Down` restores the heap.** On a vector in order but at the children of a position,
which are no earlier than the parent of the position, `Down` ends with a min-heap iff it
overlooks no earlier item on the way that the item at the position would go. -/
theorem down_restores_iff (queue : Array WaitingItem) (pos : Int32) (valid : Inside queue pos)
    (but : OrderedBut (timeAt queue) queue.size (index pos)) :
    ∃ sifted, down queue pos = some sifted ∧
      (MinHeap sifted ↔ NothingOverlooked queue queue.size (index pos) (timeAt queue (index pos))) := by
  obtain ⟨n, small, rfl⟩ := exists_ofNat valid.nonneg
  rw [index_ofNat small] at but ⊢
  exact minHeap_down_iff ((inside_ofNat small).1 valid) small but

/-- The start event of a job. -/
def startOf (jobid : JobId) (timeOfEvent : TimePoint) : WaitingItem := ⟨jobid, timeOfEvent, .JOBSTART, 0⟩

/-- Three items, of which the latest is at the root. -/
theorem down_restores_three :
    ∃ sifted, down #[startOf "wt_1" 30, startOf "wt_2" 10, startOf "wt_3" 20] 0 = some sifted ∧ MinHeap sifted := by
  have but : OrderedBut (timeAt #[startOf "wt_1" 30, startOf "wt_2" 10, startOf "wt_3" 20]) 3 0 := by
    constructor
    · intro p c isChild bound outside
      have := isChild_iff.1 isChild
      omega
    · intro p c isRoot
      exact absurd isRoot.positive (by decide)
  obtain ⟨sifted, sinks, restored⟩ := down_restores_iff _ 0 (by decide) but
  exact ⟨sifted, sinks, restored.2 (nothingOverlooked_of_odd _ (by decide) (by decide) _ _)⟩

/-- Of two items the earlier one, a left child without a sibling, stays where it is. -/
theorem down_leaves_last :
    let queue : Array WaitingItem := #[startOf "wt_1" 30, startOf "wt_2" 20]
    Inside queue 0 ∧ OrderedBut (timeAt queue) queue.size (index 0) ∧ down queue 0 = some queue ∧ ¬ MinHeap queue := by
  intro queue
  refine ⟨by decide, ?_, down_childless (n := 0) (by decide) (by decide), by decide⟩
  constructor
  · intro p c isChild bound outside
    have := isChild_iff.1 isChild
    change c < 2 at bound
    change p ≠ 0 at outside
    omega
  · intro p c isRoot
    exact absurd isRoot.positive (by decide)

/-! ## `Remove` -/

/-- The last item can take the place `i` of another one: it is no earlier than the parent of
the place, and sinking from there it passes by no earlier item that `Down` overlooks. -/
structure LastFits (heap : Array WaitingItem) (i : Nat) : Prop where
  above : ∀ p, IsChild p i → timeAt heap p ≤ timeAt heap (heap.size - 1)
  below : NothingOverlooked heap (heap.size - 1) i (timeAt heap (heap.size - 1))

/-- The times when the last item has taken the place `i`. -/
theorem timeAt_dropAt_eq {heap : Array WaitingItem} {i : Nat} (bound : i < heap.size) :
    ∀ j < heap.size - 1, Function.update (timeAt heap) i (timeAt heap (heap.size - 1)) j =
      timeAt (dropAt heap i bound) j := by
  intro j inHeap
  rw [timeAt_dropAt bound inHeap, Function.update_apply]
  exact if_congr eq_comm rfl rfl

/-- Below the place `i` nothing has changed. -/
theorem nothingOverlooked_dropAt_iff {heap : Array WaitingItem} {i : Nat} (bound : i < heap.size) (t : TimePoint) :
    NothingOverlooked (dropAt heap i bound) (heap.size - 1) i t ↔ NothingOverlooked heap (heap.size - 1) i t := by
  have same : ∀ j, i < j → j < heap.size - 1 → timeAt (dropAt heap i bound) j = timeAt heap j := fun j after inHeap => by
    rw [timeAt_dropAt bound inHeap, if_neg after.ne]
  refine forall_congr' fun c => forall_congr' fun overlooked => ?_
  have inHeap := overlooked.inHeap
  constructor
  · intro fine below
    rw [← same c below.lt inHeap]
    exact fine (below.congr fun j after before => (same j after (before.trans inHeap)).symm)
  · intro fine below
    rw [same c below.lt inHeap]
    exact fine (below.congr fun j after before => same j after (before.trans inHeap))

/-- **The moved item**: `Down` from its place ends with a min-heap iff it fits there. -/
theorem minHeap_down_dropAt_iff {heap : Array WaitingItem} {i : Nat} (ordered : MinHeap heap) (bound : i < heap.size)
    (inner : i < heap.size - 1) (small : i < 2 ^ 31) :
    ∃ sifted, down (dropAt heap i bound) (Int32.ofNat i) = some sifted ∧ (MinHeap sifted ↔ LastFits heap i) := by
  have size := dropAt_size heap i bound
  have moved : timeAt (dropAt heap i bound) i = timeAt heap (heap.size - 1) := by
    rw [timeAt_dropAt bound inner, if_pos rfl]
  by_cases above : ∀ p, IsChild p i → timeAt heap p ≤ timeAt heap (heap.size - 1)
  · have but : OrderedBut (timeAt (dropAt heap i bound)) (dropAt heap i bound).size i := by
      rw [size]
      exact (ordered.orderedBut_update (Nat.sub_le _ _) bound above).congr inner (timeAt_dropAt_eq bound)
    obtain ⟨sifted, sinks, restored⟩ := minHeap_down_iff (by rwa [size]) small but
    refine ⟨sifted, sinks, ?_⟩
    rw [restored, size, moved, nothingOverlooked_dropAt_iff]
    exact ⟨fun below => ⟨above, below⟩, LastFits.below⟩
  · obtain ⟨sifted, sinks, size', sift⟩ := sinks_of_down (dropAt heap i bound) i (by rwa [size]) small
    refine ⟨sifted, sinks, iff_of_false ?_ fun fits => above fits.above⟩
    simp only [not_forall, not_le] at above
    obtain ⟨p, isChild, early⟩ := above
    have before := isChild.lt
    rw [MinHeap, size', size]
    refine sift.not_ordered inner isChild ?_
    rw [moved, timeAt_dropAt bound (by omega), if_neg before.ne']
    exact early

/-- Without its last item a min-heap is one. -/
theorem minHeap_dropAt_last {heap : Array WaitingItem} {i : Nat} (ordered : MinHeap heap) (bound : i < heap.size)
    (last : i = heap.size - 1) : MinHeap (dropAt heap i bound) := by
  intro p c isChild inHeap
  rw [dropAt_size] at inHeap
  have before := isChild.lt
  rw [timeAt_dropAt bound (by omega), timeAt_dropAt bound inHeap, if_neg (by omega), if_neg (by omega)]
  exact ordered p c isChild (by omega)

/-- **When `Remove` keeps the heap.** From a min-heap it ends with a min-heap iff the first
item of the job, where it is found and not the last item itself, leaves a place that the
last item fits in. A vector holds fewer than 2^63 items. -/
theorem remove_keeps_heap_iff (heap : Array WaitingItem) (job : JobId) (vector : heap.size < 2 ^ 63)
    (ordered : MinHeap heap) :
    ∃ found left, remove ⟨heap⟩ job = some (found, ⟨left⟩) ∧
      (MinHeap left ↔ ∀ i < 2 ^ 31, heap.findIdx? (·.jobid = job) = some i → i ≠ heap.size - 1 → LastFits heap i) := by
  by_cases absent : ∀ i, heap.findIdx? (·.jobid = job) = some i → 2 ^ 31 ≤ i
  · refine ⟨false, heap, remove_absent vector absent, iff_of_true ordered ?_⟩
    intro i small first
    exact absurd (absent i first) (Nat.not_le.2 small)
  · simp only [not_forall, not_le] at absent
    obtain ⟨i, first, small⟩ := absent
    have bound := (Array.findIdx?_eq_some_iff_getElem.1 first).1
    have removed := remove_found (q := ⟨heap⟩) first bound small
    by_cases last : i = heap.size - 1
    · refine ⟨true, dropAt heap i bound, removed.trans (if_pos last),
        iff_of_true (minHeap_dropAt_last ordered bound last) ?_⟩
      intro j _ again inner
      rw [first] at again
      cases again
      exact absurd last inner
    · obtain ⟨sifted, sinks, restored⟩ := minHeap_down_dropAt_iff ordered bound (by omega) small
      refine ⟨true, sifted, ?_, restored.trans ?_⟩
      · rw [removed, if_neg last, sinks]
        rfl
      · rw [first]
        constructor
        · rintro fits j _ ⟨⟩ -
          exact fits
        · intro fits
          exact fits i small rfl last

/-- Of four items the second one is removed, and the last one fits in its place. -/
theorem remove_keeps_heap_of_four :
    ∃ found left, remove ⟨#[startOf "wt_1" 10, startOf "wt_2" 20, startOf "wt_3" 30, startOf "wt_4" 40]⟩ "wt_2" =
      some (found, ⟨left⟩) ∧ MinHeap left := by
  have second : #[startOf "wt_1" 10, startOf "wt_2" 20, startOf "wt_3" 30, startOf "wt_4" 40].findIdx?
      (·.jobid = "wt_2") = some 1 := by decide +kernel
  obtain ⟨found, left, removed, restored⟩ := remove_keeps_heap_iff
    #[startOf "wt_1" 10, startOf "wt_2" 20, startOf "wt_3" 30, startOf "wt_4" 40] "wt_2" (by decide) (by decide)
  refine ⟨found, left, removed, restored.2 ?_⟩
  rintro i - first -
  rw [second] at first
  cases first
  refine ⟨?_, nothingOverlooked_of_odd _ (by decide) (by decide) _ _⟩
  rintro p ⟨-, rfl⟩
  decide

/-- Six items in two subtrees, of which the left one holds the later items. -/
def lateLeftSubtree : Array WaitingItem :=
  #[startOf "wt_1" 10, startOf "wt_2" 50, startOf "wt_3" 20, startOf "wt_4" 60, startOf "wt_5" 70, startOf "wt_6" 30]

/-- The last item comes from the right subtree, and is earlier than the parent of the place in
the left one that it is moved to. -/
theorem remove_leaves_early_item :
    let left : Array WaitingItem :=
      #[startOf "wt_1" 10, startOf "wt_2" 50, startOf "wt_3" 20, startOf "wt_6" 30, startOf "wt_5" 70]
    MinHeap lateLeftSubtree ∧ remove ⟨lateLeftSubtree⟩ "wt_4" = some (true, ⟨left⟩) ∧ ¬ MinHeap left := by
  intro left
  have bound : 3 < lateLeftSubtree.size := by decide
  have fourth : lateLeftSubtree.findIdx? (·.jobid = "wt_4") = some 3 := by decide +kernel
  have moved : dropAt lateLeftSubtree 3 bound = left := rfl
  refine ⟨by decide, ?_, by decide⟩
  rw [remove_found (q := ⟨lateLeftSubtree⟩) fourth bound (by decide), if_neg (by decide), moved,
    down_childless (by decide) (by decide)]
  rfl

end IntPositions

end QosPlanner
