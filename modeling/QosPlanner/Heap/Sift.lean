import Mathlib

/-!
# A sift that needs two children

Binary heaps as a key for each position below a size: the children of `p` are the positions
`2 * p + 1` and `2 * p + 2`. `Sinks` is a sift towards the leaves that always compares two
children: it gives up at a node that has not both of them below a `limit`. On a heap that
is in order but at the children of one position it restores the order, unless there is a
child that it does not see (`Overlooked`), the way there is the one that the sift goes, and
the child's key is smaller than the one that sinks (`Sinks.ordered_iff`).
-/

namespace Heap
set_option autoImplicit false

/-- `c` is a child of `p`. -/
structure IsChild (p c : ℕ) : Prop where
  positive : 0 < c
  parent : (c - 1) / 2 = p

theorem IsChild.lt {p c : ℕ} (child : IsChild p c) : p < c := by
  have := child.positive
  have := child.parent
  omega

theorem isChild_iff {p c : ℕ} : IsChild p c ↔ c = 2 * p + 1 ∨ c = 2 * p + 2 := by
  constructor
  · rintro ⟨positive, rfl⟩
    omega
  · intro here
    constructor <;> omega

variable {τ : Type*} [LinearOrder τ]

/-- No key is smaller than its parent's. -/
def Ordered (key : ℕ → τ) (size : ℕ) : Prop := ∀ p c, IsChild p c → c < size → key p ≤ key c

/-- In order but at the children of `pos`, which are in order with the parent of `pos`. -/
structure OrderedBut (key : ℕ → τ) (size pos : ℕ) : Prop where
  others : ∀ p c, IsChild p c → c < size → p ≠ pos → key p ≤ key c
  children : ∀ p c, IsChild p pos → IsChild pos c → c < size → key p ≤ key c

/-- Of the two children of its parent the sift takes this one: the smaller one, and on a tie
the second. -/
def Preferred (key : ℕ → τ) (c : ℕ) : Prop := if c % 2 = 1 then key c < key (c + 1) else key c ≤ key (c - 1)

/-- From `pos` to `c` each position on the way is the one that the sift takes. -/
inductive Below (key : ℕ → τ) : ℕ → ℕ → Prop where
  | child {pos c : ℕ} (isChild : IsChild pos c) : Below key pos c
  | under {pos b c : ℕ} (isChild : IsChild pos b) (preferred : Preferred key b) (rest : Below key b c) : Below key pos c

/-- A sift of the key at `pos`: it ends with the keys `after`. -/
inductive Sinks (limit : ℕ) : (key : ℕ → τ) → (pos : ℕ) → (after : ℕ → τ) → Prop where
  | blind {key : ℕ → τ} {pos : ℕ} (missing : limit ≤ 2 * pos + 2) : Sinks limit key pos key
  | stays {key : ℕ → τ} {pos child : ℕ} (two : 2 * pos + 2 < limit) (isChild : IsChild pos child)
      (preferred : Preferred key child) (smaller : key pos < key child) : Sinks limit key pos key
  | sinks {key after : ℕ → τ} {pos child : ℕ} (two : 2 * pos + 2 < limit) (isChild : IsChild pos child)
      (preferred : Preferred key child) (later : key child ≤ key pos)
      (rest : Sinks limit (key ∘ Equiv.swap child pos) child after) : Sinks limit key pos after

/-- A position in the heap whose parent has not two children below the limit. -/
structure Overlooked (limit size c : ℕ) : Prop where
  inHeap : c < size
  missing : limit ≤ 2 * ((c - 1) / 2) + 2

/-- By the places: each position but the root is compared with its parent's. -/
theorem ordered_iff_places {key : ℕ → τ} {size : ℕ} :
    Ordered key size ↔ ∀ c < size, 0 < c → key ((c - 1) / 2) ≤ key c := by
  constructor
  · intro ordered c bound positive
    exact ordered _ c ⟨positive, rfl⟩ bound
  · rintro places p c ⟨positive, rfl⟩ bound
    exact places c bound positive

instance (key : ℕ → τ) (size : ℕ) : Decidable (Ordered key size) := decidable_of_iff' _ ordered_iff_places

section Keys

variable {key key' : ℕ → τ} {size limit pos child : ℕ}

theorem Below.lt {c : ℕ} (below : Below key pos c) : pos < c := by
  induction below with
  | child isChild => exact isChild.lt
  | under isChild _ _ ih => exact isChild.lt.trans ih

/-- What is below a child comes after the child's sibling. -/
theorem Below.sibling_lt {c : ℕ} (below : Below key child c) (isChild : IsChild pos child) : child + 1 < c := by
  have positive := isChild.positive
  cases below with
  | child edge =>
    have := isChild_iff.1 edge
    omega
  | under edge _ rest =>
    have := isChild_iff.1 edge
    have := rest.lt
    omega

/-- The way from `pos` to `c` depends on the keys of the positions between the two. -/
theorem Below.congr {c : ℕ} (below : Below key pos c) (same : ∀ i, pos < i → i < c → key i = key' i) :
    Below key' pos c := by
  induction below with
  | child isChild => exact .child isChild
  | @under pos b c isChild preferred rest ih =>
    have after := isChild.lt
    have before := rest.sibling_lt isChild
    refine .under isChild ?_ (ih fun i under => same i (after.trans under))
    have := isChild_iff.1 isChild
    unfold Preferred at preferred ⊢
    split at preferred
    · rwa [if_pos (by assumption), ← same b after (by omega), ← same (b + 1) (by omega) before]
    · rwa [if_neg (by assumption), ← same b after (by omega), ← same (b - 1) (by omega) (by omega)]

/-- A preferred child has the smaller key of the two. -/
theorem Preferred.least (preferred : Preferred key child) (isChild : IsChild pos child) {c : ℕ} (other : IsChild pos c) :
    key child ≤ key c := by
  rw [isChild_iff] at isChild other
  unfold Preferred at preferred
  split at preferred
  · obtain rfl | rfl : c = child ∨ c = child + 1 := by omega
    · rfl
    · exact preferred.le
  · obtain rfl | rfl : c = child ∨ c = child - 1 := by omega
    · rfl
    · exact preferred

theorem Preferred.unique (preferred : Preferred key child) (isChild : IsChild pos child) {b : ℕ}
    (preferred' : Preferred key b) (isChild' : IsChild pos b) : b = child := by
  have least := preferred.least isChild isChild'
  have least' := preferred'.least isChild' isChild
  rw [isChild_iff] at isChild isChild'
  unfold Preferred at preferred preferred'
  rcases isChild with rfl | rfl <;> rcases isChild' with rfl | rfl
  · rfl
  · rw [if_pos (by omega)] at preferred
    exact absurd preferred (not_lt.2 least')
  · rw [if_pos (by omega)] at preferred'
    exact absurd preferred' (not_lt.2 least)
  · rfl

/-! ## A heap in order but at one position -/

theorem OrderedBut.congr (but : OrderedBut key size pos) (inHeap : pos < size) (same : ∀ i < size, key i = key' i) :
    OrderedBut key' size pos := by
  constructor
  · intro p c edge bound outside
    rw [← same p (edge.lt.trans bound), ← same c bound]
    exact but.others p c edge bound outside
  · intro p c up down bound
    rw [← same p (up.lt.trans inHeap), ← same c bound]
    exact but.children p c up down bound

/-- Only the children of `pos` are left to compare. -/
theorem OrderedBut.ordered_iff_children (but : OrderedBut key size pos) :
    Ordered key size ↔ ∀ c, IsChild pos c → c < size → key pos ≤ key c := by
  constructor
  · intro ordered c isChild bound
    exact ordered pos c isChild bound
  · intro least p c isChild bound
    by_cases here : p = pos
    · subst here
      exact least c isChild bound
    · exact but.others p c isChild bound here

/-- Below a child of `pos` the keys grow. -/
theorem OrderedBut.le_of_below (but : OrderedBut key size pos) {b c : ℕ} (below : Below key b c) (deeper : pos < b)
    (bound : c < size) : key b ≤ key c := by
  induction below with
  | child isChild => exact but.others _ _ isChild bound deeper.ne'
  | under isChild _ rest ih =>
    have step := but.others _ _ isChild (rest.lt.trans bound) deeper.ne'
    exact step.trans (ih (deeper.trans isChild.lt) bound)

/-- On the way to a position below `pos` there is a child of `pos`, whose key is no greater. -/
theorem OrderedBut.exists_child_le (but : OrderedBut key size pos) {c : ℕ} (below : Below key pos c) (bound : c < size) :
    ∃ b, IsChild pos b ∧ b < size ∧ key b ≤ key c := by
  cases below with
  | child isChild => exact ⟨c, isChild, bound, le_rfl⟩
  | under isChild _ rest => exact ⟨_, isChild, rest.lt.trans bound, but.le_of_below rest isChild.lt bound⟩

/-- **One move**: when the key of `pos` changes places with that of its smallest child, the
child's position is the one whose children are left. -/
theorem OrderedBut.swap (but : OrderedBut key size pos) (isChild : IsChild pos child) (bound : child < size)
    (preferred : Preferred key child) (later : key child ≤ key pos) :
    OrderedBut (key ∘ Equiv.swap child pos) size child := by
  have deeper := isChild.lt
  have atPos : (key ∘ Equiv.swap child pos) pos = key child := by simp
  have atChild : (key ∘ Equiv.swap child pos) child = key pos := by simp
  have elsewhere : ∀ i, i ≠ child → i ≠ pos → (key ∘ Equiv.swap child pos) i = key i := fun i noChild noPos => by
    simp [Equiv.swap_apply_of_ne_of_ne noChild noPos]
  constructor
  · intro p c edge inHeap outside
    by_cases parentHere : p = pos
    · subst parentHere
      rw [atPos]
      by_cases same : c = child
      · rw [same, atChild]
        exact later
      · rw [elsewhere c same edge.lt.ne']
        exact preferred.least isChild edge
    · rw [elsewhere p outside parentHere]
      by_cases here : c = pos
      · subst here
        rw [atPos]
        exact but.children p child edge isChild bound
      · have other : c ≠ child := by
          rintro rfl
          exact parentHere (edge.parent.symm.trans isChild.parent)
        rw [elsewhere c other here]
        exact but.others p c edge inHeap parentHere
  · intro p c up down inHeap
    obtain rfl : p = pos := up.parent.symm.trans isChild.parent
    have under := down.lt
    rw [atPos, elsewhere c (by omega) (by omega)]
    exact but.others child c down inHeap deeper.ne'

/-- Where the key of `pos` is not smaller than its parent's, any key in its place leaves the
heap in order but there. -/
theorem Ordered.orderedBut_update (ordered : Ordered key size) {bound : ℕ} (fewer : bound ≤ size) (inHeap : pos < size)
    {x : τ} (above : ∀ p, IsChild p pos → key p ≤ x) : OrderedBut (Function.update key pos x) bound pos := by
  constructor
  · intro p c edge below outside
    rw [Function.update_of_ne outside]
    by_cases here : c = pos
    · subst here
      rw [Function.update_self]
      exact above p edge
    · rw [Function.update_of_ne here]
      exact ordered p c edge (below.trans_le fewer)
  · intro p c up down below
    have before := up.lt
    have after := down.lt
    rw [Function.update_of_ne before.ne, Function.update_of_ne after.ne']
    exact (ordered p pos up inHeap).trans (ordered pos c down (below.trans_le fewer))

/-! ## The sift -/

/-- A sift leaves the positions above its start alone, and makes no key at its start greater. -/
theorem Sinks.above (sift : Sinks limit key pos key') : (∀ i < pos, key' i = key i) ∧ key' pos ≤ key pos := by
  induction sift with
  | blind => exact ⟨fun _ _ => rfl, le_rfl⟩
  | stays => exact ⟨fun _ _ => rfl, le_rfl⟩
  | @sinks key after pos child two isChild preferred later rest ih =>
    have deeper := isChild.lt
    obtain ⟨same, -⟩ := ih
    refine ⟨fun i before => ?_, ?_⟩
    · rw [same i (before.trans deeper), Function.comp_apply, Equiv.swap_apply_of_ne_of_ne (by omega) (by omega)]
    · rw [same pos deeper, Function.comp_apply, Equiv.swap_apply_right]
      exact later

/-- A key that is smaller than its parent's stays below it. -/
theorem Sinks.not_ordered (sift : Sinks limit key pos key') (inHeap : pos < size) {p : ℕ} (isChild : IsChild p pos)
    (early : key pos < key p) : ¬ Ordered key' size := by
  intro ordered
  have edge := ordered p pos isChild inHeap
  rw [sift.above.1 p isChild.lt] at edge
  exact absurd (edge.trans sift.above.2) (not_le.2 early)

/-- What is overlooked below `pos`, whose two children are seen, is overlooked below the
child that the key of `pos` has changed places with. -/
theorem overlooked_swap_iff (two : 2 * pos + 2 < limit) (isChild : IsChild pos child) (preferred : Preferred key child) :
    (∀ c, Overlooked limit size c → Below (key ∘ Equiv.swap child pos) child c →
      (key ∘ Equiv.swap child pos) child ≤ (key ∘ Equiv.swap child pos) c) ↔
    ∀ c, Overlooked limit size c → Below key pos c → key pos ≤ key c := by
  have deeper := isChild.lt
  have atChild : (key ∘ Equiv.swap child pos) child = key pos := by simp
  have elsewhere : ∀ i, child < i → (key ∘ Equiv.swap child pos) i = key i := fun i under => by
    simp [Equiv.swap_apply_of_ne_of_ne (show i ≠ child by omega) (show i ≠ pos by omega)]
  rw [atChild]
  constructor
  · intro fine c overlooked below
    cases below with
    | child edge =>
      -- The parent of an overlooked child has not two children below the limit, and `pos` has.
      have := overlooked.missing
      rw [edge.parent] at this
      omega
    | under edge preferred' below =>
      obtain rfl := preferred.unique isChild preferred' edge
      have := fine c overlooked (below.congr fun i under _ => (elsewhere i under).symm)
      rwa [elsewhere c below.lt] at this
  · intro fine c overlooked below
    rw [elsewhere c below.lt]
    exact fine c overlooked (.under isChild preferred (below.congr fun i under _ => elsewhere i under))

/-- **What a sift restores.** From a heap in order but at the children of `pos` it ends with
one in order iff no overlooked child on its way has a smaller key than the one that sinks. -/
theorem Sinks.ordered_iff (sift : Sinks limit key pos key') (fewer : limit ≤ size) (but : OrderedBut key size pos) :
    Ordered key' size ↔ ∀ c, Overlooked limit size c → Below key pos c → key pos ≤ key c := by
  induction sift with
  | blind missing =>
    rw [but.ordered_iff_children]
    constructor
    · intro least c overlooked below
      obtain ⟨b, isChild, bound, smaller⟩ := but.exists_child_le below overlooked.inHeap
      exact (least b isChild bound).trans smaller
    · intro fine c isChild bound
      exact fine c ⟨bound, by rwa [isChild.parent]⟩ (.child isChild)
  | stays two isChild preferred smaller =>
    have least : ∀ c, IsChild _ c → _ := fun c other => smaller.le.trans (preferred.least isChild other)
    refine iff_of_true (but.ordered_iff_children.2 fun c other _ => least c other) ?_
    intro c overlooked below
    obtain ⟨b, other, -, under⟩ := but.exists_child_le below overlooked.inHeap
    exact (least b other).trans under
  | sinks two isChild preferred later rest ih =>
    have bound := isChild_iff.1 isChild
    rw [ih (but.swap isChild (by omega) preferred later), overlooked_swap_iff two isChild preferred]

end Keys

end Heap
