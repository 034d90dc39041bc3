import Mathlib

/-!
# Stable sorting by a key

A stable sort of a list by a key is in the order of the keys, and has the elements of each
key in the order of the list; there is just one such list (`eq_of_filter_eq`). So a list that
is kept sorted by insertions, each behind everything whose key is no greater, is at any time
the stable sort of what has been inserted, in the order of the insertions
(`sort_append_same`).
-/

namespace Stable
set_option autoImplicit false

variable {α β κ : Type*} [LinearOrder κ] {key : α → κ}

/-- The list is in the order of the keys. -/
def Sorted (key : α → κ) (l : List α) : Prop := l.Pairwise fun a b => key a ≤ key b

/-- The stable sort. -/
def sort (key : α → κ) (l : List α) : List α := l.mergeSort fun a b => decide (key a ≤ key b)

theorem sort_perm (key : α → κ) (l : List α) : (sort key l).Perm l := List.mergeSort_perm _ _

@[simp] theorem mem_sort {l : List α} {a : α} : a ∈ sort key l ↔ a ∈ l := (sort_perm key l).mem_iff

@[simp] theorem sort_nil : sort key [] = [] := List.mergeSort_nil

theorem sorted_sort (key : α → κ) (l : List α) : Sorted key (sort key l) := by
  have ordered : (sort key l).Pairwise fun a b => decide (key a ≤ key b) = true := List.pairwise_mergeSort
    (fun a b c first second => by simp only [decide_eq_true_eq] at *; exact first.trans second)
    (fun a b => by simpa using le_total (key a) (key b)) l
  exact ordered.imp fun le => by simpa using le

/-- The elements of one key keep their order. -/
theorem filter_sort (key : α → κ) (l : List α) (k : κ) :
    (sort key l).filter (fun a => key a = k) = l.filter fun a => key a = k := by
  have same : (l.filter fun a => key a = k).Pairwise fun a b => decide (key a ≤ key b) = true := by
    refine List.pairwise_of_forall_mem_list fun a inA b inB => ?_
    have keyA : key a = k := by simpa using (List.mem_filter.1 inA).2
    have keyB : key b = k := by simpa using (List.mem_filter.1 inB).2
    simp [keyA, keyB]
  have kept : (l.filter fun a => key a = k).Sublist (sort key l) := List.sublist_mergeSort
    (fun a b c first second => by simp only [decide_eq_true_eq] at *; exact first.trans second)
    (fun a b => by simpa using le_total (key a) (key b)) same List.filter_sublist
  have inside := kept.filter fun a => decide (key a = k)
  rw [List.filter_filter] at inside
  simp only [Bool.and_self] at inside
  exact (inside.eq_of_length ((sort_perm key l).filter _).length_eq.symm).symm

theorem mem_iff_of_filter_eq {l₁ l₂ : List α}
    (same : ∀ k, l₁.filter (fun a => key a = k) = l₂.filter fun a => key a = k) (a : α) : a ∈ l₁ ↔ a ∈ l₂ := by
  have inside : a ∈ l₁.filter (fun b => key b = key a) ↔ a ∈ l₂.filter fun b => key b = key a := by rw [same]
  simpa [List.mem_filter] using inside

/-- **A stable sort is unique**: two sorted lists with the same elements, in the same order, of
each key are the same. -/
theorem eq_of_filter_eq {l₁ l₂ : List α} (sorted₁ : Sorted key l₁) (sorted₂ : Sorted key l₂)
    (same : ∀ k, l₁.filter (fun a => key a = k) = l₂.filter fun a => key a = k) : l₁ = l₂ := by
  induction l₁ generalizing l₂ with
  | nil => exact (List.eq_nil_iff_forall_not_mem.2 fun a inside => nomatch (mem_iff_of_filter_eq same a).2 inside).symm
  | cons a rest₁ ih =>
    cases l₂ with
    | nil => exact nomatch (mem_iff_of_filter_eq same a).1 List.mem_cons_self
    | cons b rest₂ =>
      obtain ⟨least₁, ordered₁⟩ := List.pairwise_cons.1 sorted₁
      obtain ⟨least₂, ordered₂⟩ := List.pairwise_cons.1 sorted₂
      -- Both first elements have the least key, and each is the first one of that key.
      have keys : key a = key b := by
        apply le_antisymm
        · rcases List.mem_cons.1 ((mem_iff_of_filter_eq same b).2 List.mem_cons_self) with rfl | later
          · exact le_rfl
          · exact least₁ b later
        · rcases List.mem_cons.1 ((mem_iff_of_filter_eq same a).1 List.mem_cons_self) with rfl | later
          · exact le_rfl
          · exact least₂ a later
      have heads := same (key a)
      simp only [List.filter_cons, keys, decide_true, if_true] at heads
      obtain ⟨rfl, -⟩ := List.cons.inj heads
      have tails : ∀ k, rest₁.filter (fun c => key c = k) = rest₂.filter fun c => key c = k := by
        intro k
        have whole := same k
        simp only [List.filter_cons] at whole
        split at whole
        · exact (List.cons.inj whole).2
        · exact whole
      have rests : rest₁ = rest₂ := ih ordered₁ ordered₂ tails
      rw [rests]

/-- **Insertion keeps a stable sort**: elements of one key go behind everything whose key is no
greater. -/
theorem sort_append_same {l new earlier later : List α} {t : κ} (split : sort key l = earlier ++ later)
    (before : ∀ a ∈ earlier, key a ≤ t) (after : ∀ a ∈ later, t < key a) (at_t : ∀ a ∈ new, key a = t) :
    sort key (l ++ new) = earlier ++ new ++ later := by
  have sorted := sorted_sort key l
  rw [split, Sorted, List.pairwise_append] at sorted
  obtain ⟨first, second, -⟩ := sorted
  refine eq_of_filter_eq (sorted_sort key _) ?_ fun k => ?_
  · rw [Sorted, List.append_assoc, List.pairwise_append, List.pairwise_append]
    refine ⟨first, ⟨?_, second, fun a inNew b inLater => ?_⟩, fun a inEarlier b inside => ?_⟩
    · exact List.pairwise_of_forall_mem_list fun a inA b inB => by rw [at_t a inA, at_t b inB]
    · rw [at_t a inNew]
      exact (after b inLater).le
    · rcases List.mem_append.1 inside with inNew | inLater
      · rw [at_t b inNew]
        exact before a inEarlier
      · exact (before a inEarlier).trans (after b inLater).le
  · rw [filter_sort, List.filter_append, ← filter_sort key l, split]
    simp only [List.filter_append]
    by_cases here : k = t
    · have none : later.filter (fun a => key a = k) = [] := by
        refine List.filter_eq_nil_iff.2 fun a inside => ?_
        simpa [here] using (after a inside).ne'
      rw [none, List.append_nil, List.append_nil]
    · have none : new.filter (fun a => key a = k) = [] := by
        refine List.filter_eq_nil_iff.2 fun a inside => ?_
        simpa [at_t a inside] using Ne.symm here
      rw [none, List.append_nil, List.append_nil]

/-- Sorting commutes with a map that keeps the keys. -/
theorem map_sort {key' : β → κ} {f : α → β} {l : List α} (keeps : ∀ a ∈ l, key' (f a) = key a) :
    (sort key l).map f = sort key' (l.map f) :=
  List.map_mergeSort fun a inA b inB => by rw [keeps a inA, keeps b inB]

/-- Only the keys of the elements matter. -/
theorem sort_congr {key' : α → κ} {l : List α} (keeps : ∀ a ∈ l, key' a = key a) : sort key l = sort key' l := by
  simpa using map_sort (f := id) keeps

end Stable
