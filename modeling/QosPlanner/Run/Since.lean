import Mathlib

/-!
# What has held since

The past operator of temporal logic, over the run of a total operation: `Since S R` says
that some operation of the run met `S` in the state it started from, and that no later one
met `R`. A property that the operations with `S` set and those with `R` clear is told by the
history alone (`iff_since`).
-/

namespace Run
set_option autoImplicit false

variable {σ ℓ : Type*} (apply : σ → ℓ → σ) (S R : σ → ℓ → Prop)

/-- The state after a list of operations. -/
abbrev after (s : σ) (ops : List ℓ) : σ := ops.foldl apply s

/-- No operation of the run meets `R` in the state it starts from. -/
def Never (s : σ) (ops : List ℓ) : Prop :=
  ∀ before op rest, ops = before ++ op :: rest → ¬ R (after apply s before) op

/-- Some operation of the run meets `S`, and no later one meets `R`. -/
def Since (s : σ) (ops : List ℓ) : Prop :=
  ∃ before op rest, ops = before ++ op :: rest ∧ S (after apply s before) op ∧
    Never apply R (after apply s (before ++ [op])) rest

variable {apply S R}

theorem never_nil (s : σ) : Never apply R s [] := by
  intro before op rest split
  cases before <;> cases split

/-- A list with one more element, split somewhere: at its end or before. -/
theorem snoc_eq_append_cons {ops before rest : List ℓ} {last op : ℓ} :
    ops ++ [last] = before ++ op :: rest ↔
      (rest = [] ∧ op = last ∧ before = ops) ∨ ∃ rest', rest = rest' ++ [last] ∧ ops = before ++ op :: rest' := by
  rcases List.eq_nil_or_concat rest with rfl | ⟨rest', last', rfl⟩
  · rw [show before ++ [op] = before.concat op by simp, ← List.concat_eq_append, List.concat_inj]
    constructor
    · rintro ⟨rfl, rfl⟩
      exact Or.inl ⟨rfl, rfl, rfl⟩
    · rintro (⟨-, rfl, rfl⟩ | ⟨rest', none, -⟩)
      · exact ⟨rfl, rfl⟩
      · simp at none
  · rw [List.concat_eq_append, ← List.cons_append, ← List.append_assoc, ← List.concat_eq_append,
      ← List.concat_eq_append, List.concat_inj]
    constructor
    · rintro ⟨split, rfl⟩
      exact Or.inr ⟨rest', by simp, split⟩
    · rintro (⟨none, -, -⟩ | ⟨rest'', same, split⟩)
      · simp at none
      · obtain ⟨rfl, rfl⟩ := List.concat_inj.1 (by simpa using same)
        exact ⟨split, rfl⟩

theorem never_snoc {s : σ} {ops : List ℓ} {last : ℓ} :
    Never apply R s (ops ++ [last]) ↔ Never apply R s ops ∧ ¬ R (after apply s ops) last := by
  constructor
  · intro never
    refine ⟨fun before op rest split => ?_, never ops last [] rfl⟩
    exact never before op (rest ++ [last]) (by rw [split]; simp)
  · rintro ⟨earlier, atLast⟩ before op rest split
    rcases snoc_eq_append_cons.1 split with ⟨-, rfl, rfl⟩ | ⟨rest', -, split⟩
    · exact atLast
    · exact earlier before op rest' split

/-- **One more operation**: it sets, or it does not clear what has been set. -/
theorem since_snoc {s : σ} {ops : List ℓ} {last : ℓ} :
    Since apply S R s (ops ++ [last]) ↔
      S (after apply s ops) last ∨ (Since apply S R s ops ∧ ¬ R (after apply s ops) last) := by
  constructor
  · rintro ⟨before, op, rest, split, sets, never⟩
    rcases snoc_eq_append_cons.1 split with ⟨-, rfl, rfl⟩ | ⟨rest', rfl, rfl⟩
    · exact Or.inl sets
    · obtain ⟨never, clears⟩ := never_snoc.1 never
      refine Or.inr ⟨⟨before, op, rest', rfl, sets, never⟩, ?_⟩
      simpa [after] using clears
  · rintro (sets | ⟨⟨before, op, rest, rfl, sets, never⟩, clears⟩)
    · exact ⟨ops, last, [], rfl, sets, never_nil _⟩
    · refine ⟨before, op, rest ++ [last], by simp, sets, never_snoc.2 ⟨never, ?_⟩⟩
      simpa [after] using clears

theorem not_since_nil (s : σ) : ¬ Since apply S R s [] := by
  rintro ⟨before, op, rest, split, -⟩
  cases before <;> cases split

/-- **The history rule.** If under an invariant one operation makes `P` hold exactly when it
sets, or `P` held and it does not clear, then `P` holds after a run iff some operation has
set and none has cleared since. -/
theorem iff_since {I P : σ → Prop} (keeps : ∀ s op, I s → I (apply s op))
    (exact : ∀ s op, I s → (P (apply s op) ↔ S s op ∨ (P s ∧ ¬ R s op))) {s : σ} (inv : I s) (start : ¬ P s)
    (ops : List ℓ) : P (after apply s ops) ↔ Since apply S R s ops := by
  have inv_after : ∀ ops, I (after apply s ops) := by
    intro ops
    induction ops using List.reverseRecOn with
    | nil => exact inv
    | append_singleton ops last ih =>
      rw [after, List.foldl_append]
      exact keeps _ last ih
  induction ops using List.reverseRecOn with
  | nil => exact iff_of_false start (not_since_nil s)
  | append_singleton ops last ih =>
    have step := exact _ last (inv_after ops)
    rw [since_snoc, after, List.foldl_append]
    exact step.trans (or_congr_right (and_congr_left fun _ => ih))

end Run
