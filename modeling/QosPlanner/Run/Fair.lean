import Mathlib

/-!
# Endless runs in which every thread keeps its turns

Threads that take steps in an order that somebody else chooses. A schedule is an endless
sequence of labels, each the turn of one thread or of none; a turn that a thread cannot
take passes by. A schedule is fair if no thread is left out for good.

The rule (`Progress.eventually`): while the goal is not reached, some thread is ready. The
turn of a ready thread lowers a rank; whatever else happens lowers the rank too, or leaves
both the rank and the thread as they were. Then every fair schedule reaches the goal.
-/

namespace Run
set_option autoImplicit false

variable {σ ℓ T : Type*}

/-- The states that the turns lead through, the first being `s`. -/
def states (attempt : σ → ℓ → σ) (labels : ℕ → ℓ) (s : σ) : ℕ → σ
  | 0 => s
  | n + 1 => attempt (states attempt labels s n) (labels n)

/-- No thread is left out for good. -/
def Fair (thread : ℓ → Option T) (labels : ℕ → ℓ) : Prop := ∀ (t : T) (n : ℕ), ∃ m ≥ n, thread (labels m) = some t

theorem Fair.drop {thread : ℓ → Option T} {labels : ℕ → ℓ} (fair : Fair thread labels) (k : ℕ) :
    Fair thread fun n => labels (n + k) := by
  intro t n
  obtain ⟨m, later, turn⟩ := fair t (n + k)
  refine ⟨m - k, by omega, ?_⟩
  have there : m - k + k = m := by omega
  simpa only [there] using turn

section States

variable {attempt : σ → ℓ → σ}

/-- What comes after `k` turns is the run from the state after them. -/
theorem states_add (labels : ℕ → ℓ) (s : σ) (k n : ℕ) :
    states attempt labels s (n + k) = states attempt (fun i => labels (i + k)) (states attempt labels s k) n := by
  induction n with
  | zero => rw [Nat.zero_add]; rfl
  | succ n ih =>
    rw [Nat.add_right_comm, states, states, ih]

/-- **The invariant rule** along a schedule whose labels are all allowed. -/
theorem states_invariant {Inv : σ → Prop} {allowed : ℓ → Prop}
    (keeps : ∀ s l, Inv s → allowed l → Inv (attempt s l)) {labels : ℕ → ℓ} (may : ∀ n, allowed (labels n)) {s : σ}
    (start : Inv s) (n : ℕ) : Inv (states attempt labels s n) := by
  induction n with
  | zero => exact start
  | succ n ih => exact keeps _ _ ih (may n)

end States

/-- A rank that the turns of the threads bring down until the goal is reached. -/
structure Progress (attempt : σ → ℓ → σ) (thread : ℓ → Option T) (allowed : ℓ → Prop) (Inv Goal : σ → Prop) where
  rank : σ → ℕ
  /-- The next turn of the thread counts. -/
  ready : σ → T → Prop
  keeps : ∀ s l, Inv s → allowed l → Inv (attempt s l)
  /-- No deadlock. -/
  some_ready : ∀ s, Inv s → ¬ Goal s → ∃ t, ready s t
  turn : ∀ s t l, Inv s → ready s t → thread l = some t → rank (attempt s l) < rank s
  others : ∀ s t l, Inv s → ¬ Goal s → ready s t → allowed l → thread l ≠ some t →
    rank (attempt s l) < rank s ∨ rank (attempt s l) = rank s ∧ ready (attempt s l) t

namespace Progress

variable {attempt : σ → ℓ → σ} {thread : ℓ → Option T} {allowed : ℓ → Prop} {Inv Goal : σ → Prop}

/-- Until the turn of a ready thread has come, the goal is reached or the rank falls. -/
theorem falls (p : Progress attempt thread allowed Inv Goal) {labels : ℕ → ℓ} (may : ∀ n, allowed (labels n)) {s : σ}
    (holds : Inv s) {t : T} (ready : p.ready s t) {m : ℕ} (turn : thread (labels m) = some t) :
    ∃ n, Goal (states attempt labels s n) ∨ p.rank (states attempt labels s n) < p.rank s := by
  -- Over the turns before: as long as neither has happened, the thread is still ready.
  have until_turn : ∀ k ≤ m, (∃ n, Goal (states attempt labels s n) ∨ p.rank (states attempt labels s n) < p.rank s) ∨
      p.rank (states attempt labels s k) = p.rank s ∧ p.ready (states attempt labels s k) t := by
    intro k before
    induction k with
    | zero => exact Or.inr ⟨rfl, ready⟩
    | succ k ih =>
      rcases ih (by omega) with done | ⟨same, still⟩
      · exact Or.inl done
      have inv : Inv (states attempt labels s k) := states_invariant p.keeps may holds k
      by_cases goal : Goal (states attempt labels s k)
      · exact Or.inl ⟨k, Or.inl goal⟩
      by_cases own : thread (labels k) = some t
      · have less := p.turn _ t _ inv still own
        exact Or.inl ⟨k + 1, Or.inr (same ▸ less)⟩
      · rcases p.others _ t _ inv goal still (may k) own with less | ⟨kept, still'⟩
        · exact Or.inl ⟨k + 1, Or.inr (same ▸ less)⟩
        · exact Or.inr ⟨kept.trans same, still'⟩
  rcases until_turn m le_rfl with done | ⟨same, still⟩
  · exact done
  · have less := p.turn _ t _ (states_invariant p.keeps may holds m) still turn
    exact ⟨m + 1, Or.inr (same ▸ less)⟩

/-- **Every fair schedule reaches the goal.** -/
theorem eventually (p : Progress attempt thread allowed Inv Goal) {labels : ℕ → ℓ} (fair : Fair thread labels)
    (may : ∀ n, allowed (labels n)) {s : σ} (holds : Inv s) : ∃ n, Goal (states attempt labels s n) := by
  induction bound : p.rank s using Nat.strong_induction_on generalizing s labels with
  | _ r ih =>
    by_cases goal : Goal s
    · exact ⟨0, goal⟩
    obtain ⟨t, ready⟩ := p.some_ready s holds goal
    obtain ⟨m, -, turn⟩ := fair t 0
    obtain ⟨k, reached | less⟩ := p.falls may holds ready turn
    · exact ⟨k, reached⟩
    obtain ⟨n, reached⟩ := ih _ (bound ▸ less) (fair.drop k) (fun n => may (n + k))
      (states_invariant p.keeps may holds k) rfl
    exact ⟨n + k, by rwa [states_add]⟩

/-- And reaches it again and again. -/
theorem again_and_again (p : Progress attempt thread allowed Inv Goal) {labels : ℕ → ℓ} (fair : Fair thread labels)
    (may : ∀ n, allowed (labels n)) {s : σ} (holds : Inv s) (k : ℕ) : ∃ n ≥ k, Goal (states attempt labels s n) := by
  obtain ⟨n, reached⟩ := p.eventually (fair.drop k) (fun n => may (n + k)) (states_invariant p.keeps may holds k)
  exact ⟨n + k, by omega, by rwa [states_add]⟩

end Progress

end Run
