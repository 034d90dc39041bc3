import Mathlib

/-!
# Loops that may not end

`while (cond) body` over a state, run with a bound on the number of its turns. It ends in
a state (`Ends`) if some bound is enough; the state is then the same for every bound that
is. There is a rule for loops that end, by an invariant and a rank, and one for loops that
do not, by an invariant under which the condition stays true.
-/

namespace Run
set_option autoImplicit false

variable {σ : Type*} (cond : σ → Bool) (body : σ → σ)

/-- The state in which the loop ends, if it takes fewer turns than the bound. -/
def loop : ℕ → σ → Option σ
  | 0, _ => none
  | turns + 1, s => if cond s then loop turns (body s) else some s

/-- The loop ends in a state. -/
def Ends (s t : σ) : Prop := ∃ turns, loop cond body turns s = some t

variable {cond body}

/-- A greater bound does not change the state in which the loop ends. -/
theorem loop_mono {turns more : ℕ} {s t : σ} (ended : loop cond body turns s = some t) :
    loop cond body (turns + more) s = some t := by
  induction turns generalizing s with
  | zero => cases ended
  | succ turns ih =>
    rw [Nat.add_right_comm]
    rw [loop] at ended ⊢
    split at ended
    · rename_i goesOn
      rw [if_pos goesOn]
      exact ih ended
    · rename_i stops
      rw [if_neg stops]
      exact ended

theorem Ends.unique {s t t' : σ} (ends : Ends cond body s t) (ends' : Ends cond body s t') : t = t' := by
  obtain ⟨turns, ended⟩ := ends
  obtain ⟨turns', ended'⟩ := ends'
  have same : loop cond body (turns + turns') s = some t := loop_mono ended
  rw [Nat.add_comm, loop_mono ended'] at same
  cases same
  rfl

/-- **The rule for a loop that ends**: each turn keeps an invariant and takes off the rank. -/
theorem loop_of_rank {I : σ → Prop} {rank : σ → ℕ}
    (turn : ∀ s, I s → cond s = true → I (body s) ∧ rank (body s) < rank s) :
    ∀ {turns : ℕ} {s : σ}, I s → rank s < turns → ∃ t, loop cond body turns s = some t ∧ I t ∧ cond t = false
  | 0, _, _, bound => absurd bound (Nat.not_lt_zero _)
  | turns + 1, s, holds, bound => by
    cases test : cond s with
    | false => exact ⟨s, by simp [loop, test], holds, test⟩
    | true =>
      obtain ⟨kept, less⟩ := turn s holds test
      obtain ⟨t, ended, rest⟩ := loop_of_rank turn kept (by omega : rank (body s) < turns)
      exact ⟨t, by simpa [loop, test] using ended, rest⟩

/-- **The rule for a loop that does not end**: the condition stays true. -/
theorem loop_eq_none {I : σ → Prop} (turn : ∀ s, I s → cond s = true ∧ I (body s)) :
    ∀ (turns : ℕ) {s : σ}, I s → loop cond body turns s = none
  | 0, _, _ => rfl
  | turns + 1, s, holds => by
    rw [loop, if_pos (turn s holds).1]
    exact loop_eq_none turn turns (turn s holds).2

theorem not_ends {I : σ → Prop} (turn : ∀ s, I s → cond s = true ∧ I (body s)) {s t : σ} (holds : I s) :
    ¬ Ends cond body s t := by
  rintro ⟨turns, ended⟩
  rw [loop_eq_none turn turns holds] at ended
  cases ended

end Run
