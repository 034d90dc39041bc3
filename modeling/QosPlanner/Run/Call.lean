/-!
# Calls as step functions

A call given by its steps: from a state and a program counter to a state and either the
next program counter or the value returned. `Finishes` is the run of such a call that
nothing interrupts; it is finite by construction. A call that executes another one in
line finishes with it (`Finishes.within`).
-/

namespace Run
set_option autoImplicit false

/-- Where a call goes next, or what it returns. -/
inductive Control (Pc R : Type) where
  | next (pc : Pc)
  | done (result : R)

variable {σ τ Pc Pc' R R' : Type}

/-- Run without interruption from `pc`, the call returns `r` in the state `s'`. -/
inductive Finishes (step : σ → Pc → σ × Control Pc R) : σ → Pc → σ → R → Prop where
  | done {s s' : σ} {pc : Pc} {r : R} : step s pc = (s', .done r) → Finishes step s pc s' r
  | next {s s' : σ} {pc : Pc} {r : R} (s₁ : σ) (pc₁ : Pc) : step s pc = (s₁, .next pc₁) →
      Finishes step s₁ pc₁ s' r → Finishes step s pc s' r

/-- At most `n` steps. -/
def iterate (step : σ → Pc → σ × Control Pc R) : Nat → σ → Pc → σ × Control Pc R
  | 0, s, pc => (s, .next pc)
  | n + 1, s, pc =>
    match step s pc with
    | (s, .next pc) => iterate step n s pc
    | (s, .done result) => (s, .done result)

theorem Finishes.of_iterate {step : σ → Pc → σ × Control Pc R} {n : Nat} {s s' : σ} {pc : Pc} {r : R}
    (run : iterate step n s pc = (s', .done r)) : Finishes step s pc s' r := by
  induction n generalizing s pc with
  | zero => simp [iterate] at run
  | succ n ih =>
    rw [iterate] at run
    split at run
    · rename_i taken
      exact .next _ _ taken (ih run)
    · rename_i taken
      exact .done (taken.trans run)

/-- **Calls in line.** If the outer call runs the steps of the inner one at the places
`place pc`, and goes on at `after r` when the inner one returns `r`, then it finishes as
soon as the rest does. -/
theorem Finishes.within {inner : σ → Pc → σ × Control Pc R} {outer : τ → Pc' → τ × Control Pc' R'}
    (embed : σ → τ) (place : Pc → Pc') (after : R → Pc')
    (goes : ∀ {s s₁ : σ} {pc pc₁ : Pc}, inner s pc = (s₁, .next pc₁) →
      outer (embed s) (place pc) = (embed s₁, .next (place pc₁)))
    (returns : ∀ {s s₁ : σ} {pc : Pc} {r : R}, inner s pc = (s₁, .done r) →
      outer (embed s) (place pc) = (embed s₁, .next (after r)))
    {s s' : σ} {pc : Pc} {r : R} {t' : τ} {r' : R'} (run : Finishes inner s pc s' r)
    (rest : Finishes outer (embed s') (after r) t' r') : Finishes outer (embed s) (place pc) t' r' := by
  induction run with
  | done taken => exact .next _ _ (returns taken) rest
  | next _ _ taken _ ih => exact .next _ _ (goes taken) (ih rest)

end Run
