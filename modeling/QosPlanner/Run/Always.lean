import Mathlib

/-!
# Runs, and what holds all along them

Two shapes of run. A total operation `apply : σ → ℓ → σ` is run over a list of
operations: `Always P` says that `P` holds in every state of that run, `EachStep C`
that every operation meets `C` in the state it starts from. A partial step
`step : σ → ℓ → Option σ` is run along a `Path`, whose trace keeps each label with
the state it was taken in. For both there is the invariant rule for runs whose steps
all meet a condition; for the total operation also the exact rule
(`always_iff_eachStep`): when the condition decides one step, it decides the run.
-/

namespace Run
set_option autoImplicit false

variable {σ ℓ : Type*}

section Total

variable (apply : σ → ℓ → σ)

/-- `P` holds in every state of the run of the operations from `s`, `s` included. -/
def Always (P : σ → Prop) : σ → List ℓ → Prop
  | s, [] => P s
  | s, op :: ops => P s ∧ Always P (apply s op) ops

/-- Every operation of the run meets `C` in the state it starts from. -/
def EachStep (C : σ → ℓ → Prop) : σ → List ℓ → Prop
  | _, [] => True
  | s, op :: ops => C s op ∧ EachStep C (apply s op) ops

variable {apply}

theorem Always.mono {P Q : σ → Prop} (weaker : ∀ s, P s → Q s) :
    ∀ {s : σ} {ops : List ℓ}, Always apply P s ops → Always apply Q s ops
  | s, [], h => weaker s h
  | s, _ :: _, h => ⟨weaker s h.1, Always.mono weaker h.2⟩

/-- **The invariant rule** for runs whose steps all meet `C`. -/
theorem EachStep.always {P : σ → Prop} {C : σ → ℓ → Prop}
    (keeps : ∀ s op, P s → C s op → P (apply s op)) :
    ∀ {s : σ} {ops : List ℓ}, EachStep apply C s ops → P s → Always apply P s ops
  | _, [], _, init => init
  | s, op :: _, meets, init =>
    ⟨init, EachStep.always keeps meets.2 (keeps s op init meets.1)⟩

/-- The invariant rule without a condition on the steps. -/
theorem always_of_keeps {P : σ → Prop} (keeps : ∀ s op, P s → P (apply s op)) :
    ∀ {s : σ} {ops : List ℓ}, P s → Always apply P s ops
  | _, [], init => init
  | s, op :: _, init => ⟨init, always_of_keeps keeps (keeps s op init)⟩

/-- Under an invariant, a condition that it implies of every step is met all along the run. -/
theorem eachStep_of_inv {I : σ → Prop} {C : σ → ℓ → Prop} (inv : ∀ s op, I s → I (apply s op))
    (meets : ∀ s op, I s → C s op) : ∀ {s : σ} {ops : List ℓ}, I s → EachStep apply C s ops
  | _, [], _ => trivial
  | s, op :: _, holds => ⟨meets s op holds, eachStep_of_inv inv meets (inv s op holds)⟩

/-- **The exact rule.** Under an invariant `I` that every step keeps, if `C` says of one
step exactly when it keeps `P`, then `P` holds along a run iff every step meets `C`. -/
theorem always_iff_eachStep {I P : σ → Prop} {C : σ → ℓ → Prop}
    (inv : ∀ s op, I s → I (apply s op))
    (exact : ∀ s op, I s → P s → (P (apply s op) ↔ C s op)) :
    ∀ {s : σ} {ops : List ℓ}, I s → P s → (Always apply P s ops ↔ EachStep apply C s ops)
  | _, [], _, init => iff_of_true init trivial
  | s, op :: ops, holds, init => by
    have head := exact s op holds init
    constructor
    · rintro ⟨-, rest⟩
      have next : P (apply s op) := by cases ops with
        | nil => exact rest
        | cons _ _ => exact rest.1
      exact ⟨head.1 next, (always_iff_eachStep inv exact (inv s op holds) next).1 rest⟩
    · rintro ⟨meets, rest⟩
      have next := head.2 meets
      exact ⟨init, (always_iff_eachStep inv exact (inv s op holds) next).2 rest⟩

/-- Under an invariant, two conditions that say the same of one step say the same of a run. -/
theorem eachStep_iff {I : σ → Prop} {C D : σ → ℓ → Prop} (inv : ∀ s op, I s → I (apply s op))
    (same : ∀ s op, I s → (C s op ↔ D s op)) :
    ∀ {s : σ} {ops : List ℓ}, I s → (EachStep apply C s ops ↔ EachStep apply D s ops)
  | _, [], _ => Iff.rfl
  | s, op :: _, holds => and_congr (same s op holds) (eachStep_iff inv same (inv s op holds))

/-- A condition on the operations alone. -/
theorem eachStep_const_iff {C : ℓ → Prop} :
    ∀ {s : σ} {ops : List ℓ}, EachStep apply (fun _ op => C op) s ops ↔ ∀ op ∈ ops, C op
  | _, [] => by simp [EachStep]
  | s, op :: ops => by rw [EachStep, eachStep_const_iff, List.forall_mem_cons]

end Total

section Partial

variable (step : σ → ℓ → Option σ) (C : σ → ℓ → Prop)

/-- A run of the partial step whose steps all meet `C`. The trace lists the steps in
order, each as the state it was taken in and its label. -/
inductive Path (init : σ) : List (σ × ℓ) → σ → Prop where
  | nil : Path init [] init
  | snoc {trace : List (σ × ℓ)} {s s' : σ} {l : ℓ} :
      Path init trace s → C s l → step s l = some s' → Path init (trace ++ [(s, l)]) s'

/-- The state a list of labels leads to, if each of its steps can be taken. -/
def exec : σ → List ℓ → Option σ
  | s, [] => some s
  | s, l :: ls => (step s l).bind fun s' => exec s' ls

variable {step C}

/-- **The invariant rule** along a path, for what holds of the state and the trace. -/
theorem Path.invariant_trace {P : List (σ × ℓ) → σ → Prop} {init s : σ} {trace : List (σ × ℓ)}
    (path : Path step C init trace s) (start : P [] init)
    (keeps : ∀ trace s l s', P trace s → C s l → step s l = some s' → P (trace ++ [(s, l)]) s') : P trace s := by
  induction path with
  | nil => exact start
  | snoc _ meets taken ih => exact keeps _ _ _ _ ih meets taken

/-- The invariant rule for what holds of the state alone. -/
theorem Path.invariant {P : σ → Prop} {init s : σ} {trace : List (σ × ℓ)}
    (path : Path step C init trace s) (start : P init)
    (keeps : ∀ s l s', P s → C s l → step s l = some s' → P s') : P s :=
  path.invariant_trace (P := fun _ => P) start fun _ => keeps

theorem Path.mono {D : σ → ℓ → Prop} {init s : σ} {trace : List (σ × ℓ)} (weaker : ∀ s l, C s l → D s l)
    (path : Path step C init trace s) : Path step D init trace s := by
  induction path with
  | nil => exact .nil
  | snoc _ meets taken ih => exact ih.snoc (weaker _ _ meets) taken

/-- As `exec`, but a step that does not meet `C` is not taken. -/
def execWhile (step : σ → ℓ → Option σ) (C : σ → ℓ → Prop) [∀ s l, Decidable (C s l)] : σ → List ℓ → Option σ
  | s, [] => some s
  | s, l :: ls => if C s l then (step s l).bind fun s' => execWhile step C s' ls else none

/-- The trace of a list of labels, as far as they can be taken. -/
def traceOf (step : σ → ℓ → Option σ) : σ → List ℓ → List (σ × ℓ)
  | _, [] => []
  | s, l :: ls => (s, l) :: (step s l).elim [] fun s' => traceOf step s' ls

/-- A list of labels whose steps can be taken and meet the condition is a path. -/
theorem Path.of_execWhile [∀ s l, Decidable (C s l)] {init s s' : σ} {trace : List (σ × ℓ)} {ls : List ℓ}
    (path : Path step C init trace s) (run : execWhile step C s ls = some s') :
    Path step C init (trace ++ traceOf step s ls) s' := by
  induction ls generalizing s trace with
  | nil => cases run; simpa [traceOf] using path
  | cons l ls ih =>
    rw [execWhile] at run
    split at run
    · rename_i meets
      obtain ⟨t, taken, rest⟩ := Option.bind_eq_some_iff.1 run
      simpa [traceOf, taken] using ih (path.snoc meets taken) rest
    · cases run

/-- A list of labels that executes is a path, without a condition on its steps. -/
theorem Path.of_exec {init s s' : σ} {trace : List (σ × ℓ)} {ls : List ℓ}
    (path : Path step (fun _ _ => True) init trace s) (run : exec step s ls = some s') :
    Path step (fun _ _ => True) init (trace ++ traceOf step s ls) s' := by
  induction ls generalizing s trace with
  | nil => cases run; simpa [traceOf] using path
  | cons l ls ih =>
    obtain ⟨t, taken, rest⟩ := Option.bind_eq_some_iff.1 run
    simpa [traceOf, taken] using ih (path.snoc trivial taken) rest

end Partial

end Run
