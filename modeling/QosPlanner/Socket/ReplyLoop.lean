import Mathlib

/-!
# Loops over a reply socket

A server that receives an input, works on it and answers, for ever, over a socket that
keeps to this order: after a receive it is owed a reply, and a receive then raises an
error. The body of the loop replies, falls through to the next receive without a reply,
or throws. A run is the list of what the server does with its socket for a list of
inputs; at the end it waits for another one. The run answers each input once, for ever,
iff the body replies to each of them (`oneReplyEach_iff`).
-/

namespace ReplyLoop
set_option autoImplicit false

variable {σ α ρ : Type*}

/-- How the body of the loop ends. -/
inductive Turn (σ ρ : Type*) where
  | replied (s : σ) (reply : ρ)
  | silent (s : σ)
  | thrown

/-- What the server does with its socket. -/
inductive Call (α ρ : Type*) where
  | received (input : α)
  | sent (reply : ρ)
  | waiting
  /-- An exception, of the socket or of the body, leaves the loop. -/
  | raised

/-- The run from a state, with a reply owed to the socket or not. -/
def run (body : σ → α → Turn σ ρ) : σ → Bool → List α → List (Call α ρ)
  | _, true, _ => [.raised]
  | _, false, [] => [.waiting]
  | s, false, input :: inputs =>
    .received input ::
      match body s input with
      | .replied s reply => .sent reply :: run body s false inputs
      | .silent s => run body s true inputs
      | .thrown => [.raised]

/-- Each input is received, then one reply is sent; at the end the server waits. -/
inductive OneReplyEach : List α → List (Call α ρ) → Prop where
  | waiting : OneReplyEach [] [.waiting]
  | turn {inputs : List α} {calls : List (Call α ρ)} (input : α) (reply : ρ) (rest : OneReplyEach inputs calls) :
      OneReplyEach (input :: inputs) (.received input :: .sent reply :: calls)

/-- The body replies. -/
def Turn.Replies (turn : Turn σ ρ) : Prop := ∃ s reply, turn = .replied s reply

/-- A run that answers each input once makes no call but these. -/
theorem OneReplyEach.not_raised {inputs : List α} {calls : List (Call α ρ)} (each : OneReplyEach inputs calls) :
    .raised ∉ calls := by
  induction each with
  | waiting => simp
  | turn input reply rest ih => simp [ih]

variable {body : σ → α → Turn σ ρ}

/-- **One turn**: the first input is answered, and the rest goes on as well. -/
theorem oneReplyEach_run_cons (s : σ) (input : α) (inputs : List α) :
    OneReplyEach (input :: inputs) (run body s false (input :: inputs)) ↔
      ∃ s' reply, body s input = .replied s' reply ∧ OneReplyEach inputs (run body s' false inputs) := by
  rw [run]
  cases result : body s input with
  | replied s' reply =>
    constructor
    · intro each
      cases each with
      | turn _ _ rest => exact ⟨s', reply, rfl, rest⟩
    · rintro ⟨_, _, same, rest⟩
      cases same
      exact .turn input reply rest
  | silent s' =>
    refine iff_of_false (fun each => ?_) (by simp)
    refine each.not_raised ?_
    simp [run]
  | thrown =>
    refine iff_of_false (fun each => ?_) (by simp)
    exact each.not_raised (by simp)

/-- **The run.** If whether the body replies depends on the input alone, each input is
answered once, for ever, iff the body replies to each of them. -/
theorem oneReplyEach_iff {Answered : α → Prop} (exact : ∀ s input, (body s input).Replies ↔ Answered input)
    (s : σ) (inputs : List α) :
    OneReplyEach inputs (run body s false inputs) ↔ ∀ input ∈ inputs, Answered input := by
  induction inputs generalizing s with
  | nil => simpa [run] using OneReplyEach.waiting
  | cons input inputs ih =>
    rw [oneReplyEach_run_cons, List.forall_mem_cons, ← exact s input]
    constructor
    · rintro ⟨s', reply, replied, rest⟩
      exact ⟨⟨s', reply, replied⟩, (ih s').1 rest⟩
    · rintro ⟨⟨s', reply, replied⟩, rest⟩
      exact ⟨s', reply, replied, (ih s').2 rest⟩

end ReplyLoop
