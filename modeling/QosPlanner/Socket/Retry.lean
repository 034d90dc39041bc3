import QosPlanner.Run.Always

/-!
# Requests with retries

A client sends a request and polls for the reply. When a poll times out it closes its
socket, opens a new one and sends again, until the retries are used up. Messages may be
delayed without bound or lost; a reply to a closed socket goes nowhere. The server takes
the copies that reach it one at a time, in any order, and whatever else changes its state
happens in between.

A socket carries one copy and at most one reply, so what is under way is kept by socket:
the current one, and the closed ones. `agrees_of_path` is the rule for what a reply tells
of the server's state: it has to be right when the reply is written, and to stay right as
long as the reply is on its way to the client's current socket or has been returned.
-/

namespace Retry
set_option autoImplicit false

variable {σ β ρ ε ω : Type*}

/-- What is under way on a socket. -/
inductive Flight (β ρ : Type*) where
  | request (payload : β)
  | reply (reply : ρ)
  | nothing

/-- Where the client is in its loop. -/
inductive Client (ρ : Type*) where
  | polling (retriesLeft : Nat)
  | returned (reply : ρ)
  | abandoned

/-- The reply the client returned with. -/
def Client.result : Client ρ → Option ρ
  | .returned reply => some reply
  | _ => none

theorem Client.returned_of_result {client : Client ρ} {reply : ρ} (result : client.result = some reply) :
    client = .returned reply := by
  cases client with
  | returned reply' => rw [Option.some.inj result]
  | polling retriesLeft => cases result
  | abandoned => cases result

/-- The client, the network and the server. -/
structure Exchange (σ β ρ : Type*) where
  server : σ
  client : Client ρ
  current : Flight β ρ
  closed : List (Flight β ρ)

/-- The server: what it does with a copy that reaches it, in an environment, and what else
may happen to its state. -/
structure Service (σ β ρ ε ω : Type*) where
  serve : σ → ε → β → Option (ρ × σ)
  other : σ → ω → Option σ

/-- The steps of the exchange; a closed socket is named by its position. -/
inductive Action (ε ω : Type*) where
  | serveCurrent (env : ε)
  | serveClosed (i : Nat) (env : ε)
  | loseCurrent
  | loseClosed (i : Nat)
  | receive
  | timeout
  | other (op : ω)

/-- The first copy has been sent. -/
def Exchange.start (server : σ) (retries : Nat) (payload : β) : Exchange σ β ρ :=
  ⟨server, .polling retries, .request payload, []⟩

/-- One step; every copy after the first one carries `resend`. -/
def step (service : Service σ β ρ ε ω) (resend : β) (s : Exchange σ β ρ) :
    Action ε ω → Option (Exchange σ β ρ)
  | .serveCurrent env =>
    match s.current with
    | .request payload => (service.serve s.server env payload).map fun answer =>
        { s with server := answer.2, current := .reply answer.1 }
    | _ => none
  | .serveClosed i env =>
    match s.closed[i]? with
    | some (.request payload) => (service.serve s.server env payload).map fun answer =>
        { s with server := answer.2, closed := s.closed.set i (.reply answer.1) }
    | _ => none
  | .loseCurrent => some { s with current := .nothing }
  | .loseClosed i => some { s with closed := s.closed.set i .nothing }
  | .receive =>
    match s.client, s.current with
    | .polling _, .reply reply => some { s with client := .returned reply, current := .nothing }
    | _, _ => none
  | .timeout =>
    match s.client with
    | .polling retriesLeft =>
      if retriesLeft - 1 = 0 then some { s with client := .abandoned }
      else some { s with
        client := .polling (retriesLeft - 1), current := .request resend, closed := s.current :: s.closed }
    | _ => none
  | .other op => (service.other s.server op).map fun server => { s with server }

/-- **Timeouts only.** Each one, while retries are left after it, puts one more copy under way. -/
theorem exec_timeouts (service : Service σ β ρ ε ω) (resend : β) {s : Exchange σ β ρ} {retriesLeft k : Nat}
    (polling : s.client = .polling (retriesLeft + 1 + k)) :
    ∃ s', Run.exec (step service resend) s (List.replicate k .timeout) = some s' ∧ s'.server = s.server ∧
      s'.client = .polling (retriesLeft + 1) ∧
      s'.current :: s'.closed = List.replicate k (.request resend) ++ s.current :: s.closed := by
  induction k generalizing s with
  | zero => exact ⟨s, rfl, rfl, polling, rfl⟩
  | succ k ih =>
    have more : retriesLeft + 1 + (k + 1) - 1 = retriesLeft + 1 + k := by omega
    have taken : step service resend s .timeout = some { s with
        client := .polling (retriesLeft + 1 + k), current := .request resend, closed := s.current :: s.closed } := by
      simp only [step, polling, more]
      rw [if_neg (by omega)]
    obtain ⟨s', run, server, client, copies⟩ := ih (s := { s with
      client := .polling (retriesLeft + 1 + k), current := .request resend, closed := s.current :: s.closed }) rfl
    refine ⟨s', ?_, server, client, ?_⟩
    · rw [List.replicate_succ, Run.exec, taken]
      exact run
    · rw [copies, List.replicate_succ', List.append_assoc]
      rfl

/-- The client still polls. -/
def Exchange.Waits (s : Exchange σ β ρ) : Prop := ∃ retriesLeft, s.client = .polling retriesLeft

/-- The client has returned with the reply, or will if it is received next. -/
def Exchange.Due (s : Exchange σ β ρ) (reply : ρ) : Prop :=
  s.client = .returned reply ∨ s.Waits ∧ s.current = .reply reply

/-- A copy under way is the first one or a later one. -/
def Exchange.Carries (first resend : β) (s : Exchange σ β ρ) : Prop :=
  ∀ payload, .request payload ∈ s.current :: s.closed → payload = first ∨ payload = resend

/-- Every reply that is due agrees with the state of the server, and a client that has
returned has nothing under way. -/
structure Agreement (first resend : β) (Agrees : ρ → σ → Prop) (s : Exchange σ β ρ) : Prop where
  due : ∀ reply, s.Due reply → Agrees reply s.server
  settled : ∀ reply, s.client = .returned reply → s.current = .nothing
  carries : s.Carries first resend

variable {service : Service σ β ρ ε ω} {first resend : β} {Agrees : ρ → σ → Prop}

/-- Nothing but copies is added to what is under way. -/
theorem Exchange.Carries.mono {s s' : Exchange σ β ρ} (carries : s.Carries first resend)
    (fewer : ∀ payload, .request payload ∈ s'.current :: s'.closed → .request payload ∈ s.current :: s.closed) :
    s'.Carries first resend := fun payload member => carries payload (fewer payload member)

/-- Something else than a copy takes the place of what is on the current socket. -/
theorem request_mem_current {closed : List (Flight β ρ)} {payload : β} {current current' : Flight β ρ}
    (other : current' ≠ .request payload) (member : .request payload ∈ current' :: closed) :
    .request payload ∈ current :: closed := by
  rcases List.mem_cons.1 member with new | old
  · exact absurd new.symm other
  · exact List.mem_cons_of_mem current old

/-- The same on a closed socket. -/
theorem request_mem_closed {closed : List (Flight β ρ)} {i : Nat} {payload : β} {current flight : Flight β ρ}
    (other : flight ≠ .request payload) (member : .request payload ∈ current :: closed.set i flight) :
    .request payload ∈ current :: closed := by
  rcases List.mem_cons.1 member with same | member
  · exact List.mem_cons.2 (Or.inl same)
  · rcases List.mem_or_eq_of_mem_set member with old | new
    · exact List.mem_cons_of_mem current old
    · exact absurd new.symm other

theorem agreement_start (server : σ) (retries : Nat) :
    Agreement first resend Agrees (Exchange.start server retries first : Exchange σ β ρ) where
  due := by
    rintro reply (returned | ⟨-, current⟩)
    · cases returned
    · cases current
  settled := by
    intro reply returned
    cases returned
  carries := by
    intro payload member
    simp only [Exchange.start, List.mem_singleton, Flight.request.injEq] at member
    exact Or.inl member

section Client

variable {s : Exchange σ β ρ}

/-- The client receives the reply that is due. -/
theorem Agreement.receive (agreement : Agreement first resend Agrees s) {reply : ρ} (waits : s.Waits)
    (arrived : s.current = .reply reply) :
    Agreement first resend Agrees { s with client := .returned reply, current := .nothing } where
  due := by
    rintro reply' (returned | ⟨-, current⟩)
    · cases returned
      exact agreement.due reply (Or.inr ⟨waits, arrived⟩)
    · cases current
  settled := fun _ _ => rfl
  carries := agreement.carries.mono fun _ => request_mem_current (by simp)

/-- The client sends again: nothing is due. -/
theorem Agreement.sendAgain (agreement : Agreement first resend Agrees s) (retriesLeft : Nat) :
    Agreement first resend Agrees
      { s with client := .polling retriesLeft, current := .request resend, closed := s.current :: s.closed } where
  due := by
    rintro reply (returned | ⟨-, current⟩)
    · cases returned
    · cases current
  settled := by
    intro reply returned
    cases returned
  carries := by
    intro payload member
    rcases List.mem_cons.1 member with new | old
    · cases new
      exact Or.inr rfl
    · exact agreement.carries payload old

/-- The client gives up: nothing will be due. -/
theorem Agreement.abandon (agreement : Agreement first resend Agrees s) :
    Agreement first resend Agrees { s with client := .abandoned } where
  due := by
    rintro reply (returned | ⟨⟨_, polling⟩, -⟩)
    · cases returned
    · cases polling
  settled := by
    intro reply returned
    cases returned
  carries := agreement.carries

/-- What is on the current socket is lost. -/
theorem Agreement.lose (agreement : Agreement first resend Agrees s) :
    Agreement first resend Agrees { s with current := .nothing } where
  due := by
    rintro reply (returned | ⟨-, current⟩)
    · exact agreement.due reply (Or.inl returned)
    · cases current
  settled := fun _ _ => rfl
  carries := agreement.carries.mono fun _ => request_mem_current (by simp)

/-- A copy is answered on the current socket. -/
theorem Agreement.answer (agreement : Agreement first resend Agrees s) {payload : β} {reply : ρ} {server : σ}
    (current : s.current = .request payload) (right : s.Waits → Agrees reply server) :
    Agreement first resend Agrees { s with server, current := .reply reply } := by
  have unsettled : ∀ reply, s.client ≠ .returned reply := by
    intro reply' returned
    have := agreement.settled reply' returned
    simp [current] at this
  refine ⟨?_, fun reply' returned => absurd returned (unsettled reply'),
    agreement.carries.mono fun _ => request_mem_current (by simp)⟩
  rintro reply' (returned | ⟨waits, same⟩)
  · exact absurd returned (unsettled reply')
  · cases same
    exact right waits

end Client

/-- What must hold of the steps that change the server's state. -/
structure Respects (service : Service σ β ρ ε ω) (first resend : β) (Agrees : ρ → σ → Prop)
    (C : Exchange σ β ρ → Action ε ω → Prop) : Prop where
  /-- The reply to the current copy is right. -/
  answers : ∀ s env payload reply server, C s (.serveCurrent env) → s.Waits → s.current = .request payload →
    payload = first ∨ payload = resend → service.serve s.server env payload = some (reply, server) →
    Agrees reply server
  /-- A copy of a closed socket leaves the replies right that are due. -/
  closed : ∀ s i env payload answer server, C s (.serveClosed i env) → s.closed[i]? = some (.request payload) →
    payload = first ∨ payload = resend → service.serve s.server env payload = some (answer, server) →
    ∀ reply, s.Due reply → Agrees reply s.server → Agrees reply server
  /-- So does whatever else happens. -/
  other : ∀ s op server, C s (.other op) → service.other s.server op = some server →
    ∀ reply, s.Due reply → Agrees reply s.server → Agrees reply server

/-- **One step** keeps the agreement. -/
theorem Respects.step {C : Exchange σ β ρ → Action ε ω → Prop}
    (respects : Respects service first resend Agrees C) {s s' : Exchange σ β ρ} {action : Action ε ω}
    (agreement : Agreement first resend Agrees s) (meets : C s action)
    (taken : Retry.step service resend s action = some s') : Agreement first resend Agrees s' := by
  cases action with
  | serveCurrent env =>
    cases current : s.current with
    | request payload =>
      simp only [Retry.step, current] at taken
      obtain ⟨⟨reply, server⟩, served, rfl⟩ := Option.map_eq_some_iff.1 taken
      have copy := agreement.carries payload (by simp [current])
      exact agreement.answer current fun waits =>
        respects.answers s env payload reply server meets waits current copy served
    | reply reply => simp [Retry.step, current] at taken
    | nothing => simp [Retry.step, current] at taken
  | serveClosed i env =>
    simp only [Retry.step] at taken
    split at taken
    · rename_i payload found
      obtain ⟨⟨answer, server⟩, served, rfl⟩ := Option.map_eq_some_iff.1 taken
      have copy := agreement.carries payload (List.mem_cons_of_mem _ (List.mem_of_getElem? found))
      exact ⟨fun reply due => respects.closed s i env payload answer server meets found copy served reply due
        (agreement.due reply due), agreement.settled, agreement.carries.mono fun _ => request_mem_closed (by simp)⟩
    · cases taken
  | loseCurrent =>
    cases taken
    exact agreement.lose
  | loseClosed i =>
    cases taken
    exact ⟨agreement.due, agreement.settled, agreement.carries.mono fun _ => request_mem_closed (by simp)⟩
  | receive =>
    simp only [Retry.step] at taken
    split at taken
    · rename_i retriesLeft reply polling arrived
      cases taken
      exact agreement.receive ⟨retriesLeft, polling⟩ arrived
    · cases taken
  | timeout =>
    simp only [Retry.step] at taken
    split at taken
    · rename_i retriesLeft polling
      split at taken <;> cases taken
      · exact agreement.abandon
      · exact agreement.sendAgain (retriesLeft - 1)
    · cases taken
  | other op =>
    obtain ⟨server, happened, rfl⟩ := Option.map_eq_some_iff.1 taken
    exact ⟨fun reply due => respects.other s op server meets happened reply due (agreement.due reply due),
      agreement.settled, agreement.carries⟩

/-- **The rule for a run.** A client that has returned holds a reply that agrees with the
state of the server, whatever was delayed, lost or sent again. -/
theorem agrees_of_path {C : Exchange σ β ρ → Action ε ω → Prop}
    (respects : Respects service first resend Agrees C) {server : σ} {retries : Nat}
    {trace : List (Exchange σ β ρ × Action ε ω)} {s : Exchange σ β ρ}
    (path : Run.Path (step service resend) C (Exchange.start server retries first) trace s) {reply : ρ}
    (returned : s.client = .returned reply) : Agrees reply s.server :=
  (path.invariant (agreement_start server retries) fun _ _ _ => respects.step).due reply (Or.inl returned)

end Retry
