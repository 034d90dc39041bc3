import Mathlib

/-!
# Request sockets

A request socket sends one request, to one of the addresses it is connected to, and then
takes the reply to it; a send or a receive out of this order raises an error. The request
under way carries a tag that says whose it is, and so does the reply that is received. A
socket that only its owner connects and sends on is `Dedicated` to it: it sends to the
owner's addresses, and what it receives is a reply to the owner.
-/

namespace Socket
set_option autoImplicit false

variable {α τ ρ : Type*}

structure ReqSocket (α τ ρ : Type*) where
  /-- The addresses the socket is connected to. -/
  peers : List α
  /-- The tag of the request that waits for its reply. -/
  pending : Option τ
  /-- The reply, when it has arrived. -/
  arrived : Option ρ

/-- An operation that may block or raise an error. -/
inductive Attempt (β : Type*) where
  | blocks
  | raises
  | ok (result : β)

namespace ReqSocket

/-- A socket just created. -/
def new : ReqSocket α τ ρ := ⟨[], none, none⟩

/-- Connecting to one more address. -/
def connect (s : ReqSocket α τ ρ) (address : α) : ReqSocket α τ ρ := { s with peers := s.peers ++ [address] }

/-- Sending; the message goes to the `peer`-th address. -/
def send (s : ReqSocket α τ ρ) (tag : τ) (peer : Nat) : Attempt (α × ReqSocket α τ ρ) :=
  if s.pending.isSome then .raises
  else
    match s.peers[peer]? with
    | none => .blocks
    | some address => .ok (address, { s with pending := some tag })

/-- The reply to the request under way comes in, if there is none yet. -/
def arrive (s : ReqSocket α τ ρ) (reply : ρ) : Option (ReqSocket α τ ρ) :=
  if s.pending.isSome && s.arrived.isNone then some { s with arrived := some reply } else none

/-- Receiving: the reply, and the tag of the request it answers. -/
def recv (s : ReqSocket α τ ρ) : Attempt ((τ × ρ) × ReqSocket α τ ρ) :=
  match s.pending, s.arrived with
  | none, _ => .raises
  | some _, none => .blocks
  | some tag, some reply => .ok ((tag, reply), { s with pending := none, arrived := none })

/-- The socket is connected to addresses of `P` only, and only the owner's request is under way. -/
structure Dedicated (P : α → Prop) (owner : τ) (s : ReqSocket α τ ρ) : Prop where
  peers : ∀ address ∈ s.peers, P address
  pending : ∀ tag, s.pending = some tag → tag = owner

section Dedicated

variable {P : α → Prop} {owner : τ} {s s' : ReqSocket α τ ρ}

theorem dedicated_new : Dedicated P owner (new : ReqSocket α τ ρ) where
  peers := by simp [new]
  pending := by simp [new]

theorem Dedicated.connect (dedicated : s.Dedicated P owner) {address : α} (own : P address) :
    (s.connect address).Dedicated P owner where
  peers := by
    intro other member
    rcases List.mem_append.1 member with old | new
    · exact dedicated.peers other old
    · rwa [List.mem_singleton.1 new]
  pending := dedicated.pending

/-- The owner's message goes to one of its addresses. -/
theorem Dedicated.send (dedicated : s.Dedicated P owner) {peer : Nat} {address : α}
    (sent : s.send owner peer = .ok (address, s')) : P address ∧ s'.Dedicated P owner := by
  unfold ReqSocket.send at sent
  split at sent
  · cases sent
  · split at sent
    · cases sent
    · rename_i found
      cases sent
      refine ⟨dedicated.peers address (List.mem_of_getElem? found), dedicated.peers, ?_⟩
      intro tag same
      exact (Option.some.inj same).symm

theorem Dedicated.arrive (dedicated : s.Dedicated P owner) {reply : ρ} (arrived : s.arrive reply = some s') :
    s'.Dedicated P owner := by
  unfold ReqSocket.arrive at arrived
  split at arrived
  · cases arrived
    exact ⟨dedicated.peers, dedicated.pending⟩
  · cases arrived

/-- What is received answers the owner. -/
theorem Dedicated.recv (dedicated : s.Dedicated P owner) {tag : τ} {reply : ρ}
    (received : s.recv = .ok ((tag, reply), s')) : tag = owner ∧ s'.Dedicated P owner := by
  unfold ReqSocket.recv at received
  split at received
  · cases received
  · cases received
  · rename_i waiting _
    cases received
    exact ⟨dedicated.pending tag waiting, dedicated.peers, by simp⟩

end Dedicated

end ReqSocket

end Socket
