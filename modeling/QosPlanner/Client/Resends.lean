import QosPlanner.Client.Retries
import QosPlanner.Rules.ConcurrentCommands

/-!
# What a request sends

`Client::SendAndReceiveRequest` and `OssStubRuleSetter::SendAndReceiveRequest` are the same
loop: send the message, poll for the reply, and after a timeout send it again, until the
retries are used up. The first message is the string itself; the later ones are made of
what its `data()` points to, which as a C string ends before the first zero byte. The
exchange of `Client.Retries` has the same messages under way (`exchange_carries_sent`).
-/

namespace QosPlanner
set_option autoImplicit false

/-- A call of `SendAndReceiveRequest`: the messages it has sent, its result, and what it has
written to `reply`. -/
structure RequestCall where
  sent : List (List UInt8)
  result : Bool
  reply : Option (List UInt8)
  deriving DecidableEq, Repr

/-- The inner loop, from the `i`-th poll on, with `more + 1` retries left. `polls` is what a
poll brings, `none` for a timeout. -/
def pollLoop (resend : List UInt8) (polls : Nat → Option (List UInt8)) : Nat → Nat → RequestCall
  | 0, i =>
    match polls i with
    | some reply => ⟨[], true, some reply⟩
    | none => ⟨[], false, none⟩
  | more + 1, i =>
    match polls i with
    | some reply => ⟨[], true, some reply⟩
    | none =>
      let rest := pollLoop resend polls more (i + 1)
      { rest with sent := resend :: rest.sent }

/-- The body of both functions. The inner loop only ends with the call. -/
def sendAndReceive (retries : Nat) (rawMsg : List UInt8) (polls : Nat → Option (List UInt8)) : RequestCall :=
  match retries with
  | 0 => ⟨[], true, none⟩
  | more + 1 =>
    let rest := pollLoop (cString rawMsg) polls more 0
    { rest with sent := rawMsg :: rest.sent }

/-- `Client::SendAndReceiveRequest` -/
def Client.sendAndReceiveRequest (rawMsg : List UInt8) (polls : Nat → Option (List UInt8)) : RequestCall :=
  sendAndReceive requestRetries rawMsg polls

/-- `OssStubRuleSetter::SendAndReceiveRequest` -/
def OssStubRuleSetter.sendAndReceiveRequest (rawMsg : List UInt8) (polls : Nat → Option (List UInt8)) : RequestCall :=
  sendAndReceive OssStubRuleSetter.requestRetries rawMsg polls

/-- Every message is the same string, three are sent at most, and the call returns true
exactly when a reply arrives before the retries are used up, with the first that does. -/
structure SameBytes (rawMsg : List UInt8) (polls : Nat → Option (List UInt8)) (call : RequestCall) : Prop where
  same : ∀ bytes ∈ call.sent, bytes = rawMsg
  few : call.sent.length ≤ 3
  result : call.result = true ↔ ∃ i < 3, (polls i).isSome
  reply : call.reply = ([0, 1, 2].findSome? polls)

section Loop

variable (resend : List UInt8) (polls : Nat → Option (List UInt8))

/-- **The inner loop** sends at most as often as there are retries left after the first poll,
always the same message, and not at all if the first poll brings a reply. -/
theorem pollLoop_sent (more i : Nat) :
    (∀ bytes ∈ (pollLoop resend polls more i).sent, bytes = resend) ∧
      (pollLoop resend polls more i).sent.length ≤ more ∧
      ((pollLoop resend polls more i).sent = [] ↔ more = 0 ∨ (polls i).isSome) := by
  induction more generalizing i with
  | zero =>
    rw [pollLoop]
    cases polls i <;> simp
  | succ more ih =>
    rw [pollLoop]
    cases polls i with
    | some reply => simp
    | none =>
      obtain ⟨same, few, -⟩ := ih (i + 1)
      refine ⟨?_, by simpa using few, by simp⟩
      rintro bytes (_ | ⟨_, member⟩)
      · rfl
      · exact same bytes member

/-- It returns true iff one of the polls brings a reply. -/
theorem pollLoop_result (more i : Nat) :
    (pollLoop resend polls more i).reply = (List.range' i (more + 1)).findSome? polls ∧
      (pollLoop resend polls more i).result = (pollLoop resend polls more i).reply.isSome := by
  induction more generalizing i with
  | zero =>
    rw [pollLoop]
    cases found : polls i <;> simp [found]
  | succ more ih =>
    rw [pollLoop, List.range'_succ, List.findSome?_cons]
    cases polls i with
    | some reply => simp
    | none => exact ih (i + 1)

/-- After `k` timeouts and a reply it has sent `k` times. -/
theorem pollLoop_sent_of_timeouts {more i k : Nat} (inTime : k ≤ more) (timeouts : ∀ j < k, polls (i + j) = none)
    (reply : (polls (i + k)).isSome) : (pollLoop resend polls more i).sent = List.replicate k resend := by
  induction k generalizing more i with
  | zero => exact ((pollLoop_sent resend polls more i).2.2).2 (Or.inr reply)
  | succ k ih =>
    obtain ⟨more, rfl⟩ := Nat.exists_eq_succ_of_ne_zero (by omega : more ≠ 0)
    have rest : (pollLoop resend polls more (i + 1)).sent = List.replicate k resend := by
      refine ih (by omega) (fun j before => ?_) ?_
      · rw [Nat.add_right_comm]; exact timeouts (j + 1) (by omega)
      · rw [Nat.add_right_comm]; exact reply
    rw [pollLoop, show polls i = none from timeouts 0 (Nat.succ_pos k), List.replicate_succ, ← rest]

end Loop

/-- **The same messages** are under way in the exchange of a client whose polls time out: the
copy on each socket is what the function has sent on it. -/
theorem exchange_carries_sent {σ ρ ε ω : Type} (service : Retry.Service σ (List UInt8) ρ ε ω) (server : σ)
    (rawMsg : List UInt8) (polls : Nat → Option (List UInt8)) {k : Nat} (inTime : k < requestRetries)
    (timeouts : ∀ j < k, polls j = none) (reply : (polls k).isSome) :
    ∃ s, Run.exec (Retry.step service (cString rawMsg)) (Retry.Exchange.start server requestRetries rawMsg)
        (List.replicate k .timeout) = some s ∧
      s.current :: s.closed = ((Client.sendAndReceiveRequest rawMsg polls).sent.map Retry.Flight.request).reverse := by
  have sent : (Client.sendAndReceiveRequest rawMsg polls).sent = rawMsg :: List.replicate k (cString rawMsg) := by
    refine congrArg (List.cons rawMsg) (pollLoop_sent_of_timeouts (cString rawMsg) polls (Nat.le_of_lt_succ inTime) ?_ ?_)
    · simpa using timeouts
    · simpa using reply
  have retries : requestRetries = requestRetries - k - 1 + 1 + k := by omega
  obtain ⟨s, run, -, -, copies⟩ := Retry.exec_timeouts service (cString rawMsg)
    (s := Retry.Exchange.start server requestRetries rawMsg) (congrArg Retry.Client.polling retries)
  refine ⟨s, run, ?_⟩
  rw [copies, sent, List.map_cons, List.reverse_cons, List.map_replicate, List.reverse_replicate]
  rfl

/-- The messages are the same iff no zero byte cuts one off, or nothing is sent again. -/
theorem sameBytes_iff (rawMsg : List UInt8) (polls : Nat → Option (List UInt8)) :
    SameBytes rawMsg polls (sendAndReceive 3 rawMsg polls) ↔ 0 ∉ rawMsg ∨ (polls 0).isSome := by
  obtain ⟨same, few, none⟩ := pollLoop_sent (cString rawMsg) polls 2 0
  obtain ⟨reply, result⟩ := pollLoop_result (cString rawMsg) polls 2 0
  have answered : (pollLoop (cString rawMsg) polls 2 0).reply.isSome ↔ ∃ i < 3, (polls i).isSome := by
    rw [reply, List.findSome?_isSome_iff]
    simp only [List.mem_range'_1, Nat.zero_le, true_and, Nat.zero_add]
  constructor
  · intro fine
    rw [or_iff_not_imp_right, ← cString_eq_self_iff]
    intro timeout
    obtain ⟨bytes, again⟩ := List.exists_mem_of_ne_nil _ (mt none.1 (by simpa using timeout))
    rw [← same bytes again]
    exact fine.same bytes (List.mem_cons_of_mem _ again)
  · intro condition
    refine ⟨?_, Nat.succ_le_succ few, ?_, reply⟩
    · rintro bytes (_ | ⟨_, again⟩)
      · rfl
      · rcases condition with whole | first
        · rw [same bytes again, cString_eq_self_iff.2 whole]
        · rw [none.2 (Or.inr first)] at again
          cases again
    · rw [← answered, ← result]
      rfl

/-- **When every resend carries the same bytes.** For both functions: at most three messages
are sent, all equal to the string, and the result is true exactly when a reply arrives in
time, iff the string has no zero byte or the first poll brings the reply. -/
theorem resends_same_bytes_iff (rawMsg : List UInt8) (polls : Nat → Option (List UInt8)) :
    (SameBytes rawMsg polls (Client.sendAndReceiveRequest rawMsg polls) ↔ 0 ∉ rawMsg ∨ (polls 0).isSome) ∧
      (SameBytes rawMsg polls (OssStubRuleSetter.sendAndReceiveRequest rawMsg polls) ↔
        0 ∉ rawMsg ∨ (polls 0).isSome) :=
  ⟨sameBytes_iff rawMsg polls, sameBytes_iff rawMsg polls⟩

/-- A reserve request for `/a,,/b`, serialized: the empty name has the length zero. -/
def emptyNameBytes : List UInt8 :=
  [0x12, 0x17, 0x08, 0x01, 0x12, 0x13, 0x0a, 0x03, 0x66, 0x6f, 0x6f, 0x10, 0x2a, 0x20, 0x0a, 0x2a, 0x02, 0x2f, 0x61,
    0x2a, 0x00, 0x2a, 0x02, 0x2f, 0x62]

/-- After a timeout that request is sent up to its zero byte. -/
theorem resend_cut_off :
    let polls : Nat → Option (List UInt8) := fun i => if i = 1 then some [0x08, 0x01] else none
    (Client.sendAndReceiveRequest emptyNameBytes polls).sent = [emptyNameBytes, emptyNameBytes.take 20] ∧
      ¬ SameBytes emptyNameBytes polls (Client.sendAndReceiveRequest emptyNameBytes polls) ∧
      ¬ SameBytes emptyNameBytes polls (OssStubRuleSetter.sendAndReceiveRequest emptyNameBytes polls) := by
  intro polls
  have cut : emptyNameBytes.take 20 ∈ (Client.sendAndReceiveRequest emptyNameBytes polls).sent := by decide
  have cut' : emptyNameBytes.take 20 ∈ (OssStubRuleSetter.sendAndReceiveRequest emptyNameBytes polls).sent := by decide
  refine ⟨by decide, fun fine => ?_, fun fine => ?_⟩
  · exact absurd (fine.same _ cut) (by decide)
  · exact absurd (fine.same _ cut') (by decide)

end QosPlanner
