import QosPlanner.Rules.RuleSetters
import QosPlanner.Run.Always
import QosPlanner.Socket.ReqSocket

/-!
# Remote commands at the same time

`RuleManager::SetRulesAsync` and `RemoveRulesAsync` start one task for each OSS, and all of
them call the same `OssStubRuleSetter` (`src/common/OssStubRuleSetter.cpp`). Its address
`ipPort_` and its socket `socket_` are members that `RemotelyExecuteCmd` writes and reads
back later, without a lock. Here the calls take their steps in any order. A call that
finds in a member what another one has put there talks to the other's OSS, or returns
what the other was told.

A poll keeps to the socket that was `socket_` when it began. If another call replaces
`socket_` meanwhile, that socket is destroyed: the poll raises an error or ends without a
reply, whatever the OSS has answered. The tags of the requests and the creator of the
socket are bookkeeping: no step depends on them.
-/

namespace QosPlanner
set_option autoImplicit false

open Rpc Socket

/-- A call of `RemotelyExecuteCmd`. -/
structure StubCall where
  ip : String
  cmd : String
  deriving DecidableEq, Repr

namespace StubCall

/-- What the call assigns to `ipPort_`. -/
def ipPort (call : StubCall) : String := call.ip ++ ":" ++ OssStubRuleSetter.defaultPort

/-- The address the call is to talk to. -/
def address (call : StubCall) : String := "tcp://" ++ call.ipPort

end StubCall

/-- `kRequestRetries` of the stub. -/
def OssStubRuleSetter.requestRetries : Nat := 3

/-- How a call came to its result. -/
inductive StubAnswer where
  | noAddress
  /-- No reply to the last poll. `own`: it was of the socket the call itself had created last,
  which was still there when the poll ended. -/
  | silence (own : Bool)
  /-- The reply that was read, and the call whose message it answers. -/
  | reply (asked : Nat) (reply : Received OSSCommandMessage)
  deriving DecidableEq

/-- Where a call is: the functions it goes through, in order, and what it keeps in locals. -/
inductive StubPc where
  /-- `BuildCommandMessage`, and the check of the address -/
  | buildMessage
  | setIpPort
  /-- `InitializeZmqSocket`: a new `socket_`, -/
  | createSocket (retriesLeft : Nat)
  /-- `full_address`, -/
  | fullAddress (retriesLeft : Nat)
  /-- and `connect`. -/
  | connect (address : String) (retriesLeft : Nat)
  | send (retriesLeft : Nat)
  /-- `items` is about to take up `*socket_`, -/
  | poll (retriesLeft : Nat)
  /-- and `zmq::poll` is waiting on that socket, the `which`-th. -/
  | polling (which retriesLeft : Nat)
  | receive
  | done (result : Bool) (answer : StubAnswer)
  | raised
  deriving DecidableEq

/-- The type of the sockets: a request is tagged with its call. -/
abbrev StubSocket := ReqSocket String Nat (Received OSSCommandMessage)

/-- The members of the stub. -/
structure StubMembers where
  /-- `ipPort_` -/
  ipPort : String
  /-- `socket_` and the call that created it; there is none before the first call. -/
  socket : Option (Nat × StubSocket)
  /-- How many sockets have been created; `socket_` is the last of them. -/
  created : Nat

/-- The stub, the calls under way on it, and the messages sent so far, each as the call
that built it and the address it went to. -/
structure StubState where
  stub : StubMembers
  calls : List (StubCall × StubPc)
  sent : List (Nat × String)

/-- The steps: those of the calls, and replies that come in. -/
inductive StubAction where
  /-- The next statement, where it has one outcome. -/
  | run (i : Nat)
  /-- `s_send`, to one of the addresses the socket is connected to. -/
  | send (i : Nat) (peer : Nat)
  /-- The poll ends without a reply. -/
  | timeout (i : Nat)
  /-- A reply to the request under way reaches `socket_`. -/
  | arrive (reply : Received OSSCommandMessage)

namespace StubState

/-- All calls are about to begin. -/
def start (calls : List StubCall) : StubState :=
  ⟨⟨"", none, 0⟩, calls.map fun call => (call, .buildMessage), []⟩

/-- The call goes on at `pc`. -/
def goto (s : StubState) (i : Nat) (call : StubCall) (pc : StubPc) : StubState :=
  { s with calls := s.calls.set i (call, pc) }

/-- The next statement of a call, where it has one outcome. -/
def runCall (s : StubState) (i : Nat) (call : StubCall) : StubPc → Option StubState
  | .buildMessage =>
    if call.ip.length = 0 then some (s.goto i call (.done false .noAddress)) else some (s.goto i call .setIpPort)
  | .setIpPort =>
    some ({ s with stub := { s.stub with ipPort := call.ipPort } }.goto i call
      (.createSocket OssStubRuleSetter.requestRetries))
  | .createSocket retriesLeft =>
    some ({ s with
      stub := { s.stub with socket := some (i, ReqSocket.new), created := s.stub.created + 1 } }.goto i call
        (.fullAddress retriesLeft))
  | .fullAddress retriesLeft => some (s.goto i call (.connect ("tcp://" ++ s.stub.ipPort) retriesLeft))
  | .connect address retriesLeft =>
    s.stub.socket.map fun both =>
      { s with stub := { s.stub with socket := some (both.1, both.2.connect address) } }.goto i call (.send retriesLeft)
  | .poll retriesLeft => s.stub.socket.map fun _ => s.goto i call (.polling s.stub.created retriesLeft)
  | .polling which _ =>
    -- another call has destroyed the socket under the poll
    if which ≠ s.stub.created then some (s.goto i call .raised)
    else s.stub.socket.bind fun both => if both.2.arrived.isSome then some (s.goto i call .receive) else none
  | .receive =>
    s.stub.socket.bind fun both =>
      match both.2.recv with
      | .blocks => none
      | .raises => some (s.goto i call .raised)
      | .ok (answer, socket) =>
        some ({ s with stub := { s.stub with socket := some (both.1, socket) } }.goto i call
          (.done (OssStubRuleSetter.processReply answer.2) (.reply answer.1 answer.2)))
  | _ => none

/-- `s_send` of a call. -/
def sendCall (s : StubState) (i : Nat) (call : StubCall) (retriesLeft peer : Nat) : Option StubState :=
  s.stub.socket.bind fun both =>
    match both.2.send i peer with
    | .blocks => none
    | .raises => some (s.goto i call .raised)
    | .ok (address, socket) =>
      some ({ s with
        stub := { s.stub with socket := some (both.1, socket) }, sent := s.sent ++ [(i, address)] }.goto i call
          (.poll retriesLeft))

/-- `socket_` is the one the call has created. -/
def createdBy (s : StubState) (i : Nat) : Bool := s.stub.socket.map (·.1) == some i

/-- The socket that was taken up for a poll is still there, and is the call's own. -/
def pollsItsOwn (s : StubState) (i which : Nat) : Bool := which == s.stub.created && s.createdBy i

/-- A reply has come to the socket that was taken up for a poll. -/
def hasReply (s : StubState) (which : Nat) : Bool :=
  which == s.stub.created && s.stub.socket.any (·.2.arrived.isSome)

/-- The poll of a call ends without a reply: the call gives up, or takes a new socket and
sends again. -/
def timeoutCall (s : StubState) (i : Nat) (call : StubCall) (which retriesLeft : Nat) : StubState :=
  if retriesLeft - 1 = 0 then s.goto i call (.done false (.silence (s.pollsItsOwn i which)))
  else s.goto i call (.createSocket (retriesLeft - 1))

/-- One step. -/
def step (s : StubState) : StubAction → Option StubState
  | .run i => s.calls[i]?.bind fun both => s.runCall i both.1 both.2
  | .send i peer =>
    match s.calls[i]? with
    | some (call, .send retriesLeft) => s.sendCall i call retriesLeft peer
    | _ => none
  | .timeout i =>
    match s.calls[i]? with
    | some (call, .polling which retriesLeft) =>
      -- `zmq::poll` looks for a reply before it gives up
      if s.hasReply which then none else some (s.timeoutCall i call which retriesLeft)
    | _ => none
  | .arrive reply =>
    s.stub.socket.bind fun both => (both.2.arrive reply).map fun socket =>
      { s with stub := { s.stub with socket := some (both.1, socket) } }

/-- The step finds in the members what its own call has put there. -/
def findsItsOwn (s : StubState) : StubAction → Bool
  | .run i =>
    match s.calls[i]? with
    | some (call, .fullAddress _) => s.stub.ipPort == call.ipPort
    | some (_, .connect _ _) => s.createdBy i
    | some (_, .poll _) => s.createdBy i
    | some (_, .polling which _) => s.pollsItsOwn i which
    | some (_, .receive) => s.createdBy i
    | _ => true
  | .send i _ => s.createdBy i
  | .timeout i =>
    match s.calls[i]? with
    | some (_, .polling which _) => s.pollsItsOwn i which
    | _ => true
  | .arrive _ => true

end StubState

/-! ## A call alone -/

namespace StubState

variable {s : StubState} {i : Nat} {call : StubCall}

/-- The statement a call runs is the one it is at. -/
theorem step_run {pc : StubPc} (there : s.calls[i]? = some (call, pc)) : s.step (.run i) = s.runCall i call pc := by
  rw [step, there]
  rfl

theorem step_send {retriesLeft peer : Nat} (there : s.calls[i]? = some (call, .send retriesLeft)) :
    s.step (.send i peer) = s.sendCall i call retriesLeft peer := by
  simp only [step, there]

/-- The members and the messages as given, and the call at `pc`. -/
def place (s : StubState) (i : Nat) (call : StubCall) (stub : StubMembers) (sent : List (Nat × String))
    (pc : StubPc) : StubState := ⟨stub, s.calls.set i (call, pc), sent⟩

theorem calls_place (bound : i < s.calls.length) (stub : StubMembers) (sent : List (Nat × String)) (pc : StubPc) :
    (s.place i call stub sent pc).calls[i]? = some (call, pc) := by
  simp [place, bound]

theorem goto_place (stub stub' : StubMembers) (sent sent' : List (Nat × String)) (pc pc' : StubPc) :
    goto ⟨stub', (s.place i call stub sent pc).calls, sent'⟩ i call pc' = s.place i call stub' sent' pc' := by
  simp [place, goto]

/-- **One call alone**, whose reply comes in, is `remotelyExecuteCmd` over that reply. -/
theorem exec_alone (found : s.calls[i]? = some (call, .buildMessage)) (named : call.ip.length ≠ 0)
    (reply : Received OSSCommandMessage) :
    (Run.exec step s [.run i, .run i, .run i, .run i, .run i, .send i 0, .run i, .arrive reply, .run i,
        .run i]).bind (·.calls[i]?) =
      some (call, .done (OssStubRuleSetter.remotelyExecuteCmd (fun _ _ => some reply) call.ip call.cmd)
        (.reply i reply)) := by
  have bound := (List.getElem?_eq_some_iff.1 found).1
  let members (socket : StubSocket) : StubMembers := ⟨call.ipPort, some (i, socket), s.stub.created + 1⟩
  let sent := s.sent ++ [(i, call.address)]
  have built : s.step (.run i) = some (s.place i call s.stub s.sent .setIpPort) := by
    rw [step_run found, runCall, if_neg named]
    rfl
  have assigned : (s.place i call s.stub s.sent .setIpPort).step (.run i) =
      some (s.place i call ⟨call.ipPort, s.stub.socket, s.stub.created⟩ s.sent (.createSocket 3)) := by
    rw [step_run (calls_place bound ..), runCall, goto_place]
    rfl
  have created : (s.place i call ⟨call.ipPort, s.stub.socket, s.stub.created⟩ s.sent (.createSocket 3)).step (.run i) =
      some (s.place i call (members ⟨[], none, none⟩) s.sent (.fullAddress 3)) := by
    rw [step_run (calls_place bound ..), runCall, goto_place]
    rfl
  have formed : (s.place i call (members ⟨[], none, none⟩) s.sent (.fullAddress 3)).step (.run i) =
      some (s.place i call (members ⟨[], none, none⟩) s.sent (.connect call.address 3)) := by
    rw [step_run (calls_place bound ..), runCall]
    exact congrArg some (goto_place s.stub (members _) s.sent s.sent (.fullAddress 3) _)
  have connected : (s.place i call (members ⟨[], none, none⟩) s.sent (.connect call.address 3)).step (.run i) =
      some (s.place i call (members ⟨[call.address], none, none⟩) s.sent (.send 3)) := by
    rw [step_run (calls_place bound ..), runCall]
    exact congrArg some (goto_place s.stub (members _) s.sent s.sent (.connect call.address 3) _)
  have asked : (s.place i call (members ⟨[call.address], none, none⟩) s.sent (.send 3)).step (.send i 0) =
      some (s.place i call (members ⟨[call.address], some i, none⟩) sent (.poll 3)) := by
    rw [step_send (calls_place bound ..), sendCall]
    exact congrArg some (goto_place s.stub (members _) s.sent sent (.send 3) _)
  have waiting : (s.place i call (members ⟨[call.address], some i, none⟩) sent (.poll 3)).step (.run i) =
      some (s.place i call (members ⟨[call.address], some i, none⟩) sent (.polling (s.stub.created + 1) 3)) := by
    rw [step_run (calls_place bound ..), runCall]
    exact congrArg some (goto_place s.stub (members _) sent sent (.poll 3) _)
  have answered : (s.place i call (members ⟨[call.address], some i, none⟩) sent
      (.polling (s.stub.created + 1) 3)).step (.arrive reply) =
      some (s.place i call (members ⟨[call.address], some i, some reply⟩) sent
        (.polling (s.stub.created + 1) 3)) := rfl
  have polled : (s.place i call (members ⟨[call.address], some i, some reply⟩) sent
      (.polling (s.stub.created + 1) 3)).step (.run i) =
      some (s.place i call (members ⟨[call.address], some i, some reply⟩) sent .receive) := by
    rw [step_run (calls_place bound ..), runCall]
    exact (if_neg (not_not_intro rfl)).trans
      (congrArg some (goto_place s.stub (members _) sent sent (.polling _ 3) _))
  have received : (s.place i call (members ⟨[call.address], some i, some reply⟩) sent .receive).step (.run i) =
      some (s.place i call (members ⟨[call.address], none, none⟩) sent
        (.done (OssStubRuleSetter.processReply reply) (.reply i reply))) := by
    rw [step_run (calls_place bound ..), runCall]
    exact congrArg some (goto_place s.stub (members _) sent sent .receive _)
  have sequential : OssStubRuleSetter.remotelyExecuteCmd (fun _ _ => some reply) call.ip call.cmd =
      OssStubRuleSetter.processReply reply := by
    simp only [OssStubRuleSetter.remotelyExecuteCmd, if_neg named]
  simp only [Run.exec, built, assigned, created, formed, connected, asked, waiting, answered, polled,
    received,
    Option.bind_some, calls_place bound, sequential]

end StubState

/-! ## What holds while every call finds its own -/

/-- The verdict a call may return: that of the reply to its own command, or false where
there is none: without an address, or after a poll of its own socket. -/
def OwnVerdict (i : Nat) (call : StubCall) (result : Bool) : StubAnswer → Prop
  | .noAddress => call.ip.length = 0 ∧ result = false
  | .silence own => own = true ∧ result = false
  | .reply asked reply => asked = i ∧ result = OssStubRuleSetter.processReply reply

/-- What holds of a call at its place. -/
def StubPc.Fits (i : Nat) (call : StubCall) : StubPc → Prop
  | .connect address _ => address = call.address
  | .done result answer => OwnVerdict i call result answer
  | _ => True

/-- The address is that of the `i`-th call. -/
def AddressOf (calls : List StubCall) (i : Nat) (address : String) : Prop :=
  ∃ call, calls[i]? = some call ∧ address = call.address

/-- The invariant: messages went to the address of their call, a socket serves the call
that created it, and every call is where it fits. -/
structure StubState.Orderly (calls : List StubCall) (s : StubState) : Prop where
  sent : ∀ i address, (i, address) ∈ s.sent → AddressOf calls i address
  socket : ∀ i socket, s.stub.socket = some (i, socket) → socket.Dedicated (AddressOf calls i) i
  fits : ∀ (i : Nat) (call : StubCall) (pc : StubPc), s.calls[i]? = some (call, pc) →
    calls[i]? = some call ∧ pc.Fits i call

namespace StubState

variable {calls : List StubCall} {s s' : StubState} {i : Nat} {call : StubCall} {pc : StubPc}

theorem orderly_start (calls : List StubCall) : (start calls).Orderly calls where
  sent := by simp [start]
  socket := by simp [start]
  fits := by
    intro i call pc found
    simp only [start, List.getElem?_map, Option.map_eq_some_iff, Prod.mk.injEq] at found
    obtain ⟨call, there, rfl, rfl⟩ := found
    exact ⟨there, trivial⟩

/-- A call goes on where it fits. -/
theorem Orderly.goto (orderly : s.Orderly calls) (there : calls[i]? = some call) (fits : pc.Fits i call) :
    (s.goto i call pc).Orderly calls where
  sent := orderly.sent
  socket := orderly.socket
  fits := by
    intro j other pc' found
    simp only [StubState.goto, List.getElem?_set] at found
    split at found
    · rename_i same
      subst same
      split at found
      · cases found
        exact ⟨there, fits⟩
      · cases found
    · exact orderly.fits j other pc' found

/-- `ipPort_` is assigned. -/
theorem Orderly.withIpPort (orderly : s.Orderly calls) (ipPort : String) :
    { s with stub := { s.stub with ipPort } : StubState }.Orderly calls where
  sent := orderly.sent
  socket := orderly.socket
  fits := orderly.fits

/-- The socket is changed, or replaced, to one that serves its creator. -/
theorem Orderly.withSocket (orderly : s.Orderly calls) {creator : Nat} {socket : StubSocket}
    (dedicated : socket.Dedicated (AddressOf calls creator) creator) (created : Nat) :
    { s with stub := { s.stub with socket := some (creator, socket), created } : StubState }.Orderly calls where
  sent := orderly.sent
  socket := by
    intro creator' socket' same
    cases same
    exact dedicated
  fits := orderly.fits

/-- A message is sent to the address of its call. -/
theorem Orderly.withSent (orderly : s.Orderly calls) {address : String} (own : AddressOf calls i address) :
    { s with sent := s.sent ++ [(i, address)] : StubState }.Orderly calls where
  sent := by
    intro j other member
    rcases List.mem_append.1 member with old | new
    · exact orderly.sent j other old
    · cases List.mem_singleton.1 new
      exact own
  socket := orderly.socket
  fits := orderly.fits

/-- The socket a call has created serves it. -/
theorem Orderly.dedicated (orderly : s.Orderly calls) {both : Nat × StubSocket} (current : s.stub.socket = some both)
    (created : s.createdBy i = true) : both.1 = i ∧ both.2.Dedicated (AddressOf calls i) i := by
  have same : both.1 = i := by simpa [createdBy, current] using created
  exact ⟨same, same ▸ orderly.socket both.1 both.2 current⟩

/-- The next statement of a call. -/
theorem Orderly.runCall (orderly : s.Orderly calls) (found : s.calls[i]? = some (call, pc))
    (own : s.findsItsOwn (.run i) = true) (taken : s.runCall i call pc = some s') : s'.Orderly calls := by
  obtain ⟨there, fits⟩ := orderly.fits i call pc found
  simp only [findsItsOwn, found] at own
  cases pc with
  | buildMessage =>
    simp only [StubState.runCall] at taken
    split at taken <;> cases taken
    · rename_i unnamed
      exact orderly.goto there ⟨unnamed, rfl⟩
    · exact orderly.goto there trivial
  | setIpPort =>
    cases taken
    exact (orderly.withIpPort call.ipPort).goto there trivial
  | createSocket retriesLeft =>
    cases taken
    exact (orderly.withSocket ReqSocket.dedicated_new _).goto there trivial
  | fullAddress retriesLeft =>
    cases taken
    have mine : s.stub.ipPort = call.ipPort := by simpa using own
    exact orderly.goto there (congrArg ("tcp://" ++ ·) mine)
  | connect address retriesLeft =>
    obtain ⟨both, current, rfl⟩ := Option.map_eq_some_iff.1 taken
    obtain ⟨creator, dedicated⟩ := orderly.dedicated current own
    rw [creator]
    exact (orderly.withSocket (dedicated.connect ⟨call, there, fits⟩) s.stub.created).goto there trivial
  | send retriesLeft => cases taken
  | poll retriesLeft =>
    obtain ⟨both, -, rfl⟩ := Option.map_eq_some_iff.1 taken
    exact orderly.goto there trivial
  | polling which retriesLeft =>
    have present : which = s.stub.created := by
      simp only [pollsItsOwn, Bool.and_eq_true, beq_iff_eq] at own
      exact own.1
    simp only [StubState.runCall, present, ne_eq, not_true_eq_false, if_false] at taken
    obtain ⟨both, -, taken⟩ := Option.bind_eq_some_iff.1 taken
    split at taken
    · cases taken
      exact orderly.goto there trivial
    · cases taken
  | receive =>
    obtain ⟨both, current, taken⟩ := Option.bind_eq_some_iff.1 taken
    obtain ⟨creator, dedicated⟩ := orderly.dedicated current own
    split at taken
    · cases taken
    · cases taken
      exact orderly.goto there trivial
    · rename_i answer socket received
      cases taken
      obtain ⟨mine, after⟩ := dedicated.recv received
      rw [creator]
      exact (orderly.withSocket after s.stub.created).goto there ⟨mine, rfl⟩
  | done result answer => cases taken
  | raised => cases taken

/-- A message of a call. -/
theorem Orderly.sendCall (orderly : s.Orderly calls) {retriesLeft peer : Nat}
    (found : s.calls[i]? = some (call, .send retriesLeft)) (own : s.createdBy i = true)
    (taken : s.sendCall i call retriesLeft peer = some s') : s'.Orderly calls := by
  obtain ⟨there, -⟩ := orderly.fits i call _ found
  obtain ⟨both, current, taken⟩ := Option.bind_eq_some_iff.1 taken
  obtain ⟨creator, dedicated⟩ := orderly.dedicated current own
  split at taken
  · cases taken
  · cases taken
    exact orderly.goto there trivial
  · rename_i address socket sent
    cases taken
    obtain ⟨mine, after⟩ := dedicated.send sent
    rw [creator]
    exact ((orderly.withSocket after s.stub.created).withSent mine).goto there trivial

/-- **One step** keeps the invariant, if its call finds its own. -/
theorem Orderly.step (orderly : s.Orderly calls) {action : StubAction} (own : s.findsItsOwn action = true)
    (taken : s.step action = some s') : s'.Orderly calls := by
  cases action with
  | run i =>
    obtain ⟨both, found, taken⟩ := Option.bind_eq_some_iff.1 taken
    exact orderly.runCall found own taken
  | send i peer =>
    simp only [StubState.step] at taken
    split at taken
    · rename_i call retriesLeft found
      exact orderly.sendCall found own taken
    · cases taken
  | timeout i =>
    simp only [StubState.step] at taken
    split at taken
    · rename_i call which retriesLeft found
      split at taken
      · cases taken
      cases taken
      obtain ⟨there, -⟩ := orderly.fits i call _ found
      simp only [findsItsOwn, found] at own
      unfold timeoutCall
      split
      · exact orderly.goto there ⟨own, rfl⟩
      · exact orderly.goto there trivial
    · cases taken
  | arrive reply =>
    obtain ⟨both, current, taken⟩ := Option.bind_eq_some_iff.1 taken
    obtain ⟨socket, arrived, rfl⟩ := Option.map_eq_some_iff.1 taken
    exact orderly.withSocket ((orderly.socket both.1 both.2 current).arrive arrived) s.stub.created

end StubState

/-- **Concurrent remote commands.** In every run in which each call finds in the stub what
it has put there itself, a message goes only to the address of the call that built it, and
a call returns the verdict of the reply to its own command, or false where none came to its
own socket. -/
theorem remote_commands_reach_their_oss (calls : List StubCall) (trace : List (StubState × StubAction))
    (s : StubState)
    (path : Run.Path StubState.step (fun s action => s.findsItsOwn action = true) (StubState.start calls) trace s) :
    (∀ i address, (i, address) ∈ s.sent → AddressOf calls i address) ∧
      ∀ i call result answer, s.calls[i]? = some (call, .done result answer) → OwnVerdict i call result answer := by
  have orderly := path.invariant (StubState.orderly_start calls) fun _ _ _ orderly own taken =>
    StubState.Orderly.step orderly own taken
  exact ⟨orderly.sent, fun i call result answer found => (orderly.fits i call _ found).2⟩

/-! ## Two calls -/

/-- Two calls for two servers. -/
def twoCalls : List StubCall := [⟨"10.0.0.1", "a"⟩, ⟨"10.0.0.2", "b"⟩]

/-- The reply to a command that was executed. -/
def executed : Received OSSCommandMessage := .parsed ⟨.REPLY, some (.reply ⟨0, ""⟩)⟩

/-- Both messages are built first; then one call has the stub for itself, and then the other. -/
theorem two_calls_in_turn : ∃ trace s,
    Run.Path StubState.step (fun s action => s.findsItsOwn action = true) (StubState.start twoCalls) trace s ∧
      s.sent.map Prod.fst = [0, 1] ∧
      (∀ i address, (i, address) ∈ s.sent → AddressOf twoCalls i address) ∧
      ∀ i call result answer, s.calls[i]? = some (call, .done result answer) → OwnVerdict i call result answer := by
  let actions : List StubAction :=
    [.run 0, .run 1, .run 0, .run 0, .run 0, .run 0, .send 0 0, .run 0, .arrive executed, .run 0, .run 0,
      .run 1, .run 1, .run 1, .run 1, .send 1 0, .run 1, .arrive executed, .run 1, .run 1]
  have run : (Run.execWhile StubState.step (fun s action => s.findsItsOwn action = true) (StubState.start twoCalls)
      actions).map (fun s => s.sent.map Prod.fst) = some [0, 1] := by decide +kernel
  obtain ⟨s, run, sent⟩ := Option.map_eq_some_iff.1 run
  have path := Run.Path.nil.of_execWhile run
  exact ⟨_, s, path, sent, remote_commands_reach_their_oss twoCalls _ s path⟩

/-- The second call assigns `ipPort_` before the first one reads it: the message of the
first goes to the server of the second. The second call replaces `socket_` before the first
one polls: the first returns what the second was told. -/
theorem commands_reach_another_oss :
    (∃ trace s, Run.Path StubState.step (fun _ _ => True) (StubState.start twoCalls) trace s ∧
      (0, "tcp://10.0.0.2:5556") ∈ s.sent ∧ ¬ AddressOf twoCalls 0 "tcp://10.0.0.2:5556") ∧
    ∃ trace s call, Run.Path StubState.step (fun _ _ => True) (StubState.start twoCalls) trace s ∧
      s.calls[0]? = some (call, .done true (.reply 1 executed)) ∧ ¬ OwnVerdict 0 call true (.reply 1 executed) := by
  constructor
  · let actions : List StubAction := [.run 0, .run 0, .run 1, .run 1, .run 0, .run 0, .run 0, .send 0 0]
    have run : (Run.exec StubState.step (StubState.start twoCalls) actions).map (fun s => s.sent) =
        some [(0, "tcp://10.0.0.2:5556")] := by decide +kernel
    obtain ⟨s, run, sent⟩ := Option.map_eq_some_iff.1 run
    refine ⟨_, s, Run.Path.nil.of_exec run, by simp [sent], ?_⟩
    rintro ⟨call, first, other⟩
    cases first
    simp [StubCall.address, StubCall.ipPort, OssStubRuleSetter.defaultPort] at other
  · let actions : List StubAction :=
      [.run 0, .run 0, .run 0, .run 0, .run 0, .send 0 0, .run 1, .run 1, .run 1, .run 1, .run 1, .send 1 0,
        .run 0, .arrive executed, .run 0, .run 0]
    have run : (Run.exec StubState.step (StubState.start twoCalls) actions).bind (fun s => s.calls[0]?) =
        some (⟨"10.0.0.1", "a"⟩, .done true (.reply 1 executed)) := by decide +kernel
    obtain ⟨s, run, returned⟩ := Option.bind_eq_some_iff.1 run
    refine ⟨_, s, _, Run.Path.nil.of_exec run, returned, ?_⟩
    rintro ⟨own, -⟩
    cases own

end QosPlanner
