import QosPlanner.Client.Commands
import QosPlanner.Rpc.RoundTrip
import QosPlanner.Protobuf.Zeros

/-!
# Requests as bytes

The commands of the client and the loop of the server with the encoding of their messages.
The planner does with the bytes of a request what it does with the request, and the client
reads the reply the planner has made (`exchange_over_bytes`). A copy that is sent again goes
through a C string: if a text of the request has a zero when it is written, the server
cannot parse the copy and says so, though it has served the first one (`resent_copies`).
-/

namespace QosPlanner
set_option autoImplicit false

open Rpc Protobuf

/-! ## Zeros in a request -/

namespace Rpc

/-- The texts of a request that the encoding writes with a zero. An id without a character is not written. -/
def ResourceRequest.HasZero (request : ResourceRequest) : Prop :=
  '\x00' ∈ request.id.toList ∨ ∃ file ∈ request.files, ZeroText file

/-- A request of a message has a text that is written with a zero. -/
def Message.HasZero (msg : Message) : Prop :=
  match msg.getRequest.rt with
  | some (.resourceRequest request) => request.HasZero
  | some (.deleteRequest request) => ∃ id ∈ request.id, ZeroText id
  | _ => False

theorem utf8_lt_of_stringSize {text : String} {size : Nat} (part : stringSize text ≤ size) (fits : size < 2 ^ 31) :
    (utf8 text).length < 2 ^ 31 := by
  have own : (utf8 text).length ≤ stringSize text := Nat.le_add_left _ _
  omega

theorem zero_mem_flatMap_writeString {number : Nat} (valid : OneByteTag number) {texts : List String}
    (fits : (texts.map stringSize).sum < 2 ^ 31) :
    0 ∈ texts.flatMap (writeString number) ↔ ∃ text ∈ texts, ZeroText text := by
  rw [List.mem_flatMap]
  refine exists_congr fun text => and_congr_right fun member => ?_
  have part := stringSize_mem member
  exact zero_mem_writeString valid (by omega)

theorem ResourceRequest.zero_mem_serialize (request : ResourceRequest) (fits : request.byteSizeLong < 2 ^ 31) :
    0 ∈ request.serialize ↔ request.HasZero := by
  unfold byteSizeLong at fits
  have files : 0 ∈ request.files.flatMap (writeString 5) ↔ ∃ file ∈ request.files, ZeroText file :=
    zero_mem_flatMap_writeString (by decide) (by omega)
  have id : (request.id ≠ "" ∧ 0 ∈ writeString 1 request.id) ↔ '\x00' ∈ request.id.toList := by
    by_cases written : request.id = ""
    · simp [written]
    · rw [if_pos written] at fits
      rw [zero_mem_writeString (by decide) (utf8_lt_of_stringSize (le_refl (stringSize request.id)) (by omega)), ZeroText]
      simp [written]
  simp only [serialize, List.mem_append, List.mem_ite_nil_right, id, files, HasZero,
    zero_mem_writeInt32 (show OneByteTag 2 by decide), zero_mem_writeInt64 (show OneByteTag 3 by decide),
    zero_mem_writeInt64 (show OneByteTag 4 by decide), ne_eq, not_and_self_iff, false_or]

theorem DeleteRequest.zero_mem_serialize (request : DeleteRequest) (some : request.all = false)
    (fits : request.byteSizeLong < 2 ^ 31) : 0 ∈ request.serialize ↔ ∃ id ∈ request.id, ZeroText id := by
  unfold byteSizeLong at fits
  rw [serialize, some, List.mem_append,
    zero_mem_flatMap_writeString (show OneByteTag 1 by decide) (by omega)]
  simp

/-- A request with a type and a part that is not empty. -/
theorem Message.zero_mem_serialize_request {type : RequestType} (named : type.number ≠ 0) {rt : Option RequestRt}
    (fits : (Message.mk .REQUEST (some (.request ⟨type, rt⟩))).byteSizeLong < 2 ^ 31) :
    0 ∈ (Message.mk .REQUEST (some (.request ⟨type, rt⟩))).serialize ↔ 0 ∈ (Request.mk type rt).serialize := by
  have inner : (Request.mk type rt).byteSizeLong ≤ lengthDelimitedSize (Request.mk type rt).byteSizeLong :=
    Nat.le_add_left _ _
  have size : (Request.mk type rt).byteSizeLong ≠ 0 := by
    unfold Request.byteSizeLong
    rw [if_pos named]
    omega
  unfold byteSizeLong at fits
  simp only at fits
  simp only [Message.serialize, List.mem_append, List.mem_ite_nil_right, MessageType.number, ne_eq, not_true_eq_false,
    false_and, false_or, zero_mem_writeMessage (show OneByteTag 2 by decide)
      (show (Request.mk type rt).byteSizeLong < 2 ^ 31 by omega), size]

/-- What a request has besides its type decides about its zeros. -/
theorem Request.zero_mem_serialize {type : RequestType} {rt : Option RequestRt}
    (fits : (Request.mk type rt).byteSizeLong < 2 ^ 31) :
    0 ∈ (Request.mk type rt).serialize ↔
      match rt with
      | some (.resourceRequest request) => request.byteSizeLong = 0 ∨ 0 ∈ request.serialize
      | some (.deleteRequest request) => request.byteSizeLong = 0 ∨ 0 ∈ request.serialize
      | some (.listJobsRequest request) => request.byteSizeLong = 0 ∨ 0 ∈ request.serialize
      | none => False := by
  have type_zero : ¬ (type.number ≠ 0 ∧ 0 ∈ writeInt32 1 type.number) := by
    rw [zero_mem_writeInt32 (by decide)]
    tauto
  unfold byteSizeLong at fits
  rcases rt with _ | request | request | request
  case none => simpa [serialize, List.mem_ite_nil_right] using type_zero
  all_goals
    have inner : request.byteSizeLong ≤ lengthDelimitedSize request.byteSizeLong := Nat.le_add_left _ _
    simp only at fits
    rw [serialize, List.mem_append, List.mem_ite_nil_right, zero_mem_writeMessage (by decide) (by omega)]
    simp only [type_zero, false_or]

end Rpc

/-! ## The requests of the client -/

/-- The messages that a command sends. -/
inductive SentByClient : Message → Prop where
  | reserve (request : ResourceRequest) (lasts : request.durationSec ≠ 0) : SentByClient (reserveMessage request)
  | remove (id : JobId) (named : id ≠ "") : SentByClient (deleteMessage id)
  | list : SentByClient listMessage

theorem ClientCommand.sentByClient {env : ClientEnv} {command : ClientCommand} {msg : Message}
    (sends : (command.run env).request = some msg) : SentByClient msg := by
  cases command with
  | reserve id filenames throughput durationSec storageReqFile =>
    rw [run, Client.tryReserveResources_eq] at sends
    split at sends
    · cases sends
    · cases sends
    · split at sends
      next => cases sends
      next files mbs _ passes =>
        cases sends
        refine .reserve _ fun zero => passes (.inr ?_)
        have none : durationSec = 0 := by
          rw [← durationSec.toInt32_toInt64, show durationSec.toInt64 = 0 from zero]
          rfl
        rw [none]
        decide
  | remove id =>
    rw [run, Client.removeReservation_eq] at sends
    split at sends
    · cases sends
    · cases sends
      exact .remove id ‹_›
  | list =>
    rw [run, Client.listReservations_eq] at sends
    cases sends
    exact .list

namespace SentByClient

variable {msg : Message}

theorem proper (sent : SentByClient msg) : msg.Proper := by
  cases sent <;> exact ⟨rfl, rfl⟩

/-- The encoding has a zero iff one of the texts is written with one. -/
theorem zero_mem_serialize (sent : SentByClient msg) (fits : msg.byteSizeLong < 2 ^ 31) :
    0 ∈ msg.serialize ↔ msg.HasZero := by
  have whole : ∀ {type rt}, (Message.mk .REQUEST (some (.request ⟨type, rt⟩))).byteSizeLong < 2 ^ 31 →
      (Request.mk type rt).byteSizeLong < 2 ^ 31 := by
    intro type rt fits
    have inner : (Request.mk type rt).byteSizeLong ≤ lengthDelimitedSize (Request.mk type rt).byteSizeLong :=
      Nat.le_add_left _ _
    unfold Message.byteSizeLong at fits
    simp only at fits
    omega
  cases sent with
  | reserve request lasts =>
    have inner := whole fits
    have size : request.byteSizeLong ≠ 0 := by
      unfold ResourceRequest.byteSizeLong
      rw [if_pos lasts]
      omega
    have small : request.byteSizeLong < 2 ^ 31 := by
      have part : request.byteSizeLong ≤ lengthDelimitedSize request.byteSizeLong := Nat.le_add_left _ _
      unfold Request.byteSizeLong at inner
      simp only at inner
      omega
    rw [reserveMessage, Message.zero_mem_serialize_request (by decide) fits, Request.zero_mem_serialize inner]
    simp only [size, false_or, request.zero_mem_serialize small]
    rfl
  | remove id named =>
    have inner := whole fits
    have small : (DeleteRequest.mk [id] false).byteSizeLong < 2 ^ 31 := by
      have part : (DeleteRequest.mk [id] false).byteSizeLong ≤
          lengthDelimitedSize (DeleteRequest.mk [id] false).byteSizeLong :=
        Nat.le_add_left _ _
      unfold Request.byteSizeLong at inner
      simp only at inner
      omega
    have size : (DeleteRequest.mk [id] false).byteSizeLong ≠ 0 := by
      simp [DeleteRequest.byteSizeLong]
    rw [deleteMessage, Message.zero_mem_serialize_request (by decide) fits, Request.zero_mem_serialize inner]
    simp only [size, false_or, DeleteRequest.zero_mem_serialize _ rfl small]
    rfl
  | list =>
    rw [listMessage, Message.zero_mem_serialize_request (by decide) fits, Request.zero_mem_serialize (whole fits)]
    rfl

end SentByClient

/-! ## Copies that are sent again -/

section Copies

variable (lib : Library) (left : List UInt8 → Message)

theorem proper_reserveMessage (request : ResourceRequest) : (reserveMessage request).Proper := ⟨rfl, rfl⟩

/-- A reserve request as it is written, and the parser of the server. -/
def Wire.written {request : ResourceRequest}
    (fits : (reserveMessage request).byteSizeLong ≤ defaultTotalBytesLimit) : Wire request where
  rawMsg := (reserveMessage request).serialize
  parseFromString := Message.parseFromString lib left
  parses := Message.parseFromString_serialize lib left _ (proper_reserveMessage request) fits
  parses_cString := by
    rw [Message.parseFromString_cString_serialize lib left _ (proper_reserveMessage request) fits]
    split
    · exact .inr ⟨_, rfl⟩
    · exact .inl rfl

/-- **The copies of a request.** The first one is parsed as the request. There are others iff
the first poll times out, and they are parsed as the request too, unless one of its texts is
written with a zero: then none of them is parsed. -/
theorem resent_copies (env : ClientEnv) (command : ClientCommand) (msg : Message)
    (sends : (command.run env).request = some msg) (fits : msg.byteSizeLong ≤ defaultTotalBytesLimit)
    (polls : Nat → Option (List UInt8)) :
    ∃ resent, (Client.sendAndReceiveRequest msg.serialize polls).sent = msg.serialize :: resent ∧
      (resent = [] ↔ (polls 0).isSome) ∧
      Message.parseFromString lib left msg.serialize = .parsed msg ∧
      (¬ msg.HasZero → ∀ bytes ∈ resent, Message.parseFromString lib left bytes = .parsed msg) ∧
      (msg.HasZero → ∀ bytes ∈ resent, Message.parseFromString lib left bytes = .unparsable (left bytes)) := by
  have sent := ClientCommand.sentByClient sends
  have zero := sent.zero_mem_serialize (lt_of_le_limit fits)
  have cut := Message.parseFromString_cString_serialize lib left msg sent.proper fits
  obtain ⟨same, -, none⟩ := pollLoop_sent (cString msg.serialize) polls 2 0
  refine ⟨_, rfl, by simpa using none, Message.parseFromString_serialize lib left msg sent.proper fits,
    fun whole bytes again => ?_, fun off bytes again => ?_⟩
  · rw [same bytes again, cut, if_neg (mt zero.1 whole)]
  · rw [same bytes again, cut, if_pos (zero.2 off)]

end Copies

/-- A removal of `foo`, and one of an id that has the character zero. -/
theorem resent_copies_of_removals :
    let lib : Library := ⟨fun _ _ => none, true⟩
    let left : List UInt8 → Message := fun _ => .fresh
    let polls : Nat → Option (List UInt8) := fun i => if i = 1 then some [] else none
    (∃ resent, (Client.sendAndReceiveRequest (deleteMessage "foo").serialize polls).sent =
        (deleteMessage "foo").serialize :: resent ∧ resent ≠ [] ∧
        ∀ bytes ∈ resent, Message.parseFromString lib left bytes = .parsed (deleteMessage "foo")) ∧
      ∃ resent, (Client.sendAndReceiveRequest (deleteMessage "f\x00").serialize polls).sent =
        (deleteMessage "f\x00").serialize :: resent ∧ resent ≠ [] ∧
        ∀ bytes ∈ resent, Message.parseFromString lib left bytes = .unparsable (left bytes) := by
  intro lib left polls
  let env : ClientEnv := ⟨fun _ => none, fun _ => 0, 0, Message.serialize, fun _ => .unparsable .fresh, polls⟩
  have waits : ¬ (polls 0).isSome := by decide
  constructor
  · obtain ⟨resent, sent, again, -, whole, -⟩ := resent_copies lib left env (.remove "foo") (deleteMessage "foo") rfl
      (by decide) polls
    exact ⟨resent, sent, mt again.1 waits, whole (show ¬ ∃ id ∈ ["foo"], ZeroText id by decide)⟩
  · obtain ⟨resent, sent, again, -, -, off⟩ := resent_copies lib left env (.remove "f\x00") (deleteMessage "f\x00") rfl
      (by decide) polls
    exact ⟨resent, sent, mt again.1 waits, off (show ∃ id ∈ ["f\x00"], ZeroText id by decide)⟩

/-! ## The exchange -/

section Exchange

variable (regex : RegexEngine) (localTime : Int → String) (lib : Library) (left : List UInt8 → Message)

/-- The body of the loop of `Server::Serve`, from the bytes of a request to those of the reply. -/
def Server.serveBytes (env : Surroundings) (m : JobMonitor) (bytes : List UInt8) :
    ReplyLoop.Turn JobMonitor (List UInt8) :=
  match Server.serve regex localTime env m (Message.parseFromString lib left bytes) with
  | .replied m reply => .replied m reply.serialize
  | .silent m => .silent m
  | .thrown => .thrown

/-- The client encodes and decodes as the server does. -/
def ClientEnv.Encoded (env : ClientEnv) : Prop :=
  env.serializeAsString = Message.serialize ∧ env.parseFromString = Message.parseFromString lib left

/-- What the server sends has no request in it, and is a reply. -/
theorem Server.serve_proper {env : Surroundings} {m m' : JobMonitor} {request : Received Message} {reply : Message}
    (served : Server.serve regex localTime env m request = .replied m' reply) : reply.Proper := by
  have request_part : ∀ msg : Message, (msg.releaseRequest.setType .REPLY).getRequest = ⟨.INVALID, none⟩ := by
    rintro ⟨type, _ | request | reply⟩ <;> rfl
  unfold serve at served
  split at served
  · cases served
    exact ⟨rfl, rfl⟩
  · rw [serveParsed] at served
    split at served
    · cases served
    · split at served
      · cases served
      · cases served
        refine ⟨rfl, ?_⟩
        rw [request_part]
        decide

/-- **The exchange over bytes.** The server does with the bytes of a command's request what
it does with the request, and the client reads the reply that the server has made. -/
theorem exchange_over_bytes (client : ClientEnv) (encoded : client.Encoded lib left) (command : ClientCommand)
    (msg : Message) (sends : (command.run client).request = some msg)
    (request_fits : msg.byteSizeLong ≤ defaultTotalBytesLimit) (env : Surroundings) (m m' : JobMonitor)
    (bytes : List UInt8)
    (served : Server.serveBytes regex localTime lib left env m (client.serializeAsString msg) = .replied m' bytes)
    (reply_fits : bytes.length ≤ defaultTotalBytesLimit) :
    ∃ reply, Server.serve regex localTime env m (.parsed msg) = .replied m' reply ∧
      client.parseFromString bytes = .parsed reply := by
  obtain ⟨serializes, parses⟩ := encoded
  have proper := (ClientCommand.sentByClient sends).proper
  rw [Server.serveBytes, serializes, Message.parseFromString_serialize lib left msg proper request_fits] at served
  cases answer : Server.serve regex localTime env m (.parsed msg) with
  | silent => rw [answer] at served; cases served
  | thrown => rw [answer] at served; cases served
  | replied _ reply =>
    rw [answer] at served
    cases served
    refine ⟨reply, rfl, ?_⟩
    rw [Message.length_serialize] at reply_fits
    rw [parses]
    exact Message.parseFromString_serialize lib left reply (Server.serve_proper regex localTime answer) reply_fits

end Exchange

/-- A removal of a stored job: it is answered with the return code zero, and the job is gone. -/
theorem exchange_of_a_removal :
    let regex : RegexEngine := ⟨fun _ => true, fun _ _ => true, rfl⟩
    let lib : Library := ⟨fun _ _ => none, true⟩
    let left : List UInt8 → Message := fun _ => .fresh
    let client : ClientEnv :=
      ⟨fun _ => none, fun _ => 0, 0, Message.serialize, Message.parseFromString lib left, fun _ => none⟩
    let env : Surroundings := ⟨∅, fun _ => 0, fun _ _ => none, 0⟩
    let m := scheduled .empty ⟨.SCHEDULED, "foo", 0, 10, ["OST_a"], 42⟩
    m.scheduleState.jobOf "foo" ≠ none ∧ ∃ reply m' bytes,
      Server.serveBytes regex (fun _ => "") lib left env m (client.serializeAsString (deleteMessage "foo")) =
        .replied m' bytes ∧ client.parseFromString bytes = .parsed reply ∧ reply.getReply.rc = 0 ∧
      m'.scheduleState.jobOf "foo" = none := by
  intro regex lib left client env m
  have parses := Message.parseFromString_serialize lib left (deleteMessage "foo") ⟨rfl, rfl⟩ (by decide)
  obtain ⟨m', reply, answer, fits, rc, gone⟩ : ∃ m' reply,
      Server.serve regex (fun _ => "") env m (.parsed (deleteMessage "foo")) = .replied m' reply ∧
        reply.serialize.length ≤ defaultTotalBytesLimit ∧ reply.getReply.rc = 0 ∧
        m'.scheduleState.jobOf "foo" = none := ⟨_, _, rfl, by decide, rfl, by decide +kernel⟩
  have served : Server.serveBytes regex (fun _ => "") lib left env m (client.serializeAsString (deleteMessage "foo")) =
      .replied m' reply.serialize := by
    rw [Server.serveBytes, show client.serializeAsString = Message.serialize from rfl, parses, answer]
  obtain ⟨reply', answer', parsed⟩ := exchange_over_bytes regex (fun _ => "") lib left client ⟨rfl, rfl⟩ (.remove "foo")
    (deleteMessage "foo") rfl (by decide) env m m' reply.serialize served fits
  rw [answer] at answer'
  cases answer'
  exact ⟨by decide +kernel, reply, m', reply.serialize, served, parsed, rc, gone⟩

end QosPlanner
