import QosPlanner.Client.Resends
import QosPlanner.Rpc.OssMessageFormat

/-!
# Commands as bytes

`OssStubRuleSetter::RemotelyExecuteCmd` and `OSSRuleServer::Serve` with the encoding of
their messages. The OSS runs the command the planner has built, as far as its `c_str()`
goes, and the planner reads what `exec` returned there. As with the requests of the client,
a copy of the command that is sent again is not parsed if the command has the character
zero, or none at all.
-/

namespace QosPlanner
set_option autoImplicit false

open Rpc Protobuf

namespace OssStubRuleSetter

variable (lib : Library) (left : List UInt8 → OSSCommandMessage) (popen : String → CommandOutcome)

/-- The exchange of bytes with a server that is not disturbed. -/
def bytesExchange (_address : String) (msg : OSSCommandMessage) : Option (Received OSSCommandMessage) :=
  (OSSRuleServer.serve popen (OSSCommandMessage.parseFromString lib left msg.serialize)).map fun reply =>
    OSSCommandMessage.parseFromString lib left reply.serialize

theorem proper_buildCommandMessage (cmd : String) : (buildCommandMessage cmd).type.Proper := rfl

theorem proper_of_serve {request : Received OSSCommandMessage} {reply : OSSCommandMessage}
    (served : OSSRuleServer.serve popen request = some reply) : reply.type.Proper := by
  have type : reply.type = .REPLY := by
    unfold OSSRuleServer.serve at served
    split at served
    · cases served
      rfl
    · split at served
      · cases served
      · cases served
        rfl
  rw [type]
  decide

/-- The encoding of a command has a zero iff its text is written with one. -/
theorem zero_mem_serialize {cmd : String} (fits : (buildCommandMessage cmd).byteSizeLong < 2 ^ 31) :
    0 ∈ (buildCommandMessage cmd).serialize ↔ ZeroText cmd := by
  have inner : (OSSCommandRequest.mk cmd).byteSizeLong ≤ lengthDelimitedSize (OSSCommandRequest.mk cmd).byteSizeLong :=
    Nat.le_add_left _ _
  have body_fits : (OSSCommandRequest.mk cmd).byteSizeLong < 2 ^ 31 := by
    unfold buildCommandMessage OSSCommandMessage.setCommand OSSCommandMessage.byteSizeLong at fits
    simp only at fits
    omega
  have whole : 0 ∈ (buildCommandMessage cmd).serialize ↔
      (OSSCommandRequest.mk cmd).byteSizeLong = 0 ∨ 0 ∈ (OSSCommandRequest.mk cmd).serialize := by
    rw [← zero_mem_writeMessage (show OneByteTag 2 by decide) body_fits]
    rfl
  rw [whole, OSSCommandRequest.serialize, OSSCommandRequest.byteSizeLong]
  by_cases written : cmd = ""
  · simp [written, ZeroText]
  · have own : (utf8 cmd).length ≤ stringSize cmd := Nat.le_add_left _ _
    have size : 1 + stringSize cmd < 2 ^ 31 := by
      rw [OSSCommandRequest.byteSizeLong, if_pos written] at body_fits
      exact body_fits
    have text : 0 ∈ writeString 1 cmd ↔ ZeroText cmd := zero_mem_writeString (by decide) (by omega)
    rw [if_pos written, if_pos written, text]
    simp

/-- **Commands over bytes.** The OSS runs the C string of the command that was built, the
result is that of `exec` there, and the copies that are sent again are parsed as the command
iff it is not written with a zero. -/
theorem commands_over_bytes (ip cmd : String) (cmd_fits : (buildCommandMessage cmd).byteSizeLong ≤ defaultTotalBytesLimit)
    (reply_fits : ∀ reply, OSSRuleServer.serve popen (.parsed (buildCommandMessage cmd)) = some reply →
      reply.byteSizeLong ≤ defaultTotalBytesLimit) (polls : Nat → Option (List UInt8)) :
    remotelyExecuteCmd (bytesExchange lib left popen) ip cmd =
        (if ip.length = 0 then false else (Common.exec popen (cStr cmd) "").1) ∧
      ((∀ bytes ∈ (sendAndReceiveRequest (buildCommandMessage cmd).serialize polls).sent,
          OSSCommandMessage.parseFromString lib left bytes = .parsed (buildCommandMessage cmd)) ↔
        (polls 0).isSome ∨ ¬ ZeroText cmd) := by
  have proper := proper_buildCommandMessage cmd
  have parses := OSSCommandMessage.parseFromString_serialize lib left _ proper cmd_fits
  constructor
  · have same : bytesExchange lib left popen ("tcp://" ++ (ip ++ ":" ++ defaultPort)) (buildCommandMessage cmd) =
        Delivery.answer.exchange popen ("tcp://" ++ (ip ++ ":" ++ defaultPort)) (buildCommandMessage cmd) := by
      rw [bytesExchange, Delivery.exchange, parses]
      cases answer : OSSRuleServer.serve popen (.parsed (buildCommandMessage cmd)) with
      | none => rfl
      | some reply =>
        rw [Option.map_some, Option.map_some, OSSCommandMessage.parseFromString_serialize lib left reply
          (proper_of_serve popen answer) (reply_fits reply answer)]
    rw [← remotelyExecuteCmd_answer, remotelyExecuteCmd, remotelyExecuteCmd]
    simp only [same]
  · obtain ⟨same, -, none⟩ := pollLoop_sent (cString (buildCommandMessage cmd).serialize) polls 2 0
    have cut := OSSCommandMessage.parseFromString_cString_serialize lib left _ proper cmd_fits
    have zero := zero_mem_serialize (lt_of_le_limit cmd_fits)
    constructor
    · intro all
      rw [or_iff_not_imp_left]
      intro timeout written
      obtain ⟨bytes, again⟩ := List.exists_mem_of_ne_nil _ (mt none.1 (by simpa using timeout))
      have parsed := all bytes (List.mem_cons_of_mem _ again)
      rw [same bytes again, cut, if_pos (zero.2 written)] at parsed
      cases parsed
    · rintro fine bytes (_ | ⟨_, again⟩)
      · exact parses
      · rcases fine with first | whole
        · rw [none.2 (.inr first)] at again
          cases again
        · rw [same bytes again, cut, if_neg (mt zero.1 whole)]

/-- A command that sets a rule, and exits with status zero. -/
theorem set_rule_over_bytes :
    let cmd := buildLocalSetRuleCommand "foo" "_qospfoo" 42
    let popen : String → CommandOutcome := fun _ => .ended 0 ""
    let left : List UInt8 → OSSCommandMessage := fun _ => .empty
    remotelyExecuteCmd (bytesExchange ⟨fun _ _ => none, true⟩ left popen) "10.0.0.1" cmd = true := by
  intro cmd popen left
  have exchanged := (commands_over_bytes ⟨fun _ _ => none, true⟩ left popen "10.0.0.1" cmd (by decide +kernel)
    (fun reply answer => by
      cases answer
      decide +kernel) fun _ => none).1
  rw [exchanged]
  rfl

end OssStubRuleSetter

end QosPlanner
