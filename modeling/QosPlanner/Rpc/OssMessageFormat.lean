import QosPlanner.Rpc.OssCommandMessage
import QosPlanner.Rpc.RoundTrip
import QosPlanner.Protobuf.Zeros

/-!
# How the messages between planner and OSS are encoded

`src/common/rpc/proto/oss_server_message.pb.cc`, in the same way as `message.pb.cc`: a
command comes out of the bytes as it went in, and so do the return code and the output.
-/

namespace QosPlanner
set_option autoImplicit false

namespace Rpc

open Protobuf

variable {lib : Library}

/-! ## `OSSCommandRequest` -/

namespace OSSCommandRequest

def format : Format OSSCommandRequest where
  field tag :=
    if tag = 10 then some (readInto (fun _ => readString) (·.command) fun msg command => { msg with command })
    else none
  expect _ := []
  expect_tag := nothing_expected

def serialize (msg : OSSCommandRequest) : List UInt8 := if msg.command ≠ "" then writeString 1 msg.command else []

def byteSizeLong (msg : OSSCommandRequest) : Nat := if msg.command ≠ "" then 1 + stringSize msg.command else 0

def unsafeMergeFrom (msg source : OSSCommandRequest) : OSSCommandRequest where
  command := if source.command ≠ "" then source.command else msg.command

theorem length_serialize (msg : OSSCommandRequest) : msg.serialize.length = msg.byteSizeLong := by
  simp only [serialize, byteSizeLong, apply_ite List.length, List.length_nil,
    length_writeString (show OneByteTag 1 by decide)]

theorem encodes (source : OSSCommandRequest) (fits : source.byteSizeLong < 2 ^ 31) :
    Encodes lib format source.serialize (fun msg => msg.unsafeMergeFrom source) := by
  have command : Encodes lib format (if source.command ≠ "" then writeString 1 source.command else [])
      fun msg => { msg with command := if source.command ≠ "" then source.command else msg.command } := by
    refine .optional (fun written => ?_) fun msg => by split <;> rfl
    rw [byteSizeLong, if_pos written] at fits
    have own : (utf8 source.command).length ≤ stringSize source.command := Nat.le_add_left _ _
    exact .string lib format (by decide : OneByteTag 1) source.command rfl (by omega)
  exact command

theorem unsafeMergeFrom_default (source : OSSCommandRequest) : unsafeMergeFrom ⟨""⟩ source = source := by
  rw [unsafeMergeFrom, written_or_default]

end OSSCommandRequest

/-! ## `OSSCommandReply` -/

namespace OSSCommandReply

def format : Format OSSCommandReply where
  field tag :=
    if tag = 8 then some (readInto (fun _ => readInt32) (·.rc) fun msg rc => { msg with rc })
    else if tag = 18 then
      some (readInto (fun _ => readString) (·.returnMsg) fun msg returnMsg => { msg with returnMsg })
    else none
  expect tag := if tag = 8 then [18] else []
  expect_tag tag := by
    split <;> simp

def serialize (msg : OSSCommandReply) : List UInt8 :=
  (if msg.rc ≠ 0 then writeInt32 1 msg.rc else []) ++ if msg.returnMsg ≠ "" then writeString 2 msg.returnMsg else []

def byteSizeLong (msg : OSSCommandReply) : Nat :=
  (if msg.rc ≠ 0 then 1 + varintSize (signExtend msg.rc) else 0) +
    if msg.returnMsg ≠ "" then 1 + stringSize msg.returnMsg else 0

def unsafeMergeFrom (msg source : OSSCommandReply) : OSSCommandReply where
  rc := if source.rc ≠ 0 then source.rc else msg.rc
  returnMsg := if source.returnMsg ≠ "" then source.returnMsg else msg.returnMsg

theorem length_serialize (msg : OSSCommandReply) : msg.serialize.length = msg.byteSizeLong := by
  simp only [serialize, byteSizeLong, List.length_append, apply_ite List.length, List.length_nil,
    length_writeInt32 (show OneByteTag 1 by decide), length_writeString (show OneByteTag 2 by decide)]

theorem encodes (source : OSSCommandReply) (fits : source.byteSizeLong < 2 ^ 31) :
    Encodes lib format source.serialize (fun msg => msg.unsafeMergeFrom source) := by
  unfold byteSizeLong at fits
  have rc : Encodes lib format (if source.rc ≠ 0 then writeInt32 1 source.rc else [])
      fun msg => { msg with rc := if source.rc ≠ 0 then source.rc else msg.rc } :=
    .optional (fun _ => .int32 lib format (by decide : OneByteTag 1) source.rc rfl) fun msg => by split <;> rfl
  have returnMsg : Encodes lib format (if source.returnMsg ≠ "" then writeString 2 source.returnMsg else [])
      fun msg => { msg with returnMsg := if source.returnMsg ≠ "" then source.returnMsg else msg.returnMsg } := by
    refine .optional (fun written => ?_) fun msg => by split <;> rfl
    rw [if_pos written] at fits
    have own : (utf8 source.returnMsg).length ≤ stringSize source.returnMsg := Nat.le_add_left _ _
    exact .string lib format (by decide : OneByteTag 2) source.returnMsg rfl (by omega)
  exact rc.append returnMsg

theorem unsafeMergeFrom_default (source : OSSCommandReply) : unsafeMergeFrom ⟨0, ""⟩ source = source := by
  rw [unsafeMergeFrom, written_or_default, written_or_default]

end OSSCommandReply

/-! ## `OSSCommandMessage` -/

namespace OSSCommandMessage

def format (lib : Library) : Format OSSCommandMessage where
  field tag :=
    if tag = 8 then
      some (readInto (fun _ => readInt32) (·.type.number) fun msg value => { msg with type := .ofNumber value })
    else if tag = 18 then
      some (readInto (readMessage lib (OSSCommandRequest.format.merge lib)) (·.getRequest)
        fun msg request => { msg with rq := some (.request request) })
    else if tag = 26 then
      some (readInto (readMessage lib (OSSCommandReply.format.merge lib)) (·.getReply)
        fun msg reply => { msg with rq := some (.reply reply) })
    else none
  expect tag := if tag = 8 then [18] else []
  expect_tag tag := by
    split <;> simp

def serialize (msg : OSSCommandMessage) : List UInt8 :=
  (if msg.type.number ≠ 0 then writeInt32 1 msg.type.number else []) ++
    match msg.rq with
    | some (.request request) => writeMessage 2 request.byteSizeLong request.serialize
    | some (.reply reply) => writeMessage 3 reply.byteSizeLong reply.serialize
    | none => []

def byteSizeLong (msg : OSSCommandMessage) : Nat :=
  (if msg.type.number ≠ 0 then 1 + varintSize (signExtend msg.type.number) else 0) +
    match msg.rq with
    | some (.request request) => 1 + lengthDelimitedSize request.byteSizeLong
    | some (.reply reply) => 1 + lengthDelimitedSize reply.byteSizeLong
    | none => 0

def unsafeMergeFrom (msg source : OSSCommandMessage) : OSSCommandMessage where
  rq :=
    match source.rq with
    | some (.request request) => some (.request (msg.getRequest.unsafeMergeFrom request))
    | some (.reply reply) => some (.reply (msg.getReply.unsafeMergeFrom reply))
    | none => msg.rq
  type := if source.type.number ≠ 0 then source.type else msg.type

/-- A message without a part, as the constructor makes it. -/
def empty : OSSCommandMessage := ⟨.REQUEST, none⟩

@[inherit_doc Message.parseFromString]
def parseFromString (lib : Library) (left : List UInt8 → OSSCommandMessage) (bytes : List UInt8) :
    Received OSSCommandMessage :=
  match (format lib).merge lib empty bytes with
  | some msg => .parsed msg
  | none => .unparsable (left bytes)

theorem length_serialize (msg : OSSCommandMessage) : msg.serialize.length = msg.byteSizeLong := by
  obtain ⟨type, rq⟩ := msg
  have type_size := length_writeNumber type.number
  rcases rq with _ | request | reply
  case none => simpa [serialize, byteSizeLong] using type_size
  case some.request =>
    rw [serialize, byteSizeLong, List.length_append, type_size,
      length_writeMessage (by decide) request.length_serialize]
  case some.reply =>
    rw [serialize, byteSizeLong, List.length_append, type_size, length_writeMessage (by decide) reply.length_serialize]

theorem encodes (source : OSSCommandMessage) (proper : source.type.Proper) (fits : source.byteSizeLong < 2 ^ 31) :
    Encodes lib (format lib) source.serialize (fun msg => msg.unsafeMergeFrom source) := by
  obtain ⟨type, rq⟩ := source
  have typed : Encodes lib (format lib) (if type.number ≠ 0 then writeInt32 1 type.number else [])
      fun msg => { msg with type := if type.number ≠ 0 then type else msg.type } := by
    refine .optional (fun _ => .int32 lib (format lib) (by decide : OneByteTag 1) type.number rfl) fun msg => ?_
    rw [show MessageType.ofNumber type.number = type from proper]
    split <;> rfl
  unfold byteSizeLong at fits
  rcases rq with _ | request | reply
  case none => exact typed.append .nil
  case some.request =>
    have inner : request.byteSizeLong ≤ lengthDelimitedSize request.byteSizeLong := Nat.le_add_left _ _
    simp only at fits
    exact typed.append (.message lib (format lib) (by decide : OneByteTag 2) rfl (request.encodes (by omega))
      request.length_serialize (by omega))
  case some.reply =>
    have inner : reply.byteSizeLong ≤ lengthDelimitedSize reply.byteSizeLong := Nat.le_add_left _ _
    simp only at fits
    exact typed.append (.message lib (format lib) (by decide : OneByteTag 3) rfl (reply.encodes (by omega))
      reply.length_serialize (by omega))

theorem unsafeMergeFrom_empty {source : OSSCommandMessage} (proper : source.type.Proper) :
    empty.unsafeMergeFrom source = source := by
  obtain ⟨type, rq⟩ := source
  have same_type := proper.written_or_first
  rcases rq with _ | request | reply
  case none => rw [unsafeMergeFrom, empty, same_type]
  case some.request => simp only [unsafeMergeFrom, empty, same_type, getRequest, request.unsafeMergeFrom_default]
  case some.reply => simp only [unsafeMergeFrom, empty, same_type, getReply, reply.unsafeMergeFrom_default]

variable (lib) (left : List UInt8 → OSSCommandMessage)

/-- **Round trip.** -/
theorem parseFromString_serialize (msg : OSSCommandMessage) (proper : msg.type.Proper)
    (fits : msg.byteSizeLong ≤ defaultTotalBytesLimit) : parseFromString lib left msg.serialize = .parsed msg := by
  rw [parseFromString, (msg.encodes proper (lt_of_le_limit fits)).merge_eq, unsafeMergeFrom_empty proper]

@[inherit_doc Message.parseFromString_cString_serialize]
theorem parseFromString_cString_serialize (msg : OSSCommandMessage) (proper : msg.type.Proper)
    (fits : msg.byteSizeLong ≤ defaultTotalBytesLimit) :
    parseFromString lib left (cString msg.serialize) =
      if 0 ∈ msg.serialize then .unparsable (left (cString msg.serialize)) else .parsed msg := by
  split
  next zero =>
    have off : CutOff msg.serialize (cString msg.serialize) := cString_append_zero zero
    rw [parseFromString, (msg.encodes proper (lt_of_le_limit fits)).merge_cut off]
  next whole => rw [cString_eq_self_iff.2 whole, parseFromString_serialize lib left msg proper fits]

end OSSCommandMessage

end Rpc

end QosPlanner
