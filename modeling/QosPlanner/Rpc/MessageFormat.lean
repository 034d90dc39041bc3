import QosPlanner.Rpc.Message
import QosPlanner.Protobuf.Encodes

/-!
# How messages are encoded

`src/common/rpc/proto/message.pb.cc`: for each message of `message.proto` the switch of
`MergePartialFromCodedStream` with the tags it expects, `SerializeWithCachedSizes`,
`ByteSizeLong` and `UnsafeMergeFrom`. A part of a message is written with the size that
`ByteSizeLong` has cached for it, so the reader goes by that size: `length_serialize`
says that it is the length of what is written.
-/

namespace QosPlanner
set_option autoImplicit false

namespace Rpc

open Protobuf

/-! ## `Request::DeleteRequest` -/

namespace DeleteRequest

def format : Format DeleteRequest where
  field
    | 10 => some (readInto (fun _ => readString) (fun _ => "") fun msg id => { msg with id := msg.id ++ [id] })
    | 16 => some (readInto (fun _ => readBool) (·.all) fun msg all => { msg with all })
    | _ => none
  expect
    | 10 => [10, 16]
    | _ => []
  expect_tag tag := by
    split <;> simp

def serialize (msg : DeleteRequest) : List UInt8 :=
  msg.id.flatMap (writeString 1) ++ if msg.all then writeBool 2 msg.all else []

def byteSizeLong (msg : DeleteRequest) : Nat :=
  (if msg.all then 1 + 1 else 0) + (1 * msg.id.length + (msg.id.map stringSize).sum)

def unsafeMergeFrom (msg source : DeleteRequest) : DeleteRequest where
  id := msg.id ++ source.id
  all := if source.all then source.all else msg.all

end DeleteRequest

/-! ## `Request::ResourceRequest` -/

namespace ResourceRequest

def format : Format ResourceRequest where
  field
    | 10 => some (readInto (fun _ => readString) (·.id) fun msg id => { msg with id })
    | 16 => some (readInto (fun _ => readInt32) (·.throughputMB) fun msg throughputMB => { msg with throughputMB })
    | 24 => some (readInto (fun _ => readInt64) (·.tstart) fun msg tstart => { msg with tstart })
    | 32 => some (readInto (fun _ => readInt64) (·.durationSec) fun msg durationSec => { msg with durationSec })
    | 42 => some (readInto (fun _ => readString) (fun _ => "") fun msg file => { msg with files := msg.files ++ [file] })
    | _ => none
  expect
    | 10 => [16]
    | 16 => [24]
    | 24 => [32]
    | 32 => [42]
    | 42 => [42]
    | _ => []
  expect_tag tag := by
    split <;> simp

def serialize (msg : ResourceRequest) : List UInt8 :=
  (if msg.id ≠ "" then writeString 1 msg.id else []) ++
    ((if msg.throughputMB ≠ 0 then writeInt32 2 msg.throughputMB else []) ++
      ((if msg.tstart ≠ 0 then writeInt64 3 msg.tstart else []) ++
        ((if msg.durationSec ≠ 0 then writeInt64 4 msg.durationSec else []) ++ msg.files.flatMap (writeString 5))))

def byteSizeLong (msg : ResourceRequest) : Nat :=
  (if msg.id ≠ "" then 1 + stringSize msg.id else 0) +
    ((if msg.throughputMB ≠ 0 then 1 + varintSize (signExtend msg.throughputMB) else 0) +
      ((if msg.tstart ≠ 0 then 1 + varintSize msg.tstart.toUInt64 else 0) +
        ((if msg.durationSec ≠ 0 then 1 + varintSize msg.durationSec.toUInt64 else 0) +
          (1 * msg.files.length + (msg.files.map stringSize).sum))))

def unsafeMergeFrom (msg source : ResourceRequest) : ResourceRequest where
  files := msg.files ++ source.files
  id := if source.id ≠ "" then source.id else msg.id
  throughputMB := if source.throughputMB ≠ 0 then source.throughputMB else msg.throughputMB
  tstart := if source.tstart ≠ 0 then source.tstart else msg.tstart
  durationSec := if source.durationSec ≠ 0 then source.durationSec else msg.durationSec

end ResourceRequest

/-! ## `Request::ListJobsRequest` -/

namespace ListJobsRequest

def format : Format ListJobsRequest where
  field
    | 10 => some (readInto (fun _ => readString) (·.regex) fun msg regex => { msg with regex })
    | _ => none
  expect _ := []
  expect_tag := nothing_expected

def serialize (msg : ListJobsRequest) : List UInt8 := if msg.regex ≠ "" then writeString 1 msg.regex else []

def byteSizeLong (msg : ListJobsRequest) : Nat := if msg.regex ≠ "" then 1 + stringSize msg.regex else 0

def unsafeMergeFrom (msg source : ListJobsRequest) : ListJobsRequest where
  regex := if source.regex ≠ "" then source.regex else msg.regex

end ListJobsRequest

/-! ## `Request` -/

namespace RequestType

/-- The number of an enumeration's value. -/
def number : RequestType → Int32
  | .INVALID => 0
  | .RESERVE => 1
  | .DELETE => 2
  | .LISTJOBS => 3
  | .unnamed value => value

/-- `static_cast` from the number. -/
def ofNumber (value : Int32) : RequestType :=
  if value = 0 then .INVALID
  else if value = 1 then .RESERVE
  else if value = 2 then .DELETE
  else if value = 3 then .LISTJOBS
  else .unnamed value

/-- A number that has a name goes by it. -/
def Proper (type : RequestType) : Prop := ofNumber type.number = type

instance (type : RequestType) : Decidable type.Proper := inferInstanceAs (Decidable (_ = _))

end RequestType

namespace Request

def format (lib : Library) : Format Request where
  field
    | 8 => some (readInto (fun _ => readInt32) (·.type.number) fun msg value => { msg with type := .ofNumber value })
    | 18 => some (readInto (readMessage lib (ResourceRequest.format.merge lib)) (·.getResourceRequest)
        fun msg request => { msg with rt := some (.resourceRequest request) })
    | 26 => some (readInto (readMessage lib (DeleteRequest.format.merge lib)) (·.getDeleteRequest)
        fun msg request => { msg with rt := some (.deleteRequest request) })
    | 34 => some (readInto (readMessage lib (ListJobsRequest.format.merge lib)) (·.getListJobsRequest)
        fun msg request => { msg with rt := some (.listJobsRequest request) })
    | _ => none
  expect
    | 8 => [18]
    | 26 => [34]
    | _ => []
  expect_tag tag := by
    split <;> simp

def serialize (msg : Request) : List UInt8 :=
  (if msg.type.number ≠ 0 then writeInt32 1 msg.type.number else []) ++
    match msg.rt with
    | some (.resourceRequest request) => writeMessage 2 request.byteSizeLong request.serialize
    | some (.deleteRequest request) => writeMessage 3 request.byteSizeLong request.serialize
    | some (.listJobsRequest request) => writeMessage 4 request.byteSizeLong request.serialize
    | none => []

def byteSizeLong (msg : Request) : Nat :=
  (if msg.type.number ≠ 0 then 1 + varintSize (signExtend msg.type.number) else 0) +
    match msg.rt with
    | some (.resourceRequest request) => 1 + lengthDelimitedSize request.byteSizeLong
    | some (.deleteRequest request) => 1 + lengthDelimitedSize request.byteSizeLong
    | some (.listJobsRequest request) => 1 + lengthDelimitedSize request.byteSizeLong
    | none => 0

def unsafeMergeFrom (msg source : Request) : Request where
  rt :=
    match source.rt with
    | some (.resourceRequest request) => some (.resourceRequest (msg.getResourceRequest.unsafeMergeFrom request))
    | some (.deleteRequest request) => some (.deleteRequest (msg.getDeleteRequest.unsafeMergeFrom request))
    | some (.listJobsRequest request) => some (.listJobsRequest (msg.getListJobsRequest.unsafeMergeFrom request))
    | none => msg.rt
  type := if source.type.number ≠ 0 then source.type else msg.type

end Request

/-! ## `Error` -/

/-- `Error`, which no server writes; a reader that gets one reads it. -/
structure Error where
  error : Int32
  msg : String
  deriving DecidableEq, Repr

def Error.format : Format Error where
  field
    | 8 => some (readInto (fun _ => readInt32) (·.error) fun msg error => { msg with error })
    | 18 => some (readInto (fun _ => readString) (·.msg) fun error text => { error with msg := text })
    | _ => none
  expect
    | 8 => [18]
    | _ => []
  expect_tag tag := by
    split <;> simp

/-! ## `Reply` -/

namespace Reply

/-- The `error` of a reply is read, and is not kept in the model of the reply. -/
def format (lib : Library) : Format Reply where
  field
    | 8 => some (readInto (fun _ => readInt32) (·.rc) fun msg rc => { msg with rc })
    | 18 => some (readInto (readMessage lib (Error.format.merge lib)) (fun _ => ⟨0, ""⟩) fun msg _ => msg)
    | 26 => some (readInto (fun _ => readString) (·.returnMsg) fun msg returnMsg => { msg with returnMsg })
    | _ => none
  expect
    | 8 => [18]
    | 18 => [26]
    | _ => []
  expect_tag tag := by
    split <;> simp

def serialize (msg : Reply) : List UInt8 :=
  (if msg.rc ≠ 0 then writeInt32 1 msg.rc else []) ++ if msg.returnMsg ≠ "" then writeString 3 msg.returnMsg else []

def byteSizeLong (msg : Reply) : Nat :=
  (if msg.rc ≠ 0 then 1 + varintSize (signExtend msg.rc) else 0) +
    if msg.returnMsg ≠ "" then 1 + stringSize msg.returnMsg else 0

def unsafeMergeFrom (msg source : Reply) : Reply where
  rc := if source.rc ≠ 0 then source.rc else msg.rc
  returnMsg := if source.returnMsg ≠ "" then source.returnMsg else msg.returnMsg

end Reply

/-! ## `Message` -/

namespace MessageType

@[inherit_doc RequestType.number] def number : MessageType → Int32
  | .REQUEST => 0
  | .REPLY => 1
  | .unnamed value => value

@[inherit_doc RequestType.ofNumber] def ofNumber (value : Int32) : MessageType :=
  if value = 0 then .REQUEST else if value = 1 then .REPLY else .unnamed value

@[inherit_doc RequestType.Proper] def Proper (type : MessageType) : Prop := ofNumber type.number = type

instance (type : MessageType) : Decidable type.Proper := inferInstanceAs (Decidable (_ = _))

end MessageType

namespace Message

def format (lib : Library) : Format Message where
  field
    | 8 => some (readInto (fun _ => readInt32) (·.type.number) fun msg value => { msg with type := .ofNumber value })
    | 18 => some (readInto (readMessage lib ((Request.format lib).merge lib)) (·.getRequest)
        fun msg request => { msg with rq := some (.request request) })
    | 26 => some (readInto (readMessage lib ((Reply.format lib).merge lib)) (·.getReply)
        fun msg reply => { msg with rq := some (.reply reply) })
    | _ => none
  expect
    | 8 => [18]
    | _ => []
  expect_tag tag := by
    split <;> simp

def serialize (msg : Message) : List UInt8 :=
  (if msg.type.number ≠ 0 then writeInt32 1 msg.type.number else []) ++
    match msg.rq with
    | some (.request request) => writeMessage 2 request.byteSizeLong request.serialize
    | some (.reply reply) => writeMessage 3 reply.byteSizeLong reply.serialize
    | none => []

def byteSizeLong (msg : Message) : Nat :=
  (if msg.type.number ≠ 0 then 1 + varintSize (signExtend msg.type.number) else 0) +
    match msg.rq with
    | some (.request request) => 1 + lengthDelimitedSize request.byteSizeLong
    | some (.reply reply) => 1 + lengthDelimitedSize reply.byteSizeLong
    | none => 0

def unsafeMergeFrom (msg source : Message) : Message where
  rq :=
    match source.rq with
    | some (.request request) => some (.request (msg.getRequest.unsafeMergeFrom request))
    | some (.reply reply) => some (.reply (msg.getReply.unsafeMergeFrom reply))
    | none => msg.rq
  type := if source.type.number ≠ 0 then source.type else msg.type

/-- A message without a part, as the constructor makes it. -/
def empty : Message := ⟨.REQUEST, none⟩

/-- `ParseFromString`; what it leaves of bytes that do not parse is up to the library. -/
def parseFromString (lib : Library) (left : List UInt8 → Message) (bytes : List UInt8) : Received Message :=
  match (format lib).merge lib empty bytes with
  | some msg => .parsed msg
  | none => .unparsable (left bytes)

/-- The types of the message and of a request in it go by their names. -/
def Proper (msg : Message) : Prop := msg.type.Proper ∧ msg.getRequest.type.Proper

instance (msg : Message) : Decidable msg.Proper := inferInstanceAs (Decidable (_ ∧ _))

end Message

end Rpc

end QosPlanner
