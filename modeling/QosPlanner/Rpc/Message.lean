import QosPlanner.Schedule.Job

/-!
# The messages

`src/common/rpc/proto/message.proto`, with the accessors `protoc` generates: a getter of
an absent part returns its default value, and writing a part of a `oneof` clears the other
parts. An enumeration of proto3 is open, so a type may hold a number without a name.
-/

namespace QosPlanner
set_option autoImplicit false

namespace Rpc

/-- `Request::DeleteRequest`. -/
structure DeleteRequest where
  id : List JobId
  all : Bool
  deriving DecidableEq, Repr, Inhabited

/-- `Request::ResourceRequest`. -/
structure ResourceRequest where
  id : JobId
  throughputMB : Int32
  tstart : Int64
  durationSec : Int64
  files : List String
  deriving DecidableEq, Repr

/-- `Request::ListJobsRequest`. -/
structure ListJobsRequest where
  regex : String
  deriving DecidableEq, Repr

/-- `Request::Type`. -/
inductive RequestType where
  | INVALID
  | RESERVE
  | DELETE
  | LISTJOBS
  | unnamed (value : Int32)
  deriving DecidableEq, Repr

/-- `Request::rt`, a `oneof`. -/
inductive RequestRt where
  | resourceRequest (request : ResourceRequest)
  | deleteRequest (request : DeleteRequest)
  | listJobsRequest (request : ListJobsRequest)
  deriving DecidableEq, Repr

structure Request where
  type : RequestType
  rt : Option RequestRt
  deriving DecidableEq, Repr

/-- `Reply`, less its `error`, which no server writes. -/
structure Reply where
  rc : Int32
  returnMsg : String
  deriving DecidableEq, Repr

/-- `Message::Type`. -/
inductive MessageType where
  | REQUEST
  | REPLY
  | unnamed (value : Int32)
  deriving DecidableEq, Repr

/-- `Message::rq`, a `oneof`. -/
inductive MessageRq where
  | request (request : Request)
  | reply (reply : Reply)
  deriving DecidableEq, Repr

structure Message where
  type : MessageType
  rq : Option MessageRq
  deriving DecidableEq, Repr

/-- `resourcerequest()` -/
def Request.getResourceRequest (request : Request) : ResourceRequest :=
  match request.rt with
  | some (.resourceRequest resource) => resource
  | _ => ⟨"", 0, 0, 0, []⟩

/-- `deleterequest()` -/
def Request.getDeleteRequest (request : Request) : DeleteRequest :=
  match request.rt with
  | some (.deleteRequest delete) => delete
  | _ => ⟨[], false⟩

/-- `listjobsrequest()` -/
def Request.getListJobsRequest (request : Request) : ListJobsRequest :=
  match request.rt with
  | some (.listJobsRequest list) => list
  | _ => ⟨""⟩

/-- `mutable_listjobsrequest()->set_regex(regex)` -/
def Request.setListJobsRegex (request : Request) (regex : String) : Request :=
  { request with rt := some (.listJobsRequest ⟨regex⟩) }

namespace Message

/-- `request()` -/
def getRequest (msg : Message) : Request :=
  match msg.rq with
  | some (.request request) => request
  | _ => ⟨.INVALID, none⟩

/-- `reply()` -/
def getReply (msg : Message) : Reply :=
  match msg.rq with
  | some (.reply reply) => reply
  | _ => ⟨0, ""⟩

/-- `mutable_reply()->set_rc(rc)` -/
def setReplyRc (msg : Message) (rc : Int32) : Message :=
  { msg with rq := some (.reply { msg.getReply with rc }) }

/-- `mutable_reply()->set_return_msg(returnMsg)` -/
def setReplyReturnMsg (msg : Message) (returnMsg : String) : Message :=
  { msg with rq := some (.reply { msg.getReply with returnMsg }) }

/-- `mutable_reply()->CopyFrom(reply)` -/
def setReply (msg : Message) (reply : Reply) : Message := { msg with rq := some (.reply reply) }

/-- `mutable_request()` for a change of the request. -/
def modifyRequest (msg : Message) (change : Request → Request) : Message :=
  { msg with rq := some (.request (change msg.getRequest)) }

/-- `release_request()` -/
def releaseRequest (msg : Message) : Message :=
  match msg.rq with
  | some (.request _) => { msg with rq := none }
  | _ => msg

/-- `set_type` -/
def setType (msg : Message) (type : MessageType) : Message := { msg with type }

/-- `set_rc` writes what `reply()` then reads. -/
@[simp] theorem getReply_setReplyRc (msg : Message) (rc : Int32) : (msg.setReplyRc rc).getReply.rc = rc := rfl

@[simp] theorem getReply_setType (msg : Message) (type : MessageType) :
    (msg.setType type).getReply = msg.getReply := rfl

/-- Releasing the request leaves the reply as it reads. -/
@[simp] theorem getReply_releaseRequest (msg : Message) : msg.releaseRequest.getReply = msg.getReply := by
  obtain ⟨type, rq⟩ := msg
  rcases rq with _ | (request | reply) <;> rfl

end Message

/-- What `ParseFromString` makes of a byte string: a message, or a false result and what it
had read by then. -/
inductive Received (α : Type) where
  | unparsable (left : α)
  | parsed (msg : α)
  deriving DecidableEq, Repr

/-- What the message object holds after `ParseFromString`. -/
def Received.content {α : Type} : Received α → α
  | .unparsable left => left
  | .parsed msg => msg

end Rpc

end QosPlanner
