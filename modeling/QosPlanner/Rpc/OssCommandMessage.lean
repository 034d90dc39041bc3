import QosPlanner.Rpc.Message

/-!
# The messages between planner and OSS

`src/common/rpc/proto/oss_server_message.proto`, with the accessors `protoc` generates. The
enumeration of the message types has the same two names as that of `message.proto`.
-/

namespace QosPlanner
set_option autoImplicit false

namespace Rpc

structure OSSCommandRequest where
  command : String
  deriving DecidableEq, Repr

structure OSSCommandReply where
  rc : Int32
  returnMsg : String
  deriving DecidableEq, Repr

/-- `OSSCommandMessage::rq`, a `oneof`. -/
inductive OSSCommandRq where
  | request (request : OSSCommandRequest)
  | reply (reply : OSSCommandReply)
  deriving DecidableEq, Repr

structure OSSCommandMessage where
  type : MessageType
  rq : Option OSSCommandRq
  deriving DecidableEq, Repr

namespace OSSCommandMessage

/-- `request()` -/
def getRequest (msg : OSSCommandMessage) : OSSCommandRequest :=
  match msg.rq with
  | some (.request request) => request
  | _ => ⟨""⟩

/-- `reply()` -/
def getReply (msg : OSSCommandMessage) : OSSCommandReply :=
  match msg.rq with
  | some (.reply reply) => reply
  | _ => ⟨0, ""⟩

/-- `mutable_request()->set_command(command)` -/
def setCommand (msg : OSSCommandMessage) (command : String) : OSSCommandMessage :=
  { msg with rq := some (.request ⟨command⟩) }

/-- `mutable_reply()->set_rc(rc)` -/
def setReplyRc (msg : OSSCommandMessage) (rc : Int32) : OSSCommandMessage :=
  { msg with rq := some (.reply { msg.getReply with rc }) }

/-- `mutable_reply()->set_return_msg(returnMsg)` -/
def setReplyReturnMsg (msg : OSSCommandMessage) (returnMsg : String) : OSSCommandMessage :=
  { msg with rq := some (.reply { msg.getReply with returnMsg }) }

/-- `clear_request()`; `release_request()` leaves the message in the same state. -/
def clearRequest (msg : OSSCommandMessage) : OSSCommandMessage :=
  match msg.rq with
  | some (.request _) => { msg with rq := none }
  | _ => msg

/-- `set_type` -/
def setType (msg : OSSCommandMessage) (type : MessageType) : OSSCommandMessage := { msg with type }

@[simp] theorem getReply_setReplyRc (msg : OSSCommandMessage) (rc : Int32) : (msg.setReplyRc rc).getReply.rc = rc :=
  rfl

@[simp] theorem getReply_setType (msg : OSSCommandMessage) (type : MessageType) :
    (msg.setType type).getReply = msg.getReply := rfl

@[simp] theorem getRequest_setCommand (msg : OSSCommandMessage) (command : String) :
    (msg.setCommand command).getRequest.command = command := rfl

/-- Clearing the request leaves the reply as it reads. -/
@[simp] theorem getReply_clearRequest (msg : OSSCommandMessage) : msg.clearRequest.getReply = msg.getReply := by
  obtain ⟨type, rq⟩ := msg
  rcases rq with _ | (request | reply) <;> rfl

end OSSCommandMessage

end Rpc

end QosPlanner
