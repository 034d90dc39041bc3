import QosPlanner.Rpc.OssCommandMessage
import QosPlanner.Rules.Commands
import QosPlanner.Text.CString

/-!
# The two rule setters

`SSHRuleSetter` (`src/common/SSHRuleSetter.cpp`) runs the command of a rule through `ssh`,
`OssStubRuleSetter` (`src/common/OssStubRuleSetter.cpp`) sends it to an `OSSRuleServer`
(`src/oss_rule_server/OSSRuleServer.cpp`), which runs it and answers. The functions of
the stub are modelled here as they run one at a time.

Either result is to say that the command succeeded. It says less: `exec` returns true for
any command that was started, and a reply that is not there reads as return code zero.
-/

namespace QosPlanner
set_option autoImplicit false

open Rpc Common

namespace SSHRuleSetter

/-- The command `SetRule` runs; `none` if it returns false before. -/
def setRuleCmd (ip : String) (jobId : JobId) (ruleName : String) (rpcRateLimit : UInt32) : Option String :=
  if ip.length = 0 then none
  else some ("ssh " ++ ip ++ " " ++ buildLocalSetRuleCommand jobId ruleName rpcRateLimit)

/-- The command `RemoveRule` runs; it does not look at the address. -/
def removeRuleCmd (ip : String) (ruleName : String) (jobId : JobId) : Option String :=
  some ("ssh " ++ ip ++ " " ++ buildLocalRemoveRuleCommand jobId ruleName)

/-- The rest of either function. -/
def runCmd (popen : String → CommandOutcome) (cmd : Option String) : Bool :=
  match cmd with
  | none => false
  | some cmd => if !(exec popen (cStr cmd) "").1 then false else true

/-- `SetRule` -/
def setRule (popen : String → CommandOutcome) (ip : String) (jobId : JobId) (ruleName : String)
    (rpcRateLimit : UInt32) : Bool :=
  runCmd popen (setRuleCmd ip jobId ruleName rpcRateLimit)

/-- `RemoveRule` -/
def removeRule (popen : String → CommandOutcome) (ip : String) (ruleName : String) (jobId : JobId) : Bool :=
  runCmd popen (removeRuleCmd ip ruleName jobId)

end SSHRuleSetter

namespace OSSRuleServer

/-- `ServeCommand` -/
def serveCommand (popen : String → CommandOutcome) (message : OSSCommandMessage) : Bool × OSSCommandMessage :=
  match exec popen (cStr message.getRequest.command) "" with
  | (false, out) => (true, ((message.clearRequest.setType .REPLY).setReplyReturnMsg out).setReplyRc (-1))
  | (true, _) => (true, message.clearRequest.setReplyRc 0)

/-- `ServeReply` -/
def serveReply (message : OSSCommandMessage) : Bool × OSSCommandMessage :=
  (true, (message.clearRequest.setReplyReturnMsg "invalid message type: Reply").setReplyRc (-1))

/-- `ProcessMessage` -/
def processMessage (popen : String → CommandOutcome) (msg : OSSCommandMessage) : Bool × OSSCommandMessage :=
  match msg.type with
  | .REQUEST => serveCommand popen msg
  | .REPLY => serveReply msg
  | .unnamed _ => (false, msg)

/-- The message `ProcessUnparseableMsg` sends. -/
def unparseableReply (msg : OSSCommandMessage) : OSSCommandMessage :=
  ((msg.setType .REPLY).setReplyRc 1).setReplyReturnMsg "unparseable message"

/-- The body of the loop of `Serve`: what it sends for the bytes received, if anything. -/
def serve (popen : String → CommandOutcome) (request : Received OSSCommandMessage) : Option OSSCommandMessage :=
  match request with
  | .unparsable left => some (unparseableReply left)
  | .parsed msg =>
    if msg.type = .REPLY then none
    else some ((processMessage popen msg).2.clearRequest.setType .REPLY)

end OSSRuleServer

namespace OssStubRuleSetter

/-- `kDefaultPort` -/
def defaultPort : String := "5556"

/-- `BuildCommandMessage` -/
def buildCommandMessage (cmd : String) : OSSCommandMessage :=
  (OSSCommandMessage.mk .REQUEST none).setCommand cmd

@[simp] theorem buildCommandMessage_command (cmd : String) : (buildCommandMessage cmd).getRequest.command = cmd := rfl

/-- `ProcessReply`. A reply that cannot be parsed is logged, and then read all the same. -/
def processReply (reply : Received OSSCommandMessage) : Bool :=
  if reply.content.getReply.rc ≠ 0 then false else true

/-- `RemotelyExecuteCmd`, on top of the exchange of a message for a reply with an address;
there is none if the retries are used up. -/
def remotelyExecuteCmd (exchange : String → OSSCommandMessage → Option (Received OSSCommandMessage))
    (ip cmd : String) : Bool :=
  let msg := buildCommandMessage cmd
  if ip.length = 0 then false
  else
    let ipPort := ip ++ ":" ++ defaultPort
    match exchange ("tcp://" ++ ipPort) msg with
    | none => false
    | some reply => processReply reply

/-- The command the server finds in the message, if one is sent. -/
def commandServed (ip cmd : String) : Option String :=
  if ip.length = 0 then none else some (buildCommandMessage cmd).getRequest.command

/-- `SetRule` -/
def setRule (exchange : String → OSSCommandMessage → Option (Received OSSCommandMessage)) (ip : String)
    (jobId : JobId) (ruleName : String) (rpcRateLimit : UInt32) : Bool :=
  remotelyExecuteCmd exchange ip (buildLocalSetRuleCommand jobId ruleName rpcRateLimit)

/-- `RemoveRule` -/
def removeRule (exchange : String → OSSCommandMessage → Option (Received OSSCommandMessage)) (ip : String)
    (ruleName : String) (jobId : JobId) : Bool :=
  remotelyExecuteCmd exchange ip (buildLocalRemoveRuleCommand jobId ruleName)

end OssStubRuleSetter

/-! ## What a true result says -/

namespace CommandOutcome

/-- The command was executed and exited with status zero. -/
def Succeeded (outcome : CommandOutcome) : Prop := ∃ output, outcome = .ended 0 output

/-- The command was executed and exited with another status. -/
def Failed (outcome : CommandOutcome) : Prop := ∃ status output, outcome = .ended status output ∧ status ≠ 0

/-- A command that did not fail succeeded, unless it was not started. -/
theorem succeeded_of_not_failed {outcome : CommandOutcome} (started : outcome ≠ .notStarted) :
    outcome.Succeeded ↔ ¬ outcome.Failed := by
  cases outcome with
  | notStarted => exact absurd rfl started
  | ended status output => simp [Succeeded, Failed]

theorem not_failed_notStarted : ¬ notStarted.Failed := by
  rintro ⟨status, output, started, -⟩
  cases started

end CommandOutcome

/-- `exec` returns true for a command that was started. -/
theorem exec_fst_iff (popen : String → CommandOutcome) (cmd out : String) :
    (exec popen cmd out).1 = true ↔ popen cmd ≠ .notStarted := by
  unfold exec
  split <;> simp_all

/-- A true result of `exec` means success iff the command does not fail. -/
theorem exec_means_success_iff (popen : String → CommandOutcome) (cmd out : String) :
    ((exec popen cmd out).1 = true → (popen cmd).Succeeded) ↔ ¬ (popen cmd).Failed := by
  rw [exec_fst_iff]
  by_cases started : popen cmd = .notStarted
  · simp [started, CommandOutcome.not_failed_notStarted]
  · rw [CommandOutcome.succeeded_of_not_failed started]
    exact ⟨fun means => means started, fun fine _ => fine⟩

/-- What reaches the stub in answer to its message: nothing, what the server sends, or any
other bytes. -/
inductive Delivery where
  | nothing
  | answer
  | bytes (reply : Received OSSCommandMessage)

/-- The exchange of a message with a server, over such a delivery. -/
def Delivery.exchange (popen : String → CommandOutcome) (delivery : Delivery) (_address : String)
    (msg : OSSCommandMessage) : Option (Received OSSCommandMessage) :=
  match delivery with
  | .nothing => none
  | .answer => (OSSRuleServer.serve popen (.parsed msg)).map .parsed
  | .bytes reply => some reply

/-- The bytes delivered parse. -/
def Delivery.Parses : Delivery → Prop
  | .bytes (.unparsable _) => False
  | _ => True

/-- The delivery cannot be taken for a success that did not happen. -/
def Delivery.Trustworthy (outcome : CommandOutcome) : Delivery → Prop
  | .nothing => True
  | .answer => ¬ outcome.Failed
  | .bytes (.unparsable left) => left.getReply.rc ≠ 0
  | .bytes (.parsed msg) => msg.getReply.rc ≠ 0 ∨ outcome.Succeeded

/-- The answer to a command is read as what `exec` returned. -/
theorem processReply_answer (popen : String → CommandOutcome) (cmd : String) :
    ∃ msg, OSSRuleServer.serve popen (.parsed (OssStubRuleSetter.buildCommandMessage cmd)) = some msg ∧
      OssStubRuleSetter.processReply (.parsed msg) = (exec popen (cStr cmd) "").1 := by
  have answer : OSSRuleServer.serve popen (.parsed (OssStubRuleSetter.buildCommandMessage cmd)) = some
      ((OSSRuleServer.serveCommand popen (OssStubRuleSetter.buildCommandMessage cmd)).2.clearRequest.setType .REPLY) :=
    rfl
  refine ⟨_, answer, ?_⟩
  cases outcome : popen (cStr cmd) <;>
    simp [OssStubRuleSetter.processReply, Received.content, OSSRuleServer.serveCommand, exec, outcome]

/-- An undisturbed exchange with an address returns what `exec` returns on the OSS. -/
theorem remotelyExecuteCmd_answer (popen : String → CommandOutcome) (ip cmd : String) :
    OssStubRuleSetter.remotelyExecuteCmd (Delivery.answer.exchange popen) ip cmd =
      if ip.length = 0 then false else (exec popen (cStr cmd) "").1 := by
  obtain ⟨msg, sent, verdict⟩ := processReply_answer popen cmd
  unfold OssStubRuleSetter.remotelyExecuteCmd
  simp only [Delivery.exchange, sent, Option.map_some, verdict]

/-- **The chain from the stub over the server and back** reports no success that did not
happen, and none for bytes that do not parse, iff the delivery is trustworthy. -/
theorem remotelyExecuteCmd_means_success_iff (popen : String → CommandOutcome) (delivery : Delivery)
    (ip cmd : String) :
    (OssStubRuleSetter.remotelyExecuteCmd (delivery.exchange popen) ip cmd = true →
        (popen (cStr cmd)).Succeeded ∧ delivery.Parses) ↔
      ip = "" ∨ delivery.Trustworthy (popen (cStr cmd)) := by
  by_cases noAddress : ip = ""
  · subst noAddress
    simp [OssStubRuleSetter.remotelyExecuteCmd]
  · have address : ip.length ≠ 0 := by simpa [String.length_eq_zero_iff] using noAddress
    simp only [OssStubRuleSetter.remotelyExecuteCmd, address, if_false, noAddress, false_or]
    cases delivery with
    | nothing => simp [Delivery.exchange, Delivery.Trustworthy]
    | answer =>
      obtain ⟨msg, sent, verdict⟩ := processReply_answer popen cmd
      simp only [Delivery.exchange, sent, Option.map_some, verdict, Delivery.Trustworthy, Delivery.Parses, and_true]
      exact exec_means_success_iff popen (cStr cmd) ""
    | bytes reply =>
      cases reply with
      | unparsable left =>
        simp only [Delivery.exchange, Delivery.Trustworthy, Delivery.Parses, OssStubRuleSetter.processReply,
          Received.content, and_false]
        by_cases zero : left.getReply.rc = 0 <;> simp [zero]
      | parsed msg =>
        simp only [Delivery.exchange, Delivery.Trustworthy, Delivery.Parses, OssStubRuleSetter.processReply,
          Received.content, and_true]
        by_cases zero : msg.getReply.rc = 0 <;> simp [zero]

/-- A true result of a command over `ssh` means success iff the command does not fail. -/
theorem runCmd_means_success_iff (popen : String → CommandOutcome) (cmd : String) :
    (SSHRuleSetter.runCmd popen (some cmd) = true → (popen (cStr cmd)).Succeeded) ↔
      ¬ (popen (cStr cmd)).Failed := by
  rw [← exec_means_success_iff popen (cStr cmd) ""]
  cases result : (exec popen (cStr cmd) "").1 <;> simp [SSHRuleSetter.runCmd, result]

/-- **What a true result of a rule setter says.** With `ssh` it means that the command
succeeded iff the command is not one that is started and fails. Through the stub it means
that, and that the reply was parsed, iff there is no address, or nothing arrives, or the
command does not fail and its answer arrives, or the bytes that arrive hold a return code
other than zero, or they parse and the command succeeded. -/
theorem success_means_executed_iff (popen : String → CommandOutcome) (ip : String) (address : ip ≠ "")
    (jobId : JobId) (ruleName : String) (rpcRateLimit : UInt32) :
    (let run := cStr ("ssh " ++ ip ++ " " ++ buildLocalSetRuleCommand jobId ruleName rpcRateLimit)
     (SSHRuleSetter.setRule popen ip jobId ruleName rpcRateLimit = true → (popen run).Succeeded) ↔
      ¬ (popen run).Failed) ∧
    (let run := cStr ("ssh " ++ ip ++ " " ++ buildLocalRemoveRuleCommand jobId ruleName)
     (SSHRuleSetter.removeRule popen ip ruleName jobId = true → (popen run).Succeeded) ↔
      ¬ (popen run).Failed) ∧
    (∀ (ip cmd : String) (delivery : Delivery),
      (OssStubRuleSetter.remotelyExecuteCmd (delivery.exchange popen) ip cmd = true →
          (popen (cStr cmd)).Succeeded ∧ delivery.Parses) ↔
        ip = "" ∨ delivery.Trustworthy (popen (cStr cmd))) := by
  refine ⟨?_, ?_, fun ip cmd delivery => ?_⟩
  · have length : ip.length ≠ 0 := by simpa [String.length_eq_zero_iff] using address
    rw [SSHRuleSetter.setRule, SSHRuleSetter.setRuleCmd, if_neg length]
    exact runCmd_means_success_iff popen _
  · exact runCmd_means_success_iff popen _
  · exact remotelyExecuteCmd_means_success_iff popen delivery ip cmd

/-- Every command succeeds, and every answer arrives. -/
theorem success_when_commands_succeed :
    let popen : String → CommandOutcome := fun _ => .ended 0 ""
    let cmd := buildLocalSetRuleCommand "foo" "_qospfoo" 42
    (SSHRuleSetter.setRule popen "10.0.0.1" "foo" "_qospfoo" 42 = true →
      (popen (cStr ("ssh " ++ "10.0.0.1" ++ " " ++ cmd))).Succeeded) ∧
    (OssStubRuleSetter.remotelyExecuteCmd (Delivery.answer.exchange popen) "10.0.0.1" cmd = true →
      (popen (cStr cmd)).Succeeded ∧ Delivery.answer.Parses) := by
  intro popen cmd
  have fine : ∀ cmd, ¬ (popen cmd).Failed := by
    rintro cmd ⟨status, output, ended, failed⟩
    cases ended
    exact failed rfl
  have exact := success_means_executed_iff popen "10.0.0.1" (by decide) "foo" "_qospfoo" 42
  exact ⟨exact.1.2 (fine (cStr ("ssh " ++ "10.0.0.1" ++ " " ++ cmd))),
    (exact.2.2 "10.0.0.1" cmd .answer).2 (Or.inr (fine (cStr cmd)))⟩

/-- Every command exits with status 255, which is what `ssh` does when it cannot connect:
both rule setters report success. So does the stub for bytes that do not parse. -/
theorem failure_reported_as_success :
    let popen : String → CommandOutcome := fun _ => .ended 255 ""
    let cmd := buildLocalSetRuleCommand "foo" "_qospfoo" 42
    SSHRuleSetter.setRule popen "10.0.0.1" "foo" "_qospfoo" 42 = true ∧
      SSHRuleSetter.removeRule popen "10.0.0.1" "_qospfoo" "foo" = true ∧
      OssStubRuleSetter.remotelyExecuteCmd (Delivery.answer.exchange popen) "10.0.0.1" cmd = true ∧
      OssStubRuleSetter.remotelyExecuteCmd ((Delivery.bytes (.unparsable ⟨.REQUEST, none⟩)).exchange popen)
        "10.0.0.1" cmd = true ∧
      ∀ run, ¬ (popen run).Succeeded := by
  refine ⟨by decide, by decide, by decide, by decide, ?_⟩
  rintro run ⟨output, ended⟩
  cases ended

end QosPlanner
