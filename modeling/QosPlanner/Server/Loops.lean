import QosPlanner.Planner.ListJobs
import QosPlanner.Rules.RuleSetters
import QosPlanner.Server.Serve
import QosPlanner.Socket.ReplyLoop

/-!
# The loops of the two servers

`Server::Serve` (`src/server/Server.cpp`) and `OSSRuleServer::Serve`
(`src/oss_rule_server/OSSRuleServer.cpp`) are one loop over a `ZMQ_REP` socket with
different messages and handlers. Bytes that cannot be parsed are answered in both; a
message of type REPLY is logged and skipped, so the next `s_recv` finds the socket still
owed a reply and raises. `OSSRuleServer` has a handler that would have answered it. In
`Server` the exception of a list request takes the loop down as well.
-/

namespace QosPlanner
set_option autoImplicit false

open Rpc ReplyLoop

namespace Server

variable (regex : RegexEngine) (localTime : Int → String)

/-- The message `ProcessUnparsableMsg` sends. -/
def unparsableReply (msg : Message) : Message := (msg.setType .REPLY).setReplyRc 1

/-- The body of the loop of `Serve`. -/
def serve (env : Surroundings) (m : JobMonitor) (request : Received Message) : Turn JobMonitor Message :=
  match request with
  | .unparsable left => .replied m (unparsableReply left)
  | .parsed msg => serveParsed (serveListJobs regex localTime) env m msg

/-- What comes to the server: a request, when the other threads have done to the planner
what they do, and what its handler then finds around it. -/
structure Arrival where
  others : JobMonitor → JobMonitor
  env : Surroundings
  request : Received Message

/-- The loop of `Serve`. -/
def loop (m : JobMonitor) (arrivals : List Arrival) : List (ReplyLoop.Call Arrival Message) :=
  ReplyLoop.run (fun m arrival => serve regex localTime arrival.env (arrival.others m) arrival.request) m false arrivals

/-- A request the body of the loop answers. -/
def Answered (regex : RegexEngine) : Received Message → Prop
  | .unparsable _ => True
  | .parsed msg =>
    msg.type ≠ .REPLY ∧
      (msg.getRequest.type = .LISTJOBS → UsableRegex regex msg.getRequest.getListJobsRequest.regex)

/-- Only a list request can throw. -/
theorem processMessage_isSome (env : Surroundings) (m : JobMonitor) (msg : Message) :
    (processMessage (serveListJobs regex localTime) env m msg).isSome ↔
      (msg.getRequest.type = .LISTJOBS → UsableRegex regex msg.getRequest.getListJobsRequest.regex) := by
  unfold processMessage
  cases type : msg.getRequest.type with
  | LISTJOBS => simpa using serveListJobs_isSome regex localTime m msg
  | RESERVE => simp
  | DELETE => simp
  | INVALID => simp
  | unnamed value => simp

/-- Whether the body replies does not depend on the state of the planner. -/
theorem serve_replies_iff (env : Surroundings) (m : JobMonitor) (request : Received Message) :
    (serve regex localTime env m request).Replies ↔ Answered regex request := by
  cases request with
  | unparsable left => exact iff_of_true ⟨m, _, rfl⟩ trivial
  | parsed msg =>
    rw [Answered, ← processMessage_isSome regex localTime env m msg, serve, serveParsed]
    by_cases reply : msg.type = .REPLY
    · simp [reply, Turn.Replies]
    · cases processMessage (serveListJobs regex localTime) env m msg <;> simp [reply, Turn.Replies]

end Server

namespace OSSRuleServer

/-- What comes to the server: a request, and what `popen` does while it is served. -/
structure Arrival where
  popen : String → CommandOutcome
  request : Received OSSCommandMessage

/-- The body of the loop of `Serve`; the server has no state. -/
def turn (arrival : Arrival) : Turn Unit OSSCommandMessage :=
  match serve arrival.popen arrival.request with
  | some reply => .replied () reply
  | none => .silent ()

/-- The loop of `Serve`. -/
def loop (arrivals : List Arrival) : List (ReplyLoop.Call Arrival OSSCommandMessage) :=
  ReplyLoop.run (fun _ arrival => turn arrival) () false arrivals

/-- A request the body of the loop answers. -/
def Answered : Received OSSCommandMessage → Prop
  | .unparsable _ => True
  | .parsed msg => msg.type ≠ .REPLY

theorem turn_replies_iff (arrival : Arrival) : (turn arrival).Replies ↔ Answered arrival.request := by
  obtain ⟨popen, request⟩ := arrival
  cases request with
  | unparsable left => exact iff_of_true ⟨(), _, rfl⟩ trivial
  | parsed msg => by_cases reply : msg.type = .REPLY <;> simp [turn, serve, Answered, Turn.Replies, reply]

end OSSRuleServer

/-- **One reply for each request, for ever.** `Server` keeps to it iff no message that
parses is of type REPLY, or is a list request with a pattern that the regex does not
accept; `OSSRuleServer` iff no message that parses is of type REPLY. -/
theorem one_reply_each_iff (regex : RegexEngine) (localTime : Int → String) (m : JobMonitor)
    (arrivals : List Server.Arrival) (commands : List OSSRuleServer.Arrival) :
    (OneReplyEach arrivals (Server.loop regex localTime m arrivals) ↔
      ∀ arrival ∈ arrivals, Server.Answered regex arrival.request) ∧
    (OneReplyEach commands (OSSRuleServer.loop commands) ↔
      ∀ command ∈ commands, OSSRuleServer.Answered command.request) := by
  constructor
  · exact oneReplyEach_iff (fun m arrival =>
      Server.serve_replies_iff regex localTime arrival.env (arrival.others m) arrival.request) m arrivals
  · exact oneReplyEach_iff (fun _ => OSSRuleServer.turn_replies_iff) () commands

/-- A message of type REPLY makes either server receive twice, and so does the pattern
`[`, which no grammar of `std::regex` accepts, with `Server`. -/
theorem loops_left_by_an_exception :
    let regex : RegexEngine := ⟨fun pattern => pattern ≠ "[", fun _ _ => true, rfl⟩
    let env : Surroundings := ⟨∅, fun _ => 0, fun _ _ => none, 0⟩
    let reply : Server.Arrival := ⟨id, env, .parsed ⟨.REPLY, none⟩⟩
    let list : Server.Arrival :=
      ⟨id, env, .parsed ⟨.REQUEST, some (.request ⟨.LISTJOBS, some (.listJobsRequest ⟨"["⟩)⟩)⟩⟩
    let command : OSSRuleServer.Arrival := ⟨fun _ => .ended 0 "", .parsed ⟨.REPLY, none⟩⟩
    ¬ OneReplyEach [reply] (Server.loop regex (fun _ => "") .empty [reply]) ∧
      ¬ OneReplyEach [list] (Server.loop regex (fun _ => "") .empty [list]) ∧
      ¬ OneReplyEach [command] (OSSRuleServer.loop [command]) := by
  intro regex env reply list command
  have skipped : Server.loop regex (fun _ => "") .empty [reply] = [.received reply, .raised] := rfl
  have thrown : Server.loop regex (fun _ => "") .empty [list] = [.received list, .raised] := rfl
  have ignored : OSSRuleServer.loop [command] = [.received command, .raised] := rfl
  rw [skipped, thrown, ignored]
  refine ⟨fun each => ?_, fun each => ?_, fun each => ?_⟩ <;> exact each.not_raised (by simp)

end QosPlanner
