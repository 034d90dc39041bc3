import QosPlanner.Schedule.Job
import QosPlanner.Rules.RuleManager

/-!
# Shell commands

What the planner runs through `common::exec` (`src/common/util.h`), and the texts of the
commands: those of `RuleSetter` (`src/common/RuleSetter.h`), which both rule setters
send to an OSS, and those of `LocalLustre` (`src/common/Lustre.cpp`).
-/

namespace QosPlanner
set_option autoImplicit false

/-- What becomes of a command line given to `popen`: there is no process, or it ends with
an exit status, and `exec` has appended what it read of its output. -/
inductive CommandOutcome where
  | notStarted
  | ended (status : Int32) (output : String)
  deriving DecidableEq, Repr

namespace Common

/-- `common::exec`: the result, and `*out` after the call. The status `pclose` returns is not
looked at. The rule setters and the server on the OSS pass `cStr` of a command; elsewhere
`c_str()` is left to `popen`, which may be any function of the text. -/
def exec (popen : String → CommandOutcome) (cmd : String) (out : String) : Bool × String :=
  match popen cmd with
  | .notStarted => (false, out)
  | .ended _ output => (true, out ++ output)

end Common

open Common

/-- `std::to_string` -/
def toStringU32 (n : UInt32) : String := n.toNat.repr

/-- The parameter of `lctl set_param` that takes the rules. -/
def nrsTbfRule : String := "lctl set_param ost.OSS.ost_io.nrs_tbf_rule="

/-- `RuleSetter::BuildLocalSetRuleCommand` -/
def buildLocalSetRuleCommand (jobId : JobId) (ruleName : String) (rpcRateLimit : UInt32) : String :=
  nrsTbfRule ++ "\"start " ++ ruleName ++ " \x7b" ++ jobId ++ "\x7d " ++ toStringU32 rpcRateLimit ++ "\""

/-- `RuleSetter::BuildLocalRemoveRuleCommand`. The job id is not used. -/
def buildLocalRemoveRuleCommand (_jobId : JobId) (ruleName : String) : String :=
  nrsTbfRule ++ "\"stop " ++ ruleName ++ "\""

namespace LocalLustre

/-- The command of `StartJobTbfRule`. -/
def startJobTbfRuleCmd (jobid : JobId) (ruleName : String) (rpcRateLimit : UInt32) : String :=
  nrsTbfRule ++ "\"start " ++ ruleName ++ " \x7b" ++ jobid ++ "\x7d " ++ toStringU32 rpcRateLimit ++ "\""

/-- `StartJobTbfRule` -/
def startJobTbfRule (popen : String → CommandOutcome) (jobid : JobId) (ruleName : String)
    (rpcRateLimit : UInt32) : Bool :=
  (exec popen (startJobTbfRuleCmd jobid ruleName rpcRateLimit) "").1

/-- The command of `GetOstsForFile`, which follows a `stat` of the file. -/
def getOstsForFileCmd (file : String) : String := "lfs getstripe " ++ file

end LocalLustre

end QosPlanner
