import QosPlanner.Rules.Commands
import QosPlanner.Text.CString
import QosPlanner.Lustre.Parsers

/-!
# Asking the Lustre tools

The lookups of `LocalLustre` (`src/common/Lustre.cpp`): each builds a command line, runs it
through `common::exec` and parses what it printed. `exec` succeeds whenever there is a
process, so a command that fails is one that prints nothing.
-/

namespace QosPlanner
set_option autoImplicit false

open Common Lustre

namespace LocalLustre

/-- `GetOstsForFile` of a file: the result, and `*osts` after the call. `stat` tells whether
the file exists. -/
def getOstsForFile (stat : String → Bool) (popen : String → CommandOutcome) (file : String) (osts : List Ost) :
    Bool × List Ost :=
  if !stat file then (false, osts)
  else
    match exec popen (getOstsForFileCmd file) "" with
    | (false, _) => (false, osts)
    | (true, getstripeOut) => (true, parseOstsFromGetStripe (cStr getstripeOut) osts)

/-- `GetOstList`: the result, and `*output` after the call. -/
def getOstList (popen : String → CommandOutcome) (path : String) (output : List GetOstsResults) :
    Bool × List GetOstsResults :=
  match exec popen ("lfs osts " ++ path) "" with
  | (false, _) => (false, output)
  | (true, cmdOut) => (true, parseOstsFromLfsOsts cmdOut output)

/-- A uuid up to the first `_UUID`. -/
def shortenedId : List Char → List Char
  | [] => []
  | c :: rest => if "_UUID".toList.isPrefixOf (c :: rest) then [] else c :: shortenedId rest

/-- The command of `GetIPOfOst`. -/
def getIPOfOstCmd (ostUuid : String) : String :=
  "lctl get_param osc." ++ .ofList (shortenedId ostUuid.toList) ++ "*.ost_conn_uuid"

/-- `GetIPOfOst`: the result, and `ip_address` after the call. What the pattern made from the
uuid captures in a line is a parameter, since the characters of a uuid are not escaped. -/
def getIPOfOst (matchLine : List Char → List Char → Option String) (popen : String → CommandOutcome)
    (ostUuid : String) (ipAddress : String) : Bool × String :=
  match exec popen (getIPOfOstCmd ostUuid) "" with
  | (false, _) => (false, ipAddress)
  | (true, cmdOut) => (true, parseOstIpFromGetParamOsc matchLine cmdOut (shortenedId ostUuid.toList) ipAddress)

/-! ## Outcomes -/

variable {popen : String → CommandOutcome}

theorem exec_notStarted {cmd : String} (notStarted : popen cmd = .notStarted) (out : String) :
    exec popen cmd out = (false, out) := by
  rw [exec, notStarted]

theorem exec_ended {cmd : String} {status : Int32} {output : String} (ended : popen cmd = .ended status output) :
    exec popen cmd "" = (true, output) := by
  rw [exec, ended]
  simp

variable {matchLine : List Char → List Char → Option String} {ostUuid : String}

theorem getIPOfOst_notStarted (notStarted : popen (getIPOfOstCmd ostUuid) = .notStarted) (ipAddress : String) :
    getIPOfOst matchLine popen ostUuid ipAddress = (false, ipAddress) := by
  rw [getIPOfOst, exec_notStarted notStarted]

theorem getIPOfOst_ended {status : Int32} {output : String}
    (ended : popen (getIPOfOstCmd ostUuid) = .ended status output) (ipAddress : String) :
    getIPOfOst matchLine popen ostUuid ipAddress =
      (true, parseOstIpFromGetParamOsc matchLine output (shortenedId ostUuid.toList) ipAddress) := by
  rw [getIPOfOst, exec_ended ended]

end LocalLustre

end QosPlanner
