import QosPlanner.Schedule.Job
import QosPlanner.Text.Lines
import QosPlanner.Text.Regex

/-!
# What the Lustre tools print

The three parsers of `Lustre` (`src/common/Lustre.cpp`). Each takes the output of a command
line by line and matches a line as a whole against an ECMAScript pattern. The characters of
a text are the `char`s of a `std::string`, in the locale "C". A match has as many groups as
the pattern, so the tests of `base_match.size()` always pass.
-/

namespace QosPlanner
set_option autoImplicit false

open Text

namespace Lustre

/-- `getOstsResults` -/
structure GetOstsResults where
  number : String
  uuid : String
  status : String
  deriving DecidableEq, Repr

/-- `[_[:alnum:]-]` -/
def uuidChar (c : Char) : Bool := c = '_' || c.isAlphanum || c = '-'

/-! ## Patterns -/

/-- `([0-9]+): ([_[:alnum:]-]+) ([[:alnum:]]+)` -/
def lfsOstsRegex : Pattern :=
  (Item.plus Char.isDigit).group :: (literal [':', ' '] ++ (Item.plus uuidChar).group :: (literal [' '] ++
    [(Item.plus Char.isAlphanum).group]))

/-- `\t.+([0-9]+)\t.+\t.+\t.*` -/
def getStripeRegex : Pattern :=
  [.lit '\t', .plus anyChar, (Item.plus Char.isDigit).group, .lit '\t', .plus anyChar, .lit '\t', .plus anyChar,
    .lit '\t', .star anyChar]

/-- `.+<ost_id>.+ost_conn_uuid=(.+)@tcp$`, for an id without characters that are special in
a pattern. The `$` adds nothing, since a whole line is matched. -/
def getParamOscRegex (ostId : List Char) : Pattern :=
  .plus anyChar :: (literal ostId ++ .plus anyChar :: (literal "ost_conn_uuid=".toList ++
    (Item.plus anyChar).group :: literal "@tcp".toList))

/-! ## Parsers -/

/-- What a line of `lfs osts` is pushed as. -/
def lfsOstsLine (line : List Char) : Option GetOstsResults :=
  match regexMatch lfsOstsRegex line with
  | some [number, uuid, status] => some ⟨.ofList number, .ofList uuid, .ofList status⟩
  | _ => none

/-- `ParseOstsFromLfsOsts`: `*out` after the call. -/
def parseOstsFromLfsOsts (lfsOut : String) (out : List GetOstsResults) : List GetOstsResults :=
  out ++ (getlines lfsOut.toList).filterMap lfsOstsLine

/-- What a line of `lfs getstripe` is pushed as. -/
def getStripeLine (line : List Char) : Option Ost :=
  match regexMatch getStripeRegex line with
  | some [obdidx] => some (.ofList obdidx)
  | _ => none

/-- `ParseOstsFromGetStripe`: `*osts` after the call. -/
def parseOstsFromGetStripe (lfsOut : String) (osts : List Ost) : List Ost :=
  osts ++ (getlines lfsOut.toList).filterMap getStripeLine

/-- The address that a line of `lctl get_param` is matched for. -/
def getParamOscLine (ostId : List Char) (line : List Char) : Option String :=
  match regexMatch (getParamOscRegex ostId) line with
  | some [ip] => some (.ofList ip)
  | _ => none

/-- `ParseOstIpFromGetParamOsc`: `ip_address` after the call, which returns at the first
line that matches. `matchLine` tells what the pattern with the given id captures in a line. -/
def parseOstIpFromGetParamOsc (matchLine : List Char → List Char → Option String) (toParse : String)
    (ostId : List Char) (ipAddress : String) : String :=
  ((getlines toParse.toList).findSome? (matchLine ostId)).getD ipAddress

end Lustre

end QosPlanner
