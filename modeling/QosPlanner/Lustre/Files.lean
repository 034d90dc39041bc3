import QosPlanner.Lustre.LocalLustre

/-!
# The two lookups of files

`LocalLustre` has a `GetOstsForFile` for one file and one for a list of files
(`src/common/Lustre.cpp`). The second should give what the first gives for the files
together. It builds its command from the elements of the output vector instead of the files,
so it asks for the files that the OSTs already in the vector are the names of, and for
nothing when the vector is empty.
-/

namespace QosPlanner
set_option autoImplicit false

open Text Lustre

namespace LocalLustre

/-- The arguments in a command line, apart from the command: what stands between blanks. -/
def arguments (args : List Char) : List (List Char) := (args.splitOn ' ').filter (· ≠ [])

/-- `lfs getstripe`, as an oracle: for each of its arguments it prints some lines. -/
structure GetStripe where
  popen : String → CommandOutcome
  lines : List Char → List (List Char)
  /-- A line has no newline, and no output has a NUL. -/
  whole : ∀ arg, ∀ line ∈ lines arg, '\n' ∉ line ∧ '\x00' ∉ line
  prints : ∀ args : String, ∃ status,
    popen ("lfs getstripe " ++ args) = .ended status (.ofList (printLines ((arguments args.toList).flatMap lines)))

/-- The OSTs that are read from what is printed for an argument. -/
def GetStripe.ostsOf (oracle : GetStripe) (arg : List Char) : List Ost := (oracle.lines arg).filterMap getStripeLine

@[simp] theorem arguments_nil : arguments [] = [] := rfl

variable (oracle : GetStripe)

end LocalLustre

end QosPlanner
