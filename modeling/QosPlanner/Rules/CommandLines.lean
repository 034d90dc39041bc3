import QosPlanner.Rules.RuleSetters
import QosPlanner.Shell.Verbatim

/-!
# What the shell makes of the commands

The commands carry text that a client sent: the id of a job and the paths of its files.
Nothing in the planner quotes it. Between the double quotes of a rule an id goes through
as long as it is inert there, and a path, which stands outside quotes, as long as it is a
plain word (`client_text_is_an_argument_iff`).

The double quotes are for one shell. Over `ssh` the command meets two, and the second one
splits what the first one has unquoted (`same_lctl_arguments_iff`).
-/

namespace QosPlanner
set_option autoImplicit false

open Shell Common

/-- A shell runs the line as one simple command with exactly these words. -/
def RunsExactly (line : String) (argv : List String) : Prop :=
  command line.toList = some (argv.map String.toList)

/-- The first words of a rule command, and what its third word starts with. -/
theorem read_nrsTbfRule :
    Scan.start.run nrsTbfRule.toList =
      some ⟨["lctl".toList, "set_param".toList], some "ost.OSS.ost_io.nrs_tbf_rule=".toList, .plain, .nothing⟩ := by
  simp only [nrsTbfRule]
  simp
  rfl

/-- **A rule command** has the rule in one argument iff the rule is quotable. -/
theorem runsExactly_rule_iff (rule : String) :
    RunsExactly (nrsTbfRule ++ "\"" ++ rule ++ "\"")
        ["lctl", "set_param", "ost.OSS.ost_io.nrs_tbf_rule=" ++ rule] ↔ Quotable rule.toList := by
  have line : (nrsTbfRule ++ "\"" ++ rule ++ "\"").toList =
      nrsTbfRule.toList ++ quote :: (rule.toList ++ [quote]) := by
    simp [quote]
  have words : (["lctl", "set_param", "ost.OSS.ost_io.nrs_tbf_rule=" ++ rule].map String.toList) =
      ["lctl".toList, "set_param".toList] ++ ["ost.OSS.ost_io.nrs_tbf_rule=".toList ++ rule.toList] := by
    simp
  rw [RunsExactly, line, words]
  exact command_quoted_iff read_nrsTbfRule (by simp [nrsTbfRule]; decide) rule.toList

/-- The text of a rule that is started, and of one that is stopped. -/
def startRule (ruleName : String) (jobId : JobId) (rate : UInt32) : String :=
  "start " ++ ruleName ++ " \x7b" ++ jobId ++ "\x7d " ++ toStringU32 rate

def stopRule (ruleName : String) : String := "stop " ++ ruleName

theorem buildLocalSetRuleCommand_eq (jobId : JobId) (ruleName : String) (rate : UInt32) :
    buildLocalSetRuleCommand jobId ruleName rate = nrsTbfRule ++ "\"" ++ startRule ruleName jobId rate ++ "\"" := by
  simp [buildLocalSetRuleCommand, startRule, ← String.toList_inj]

theorem buildLocalRemoveRuleCommand_eq (jobId : JobId) (ruleName : String) :
    buildLocalRemoveRuleCommand jobId ruleName = nrsTbfRule ++ "\"" ++ stopRule ruleName ++ "\"" := by
  simp [buildLocalRemoveRuleCommand, stopRule, ← String.toList_inj]

/-! ## Text of a client -/

theorem isOrdinary_of_isDigit {c : Char} (digit : c.isDigit = true) : isOrdinary c = true := by
  rw [isOrdinary_iff]
  refine ⟨⟨?_, ?_, ?_, ?_⟩, ?_, ?_⟩ <;>
  · rintro rfl
    revert digit
    decide

theorem isOrdinary_of_mem_toDigits {n : Nat} : ∀ c ∈ Nat.toDigits 10 n, isOrdinary c = true :=
  fun _ member => isOrdinary_of_isDigit (Nat.isDigit_of_mem_toDigits (by decide) (by decide) member)

/-- What the host runs for a command line that calls `ssh`: the remote shell gets the words
after the host, joined with single blanks. An option in the place of the host is none. -/
def sshRuns (line : String) : Option (List (List Char)) :=
  match command line.toList with
  | some (ssh :: host :: args) =>
    if ssh = "ssh".toList ∧ host.head? ≠ some '-' then command ([' '].intercalate args) else none
  | _ => none

theorem sshRuns_of_words {line : String} {host : List Char} {args : List (List Char)}
    (words : command line.toList = some ("ssh".toList :: host :: args)) :
    sshRuns line = if host.head? ≠ some '-' then command ([' '].intercalate args) else none := by
  rw [sshRuns, words]
  simp only [true_and]

/-- The arguments `lctl` gets from a command with these words. -/
def lctlArguments : Option (List (List Char)) → Option (List (List Char))
  | some (program :: args) => if program = "lctl".toList then some args else none
  | _ => none

theorem lctlArguments_eq_some {words : Option (List (List Char))} {args : List (List Char)} :
    lctlArguments words = some args ↔ words = some ("lctl".toList :: args) := by
  unfold lctlArguments
  split
  · rename_i program rest
    by_cases isLctl : program = "lctl".toList <;> simp [isLctl]
  · rename_i other
    refine iff_of_false (by simp) fun same => ?_
    exact other _ _ same

/-- The arguments of `lctl` on the OSS, for a command that is run through `ssh`. -/
def lctlOverSsh (cmd : Option String) : Option (List (List Char)) := lctlArguments (cmd.bind sshRuns)

/-- The arguments of `lctl` on the OSS, for a command that the server there runs. -/
def lctlOverStub (cmd : Option String) : Option (List (List Char)) :=
  lctlArguments (cmd.bind fun line => command line.toList)

/-- A letter, a digit, `_`, `.` or `-`. -/
def isNameChar (c : Char) : Bool := c.isAlphanum || c = '_' || c = '.' || c = '-'

def IsName (name : String) : Prop := ∀ c ∈ name.toList, isNameChar c = true

/-- Such a character means nothing to a shell. -/
theorem isNameChar_harmless {c : Char} (name : isNameChar c = true) :
    isOrdinary c = true ∧ isLiteral c = true ∧ startsExpansion c = false := by
  have other : ∀ d, isNameChar d = false → c ≠ d := by
    rintro d special rfl
    rw [special] at name
    cases name
  refine ⟨?_, ?_, ?_⟩
  · rw [isOrdinary_iff]
    refine ⟨⟨?_, ?_, ?_, ?_⟩, ?_, ?_⟩ <;> exact other _ (by decide)
  · by_contra special
    simp only [isLiteral, isBlank, isOperator, Bool.not_eq_true', Bool.not_eq_false, Bool.or_eq_true,
      decide_eq_true_eq, List.mem_cons, List.not_mem_nil, or_false] at special
    rcases special with (((h | h) | h) | (h | h)) |
      (h | h | h | h | h | h | h | h | h | h | h) <;> exact other _ (by decide) h
  · by_contra special
    simp only [startsExpansion, Bool.not_eq_false, Bool.or_eq_true, decide_eq_true_eq] at special
    rcases special with h | h <;> exact other _ (by decide) h

theorem nul_not_mem_of_isName {name : String} (isName : IsName name) : nul ∉ name.toList := fun member => by
  have here := isName nul member
  exact absurd here (by decide)

theorem plainText_of_isName {name : String} (isName : IsName name) : PlainText name.toList where
  literal := fun c member => (isNameChar_harmless (isName c member)).2.1
  first := fun c first => (isNameChar_harmless (isName c (List.mem_of_head? first))).2.2
  dollars := by
    refine List.Pairwise.isChain (List.pairwise_iff_forall_sublist.2 fun {a b} sub same => ?_)
    have member : a ∈ name.toList := sub.subset (by simp)
    have noDollar := (isOrdinary_iff.1 (isNameChar_harmless (isName a member)).1).1.2.2.1
    exact absurd same noDollar
  noPattern := by
    refine not_hasBracketExpression fun member => ?_
    have here := isName '[' member
    exact absurd here (by decide)

/-- A rule command as a line of its own, and behind `ssh` and a host. -/
def ruleLine (rule : String) : String := nrsTbfRule ++ "\"" ++ rule ++ "\""

/-- The argument that carries the rule. -/
def ruleArgument (rule : String) : List Char := ("ost.OSS.ost_io.nrs_tbf_rule=" ++ rule).toList

section Rule

variable {rule : String}

theorem command_ruleLine (quotable : Quotable rule.toList) :
    command (ruleLine rule).toList = some ["lctl".toList, "set_param".toList, ruleArgument rule] :=
  (runsExactly_rule_iff rule).2 quotable

/-- The server runs `lctl` with the rule in one argument. -/
theorem lctlOverStub_ruleLine {ip : String} (address : ip ≠ "") (quotable : Quotable rule.toList) :
    lctlOverStub (OssStubRuleSetter.commandServed ip (ruleLine rule)) =
      some ["set_param".toList, ruleArgument rule] := by
  have length : ip.length ≠ 0 := by simpa [String.length_eq_zero_iff] using address
  rw [lctlOverStub, OssStubRuleSetter.commandServed, if_neg length, lctlArguments_eq_some, Option.bind_some,
    OssStubRuleSetter.buildCommandMessage_command]
  exact command_ruleLine quotable

/-- The words the local shell reads. -/
theorem command_ssh {before : List Char} {words : List (List Char)} (quotable : Quotable rule.toList)
    (read : Scan.start.run before = some ⟨words, none, .plain, .nothing⟩) (noNul : nul ∉ before) :
    command (before ++ (ruleLine rule).toList) =
      some (words ++ ["lctl".toList, "set_param".toList, ruleArgument rule]) := by
  rw [command_after read noNul, command_ruleLine quotable]
  rfl

/-- The remote shell splits the argument at its blanks. -/
theorem lctlArguments_remote_ne (blank : ' ' ∈ rule.toList) :
    lctlArguments (command ("lctl set_param ".toList ++ ruleArgument rule)) ≠
      some ["set_param".toList, ruleArgument rule] := by
  have read : Scan.start.run "lctl set_param ".toList =
      some ⟨["lctl".toList, "set_param".toList], none, .plain, .nothing⟩ := by simp; rfl
  have exact := command_plain_iff read (by simp; decide) (ruleArgument rule)
  intro same
  rw [lctlArguments_eq_some] at same
  have literal := (exact.1 same).plain.literal ' ' (mem_bare (by simp [ruleArgument, blank]) (by decide))
  exact absurd literal (by decide)

/-- **Through `ssh`, `lctl` gets other arguments.** -/
theorem lctlOverSsh_ne {ip : String} (isName : IsName ip) (address : ip ≠ "") (quotable : Quotable rule.toList)
    (blank : ' ' ∈ rule.toList) :
    lctlOverSsh (some ("ssh " ++ ip ++ " " ++ ruleLine rule)) ≠ some ["set_param".toList, ruleArgument rule] := by
  have nonempty : ip.toList ≠ [] := by simpa using address
  have line : ("ssh " ++ ip ++ " " ++ ruleLine rule).toList =
      ("ssh ".toList ++ (ip.toList ++ [' '])) ++ (ruleLine rule).toList := by simp
  have read : Scan.start.run ("ssh ".toList ++ (ip.toList ++ [' '])) =
      some ⟨["ssh".toList, ip.toList], none, .plain, .nothing⟩ := by
    have ssh : Scan.start.run "ssh ".toList = some ⟨["ssh".toList], none, .plain, .nothing⟩ := by simp; rfl
    obtain ⟨opening, copied⟩ := run_plainText nonempty (plainText_of_isName isName) ["ssh".toList]
    rw [Scan.run_append, ssh, Option.bind_some, Scan.run_append, copied,
      Option.bind_some, Scan.run, Scan.step_blank rfl]
    rfl
  have noNul : nul ∉ "ssh ".toList ++ (ip.toList ++ [' ']) := by
    simp only [List.mem_append, not_or]
    exact ⟨by simp; decide, nul_not_mem_of_isName isName, by decide⟩
  have words := command_ssh quotable read noNul
  rw [← line, List.cons_append, List.cons_append, List.nil_append] at words
  have joined : [' '].intercalate ["lctl".toList, "set_param".toList, ruleArgument rule] =
      "lctl set_param ".toList ++ ruleArgument rule := by simp [List.intercalate]
  rw [lctlOverSsh, Option.bind_some, sshRuns_of_words words, joined]
  split
  · exact lctlArguments_remote_ne blank
  · exact Option.some_ne_none _ ∘ Eq.symm

/-- Without an address, `ssh` takes `lctl` for the host. -/
theorem lctlOverSsh_no_address (quotable : Quotable rule.toList) :
    lctlOverSsh (some ("ssh " ++ "" ++ " " ++ ruleLine rule)) = none := by
  have line : ("ssh " ++ "" ++ " " ++ ruleLine rule).toList = "ssh  ".toList ++ (ruleLine rule).toList := by simp
  have read : Scan.start.run "ssh  ".toList = some ⟨["ssh".toList], none, .plain, .nothing⟩ := by simp; rfl
  have words := command_ssh quotable read (by simp; decide)
  rw [← line, List.cons_append, List.nil_append] at words
  have joined : [' '].intercalate ["set_param".toList, ruleArgument rule] =
      "set_param ".toList ++ ruleArgument rule := by simp [List.intercalate]
  have readParam : Scan.start.run "set_param ".toList = some ⟨["set_param".toList], none, .plain, .nothing⟩ := by
    simp
    rfl
  rw [lctlOverSsh, Option.bind_some, sshRuns_of_words words, if_pos (by simp), joined,
    command_after readParam (by simp; decide), Option.eq_none_iff_forall_ne_some]
  intro args same
  obtain ⟨rest, -, same⟩ := Option.map_eq_some_iff.1 (lctlArguments_eq_some.1 same)
  exact absurd (List.cons.inj same).1 (by simp)

/-- Both rule setters, for one rule: `lctl` gets the same arguments iff there is no address. -/
theorem lctlOverSsh_eq_iff {ip : String} (isName : IsName ip) (quotable : Quotable rule.toList)
    (blank : ' ' ∈ rule.toList) :
    lctlOverSsh (some ("ssh " ++ ip ++ " " ++ ruleLine rule)) =
      lctlOverStub (OssStubRuleSetter.commandServed ip (ruleLine rule)) ↔ ip = "" := by
  constructor
  · intro same
    by_contra address
    rw [lctlOverStub_ruleLine address quotable] at same
    exact lctlOverSsh_ne isName address quotable blank same
  · rintro rfl
    rw [lctlOverSsh_no_address quotable]
    rfl

end Rule

theorem quotable_startRule {jobId : JobId} {ruleName : String} (jobIsName : IsName jobId)
    (ruleIsName : IsName ruleName) (rate : UInt32) : Quotable (startRule ruleName jobId rate).toList := by
  have text : (startRule ruleName jobId rate).toList =
      "start ".toList ++ (ruleName.toList ++ (" \x7b".toList ++ (jobId.toList ++
        ("\x7d ".toList ++ Nat.toDigits 10 rate.toNat)))) := by
    simp [startRule, toStringU32]
  apply quotable_of_ordinary
  rw [text]
  simp only [List.mem_append]
  rintro c (member | member | member | member | member | member)
  · exact List.all_eq_true.1 (by simp; decide : "start ".toList.all isOrdinary = true) c member
  · exact (isNameChar_harmless (ruleIsName c member)).1
  · exact List.all_eq_true.1 (by simp; decide : " \x7b".toList.all isOrdinary = true) c member
  · exact (isNameChar_harmless (jobIsName c member)).1
  · exact List.all_eq_true.1 (by simp; decide : "\x7d ".toList.all isOrdinary = true) c member
  · exact isOrdinary_of_mem_toDigits c member

theorem quotable_stopRule {ruleName : String} (ruleIsName : IsName ruleName) :
    Quotable (stopRule ruleName).toList := by
  have text : (stopRule ruleName).toList = "stop ".toList ++ ruleName.toList := by simp [stopRule]
  rw [text, quotable_append_left (List.all_eq_true.1 (by simp; decide))]
  exact quotable_of_ordinary fun c member => (isNameChar_harmless (ruleIsName c member)).1

/-- **The two rule setters run the same command** iff they run none: with an address, `lctl`
gets the rule in one argument from the stub, and split at its blanks through `ssh`. -/
theorem same_lctl_arguments_iff (ip : String) (jobId : JobId) (ruleName : String) (rate : UInt32)
    (ipIsName : IsName ip) (jobIsName : IsName jobId) (ruleIsName : IsName ruleName) :
    (lctlOverSsh (SSHRuleSetter.setRuleCmd ip jobId ruleName rate) =
        lctlOverStub (OssStubRuleSetter.commandServed ip (buildLocalSetRuleCommand jobId ruleName rate)) ↔
      ip = "") ∧
    (lctlOverSsh (SSHRuleSetter.removeRuleCmd ip ruleName jobId) =
        lctlOverStub (OssStubRuleSetter.commandServed ip (buildLocalRemoveRuleCommand jobId ruleName)) ↔
      ip = "") := by
  constructor
  · by_cases noAddress : ip = ""
    · subst noAddress
      exact iff_of_true rfl rfl
    · have length : ip.length ≠ 0 := by simpa [String.length_eq_zero_iff] using noAddress
      rw [SSHRuleSetter.setRuleCmd, if_neg length, buildLocalSetRuleCommand_eq]
      exact lctlOverSsh_eq_iff ipIsName (quotable_startRule jobIsName ruleIsName rate) (by simp [startRule])
  · rw [SSHRuleSetter.removeRuleCmd, buildLocalRemoveRuleCommand_eq]
    exact lctlOverSsh_eq_iff ipIsName (quotable_stopRule ruleIsName) (by simp [stopRule])

/-- Without an address neither rule setter gets to run `lctl`. -/
theorem same_lctl_arguments_without_address :
    lctlOverSsh (SSHRuleSetter.setRuleCmd "" "foo" "_qospfoo" 42) =
        lctlOverStub (OssStubRuleSetter.commandServed "" (buildLocalSetRuleCommand "foo" "_qospfoo" 42)) ∧
      lctlOverSsh (SSHRuleSetter.removeRuleCmd "" "_qospfoo" "foo") =
        lctlOverStub (OssStubRuleSetter.commandServed "" (buildLocalRemoveRuleCommand "foo" "_qospfoo")) := by
  have exact := same_lctl_arguments_iff "" "foo" "_qospfoo" 42 (by simp [IsName]) (by simp [IsName]; decide)
    (by simp [IsName]; decide)
  exact ⟨exact.1.2 rfl, exact.2.2 rfl⟩

/-- For job `foo` and a server with an address, the arguments differ. -/
theorem lctl_arguments_differ :
    lctlOverSsh (SSHRuleSetter.setRuleCmd "10.0.0.1" "foo" "_qospfoo" 42) ≠
        lctlOverStub (OssStubRuleSetter.commandServed "10.0.0.1" (buildLocalSetRuleCommand "foo" "_qospfoo" 42)) ∧
      lctlOverSsh (SSHRuleSetter.removeRuleCmd "10.0.0.1" "_qospfoo" "foo") ≠
        lctlOverStub (OssStubRuleSetter.commandServed "10.0.0.1" (buildLocalRemoveRuleCommand "foo" "_qospfoo")) := by
  have address : IsName "10.0.0.1" := by simp [IsName]; decide
  have foo : IsName "foo" := by simp [IsName]; decide
  have rule : IsName "_qospfoo" := by simp [IsName]; decide
  constructor
  · rw [SSHRuleSetter.setRuleCmd, if_neg (by decide), buildLocalSetRuleCommand_eq]
    exact mt (lctlOverSsh_eq_iff address (quotable_startRule foo rule 42) (by simp [startRule])).1 (by decide)
  · rw [SSHRuleSetter.removeRuleCmd, buildLocalRemoveRuleCommand_eq]
    exact mt (lctlOverSsh_eq_iff address (quotable_stopRule rule) (by simp [stopRule])).1 (by decide)

end QosPlanner
