import Mathlib

/-!
# Shell words

How a POSIX shell splits a line into the words of one simple command, as an automaton
that reads one character at a time. A line that is more than that (an operator, an
expansion, a pattern, a comment, a quotation that does not end) has no words here: what
it runs is not determined by its text, or is not one command. Reserved words and
assignments, which the first word of a line can be, are left out.

A `$` begins an expansion only together with the character after it, and a `[` a pattern
only with a `]` later in the same component of a path. So the automaton takes them as they
are, keeps in mind what they have opened (`Opening`), and stops where it is completed.

The weight of a scan is the number of characters in its words. A character adds at most
one to it, and a quotation mark or an escape adds less than it takes
(`run_weight_lt`). So a line whose words hold all its characters but two has exactly
two that were not taken literally; this is what the exact statements rest on.
-/

namespace Shell
set_option autoImplicit false

def nul : Char := '\x00'
def quote : Char := '\x22'
def apostrophe : Char := '\x27'
def backslash : Char := '\x5c'
def backquote : Char := '\x60'

def isBlank (c : Char) : Bool := c = ' ' || c = '\t'

/-- Outside quotes these end the command, redirect it, start a substitution or a pattern. -/
def isOperator (c : Char) : Bool :=
  c ∈ ['|', '&', ';', '<', '>', '(', ')', '\n', backquote, '*', '?']

/-- A character that stands for itself outside quotes, unless it completes an expansion or a pattern. -/
def isLiteral (c : Char) : Bool :=
  !(c = quote || c = apostrophe || c = backslash || isBlank c || isOperator c)

/-- At the start of a word these start a comment or a tilde expansion. -/
def startsExpansion (c : Char) : Bool := c = '#' || c = '~'

/-- After a `$`: the first character of a name, a special parameter or an opening bracket. Before
any other character a `$` stands for itself. -/
def startsParameter (c : Char) : Bool :=
  c.isAlphanum || c ∈ ['_', '@', '*', '#', '?', '-', '$', '!', '\x7b', '(']

/-- How far a bracket expression has come: after its `[`, after `[!`, and behind a first member,
which a `]` is too. -/
inductive Bracket where
  | none
  | opened
  | negated
  | inside
  deriving DecidableEq, Repr

/-- A quoted character is a member; a slash is none, and what was open before it is not a
bracket expression. -/
def Bracket.quoted (b : Bracket) (c : Char) : Bracket :=
  if c = '/' || b = .none then .none else .inside

/-- A character outside quotes; `none` where it completes the bracket expression. -/
def Bracket.unquoted (b : Bracket) (c : Char) : Option Bracket :=
  if b = .inside && c = ']' then Option.none
  else if b = .none && c = '[' then some .opened
  else if b = .opened && c = '!' then some .negated
  else some (b.quoted c)

/-- What the last character and the word being read have opened. -/
structure Opening where
  /-- The last character is a `$` that was not quoted. -/
  dollar : Bool
  bracket : Bracket
  deriving DecidableEq, Repr

namespace Opening

def nothing : Opening := ⟨false, .none⟩

/-- A character that is quoted singly or escaped. -/
def quoted (o : Opening) (c : Char) : Opening := ⟨false, o.bracket.quoted c⟩

/-- A character between double quotes; `none` where it makes the `$` before it an expansion. -/
def doubleQuoted (o : Opening) (c : Char) : Option Opening :=
  if o.dollar && startsParameter c then none else some ⟨c = '$', o.bracket.quoted c⟩

/-- A character outside quotes; `none` where it makes an expansion or a pattern. -/
def unquoted (o : Opening) (c : Char) : Option Opening :=
  if o.dollar && startsParameter c then none
  else (o.bracket.unquoted c).map fun bracket => ⟨c = '$', bracket⟩

end Opening

/-- What the next character is part of. -/
inductive Mode where
  | plain
  | escaped
  | single
  | double
  | doubleEscaped
  deriving DecidableEq, Repr

/-- The words read so far, and the one being read, if any. -/
structure Scan where
  words : List (List Char)
  current : Option (List Char)
  mode : Mode
  opening : Opening
  deriving DecidableEq, Repr

namespace Scan

def start : Scan := ⟨[], none, .plain, .nothing⟩

/-- The character belongs to the current word, or starts one. -/
def put (s : Scan) (c : Char) : Scan := { s with current := some (s.current.getD [] ++ [c]) }

/-- A character of the word, and what is open behind it. -/
def putOpen (s : Scan) (c : Char) (opening : Opening) : Scan := { s.put c with opening }

/-- A character that is quoted singly or escaped. -/
def putQuoted (s : Scan) (c : Char) : Scan := s.putOpen c (s.opening.quoted c)

/-- A quotation belongs to the current word, or starts one. -/
def openQuotation (s : Scan) (mode : Mode) : Scan := { s with current := some (s.current.getD []), mode }

def endWord (s : Scan) : Scan :=
  match s.current with
  | none => { s with opening := .nothing }
  | some word => { s with words := s.words ++ [word], current := none, opening := .nothing }

/-- A `$` before a quotation is left to the shell, and so the line has no words. -/
def stepPlain (s : Scan) (c : Char) : Option Scan :=
  if s.opening.dollar && (c = quote || c = apostrophe) then none
  else if c = quote then some (s.openQuotation .double)
  else if c = apostrophe then some (s.openQuotation .single)
  else if c = backslash then some { s with mode := .escaped }
  else if isBlank c then some s.endWord
  else if isOperator c || (s.current.isNone && startsExpansion c) then none
  else (s.opening.unquoted c).map (s.putOpen c)

def stepDouble (s : Scan) (c : Char) : Option Scan :=
  if c = quote then some { s with mode := .plain, opening := { s.opening with dollar := false } }
  else if c = backslash then some { s with mode := .doubleEscaped }
  else if c = backquote then none
  else (s.opening.doubleQuoted c).map (s.putOpen c)

/-- After a backslash in double quotes: it escapes four characters, and vanishes with a
newline; before any other character it stands for itself. -/
def stepDoubleEscaped (s : Scan) (c : Char) : Scan :=
  if c = quote || c = backslash || c = '$' || c = backquote then { s.putQuoted c with mode := .double }
  else if c = '\n' then { s with mode := .double }
  else { (s.putQuoted backslash).putQuoted c with mode := .double }

def step (s : Scan) (c : Char) : Option Scan :=
  match s.mode with
  | .plain => s.stepPlain c
  | .escaped => some (if c = '\n' then { s with mode := .plain } else { s.putQuoted c with mode := .plain })
  | .single => some (if c = apostrophe then { s with mode := .plain } else s.putQuoted c)
  | .double => s.stepDouble c
  | .doubleEscaped => some (s.stepDoubleEscaped c)

theorem step_blank {s : Scan} (plain : s.mode = .plain) : s.step ' ' = some s.endWord := by
  simp [step, plain, stepPlain, quote, apostrophe, backslash, isBlank]

def run : Scan → List Char → Option Scan
  | s, [] => some s
  | s, c :: rest => (s.step c).bind fun s' => run s' rest

/-- The words at the end of the line, if no quotation is open. A backslash that is left with
nothing to escape stands for itself. -/
def finish (s : Scan) : Option (List (List Char)) :=
  if s.mode = .plain then some s.endWord.words
  else if s.mode = .escaped then some (s.put backslash).endWord.words
  else none

theorem run_append (s : Scan) (xs ys : List Char) : s.run (xs ++ ys) = (s.run xs).bind fun s' => s'.run ys := by
  induction xs generalizing s with
  | nil => rfl
  | cons c rest ih =>
    simp only [List.cons_append, run, Option.bind_assoc, ih]

/-- The scan with further words read before it. -/
def after (s : Scan) (words : List (List Char)) : Scan := { s with words := words ++ s.words }

theorem endWord_after (s : Scan) (words : List (List Char)) : (s.after words).endWord = s.endWord.after words := by
  obtain ⟨done, current, mode, opening⟩ := s
  cases current <;> simp [endWord, after]

theorem stepPlain_after (s : Scan) (words : List (List Char)) (c : Char) :
    (s.after words).stepPlain c = (s.stepPlain c).map (·.after words) := by
  have current : (s.after words).current = s.current := rfl
  have opening : (s.after words).opening = s.opening := rfl
  unfold stepPlain
  rw [endWord_after, current, opening]
  split_ifs
  all_goals first | rfl | (rw [Option.map_map]; rfl)

theorem step_after (s : Scan) (words : List (List Char)) (c : Char) :
    (s.after words).step c = (s.step c).map (·.after words) := by
  have mode : (s.after words).mode = s.mode := rfl
  unfold step
  rw [mode]
  cases s.mode with
  | plain => exact stepPlain_after s words c
  | escaped =>
    dsimp only
    split_ifs <;> rfl
  | single =>
    dsimp only
    split_ifs <;> rfl
  | double =>
    dsimp only
    unfold stepDouble
    have opening : (s.after words).opening = s.opening := rfl
    rw [opening]
    split_ifs
    all_goals first | rfl | (rw [Option.map_map]; rfl)
  | doubleEscaped =>
    dsimp only
    unfold stepDoubleEscaped
    split_ifs <;> rfl

/-- What is read does not depend on the words before. -/
theorem run_after (s : Scan) (words : List (List Char)) (xs : List Char) :
    (s.after words).run xs = (s.run xs).map (·.after words) := by
  induction xs generalizing s with
  | nil => rfl
  | cons c rest ih =>
    rw [run, run, step_after]
    cases s.step c with
    | none => rfl
    | some next => exact ih next

theorem finish_after (s : Scan) (words : List (List Char)) :
    (s.after words).finish = s.finish.map (words ++ ·) := by
  have mode : (s.after words).mode = s.mode := rfl
  have put : (s.after words).put backslash = (s.put backslash).after words := rfl
  rw [finish, finish, endWord_after, put, endWord_after, mode]
  split_ifs <;> rfl

/-! ## The weight of a scan -/

/-- A backslash that is still to be decided on. -/
def pending : Mode → Nat
  | .escaped => 1
  | .doubleEscaped => 1
  | _ => 0

/-- The number of characters in the words. -/
def weight (s : Scan) : Nat :=
  (s.words.map List.length).sum + (s.current.getD []).length + pending s.mode

theorem weight_put (s : Scan) (c : Char) : (s.put c).weight = s.weight + 1 := by
  simp [weight, put]
  omega

theorem weight_putOpen (s : Scan) (c : Char) (opening : Opening) : (s.putOpen c opening).weight = s.weight + 1 :=
  weight_put s c

theorem weight_endWord (s : Scan) : s.endWord.weight = s.weight := by
  obtain ⟨words, current, mode, opening⟩ := s
  cases current <;> simp [endWord, weight]

theorem weight_openQuotation {s : Scan} {mode : Mode} (plain : s.mode = .plain) (nothing : pending mode = 0) :
    (s.openQuotation mode).weight = s.weight := by
  simp only [openQuotation, weight, nothing, plain, Option.getD_some]
  rfl

/-- Outside quotes a character opens a quotation, escapes, ends the word or is literal. -/
theorem stepPlain_cases {s s' : Scan} {c : Char} (taken : s.stepPlain c = some s') :
    (∃ mode, (mode = .double ∨ mode = .single) ∧ s' = s.openQuotation mode) ∨
    (c = backslash ∧ s' = { s with mode := .escaped }) ∨
    (isBlank c = true ∧ s' = s.endWord) ∨
    (isLiteral c = true ∧ (s.current = none → startsExpansion c = false) ∧
      ∃ opening, s.opening.unquoted c = some opening ∧ s' = s.putOpen c opening) := by
  unfold stepPlain at taken
  split at taken
  · cases taken
  split at taken
  · exact Or.inl ⟨.double, Or.inl rfl, (Option.some.inj taken).symm⟩
  split at taken
  · exact Or.inl ⟨.single, Or.inr rfl, (Option.some.inj taken).symm⟩
  split at taken
  · rename_i isBackslash
    exact Or.inr (Or.inl ⟨isBackslash, (Option.some.inj taken).symm⟩)
  split at taken
  · rename_i blank
    exact Or.inr (Or.inr (Or.inl ⟨blank, (Option.some.inj taken).symm⟩))
  split at taken
  · cases taken
  · rename_i noQuote noApostrophe noBackslash noBlank literal
    obtain ⟨opening, opens, taken⟩ := Option.map_eq_some_iff.1 taken
    rw [Bool.or_eq_true, Bool.and_eq_true, not_or, not_and, Option.isNone_iff_eq_none] at literal
    refine Or.inr (Or.inr (Or.inr ⟨?_, fun none => by simpa using literal.2 none, opening, opens, taken.symm⟩))
    simp [isLiteral, noQuote, noApostrophe, noBackslash, noBlank, literal.1]

/-- **One character** adds at most one to the weight, and returning to plain text adds
nothing. -/
theorem step_weight {s s' : Scan} {c : Char} (taken : s.step c = some s') :
    s'.weight ≤ s.weight + 1 ∧ (s.mode ≠ .plain → s'.mode = .plain → s'.weight ≤ s.weight) := by
  obtain ⟨words, current, mode, opening⟩ := s
  cases mode with
  | plain =>
    refine ⟨?_, by simp⟩
    rcases stepPlain_cases taken with ⟨mode, isQuotation, rfl⟩ | ⟨-, rfl⟩ | ⟨-, rfl⟩ | ⟨-, -, opening, -, rfl⟩
    · rw [weight_openQuotation rfl (by rcases isQuotation with rfl | rfl <;> rfl)]
      omega
    · simp [weight, pending]
    · rw [weight_endWord]
      omega
    · rw [weight_putOpen]
  | escaped =>
    simp only [step, Option.some.injEq] at taken
    split at taken
    · subst taken
      simp [weight, pending]
      omega
    · subst taken
      simp [weight, put, putOpen, putQuoted, pending]
      omega
  | single =>
    simp only [step, Option.some.injEq] at taken
    split at taken
    · subst taken
      simp [weight, pending]
    · subst taken
      simp [weight, put, putOpen, putQuoted, pending]
      omega
  | double =>
    simp only [step, stepDouble] at taken
    split at taken
    · cases taken
      simp [weight, pending]
    split at taken
    · cases taken
      simp [weight, pending]
    split at taken
    · cases taken
    · obtain ⟨opening, -, rfl⟩ := Option.map_eq_some_iff.1 taken
      simp [weight, put, putOpen, pending]
      omega
  | doubleEscaped =>
    simp only [step, stepDoubleEscaped, Option.some.injEq] at taken
    split at taken
    · subst taken
      simp [weight, put, putOpen, putQuoted, pending]
      omega
    split at taken
    · subst taken
      simp [weight, pending]
      omega
    · subst taken
      simp [weight, put, putOpen, putQuoted, pending]
      omega

theorem mode_endWord (s : Scan) : s.endWord.mode = s.mode := by
  unfold endWord; split <;> rfl

/-- Only a backslash outside quotes escapes the next character. -/
theorem step_escaped {s s' : Scan} {c : Char} (taken : s.step c = some s') (escaped : s'.mode = .escaped) :
    s.mode = .plain ∧ c = backslash ∧ s' = { s with mode := .escaped } := by
  obtain ⟨words, current, mode, opening⟩ := s
  cases mode with
  | plain =>
    rcases stepPlain_cases taken with ⟨mode, quotation, rfl⟩ | ⟨isBackslash, rfl⟩ | ⟨-, rfl⟩ | ⟨-, -, opening, -, rfl⟩
    · rcases quotation with rfl | rfl <;> cases escaped
    · exact ⟨rfl, isBackslash, rfl⟩
    · rw [mode_endWord] at escaped
      cases escaped
    · cases escaped
  | escaped =>
    simp only [step, Option.some.injEq] at taken
    split at taken <;> subst taken <;> cases escaped
  | single =>
    simp only [step, Option.some.injEq] at taken
    split at taken <;> subst taken <;> cases escaped
  | double =>
    simp only [step, stepDouble] at taken
    split at taken
    · cases taken
      cases escaped
    split at taken
    · cases taken
      cases escaped
    split at taken
    · cases taken
    · obtain ⟨opening, -, rfl⟩ := Option.map_eq_some_iff.1 taken
      cases escaped
  | doubleEscaped =>
    simp only [step, stepDoubleEscaped, Option.some.injEq] at taken
    subst taken
    split_ifs at escaped

/-- No run adds more characters than it reads. -/
theorem run_weight {s s' : Scan} {xs : List Char} (ran : s.run xs = some s') :
    s'.weight ≤ s.weight + xs.length := by
  induction xs generalizing s with
  | nil => cases ran; simp
  | cons c rest ih =>
    obtain ⟨next, taken, ran⟩ := Option.bind_eq_some_iff.1 ran
    have := (step_weight taken).1
    have := ih ran
    rw [List.length_cons]
    omega

/-- A double quote opens or closes a quotation, unless it is escaped. -/
theorem mode_of_step_quote {s s' : Scan} (taken : s.step quote = some s') (plain : s.mode = .plain) :
    s'.mode = .double := by
  simp only [step, plain, stepPlain, if_pos] at taken
  split at taken
  · cases taken
  · cases taken
    rfl

/-- **A run that leaves a mode or meets a double quote** adds fewer characters than it reads,
if it ends outside quotes. -/
theorem run_weight_lt {s s' : Scan} {xs : List Char} (ran : s.run xs = some s') (ends : s'.mode = .plain)
    (quoted : s.mode ≠ .plain ∨ quote ∈ xs) : s'.weight < s.weight + xs.length := by
  induction xs generalizing s with
  | nil =>
    cases ran
    simp [ends] at quoted
  | cons c rest ih =>
    obtain ⟨next, taken, ran⟩ := Option.bind_eq_some_iff.1 ran
    have gain := step_weight taken
    rw [List.length_cons]
    by_cases leaves : s.mode ≠ .plain ∧ next.mode = .plain
    · have := gain.2 leaves.1 leaves.2
      have := run_weight ran
      omega
    · have later : next.mode ≠ .plain ∨ quote ∈ rest := by
        by_cases plain : next.mode = .plain
        · right
          have before : s.mode = .plain := by tauto
          have member : quote ∈ c :: rest := by tauto
          rcases List.mem_cons.1 member with rfl | member
          · have := mode_of_step_quote taken before
            simp [plain] at this
          · exact member
        · exact Or.inl plain
      have := ih ran later
      omega

end Scan

end Shell
