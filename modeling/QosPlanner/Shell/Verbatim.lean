import QosPlanner.Shell.Openings

/-!
# Text that goes through the shell unchanged

A program that builds a command line around a text it was given wants that text to be,
unchanged, a word of the command or a part of one. `command_quoted_iff` says which texts
are when the line puts them between double quotes, `command_plain_iff` which are when it
puts them at its end as they are. Both are exact: with any other text the line is no
simple command, or one with other words.
-/

namespace Shell
set_option autoImplicit false

open Scan

/-- The words of a command line that is passed as a C string. -/
def command (line : List Char) : Option (List (List Char)) :=
  (start.run (line.takeWhile (· ≠ nul))).bind finish

theorem takeWhile_of_no_nul {line : List Char} (text : nul ∉ line) : line.takeWhile (· ≠ nul) = line := by
  rw [List.takeWhile_eq_self_iff]
  intro c member
  have : c ≠ nul := fun same => text (same ▸ member)
  simpa using this

/-- The words hold as many characters as the scan has weight. -/
theorem finish_weight {s : Scan} {words : List (List Char)} (finished : s.finish = some words) :
    (s.mode = .plain ∨ s.mode = .escaped) ∧ (words.map List.length).sum = s.weight := by
  have ended (t : Scan) (plain : t.mode = .plain) : (t.endWord.words.map List.length).sum = t.weight := by
    rw [← weight_endWord]
    obtain ⟨done, current, mode, opening⟩ := t
    cases current <;> simp_all [endWord, weight, pending]
  unfold finish at finished
  split_ifs at finished with plain escaped
  · rw [← Option.some.inj finished]
    exact ⟨Or.inl plain, ended s plain⟩
  · have same : (s.put backslash).endWord.words = ({ s.put backslash with mode := .plain } : Scan).endWord.words := by
      rfl
    rw [← Option.some.inj finished, same, ended _ rfl]
    refine ⟨Or.inr escaped, ?_⟩
    simp [weight, put, pending, escaped, Nat.add_assoc]

/-- A line whose beginning has been read. -/
theorem command_append {before : List Char} {s : Scan} (read : start.run before = some s) (noNul : nul ∉ before)
    (rest : List Char) : command (before ++ rest) = (s.run (rest.takeWhile (· ≠ nul))).bind finish := by
  have all : ∀ c ∈ before, decide (c ≠ nul) = true := by
    intro c member
    have : c ≠ nul := fun same => noNul (same ▸ member)
    simpa using this
  rw [command, List.takeWhile_append_of_pos all, run_append, read, Option.bind_some]

/-- The words of a line that begins with whole words. -/
theorem command_after {before : List Char} {words : List (List Char)}
    (read : start.run before = some ⟨words, none, .plain, .nothing⟩) (noNul : nul ∉ before) (rest : List Char) :
    command (before ++ rest) = (command rest).map (words ++ ·) := by
  have whole : (⟨words, none, .plain, .nothing⟩ : Scan) = start.after words := by simp [start, after]
  rw [command_append read noNul, whole, run_after, command]
  cases start.run (rest.takeWhile (· ≠ nul)) with
  | none => rfl
  | some s => exact finish_after s words

theorem length_takeWhile_lt {text : List Char} (cut : nul ∈ text) :
    (text.takeWhile (· ≠ nul)).length < text.length := by
  refine Nat.lt_of_le_of_ne (List.takeWhile_prefix _).length_le fun same => ?_
  have whole := (List.takeWhile_prefix (p := (· ≠ nul)) (l := text)).eq_of_length same
  have := List.takeWhile_eq_self_iff.1 whole nul cut
  simp at this

/-! ## Between double quotes -/

/-- The second character is not escaped by the first one, nor makes an expansion with it. -/
def Apart (a b : Char) : Prop :=
  (a = backslash → b ≠ backslash ∧ b ≠ '\n' ∧ b ≠ '$') ∧ (a = '$' → startsParameter b = false)

/-- A text that means nothing special between double quotes, if ordinary text follows it. -/
structure Inert (text : List Char) : Prop where
  literal : ∀ c ∈ text, c ≠ nul ∧ c ≠ quote ∧ c ≠ backquote
  apart : text.IsChain Apart

/-- A text that double quotes protect: it does not take the closing one with it. -/
structure Quotable (text : List Char) : Prop extends Inert text where
  closed : text.getLast? ≠ some backslash

theorem inert_append_iff {a b : List Char} :
    Inert (a ++ b) ↔ Inert a ∧ Inert b ∧ ∀ x ∈ a.getLast?, ∀ c ∈ b.head?, Apart x c := by
  constructor
  · rintro ⟨literal, apart⟩
    obtain ⟨left, right, middle⟩ := List.isChain_append.1 apart
    exact ⟨⟨fun c member => literal c (List.mem_append_left b member), left⟩,
      ⟨fun c member => literal c (List.mem_append_right a member), right⟩, middle⟩
  · rintro ⟨left, right, middle⟩
    refine ⟨fun c member => ?_, List.isChain_append.2 ⟨left.apart, right.apart, middle⟩⟩
    rcases List.mem_append.1 member with member | member
    · exact left.literal c member
    · exact right.literal c member

/-- A character that means nothing special between double quotes, wherever it stands. -/
def isOrdinary (c : Char) : Bool :=
  !(c = nul || c = quote || c = '$' || c = backquote || c = backslash || c = '\n')

theorem isOrdinary_iff {c : Char} :
    isOrdinary c = true ↔
      (c ≠ nul ∧ c ≠ quote ∧ c ≠ '$' ∧ c ≠ backquote) ∧ c ≠ backslash ∧ c ≠ '\n' := by
  simp [isOrdinary, and_assoc]

/-- An ordinary character does nothing to the one after it. -/
theorem apart_of_isOrdinary {a : Char} (ordinary : isOrdinary a = true) (b : Char) : Apart a b :=
  ⟨fun same => absurd same (isOrdinary_iff.1 ordinary).2.1, fun same => absurd same (isOrdinary_iff.1 ordinary).1.2.2.1⟩

/-- Text of ordinary characters is quotable. -/
theorem quotable_of_ordinary {text : List Char} (ordinary : ∀ c ∈ text, isOrdinary c = true) : Quotable text := by
  refine ⟨⟨fun c member => ?_, ?_⟩, fun last => ?_⟩
  · obtain ⟨⟨noNul, noQuote, -, noBackquote⟩, -⟩ := isOrdinary_iff.1 (ordinary c member)
    exact ⟨noNul, noQuote, noBackquote⟩
  · refine List.Pairwise.isChain (List.pairwise_iff_forall_sublist.2 fun sub => ?_)
    exact apart_of_isOrdinary (ordinary _ (sub.subset (by simp))) _
  · exact (isOrdinary_iff.1 (ordinary backslash (List.mem_of_getLast? last))).2.1 rfl

section Ordinary

variable {a b : List Char}

/-- Ordinary text before another one makes no difference to it. -/
theorem inert_append_left (ordinary : ∀ c ∈ a, isOrdinary c = true) : Inert (a ++ b) ↔ Inert b := by
  have quotable := quotable_of_ordinary ordinary
  rw [inert_append_iff]
  refine ⟨fun both => both.2.1, fun inert => ⟨quotable.toInert, inert, fun x last c _ => ?_⟩⟩
  exact apart_of_isOrdinary (ordinary x (List.mem_of_getLast? last)) c

theorem quotable_append_left (ordinary : ∀ c ∈ a, isOrdinary c = true) : Quotable (a ++ b) ↔ Quotable b := by
  have closed : (a ++ b).getLast? ≠ some backslash ↔ b.getLast? ≠ some backslash := by
    rw [List.getLast?_append]
    cases b.getLast? with
    | none => simpa using (quotable_of_ordinary ordinary).closed
    | some c => simp
  constructor
  · intro quotable
    exact ⟨(inert_append_left ordinary).1 quotable.toInert, closed.1 quotable.closed⟩
  · intro quotable
    exact ⟨(inert_append_left ordinary).2 quotable.toInert, closed.2 quotable.closed⟩

end Ordinary

theorem quotable_nil : Quotable [] := ⟨⟨by simp, .nil⟩, by simp⟩

/-- A character that is no backslash can be put before a quotable text that leaves it as it is. -/
theorem quotable_cons_iff {c : Char} {text : List Char} (ordinary : c ≠ backslash) :
    Quotable (c :: text) ↔
      (c ≠ nul ∧ c ≠ quote ∧ c ≠ backquote) ∧ (c = '$' → LeavesDollar text) ∧ Quotable text := by
  constructor
  · rintro ⟨⟨literal, apart⟩, closed⟩
    obtain ⟨next, apart⟩ := List.isChain_cons.1 apart
    refine ⟨literal c List.mem_cons_self, fun dollar d first => (next d first).2 dollar,
      ⟨fun d member => literal d (List.mem_cons_of_mem c member), apart⟩, fun last => ?_⟩
    exact closed (by simp [List.getLast?_cons, last])
  · rintro ⟨head, leaves, ⟨literal, apart⟩, closed⟩
    refine ⟨⟨?_, ?_⟩, ?_⟩
    · intro d member
      rcases List.mem_cons.1 member with rfl | member
      · exact head
      · exact literal d member
    · rw [List.isChain_cons]
      exact ⟨fun d first => ⟨fun same => absurd same ordinary, fun dollar => leaves dollar d first⟩, apart⟩
    · rw [List.getLast?_cons]
      cases last : text.getLast? with
      | none => simpa using ordinary
      | some d => simpa [last] using closed

/-- A backslash needs a character after it that it does not escape. -/
theorem quotable_backslash_iff {c : Char} {text : List Char} :
    Quotable (backslash :: c :: text) ↔ (c ≠ backslash ∧ c ≠ '\n' ∧ c ≠ '$') ∧ Quotable (c :: text) := by
  constructor
  · rintro ⟨⟨literal, apart⟩, closed⟩
    have next := (List.isChain_cons_cons.1 apart).1.1 rfl
    refine ⟨next, ⟨fun d member => literal d (List.mem_cons_of_mem _ member), apart.tail⟩, ?_⟩
    simpa [List.getLast?_cons_cons] using closed
  · rintro ⟨other, ⟨literal, apart⟩, closed⟩
    refine ⟨⟨?_, ?_⟩, ?_⟩
    · intro d member
      rcases List.mem_cons.1 member with rfl | member
      · decide
      · exact literal d member
    · exact List.isChain_cons_cons.2 ⟨⟨fun _ => other, fun dollar => by cases dollar⟩, apart⟩
    · simpa [List.getLast?_cons_cons] using closed

theorem not_quotable_backslash : ¬ Quotable [backslash] := fun quotable => quotable.closed rfl

section Double

variable (words : List (List Char)) (word : List Char) (dollar : Bool)

/-- Between double quotes, in a word that opens no bracket expression; `dollar`: behind a `$`. -/
def quoting : Scan := ⟨words, some word, .double, ⟨dollar, .none⟩⟩

theorem step_quoting {c : Char} (noQuote : c ≠ quote) (noBackslash : c ≠ backslash) (noBackquote : c ≠ backquote)
    (leaves : dollar = true → startsParameter c = false) :
    (quoting words word dollar).step c = some (quoting words (word ++ [c]) (c = '$')) := by
  have stays : ¬ (dollar = true ∧ startsParameter c = true) := fun both => by simp [leaves both.1] at both
  simp [quoting, step, stepDouble, noQuote, noBackslash, noBackquote, Opening.doubleQuoted, stays, putOpen, put,
    Bracket.quoted]

theorem run_quoting_backslash {c : Char} (noQuote : c ≠ quote) (noBackslash : c ≠ backslash) (noDollar : c ≠ '$')
    (noBackquote : c ≠ backquote) (noNewline : c ≠ '\n') (text : List Char) :
    (quoting words word dollar).run (backslash :: c :: text) =
      (quoting words (word ++ [backslash] ++ [c]) false).run text := by
  have enter : (quoting words word dollar).step backslash =
      some ⟨words, some word, .doubleEscaped, ⟨dollar, .none⟩⟩ := rfl
  have leave : step ⟨words, some word, .doubleEscaped, ⟨dollar, .none⟩⟩ c =
      some (quoting words (word ++ [backslash] ++ [c]) false) := by
    simp [quoting, step, stepDoubleEscaped, putQuoted, putOpen, put, Opening.quoted, Bracket.quoted, noQuote,
      noBackslash, noDollar, noBackquote, noNewline]
  simp [Scan.run, enter, leave]

/-- The automaton copies a quotable text. -/
theorem run_quotable {text : List Char} (quotable : Quotable text) (leaves : dollar = true → LeavesDollar text) :
    ∃ dollar', (quoting words word dollar).run text = some (quoting words (word ++ text) dollar') := by
  induction text using List.twoStepInduction generalizing word dollar with
  | nil => exact ⟨dollar, by simp [Scan.run]⟩
  | singleton c =>
    have noBackslash : c ≠ backslash := by
      rintro rfl
      exact not_quotable_backslash quotable
    obtain ⟨-, noQuote, noBackquote⟩ := quotable.literal c (by simp)
    rw [leavesDollar_cons] at leaves
    exact ⟨_, by simp [Scan.run, step_quoting words word dollar noQuote noBackslash noBackquote leaves]; rfl⟩
  | cons_cons c d text ih ih' =>
    obtain ⟨-, noQuote, noBackquote⟩ := quotable.literal c (by simp)
    by_cases escape : c = backslash
    · subst escape
      obtain ⟨⟨other, line, noDollar⟩, rest⟩ := quotable_backslash_iff.1 quotable
      obtain ⟨⟨-, noQuote', noBackquote'⟩, -, rest⟩ := (quotable_cons_iff other).1 rest
      obtain ⟨dollar', copied⟩ := ih (word ++ [backslash] ++ [d]) false rest (by simp)
      rw [run_quoting_backslash words word dollar noQuote' other noDollar noBackquote' line, copied]
      exact ⟨dollar', by simp⟩
    · obtain ⟨-, next, rest⟩ := (quotable_cons_iff escape).1 quotable
      rw [leavesDollar_cons] at leaves
      obtain ⟨dollar', copied⟩ := ih' d (word ++ [c]) (c = '$') rest (by simpa using next)
      rw [Scan.run, step_quoting words word dollar noQuote escape noBackquote leaves, Option.bind_some, copied]
      exact ⟨dollar', by simp⟩

theorem weight_quoting : (quoting words word dollar).weight = (words.map List.length).sum + word.length := by
  simp [quoting, weight, pending]

/-- A character of the text that closes the quotation is missing from the words, and so is
the mark that was to close it. -/
theorem weight_of_early_quote {text : List Char} {s' : Scan}
    (ran : (quoting words word dollar).run (quote :: (text ++ [quote])) = some s') (ends : s'.mode = .plain) :
    s'.weight < (words.map List.length).sum + word.length + text.length + 1 := by
  have left : (quoting words word dollar).step quote = some ⟨words, some word, .plain, .nothing⟩ := rfl
  rw [Scan.run, left, Option.bind_some] at ran
  have short := run_weight_lt ran ends (Or.inr (by simp))
  simp [weight, pending] at short ⊢
  omega

/-- So is a backslash that escapes something. -/
theorem weight_of_escape {c : Char} {text : List Char} {s' : Scan}
    (escapes : c = quote ∨ c = backslash ∨ c = '$' ∨ c = backquote ∨ c = '\n')
    (ran : (quoting words word dollar).run (backslash :: c :: text) = some s') (ends : s'.mode = .plain) :
    s'.weight < (words.map List.length).sum + word.length + text.length + 1 := by
  have enter : (quoting words word dollar).step backslash =
      some ⟨words, some word, .doubleEscaped, ⟨dollar, .none⟩⟩ := rfl
  obtain ⟨next, taken, ran⟩ := Option.bind_eq_some_iff.1 (by simpa [Scan.run, enter] using ran)
  have lost : next.mode = .double ∧ next.weight ≤ (words.map List.length).sum + word.length + 1 := by
    simp only [step, stepDoubleEscaped, Option.some.injEq] at taken
    subst taken
    rcases escapes with rfl | rfl | rfl | rfl | rfl <;>
      simp [quote, backslash, backquote, putQuoted, putOpen, put, weight, pending, Nat.add_assoc]
  have short := run_weight_lt ran ends (Or.inl (by simp [lost.1]))
  omega

/-- A character that is taken between double quotes and is no mark there. -/
theorem taken_of_run {c : Char} {text : List Char} {s' : Scan}
    (ran : (quoting words word dollar).run (c :: text) = some s') (noQuote : c ≠ quote) (noBackslash : c ≠ backslash) :
    c ≠ backquote ∧ (dollar = true → startsParameter c = false) := by
  obtain ⟨next, taken, -⟩ := Option.bind_eq_some_iff.1 ran
  simp only [quoting, step, stepDouble, if_neg noQuote, if_neg noBackslash] at taken
  split at taken
  · cases taken
  · rename_i noBackquote
    obtain ⟨opening, taken, -⟩ := Option.map_eq_some_iff.1 taken
    rw [Opening.doubleQuoted] at taken
    split at taken
    · cases taken
    · rename_i stays
      exact ⟨noBackquote, fun behind => by simpa [behind] using stays⟩

/-- **Only a quotable text** comes out of the quotation it was put in at full length. -/
theorem quotable_of_run {text : List Char} {s' : Scan}
    (ran : (quoting words word dollar).run (text ++ [quote]) = some s') (ends : s'.mode = .plain)
    (full : s'.weight = (words.map List.length).sum + word.length + text.length) (noNul : nul ∉ text) :
    Quotable text ∧ (dollar = true → LeavesDollar text) := by
  induction text using List.twoStepInduction generalizing word dollar with
  | nil => exact ⟨quotable_nil, fun _ => leavesDollar_nil⟩
  | singleton c =>
    by_cases isQuote : c = quote
    · subst isQuote
      have := @weight_of_early_quote words word dollar [] s' ran ends
      simp only [List.length_singleton, List.length_nil] at full this
      omega
    by_cases isBackslash : c = backslash
    · subst isBackslash
      have := weight_of_escape words word dollar (Or.inl rfl) ran ends
      simp only [List.length_singleton, List.length_nil] at full this
      omega
    obtain ⟨noBackquote, leaves⟩ := taken_of_run words word dollar ran isQuote isBackslash
    rw [leavesDollar_cons]
    exact ⟨(quotable_cons_iff isBackslash).2
      ⟨⟨fun same => noNul (by simp [same]), isQuote, noBackquote⟩, fun _ => leavesDollar_nil, quotable_nil⟩, leaves⟩
  | cons_cons c d text ih ih' =>
    simp only [List.mem_cons, not_or] at noNul
    obtain ⟨noNul, noNul', rest⟩ := noNul
    by_cases isQuote : c = quote
    · subst isQuote
      have := @weight_of_early_quote words word dollar (d :: text) s' ran ends
      simp only [List.length_cons] at full this
      omega
    by_cases isBackslash : c = backslash
    · subst isBackslash
      rw [List.cons_append, List.cons_append] at ran
      by_cases escapes : d = quote ∨ d = backslash ∨ d = '$' ∨ d = backquote ∨ d = '\n'
      · have := weight_of_escape words word dollar escapes ran ends
        simp only [List.length_cons, List.length_append, List.length_nil] at full this
        omega
      · simp only [not_or] at escapes
        obtain ⟨noQuote, noBackslash, noDollar, noBackquote, noNewline⟩ := escapes
        rw [run_quoting_backslash words word dollar noQuote noBackslash noDollar noBackquote noNewline] at ran
        have quotable := (ih _ _ ran (by simp at full ⊢; omega) rest).1
        rw [leavesDollar_cons]
        exact ⟨quotable_backslash_iff.2 ⟨⟨noBackslash, noNewline, noDollar⟩, (quotable_cons_iff noBackslash).2
          ⟨⟨fun same => noNul' same.symm, noQuote, noBackquote⟩, fun same => absurd same noDollar, quotable⟩⟩,
          fun _ => by decide⟩
    · rw [List.cons_append] at ran
      obtain ⟨noBackquote, leaves⟩ := taken_of_run words word dollar ran isQuote isBackslash
      rw [Scan.run, step_quoting words word dollar isQuote isBackslash noBackquote leaves, Option.bind_some] at ran
      obtain ⟨quotable, next⟩ := ih' d _ _ ran (by simp at full ⊢; omega) (by simp [noNul', rest])
      rw [leavesDollar_cons]
      exact ⟨(quotable_cons_iff isBackslash).2
        ⟨⟨fun same => noNul same.symm, isQuote, noBackquote⟩, by simpa using next, quotable⟩, leaves⟩

end Double

/-- A line that ends with a double quote does not end with a backslash. -/
theorem not_escaped_of_quote {s s' : Scan} {text : List Char} (ran : s.run (text ++ [quote]) = some s') :
    s'.mode ≠ .escaped := by
  rw [run_append] at ran
  obtain ⟨next, -, last⟩ := Option.bind_eq_some_iff.1 ran
  obtain ⟨_, taken, ⟨⟩⟩ := Option.bind_eq_some_iff.1 last
  exact fun escaped => absurd (step_escaped taken escaped).2.1 (by decide)

/-- **A text between double quotes**, as the end of a word that ends the line, is part of
that word as it is iff it is quotable. -/
theorem command_quoted_iff {before : List Char} {words : List (List Char)} {word : List Char}
    (read : start.run before = some ⟨words, some word, .plain, .nothing⟩) (noNul : nul ∉ before) (text : List Char) :
    command (before ++ quote :: (text ++ [quote])) = some (words ++ [word ++ text]) ↔ Quotable text := by
  have opened : ∀ rest, Scan.run ⟨words, some word, .plain, .nothing⟩ (quote :: rest) =
      (quoting words word false).run rest := fun _ => rfl
  rw [command_append read noNul]
  by_cases cut : nul ∈ text
  · refine iff_of_false (fun result => ?_) fun quotable => (quotable.literal nul cut).1 rfl
    have shorter := length_takeWhile_lt cut
    have stops : (quote :: (text ++ [quote])).takeWhile (· ≠ nul) = quote :: text.takeWhile (· ≠ nul) := by
      rw [List.takeWhile_cons_of_pos (by decide), List.takeWhile_append, if_neg shorter.ne]
    rw [stops, opened] at result
    obtain ⟨s', ran, finished⟩ := Option.bind_eq_some_iff.1 result
    have total := (finish_weight finished).2
    have bound := run_weight ran
    rw [weight_quoting] at bound
    simp at total
    omega
  · have whole : (quote :: (text ++ [quote])).takeWhile (· ≠ nul) = quote :: (text ++ [quote]) :=
      takeWhile_of_no_nul (by simpa [quote, nul] using cut)
    rw [whole, opened]
    constructor
    · intro result
      obtain ⟨s', ran, finished⟩ := Option.bind_eq_some_iff.1 result
      obtain ⟨ends, total⟩ := finish_weight finished
      have closed : s'.mode = .plain := ends.resolve_right (not_escaped_of_quote ran)
      refine (quotable_of_run words word false ran closed ?_ cut).1
      simp at total
      omega
    · intro quotable
      obtain ⟨dollar, copied⟩ := run_quotable words word false quotable (by simp)
      have closed : (quoting words (word ++ text) dollar).run [quote] =
          some ⟨words, some (word ++ text), .plain, .nothing⟩ := rfl
      rw [run_append, copied, Option.bind_some, closed]
      rfl

/-! ## Outside quotes -/

/-- Literal characters that complete no expansion and no pattern. -/
structure PlainText (text : List Char) : Prop where
  literal : ∀ c ∈ text, isLiteral c = true
  first : ∀ c, text.head? = some c → startsExpansion c = false
  dollars : text.IsChain fun a b => a = '$' → startsParameter b = false
  noPattern : ¬ HasBracketExpression text

/-- The text without a backslash at its end, which has nothing to escape there. -/
def bare (text : List Char) : List Char := if text.getLast? = some backslash then text.dropLast else text

/-- A text that is one word as it is, at the end of a line. -/
structure PlainWord (text : List Char) : Prop where
  nonempty : text ≠ []
  noNul : nul ∉ text
  plain : PlainText (bare text)

theorem bare_append (text : List Char) : bare (text ++ [backslash]) = text := by simp [bare]

theorem bare_eq_self {text : List Char} (noBackslash : backslash ∉ text) : bare text = text :=
  if_neg fun last => noBackslash (List.mem_of_getLast? last)

theorem bare_cases (text : List Char) : bare text = text ∨ text = bare text ++ [backslash] := by
  rcases List.eq_nil_or_concat text with rfl | ⟨before, c, rfl⟩
  · exact Or.inl rfl
  · rw [List.concat_eq_append]
    by_cases isBackslash : c = backslash
    · subst isBackslash
      rw [bare_append]
      exact Or.inr rfl
    · exact Or.inl (if_neg (by simpa using isBackslash))

/-- Any other character is still there. -/
theorem mem_bare {text : List Char} {c : Char} (member : c ∈ text) (other : c ≠ backslash) : c ∈ bare text := by
  rcases bare_cases text with same | split
  · rwa [same]
  · rw [split] at member
    simpa [other] using member

section Plain

theorem step_literal {s : Scan} {c : Char} (plain : s.mode = .plain) (literal : isLiteral c = true)
    (first : s.current = none → startsExpansion c = false) :
    s.step c = (s.opening.unquoted c).map (s.putOpen c) := by
  simp only [isLiteral, Bool.not_eq_true', Bool.or_eq_false_iff, decide_eq_false_iff_not] at literal
  obtain ⟨⟨⟨⟨noQuote, noApostrophe⟩, noBackslash⟩, noBlank⟩, noOperator⟩ := literal
  simp only [step, plain, stepPlain, noQuote, noApostrophe, noBackslash, noBlank, noOperator, if_false,
    Bool.false_eq_true, Bool.false_or, Bool.and_false, decide_false]
  cases current : s.current with
  | none => simp [first current]
  | some word => simp

/-- The automaton copies literal characters into the current word, as long as nothing is completed. -/
theorem run_literal {text : List Char} (literal : ∀ c ∈ text, isLiteral c = true) (words : List (List Char))
    (word : List Char) (opening : Opening) :
    Scan.run ⟨words, some word, .plain, opening⟩ text =
      (opening.run text).map fun opening => ⟨words, some (word ++ text), .plain, opening⟩ := by
  induction text generalizing word opening with
  | nil => simp [Scan.run, Opening.run]
  | cons c text ih =>
    rw [Scan.run, step_literal rfl (literal c List.mem_cons_self) (by simp), Opening.run]
    cases opening.unquoted c with
    | none => rfl
    | some next =>
      have put : Scan.putOpen ⟨words, some word, .plain, opening⟩ c next = ⟨words, some (word ++ [c]), .plain, next⟩ :=
        rfl
      rw [Option.map_some, Option.bind_some, Option.bind_some, put,
        ih fun d member => literal d (List.mem_cons_of_mem c member)]
      simp

/-- A plain text is read as one word. -/
theorem run_plainText {text : List Char} (nonempty : text ≠ []) (plain : PlainText text) (words : List (List Char)) :
    ∃ opening, Scan.run ⟨words, none, .plain, .nothing⟩ text = some ⟨words, some text, .plain, opening⟩ := by
  have unfinished : (Opening.nothing.run text).isSome := by
    refine (Opening.run_isSome_iff _ text).2 ⟨by simp [Opening.nothing], plain.dollars, ?_⟩
    rw [Option.isSome_iff_ne_none, Ne, Bracket.run_eq_none_iff, not_or]
    exact ⟨Bracket.not_closes_none, plain.noPattern⟩
  obtain ⟨opening, opens⟩ := Option.isSome_iff_exists.1 unfinished
  refine ⟨opening, ?_⟩
  cases text with
  | nil => exact absurd rfl nonempty
  | cons c text =>
    have first := plain.first c rfl
    obtain ⟨next, here, rest⟩ := Option.bind_eq_some_iff.1 opens
    have put : Scan.putOpen ⟨words, none, .plain, .nothing⟩ c next = ⟨words, some [c], .plain, next⟩ := rfl
    rw [Scan.run, step_literal rfl (plain.literal c List.mem_cons_self) fun _ => first, here, Option.map_some,
      Option.bind_some, put, run_literal (fun d member => plain.literal d (List.mem_cons_of_mem c member)), rest]
    rfl

/-- A plain word is read as one word. -/
theorem finish_plainWord {text : List Char} (word : PlainWord text) (words : List (List Char)) :
    (Scan.run ⟨words, none, .plain, .nothing⟩ text).bind finish = some (words ++ [text]) := by
  rcases bare_cases text with same | split
  · obtain ⟨opening, copied⟩ := run_plainText word.nonempty (same ▸ word.plain) words
    rw [copied]
    rfl
  · have escapes (current : Option (List Char)) (opening : Opening) :
        (Scan.run ⟨words, current, .plain, opening⟩ [backslash]).bind finish =
          some (words ++ [current.getD [] ++ [backslash]]) := by
      have step : Scan.step ⟨words, current, .plain, opening⟩ backslash = some ⟨words, current, .escaped, opening⟩ := by
        simp [Scan.step, stepPlain, backslash, quote, apostrophe]
      rw [Scan.run, step]
      rfl
    rw [split, run_append]
    by_cases none : bare text = []
    · rw [none]
      exact escapes .none .nothing
    · obtain ⟨opening, copied⟩ := run_plainText none word.plain words
      rw [copied]
      exact escapes _ opening

/-- **Only literal characters** that complete nothing add as many characters to the words as
there are. -/
theorem literal_of_run {text : List Char} {s s' : Scan} (ran : s.run text = some s') (plain : s.mode = .plain)
    (ends : s'.mode = .plain) (full : s'.weight = s.weight + text.length) :
    (∀ c ∈ text, isLiteral c = true) ∧
      (s.current = none → ∀ c, text.head? = some c → startsExpansion c = false) ∧ (s.opening.run text).isSome := by
  induction text generalizing s with
  | nil => simp [Opening.run]
  | cons c text ih =>
    rw [List.length_cons] at full
    obtain ⟨next, taken, ran⟩ := Option.bind_eq_some_iff.1 ran
    have bound := run_weight ran
    have outside : s.stepPlain c = some next := by simpa [step, plain] using taken
    rcases stepPlain_cases outside with
      ⟨mode, quotation, rfl⟩ | ⟨-, rfl⟩ | ⟨-, rfl⟩ | ⟨literal, first, opening, opens, rfl⟩
    · rw [weight_openQuotation plain (by rcases quotation with rfl | rfl <;> rfl)] at bound
      omega
    · have short := run_weight_lt ran ends (Or.inl (by simp))
      simp [weight, pending, plain] at short full
      omega
    · rw [weight_endWord] at bound
      omega
    · obtain ⟨literals, -, unfinished⟩ := ih ran plain (by rw [weight_putOpen]; omega)
      refine ⟨?_, ?_, ?_⟩
      · intro d member
        rcases List.mem_cons.1 member with rfl | member
        · exact literal
        · exact literals d member
      · intro fresh d head
        cases head
        exact first fresh
      · rw [Opening.run, opens]
        exact unfinished

theorem weight_fresh (words : List (List Char)) :
    Scan.weight ⟨words, none, .plain, .nothing⟩ = (words.map List.length).sum := by simp [weight, pending]

/-- A run that starts a word and adds as many characters as there are, one of them maybe by
a backslash at the end. -/
theorem plainText_of_run {text : List Char} {words : List (List Char)} {s' : Scan}
    (ran : Scan.run ⟨words, none, .plain, .nothing⟩ text = some s') (ends : s'.mode = .plain ∨ s'.mode = .escaped)
    (full : s'.weight = (words.map List.length).sum + text.length) : PlainText (bare text) := by
  have plain {text : List Char} {s' : Scan} (ran : Scan.run ⟨words, none, .plain, .nothing⟩ text = some s')
      (ends : s'.mode = .plain) (full : s'.weight = (words.map List.length).sum + text.length) : PlainText text := by
    obtain ⟨literal, first, unfinished⟩ := literal_of_run ran rfl ends (by rw [weight_fresh, full])
    obtain ⟨-, dollars, noBracket⟩ := (Opening.run_isSome_iff _ text).1 unfinished
    rw [Option.isSome_iff_ne_none, Ne, Bracket.run_eq_none_iff, not_or] at noBracket
    exact ⟨literal, first rfl, dollars, noBracket.2⟩
  rcases ends with ends | ends
  · have whole := plain ran ends full
    rwa [bare_eq_self fun member => absurd (whole.literal backslash member) (by decide)]
  · rcases List.eq_nil_or_concat text with rfl | ⟨before, c, rfl⟩
    · cases ran
      cases ends
    · -- the backslash is the last character, and the text before it is plain
      rw [List.concat_eq_append] at ran full ⊢
      rw [run_append] at ran
      obtain ⟨s, before_ran, last⟩ := Option.bind_eq_some_iff.1 ran
      obtain ⟨_, taken, ⟨⟩⟩ := Option.bind_eq_some_iff.1 last
      obtain ⟨outside, rfl, rfl⟩ := step_escaped taken ends
      rw [bare_append]
      refine plain before_ran outside ?_
      simp only [weight, pending, outside, List.length_append, List.length_singleton] at full ⊢
      omega

end Plain

/-- **A text at the end of a line** is its last word as it is iff it is a plain word. -/
theorem command_plain_iff {before : List Char} {words : List (List Char)}
    (read : start.run before = some ⟨words, none, .plain, .nothing⟩) (noNul : nul ∉ before) (text : List Char) :
    command (before ++ text) = some (words ++ [text]) ↔ PlainWord text := by
  rw [command_append read noNul]
  by_cases cut : nul ∈ text
  · refine iff_of_false (fun result => ?_) fun word => word.noNul cut
    have shorter := length_takeWhile_lt cut
    obtain ⟨s', ran, finished⟩ := Option.bind_eq_some_iff.1 result
    have total := (finish_weight finished).2
    have bound := run_weight ran
    rw [weight_fresh] at bound
    simp at total
    omega
  · rw [takeWhile_of_no_nul cut]
    constructor
    · intro result
      obtain ⟨s', ran, finished⟩ := Option.bind_eq_some_iff.1 result
      obtain ⟨ends, total⟩ := finish_weight finished
      refine ⟨?_, cut, plainText_of_run ran ends (by simpa using total.symm)⟩
      rintro rfl
      cases ran
      simp [finish, endWord] at finished
    · exact fun word => finish_plainWord word words

end Shell
