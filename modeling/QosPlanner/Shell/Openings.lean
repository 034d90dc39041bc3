import QosPlanner.Shell.Words

/-!
# What a text opens and does not complete

Outside quotes the literal characters of a text go through the shell unchanged iff nothing
that they open is completed: no `$` makes an expansion with the character after it, and no
`[` has a `]` behind it that makes it a bracket expression (`Opening.run_isSome_iff`).
-/

namespace Shell
set_option autoImplicit false

/-- A `$` before the text stands for itself. -/
def LeavesDollar (text : List Char) : Prop := ∀ c, text.head? = some c → startsParameter c = false

theorem leavesDollar_nil : LeavesDollar [] := by simp [LeavesDollar]

@[simp] theorem leavesDollar_cons {c : Char} {text : List Char} :
    LeavesDollar (c :: text) ↔ startsParameter c = false := by simp [LeavesDollar]

namespace Bracket

/-- The characters complete the bracket expression up to its `]`. -/
def Completes : Bracket → List Char → Prop
  | .none, _ => False
  | .opened, members => members ≠ [] ∧ members ≠ ['!']
  | .negated, members => members ≠ []
  | .inside, _ => True

/-- There is a `]` that closes the bracket expression, in the same component of a path. -/
def Closes (b : Bracket) (text : List Char) : Prop :=
  ∃ members after, text = members ++ ']' :: after ∧ '/' ∉ members ∧ b.Completes members

def run : Bracket → List Char → Option Bracket
  | b, [] => some b
  | b, c :: text => (b.unquoted c).bind fun b' => b'.run text

variable {b : Bracket} {c : Char} {text : List Char}

theorem closes_cons :
    b.Closes (c :: text) ↔ (c = ']' ∧ b.Completes []) ∨
      (c ≠ '/' ∧ ∃ members after, text = members ++ ']' :: after ∧ '/' ∉ members ∧ b.Completes (c :: members)) := by
  constructor
  · rintro ⟨_ | ⟨d, members⟩, after, split, component, complete⟩
    · exact Or.inl ⟨(List.cons.inj split).1, complete⟩
    · obtain ⟨rfl, rfl⟩ := List.cons.inj split
      rw [List.mem_cons, not_or] at component
      exact Or.inr ⟨Ne.symm component.1, members, after, rfl, component.2, complete⟩
  · rintro (⟨rfl, complete⟩ | ⟨member, members, after, rfl, component, complete⟩)
    · exact ⟨[], text, rfl, by simp, complete⟩
    · exact ⟨c :: members, after, rfl, by simp [Ne.symm member, component], complete⟩

theorem not_closes_slash : ¬ b.Closes ('/' :: text) := by simp [closes_cons]

theorem not_closes_none : ¬ Bracket.none.Closes text := fun ⟨_, _, _, _, complete⟩ => complete

/-- A first member that is no slash, and after it any others. -/
theorem closes_member (member : c ≠ '/') (first : ¬ b.Completes []) (others : ∀ members, b.Completes (c :: members)) :
    b.Closes (c :: text) ↔ inside.Closes text := by
  rw [closes_cons, or_iff_right fun both => first both.2, and_iff_right member]
  refine exists_congr fun members => exists_congr fun after => and_congr_right fun _ => and_congr_right fun _ => ?_
  exact iff_of_true (others members) trivial

theorem Closes.inside (closes : b.Closes text) : Bracket.inside.Closes text := by
  obtain ⟨members, after, split, component, -⟩ := closes
  exact ⟨members, after, split, component, trivial⟩

end Bracket

/-- The text has a bracket expression: a `[`, members, of which a leading `!` is none, and a `]`. -/
def HasBracketExpression (text : List Char) : Prop :=
  ∃ before members after, text = before ++ '[' :: (members ++ ']' :: after) ∧
    '/' ∉ members ∧ members ≠ [] ∧ members ≠ ['!']

theorem hasBracketExpression_cons {c : Char} {text : List Char} :
    HasBracketExpression (c :: text) ↔ (c = '[' ∧ Bracket.opened.Closes text) ∨ HasBracketExpression text := by
  constructor
  · rintro ⟨_ | ⟨d, before⟩, members, after, split, some⟩
    · obtain ⟨rfl, rfl⟩ := List.cons.inj split
      exact Or.inl ⟨rfl, members, after, rfl, some⟩
    · obtain ⟨rfl, rfl⟩ := List.cons.inj split
      exact Or.inr ⟨before, members, after, rfl, some⟩
  · rintro (⟨rfl, members, after, rfl, some⟩ | ⟨before, members, after, rfl, some⟩)
    · exact ⟨[], members, after, rfl, some⟩
    · exact ⟨c :: before, members, after, rfl, some⟩

theorem not_hasBracketExpression_nil : ¬ HasBracketExpression [] := by simp [HasBracketExpression]

/-- Text without a `[` has none. -/
theorem not_hasBracketExpression {text : List Char} (none : '[' ∉ text) : ¬ HasBracketExpression text := by
  rintro ⟨before, members, after, rfl, -⟩
  simp at none

/-- **The bracket automaton** stops iff the expression that is open is closed, or one begins
and ends later. -/
theorem Bracket.run_eq_none_iff (b : Bracket) (text : List Char) :
    b.run text = Option.none ↔ b.Closes text ∨ HasBracketExpression text := by
  induction text generalizing b with
  | nil => simp [run, Closes, not_hasBracketExpression_nil]
  | cons c text ih =>
    rw [hasBracketExpression_cons, run]
    by_cases slash : c = '/'
    · -- what is open is not a bracket expression
      subst slash
      have next : b.unquoted '/' = some .none := by cases b <;> rfl
      rw [next, Option.bind_some, ih]
      simp [not_closes_slash, not_closes_none]
    · cases b with
      | none =>
        by_cases opens : c = '['
        · subst opens
          have next : Bracket.none.unquoted '[' = some .opened := rfl
          rw [next, Option.bind_some, ih]
          simp [not_closes_none]
        · have next : Bracket.none.unquoted c = some .none := by simp [unquoted, quoted, opens]
          rw [next, Option.bind_some, ih]
          simp [not_closes_none, opens]
      | opened =>
        by_cases negates : c = '!'
        · subst negates
          have next : Bracket.opened.unquoted '!' = some .negated := rfl
          have same : Bracket.opened.Closes ('!' :: text) ↔ Bracket.negated.Closes text := by
            rw [closes_cons]
            simp [Completes, Closes]
          rw [next, Option.bind_some, ih, same]
          simp
        · have next : Bracket.opened.unquoted c = some .inside := by simp [unquoted, quoted, negates, slash]
          have same : Bracket.opened.Closes (c :: text) ↔ inside.Closes text :=
            closes_member slash (by simp [Completes]) (by simp [Completes, negates])
          rw [next, Option.bind_some, ih, same]
          have wider : Bracket.opened.Closes text → inside.Closes text := Closes.inside
          tauto
      | negated =>
        have next : Bracket.negated.unquoted c = some .inside := by simp [unquoted, quoted, slash]
        have same : Bracket.negated.Closes (c :: text) ↔ inside.Closes text :=
          closes_member slash (by simp [Completes]) (by simp [Completes])
        rw [next, Option.bind_some, ih, same]
        have wider : Bracket.opened.Closes text → inside.Closes text := Closes.inside
        tauto
      | inside =>
        by_cases closes : c = ']'
        · subst closes
          have stops : Bracket.inside.unquoted ']' = Option.none := rfl
          rw [stops]
          exact iff_of_true rfl (Or.inl ⟨[], text, rfl, by simp, trivial⟩)
        · have next : Bracket.inside.unquoted c = some .inside := by simp [unquoted, quoted, closes, slash]
          have same : Bracket.inside.Closes (c :: text) ↔ inside.Closes text := by
            rw [closes_cons]
            simp [Completes, Closes, closes, slash]
          rw [next, Option.bind_some, ih, same]
          have wider : Bracket.opened.Closes text → inside.Closes text := Closes.inside
          tauto

namespace Opening

/-- What is open after characters outside quotes. -/
def run : Opening → List Char → Option Opening
  | o, [] => some o
  | o, c :: text => (o.unquoted c).bind fun o' => o'.run text

/-- **Nothing is completed** iff no `$` makes an expansion and no `[` a bracket expression. -/
theorem run_isSome_iff (o : Opening) (text : List Char) :
    (o.run text).isSome ↔ (o.dollar = true → LeavesDollar text) ∧
      text.IsChain (fun a b => a = '$' → startsParameter b = false) ∧ (o.bracket.run text).isSome := by
  induction text generalizing o with
  | nil => simp [run, Bracket.run, leavesDollar_nil]
  | cons c text ih =>
    rw [run, Bracket.run, unquoted, leavesDollar_cons, List.isChain_cons]
    by_cases expands : o.dollar = true ∧ startsParameter c = true
    · rw [if_pos (by simpa using expands)]
      simp [expands.1, expands.2]
    · have stays : o.dollar = true → startsParameter c = false := fun dollar =>
        Bool.eq_false_iff.2 fun starts => expands ⟨dollar, starts⟩
      rw [if_neg (by simpa using expands), and_iff_right stays]
      cases o.bracket.unquoted c with
      | none => simp
      | some bracket =>
        simp only [Option.map_some, Option.bind_some, ih, decide_eq_true_eq]
        have follows : (∀ d ∈ text.head?, c = '$' → startsParameter d = false) ↔ (c = '$' → LeavesDollar text) :=
          ⟨fun each dollar d first => each d first dollar, fun leaves d first dollar => leaves dollar d first⟩
        rw [follows]
        tauto

end Opening

end Shell
