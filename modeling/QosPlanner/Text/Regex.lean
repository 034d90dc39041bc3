import Mathlib

/-!
# Regular expressions

Patterns that are sequences of items, where an item is a class of characters, taken once
or repeated, and possibly in a capturing group: `.+([0-9]+)x` is one. They are matched
against a whole text, as `std::regex_match` does with an ECMAScript pattern: a repetition
is greedy, that is, it takes as much as it can and gives back one character at a time until
the rest of the pattern matches. The first match found in this order is the result, as
the texts of the groups.

`regexMatch_cons_eq_some_iff` says what greed means: of all ways to take characters after
which the rest matches, the longest. Whether there is a match does not depend on it
(`regexMatch_isSome_iff`).
-/

namespace Text
set_option autoImplicit false

inductive Times where
  | once
  | oneOrMore
  | zeroOrMore
  deriving DecidableEq, Repr

/-- A class of characters, how often it is taken, and whether what is taken is captured. -/
structure Item where
  chars : Char → Bool
  times : Times
  captured : Bool

abbrev Pattern := List Item

namespace Item

/-- A character. -/
def lit (c : Char) : Item := ⟨(· = c), .once, false⟩

/-- `[chars]+` -/
def plus (chars : Char → Bool) : Item := ⟨chars, .oneOrMore, false⟩

/-- `[chars]*` -/
def star (chars : Char → Bool) : Item := ⟨chars, .zeroOrMore, false⟩

/-- `(item)` -/
def group (item : Item) : Item := { item with captured := true }

end Item

/-- The characters of a text, in order. -/
def literal (text : List Char) : Pattern := text.map .lit

/-- `.` of an ECMAScript pattern over `char`. -/
def anyChar (c : Char) : Bool := c != '\n' && c != '\r'

theorem newline_notMem_of_anyChar {text : List Char} (plain : text.all anyChar = true) : '\n' ∉ text :=
  fun member => absurd (List.all_eq_true.1 plain _ member) (by decide)

/-! ## Matching -/

/-- The ways to take characters of a class from the front of a text, the longest first: what
is taken, and what is left. -/
def runs (chars : Char → Bool) : List Char → List (List Char × List Char)
  | [] => [([], [])]
  | c :: text =>
    if chars c then (runs chars text).map (fun split => (c :: split.1, split.2)) ++ [([], c :: text)]
    else [([], c :: text)]

/-- Whether an item can be repeated so many times. -/
def Times.allows : Times → Nat → Bool
  | .once, n => n = 1
  | .oneOrMore, n => 1 ≤ n
  | .zeroOrMore, _ => true

namespace Item

/-- The ways to match an item, in the order they are tried. -/
def splits (item : Item) (text : List Char) : List (List Char × List Char) :=
  (runs item.chars text).filter fun split => item.times.allows split.1.length

/-- The groups, after what the item has taken. -/
def capture (item : Item) (taken : List Char) (groups : List (List Char)) : List (List Char) :=
  if item.captured then taken :: groups else groups

/-- What an item can take. -/
def Takes (item : Item) (taken : List Char) : Prop :=
  taken.all item.chars = true ∧ item.times.allows taken.length = true

end Item

/-- `std::regex_match`: the texts of the groups. -/
def regexMatch : Pattern → List Char → Option (List (List Char))
  | [], text => if text.isEmpty then some [] else none
  | item :: pattern, text =>
    (item.splits text).findSome? fun split => (regexMatch pattern split.2).map (item.capture split.1)

/-- The texts of a pattern, whatever its groups. -/
def Matches : Pattern → List Char → Prop
  | [], text => text = []
  | item :: pattern, text => ∃ taken after, text = taken ++ after ∧ item.Takes taken ∧ Matches pattern after

/-! ## The order of the attempts -/

theorem mem_runs {chars : Char → Bool} {text taken after : List Char} :
    (taken, after) ∈ runs chars text ↔ text = taken ++ after ∧ taken.all chars = true := by
  induction text generalizing taken with
  | nil =>
    rw [runs, List.mem_singleton, Prod.mk.injEq]
    constructor
    · rintro ⟨rfl, rfl⟩
      exact ⟨rfl, rfl⟩
    · rintro ⟨split, -⟩
      exact List.append_eq_nil_iff.1 split.symm
  | cons c text ih =>
    cases taken with
    | nil =>
      rw [runs]
      split <;> simp [eq_comm]
    | cons d taken =>
      rw [runs]
      by_cases admitted : chars c = true
      · simp only [admitted, if_true, List.mem_append, List.mem_map, List.mem_singleton, Prod.mk.injEq, reduceCtorEq,
          false_and, or_false, Prod.exists, List.cons_append, List.cons.injEq]
        constructor
        · rintro ⟨_, _, found, ⟨rfl, rfl⟩, rfl⟩
          obtain ⟨split, all⟩ := ih.1 found
          exact ⟨⟨rfl, split⟩, by simp [admitted, all]⟩
        · rintro ⟨⟨rfl, split⟩, all⟩
          rw [List.all_cons, Bool.and_eq_true] at all
          exact ⟨taken, after, ih.2 ⟨split, all.2⟩, ⟨rfl, rfl⟩, rfl⟩
      · simp only [admitted, Bool.false_eq_true, if_false, List.mem_singleton, Prod.mk.injEq, reduceCtorEq, false_and,
          List.cons_append, List.cons.injEq, false_iff, not_and]
        rintro ⟨rfl, -⟩ all
        rw [List.all_cons, Bool.and_eq_true] at all
        exact admitted all.1

/-- The longest are tried first. -/
theorem runs_pairwise (chars : Char → Bool) (text : List Char) :
    (runs chars text).Pairwise fun first second => second.1.length < first.1.length := by
  induction text with
  | nil => exact List.pairwise_singleton _ _
  | cons c text ih =>
    rw [runs]
    split
    · refine List.pairwise_append.2 ⟨List.pairwise_map.2 (ih.imp fun shorter => ?_), List.pairwise_singleton _ _, ?_⟩
      · simpa using shorter
      · intro first tried second last
        obtain ⟨split, -, rfl⟩ := List.mem_map.1 tried
        rw [List.mem_singleton.1 last]
        exact Nat.succ_pos _
    · exact List.pairwise_singleton _ _

theorem Item.mem_splits {item : Item} {text taken after : List Char} :
    (taken, after) ∈ item.splits text ↔ text = taken ++ after ∧ item.Takes taken := by
  rw [splits, List.mem_filter, mem_runs, Takes, and_assoc]

/-- In a list sorted by length, the first success is the longest. -/
theorem findSome?_eq_some_iff_longest {β : Type*} {f : List Char × List Char → Option β}
    {splits : List (List Char × List Char)}
    (sorted : splits.Pairwise fun first second => second.1.length < first.1.length) {result : β} :
    splits.findSome? f = some result ↔
      ∃ split ∈ splits, f split = some result ∧ ∀ other ∈ splits, split.1.length < other.1.length → f other = none := by
  induction splits with
  | nil => simp
  | cons first splits ih =>
    obtain ⟨shorter, sorted⟩ := List.pairwise_cons.1 sorted
    rw [List.findSome?_cons]
    cases success : f first with
    | some found =>
      constructor
      · rintro ⟨rfl⟩
        refine ⟨first, List.mem_cons_self, success, fun other member longer => ?_⟩
        rcases List.mem_cons.1 member with rfl | later
        · exact absurd longer (Nat.lt_irrefl _)
        · exact absurd longer (Nat.lt_asymm (shorter other later))
      · rintro ⟨split, member, matched, longest⟩
        rcases List.mem_cons.1 member with rfl | later
        · exact success.symm.trans matched
        · have := longest first List.mem_cons_self (shorter split later)
          rw [success] at this
          cases this
    | none =>
      rw [ih sorted]
      constructor
      · rintro ⟨split, member, matched, longest⟩
        refine ⟨split, List.mem_cons_of_mem _ member, matched, fun other among longer => ?_⟩
        rcases List.mem_cons.1 among with rfl | later
        · exact success
        · exact longest other later longer
      · rintro ⟨split, member, matched, longest⟩
        rcases List.mem_cons.1 member with rfl | later
        · rw [success] at matched
          cases matched
        · exact ⟨split, later, matched, fun other among => longest other (List.mem_cons_of_mem _ among)⟩

/-- **Greed.** The first item takes the longest text it can, as long as the rest matches. -/
theorem regexMatch_cons_eq_some_iff {item : Item} {pattern : Pattern} {text : List Char} {groups : List (List Char)} :
    regexMatch (item :: pattern) text = some groups ↔
      ∃ taken after inner, text = taken ++ after ∧ item.Takes taken ∧ regexMatch pattern after = some inner ∧
        groups = item.capture taken inner ∧
        ∀ more later, text = more ++ later → item.Takes more → taken.length < more.length →
          regexMatch pattern later = none := by
  have sorted := (runs_pairwise item.chars text).filter fun split => item.times.allows split.1.length
  rw [regexMatch, Item.splits, findSome?_eq_some_iff_longest sorted]
  constructor
  · rintro ⟨⟨taken, after⟩, member, matched, longest⟩
    obtain ⟨split, takes⟩ := Item.mem_splits.1 member
    obtain ⟨inner, rest, rfl⟩ := Option.map_eq_some_iff.1 matched
    refine ⟨taken, after, inner, split, takes, rest, rfl, fun more later split' takes' longer => ?_⟩
    simpa using longest (more, later) (Item.mem_splits.2 ⟨split', takes'⟩) longer
  · rintro ⟨taken, after, inner, split, takes, rest, rfl, longest⟩
    refine ⟨(taken, after), Item.mem_splits.2 ⟨split, takes⟩, by simp [rest], ?_⟩
    rintro ⟨more, later⟩ member longer
    obtain ⟨split', takes'⟩ := Item.mem_splits.1 member
    simp [longest more later split' takes' longer]

theorem regexMatch_cons_isSome {item : Item} {pattern : Pattern} {text : List Char} :
    (regexMatch (item :: pattern) text).isSome ↔
      ∃ taken after, text = taken ++ after ∧ item.Takes taken ∧ (regexMatch pattern after).isSome := by
  rw [regexMatch, List.findSome?_isSome_iff]
  constructor
  · rintro ⟨⟨taken, after⟩, member, matched⟩
    obtain ⟨split, takes⟩ := Item.mem_splits.1 member
    exact ⟨taken, after, split, takes, by simpa using matched⟩
  · rintro ⟨taken, after, split, takes, matched⟩
    exact ⟨(taken, after), Item.mem_splits.2 ⟨split, takes⟩, by simpa using matched⟩

/-- **A pattern matches** the texts it describes. -/
theorem regexMatch_isSome_iff {pattern : Pattern} {text : List Char} :
    (regexMatch pattern text).isSome ↔ Matches pattern text := by
  induction pattern generalizing text with
  | nil => simp [regexMatch, Matches]
  | cons item pattern ih => simp only [regexMatch_cons_isSome, Matches, ih]

/-! ## Rules -/

@[simp] theorem regexMatch_nil_eq_some {text : List Char} {groups : List (List Char)} :
    regexMatch [] text = some groups ↔ text = [] ∧ groups = [] := by
  rw [regexMatch]
  cases text <;> simp [eq_comm]

@[simp] theorem takes_lit {c : Char} {taken : List Char} : (Item.lit c).Takes taken ↔ taken = [c] := by
  simp only [Item.Takes, Item.lit, Times.allows, decide_eq_true_eq]
  constructor
  · rintro ⟨all, one⟩
    obtain ⟨d, rfl⟩ := List.length_eq_one_iff.1 one
    simpa using all
  · rintro rfl
    simp

@[simp] theorem takes_plus {chars : Char → Bool} {taken : List Char} :
    (Item.plus chars).Takes taken ↔ taken ≠ [] ∧ taken.all chars = true := by
  simp only [Item.Takes, Item.plus, Times.allows, decide_eq_true_eq, Nat.one_le_iff_ne_zero, ne_eq,
    List.length_eq_zero_iff]
  exact and_comm

@[simp] theorem takes_star {chars : Char → Bool} {taken : List Char} :
    (Item.star chars).Takes taken ↔ taken.all chars = true := by
  simp [Item.Takes, Item.star, Times.allows]

@[simp] theorem takes_group {item : Item} {taken : List Char} : item.group.Takes taken ↔ item.Takes taken := Iff.rfl

@[simp] theorem regexMatch_lit_eq_some {c : Char} {pattern : Pattern} {text : List Char}
    {groups : List (List Char)} :
    regexMatch (.lit c :: pattern) text = some groups ↔
      ∃ after, text = c :: after ∧ regexMatch pattern after = some groups := by
  rw [regexMatch_cons_eq_some_iff]
  constructor
  · rintro ⟨taken, after, inner, split, takes, rest, rfl, -⟩
    rw [takes_lit.1 takes] at split
    exact ⟨after, split, rest⟩
  · rintro ⟨after, rfl, rest⟩
    refine ⟨[c], after, groups, rfl, takes_lit.2 rfl, rest, rfl, fun more later _ takes longer => ?_⟩
    rw [takes_lit.1 takes] at longer
    exact absurd longer (Nat.lt_irrefl _)

theorem regexMatch_literal_eq_some {characters : List Char} {pattern : Pattern} {text : List Char}
    {groups : List (List Char)} :
    regexMatch (literal characters ++ pattern) text = some groups ↔
      ∃ after, text = characters ++ after ∧ regexMatch pattern after = some groups := by
  induction characters generalizing text with
  | nil => simp [literal]
  | cons c characters ih =>
    have split : literal (c :: characters) ++ pattern = .lit c :: (literal characters ++ pattern) := rfl
    rw [split, regexMatch_lit_eq_some]
    constructor
    · rintro ⟨_, rfl, matched⟩
      obtain ⟨after, rfl, rest⟩ := ih.1 matched
      exact ⟨after, rfl, rest⟩
    · rintro ⟨after, rfl, rest⟩
      exact ⟨_, rfl, ih.2 ⟨after, rfl, rest⟩⟩

theorem matches_literal {characters : List Char} {pattern : Pattern} {text : List Char} :
    Matches (literal characters ++ pattern) text ↔ ∃ after, text = characters ++ after ∧ Matches pattern after := by
  simp only [← regexMatch_isSome_iff, Option.isSome_iff_exists, regexMatch_literal_eq_some]
  constructor
  · rintro ⟨groups, after, split, rest⟩
    exact ⟨after, split, groups, rest⟩
  · rintro ⟨after, split, groups, rest⟩
    exact ⟨groups, after, split, rest⟩

theorem matches_literal_end {characters text : List Char} : Matches (literal characters) text ↔ text = characters := by
  have whole : literal characters ++ [] = literal characters := List.append_nil _
  rw [← whole, matches_literal]
  simp [Matches]

@[simp] theorem matches_lit {c : Char} {pattern : Pattern} {text : List Char} :
    Matches (.lit c :: pattern) text ↔ ∃ after, text = c :: after ∧ Matches pattern after := by
  have single : literal [c] ++ pattern = .lit c :: pattern := rfl
  rw [← single, matches_literal]
  rfl

/-- A repetition ends where the class does. -/
theorem regexMatch_cons_of_stop {item : Item} {pattern : Pattern} {taken after : List Char}
    {groups : List (List Char)} (takes : item.Takes taken) (stop : ∀ c ∈ after.head?, item.chars c = false)
    (rest : regexMatch pattern after = some groups) :
    regexMatch (item :: pattern) (taken ++ after) = some (item.capture taken groups) := by
  refine regexMatch_cons_eq_some_iff.2 ⟨taken, after, groups, rfl, takes, rest, rfl,
    fun more later split takes' longer => ?_⟩
  rcases List.append_eq_append_iff.1 split with ⟨extra, rfl, rfl⟩ | ⟨extra, rfl, -⟩
  · -- the first further character is not in the class
    cases extra with
    | nil => simp at longer
    | cons c extra =>
      have admitted : item.chars c = true := List.all_eq_true.1 takes'.1 c (by simp)
      rw [stop c rfl] at admitted
      cases admitted
  · rw [List.length_append] at longer
    omega

theorem regexMatch_group_of_stop {item : Item} {pattern : Pattern} {taken after : List Char}
    {groups : List (List Char)} (takes : item.Takes taken) (stop : ∀ c ∈ after.head?, item.chars c = false)
    (rest : regexMatch pattern after = some groups) :
    regexMatch (item.group :: pattern) (taken ++ after) = some (taken :: groups) :=
  regexMatch_cons_of_stop (takes_group.2 takes) stop rest

/-- A group comes first in the result. -/
theorem of_regexMatch_group {item : Item} {pattern : Pattern} {text : List Char} {groups : List (List Char)}
    (matched : regexMatch (item.group :: pattern) text = some groups) :
    ∃ taken after inner, text = taken ++ after ∧ item.Takes taken ∧ regexMatch pattern after = some inner ∧
      groups = taken :: inner := by
  obtain ⟨taken, after, inner, split, takes, rest, captured, -⟩ := regexMatch_cons_eq_some_iff.1 matched
  exact ⟨taken, after, inner, split, takes_group.1 takes, rest, captured⟩

/-- Without groups, all that counts is whether the pattern matches. -/
theorem regexMatch_of_matches {pattern : Pattern} {text : List Char}
    (plain : ∀ item ∈ pattern, item.captured = false) (matched : Matches pattern text) :
    regexMatch pattern text = some [] := by
  obtain ⟨groups, found⟩ := Option.isSome_iff_exists.1 (regexMatch_isSome_iff.2 matched)
  have none : groups = [] := by
    clear matched
    induction pattern generalizing text groups with
    | nil => exact (regexMatch_nil_eq_some.1 found).2
    | cons item pattern ih =>
      obtain ⟨taken, after, inner, -, -, rest, rfl, -⟩ := regexMatch_cons_eq_some_iff.1 found
      rw [Item.capture, plain item List.mem_cons_self]
      exact ih (fun other member => plain other (List.mem_cons_of_mem _ member)) inner rest
  rw [found, none]

end Text
