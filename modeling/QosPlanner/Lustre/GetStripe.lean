import QosPlanner.Lustre.Parsers

/-!
# The OSTs of a file

`ParseOstsFromGetStripe` reads the rows that `lfs getstripe` prints for a file. The pattern
takes the blanks before the index with a greedy `.+`, which stands directly before the group
for the index and so takes all of its digits but the last.
-/

namespace QosPlanner
set_option autoImplicit false

open Text

namespace Lustre

/-- A row: the index of an OST, the object id twice, and the group, each with blanks before it. -/
structure StripeRow where
  obdidx : Nat
  objid : Nat
  hexObjid : Nat
  group : Nat
  /-- Blanks before the index, besides one. -/
  obdidxBlanks : Nat
  objidBlanks : Nat
  hexBlanks : Nat
  groupBlanks : Nat
  deriving DecidableEq, Repr

/-- The words of the title line `obdidx objid objid group`, with any blanks and tabs between. -/
def IsTitle (line : List Char) : Prop :=
  (line.filter fun c => c != ' ' && c != '\t') = "obdidxobjidobjidgroup".toList

/-- A line without a tab, or the title line. -/
structure HeaderLine where
  text : List Char
  whole : '\n' ∉ text
  header : '\t' ∉ text ∨ IsTitle text

inductive StripeLine where
  | header (line : HeaderLine)
  | row (row : StripeRow)

def blanks (n : Nat) : List Char := List.replicate n ' '

/-- The text of a row. -/
def StripeRow.text (r : StripeRow) : List Char :=
  '\t' :: (blanks (r.obdidxBlanks + 1) ++ Nat.toDigits 10 r.obdidx ++
    '\t' :: (blanks r.objidBlanks ++ Nat.toDigits 10 r.objid ++
      '\t' :: (blanks r.hexBlanks ++ ['0', 'x'] ++ Nat.toDigits 16 r.hexObjid ++
        '\t' :: (blanks r.groupBlanks ++ Nat.toDigits 10 r.group))))

namespace StripeLine

def text : StripeLine → List Char
  | .header line => line.text
  | .row r => r.text

def row? : StripeLine → Option StripeRow
  | .header _ => none
  | .row r => some r

end StripeLine

/-- What `lfs getstripe` prints. -/
def printStripes (lines : List StripeLine) : String := .ofList (printLines (lines.map StripeLine.text))

/-! ## Cells -/

/-- What stands between two tabs. -/
structure IsCell (cell : List Char) : Prop where
  some_char : cell ≠ []
  any : cell.all anyChar = true
  tab : '\t' ∉ cell

theorem digitChar_cell {d : Nat} (small : d < 16) : anyChar d.digitChar = true ∧ d.digitChar ≠ '\t' := by
  interval_cases d <;> decide

theorem mem_toDigits {b n : Nat} (base : 1 < b) {c : Char} (member : c ∈ Nat.toDigits b n) :
    ∃ d < b, c = d.digitChar := by
  induction n using Nat.strongRecOn with
  | ind n ih =>
    rw [Nat.toDigits_eq_if base] at member
    split at member
    · exact ⟨n, ‹n < b›, List.mem_singleton.1 member⟩
    · rename_i large
      rcases List.mem_append.1 member with front | last
      · exact ih (n / b) (Nat.div_lt_self (by omega) base) front
      · exact ⟨n % b, Nat.mod_lt _ (by omega), List.mem_singleton.1 last⟩

theorem isCell_number {b n : Nat} (base : 1 < b) (small : b ≤ 16) : IsCell (Nat.toDigits b n) where
  some_char := Nat.toDigits_ne_nil
  any := List.all_eq_true.2 fun c member => by
    obtain ⟨d, below, rfl⟩ := mem_toDigits base member
    exact (digitChar_cell (below.trans_le small)).1
  tab member := by
    obtain ⟨d, below, same⟩ := mem_toDigits base member
    exact (digitChar_cell (below.trans_le small)).2 same.symm

theorem IsCell.blanks_append {cell : List Char} (isCell : IsCell cell) (n : Nat) : IsCell (blanks n ++ cell) where
  some_char := List.append_ne_nil_of_right_ne_nil _ isCell.some_char
  any := by
    rw [List.all_append, isCell.any, Bool.and_true, List.all_eq_true]
    intro c member
    rw [List.eq_of_mem_replicate member]
    decide
  tab member := by
    rcases List.mem_append.1 member with blank | inside
    · exact absurd (List.eq_of_mem_replicate blank) (by decide)
    · exact isCell.tab inside

/-! ## Which lines match -/

/-- The pattern from the index on: it starts at a digit and needs three tabs. -/
theorem of_matches_index {text : List Char} (matched : Matches (getStripeRegex.drop 2) text) :
    (∃ c after, text = c :: after ∧ c.isDigit = true) ∧ 3 ≤ text.count '\t' := by
  obtain ⟨index, _, rfl, isIndex, rest⟩ := matched
  obtain ⟨_, rfl, cell, _, rfl, -, rest⟩ := matches_lit.1 rest
  obtain ⟨_, rfl, cell', _, rfl, -, rest⟩ := matches_lit.1 rest
  obtain ⟨_, rfl, -⟩ := matches_lit.1 rest
  rw [takes_group, takes_plus] at isIndex
  constructor
  · obtain ⟨c, more, rfl⟩ := List.exists_cons_of_ne_nil isIndex.1
    exact ⟨c, _, rfl, List.all_eq_true.1 isIndex.2 c List.mem_cons_self⟩
  · simp only [List.count_append, List.count_cons_self]
    omega

/-- A line that matches has a tab and a digit. -/
theorem of_matches_getStripe {line : List Char} (matched : Matches getStripeRegex line) :
    '\t' ∈ line ∧ ∃ c ∈ line, c.isDigit = true := by
  obtain ⟨_, rfl, front, rest, rfl, -, index⟩ := matches_lit.1 matched
  obtain ⟨⟨c, after, rfl, digit⟩, -⟩ := of_matches_index index
  exact ⟨List.mem_cons_self, c, by simp, digit⟩

theorem getStripeLine_header (line : HeaderLine) : getStripeLine line.text = none := by
  have unmatched : ¬ Matches getStripeRegex line.text := by
    intro matched
    obtain ⟨tab, c, member, digit⟩ := of_matches_getStripe matched
    refine line.header.elim (fun no_tab => no_tab tab) fun title => ?_
    have kept : c ∈ line.text.filter fun c => c != ' ' && c != '\t' := by
      refine List.mem_filter.2 ⟨member, ?_⟩
      rw [Bool.and_eq_true, bne_iff_ne, bne_iff_ne]
      constructor <;> rintro rfl <;> cases digit
    rw [title] at kept
    have letters : ∀ c ∈ "obdidxobjidobjidgroup".toList, c.isDigit = false := by simp
    rw [letters c kept] at digit
    cases digit
  rw [← regexMatch_isSome_iff, Option.not_isSome_iff_eq_none] at unmatched
  rw [getStripeLine, unmatched]

/-- Behind the last digit of the index, the rest of the pattern does not match: it starts at a
digit, so behind the second tab, where two tabs are left. -/
theorem not_matches_index {front objid hexObjid group more later : List Char} {d : Char} (isObjid : IsCell objid)
    (isHex : IsCell hexObjid) (isGroup : IsCell group)
    (split : front ++ d :: '\t' :: (objid ++ '\t' :: (hexObjid ++ '\t' :: group)) = more ++ later)
    (longer : front.length < more.length) : ¬ Matches (getStripeRegex.drop 2) later := by
  intro matched
  obtain ⟨⟨c, after, rfl, isDigit⟩, tabs⟩ := of_matches_index matched
  rcases List.append_eq_append_iff.1 split with ⟨extra, rfl, split'⟩ | ⟨extra, rfl, -⟩
  · have further : extra ≠ [] := by
      rintro rfl
      simp at longer
    obtain ⟨_, extra, rfl⟩ := List.exists_cons_of_ne_nil further
    obtain ⟨rfl, split''⟩ := List.cons.inj split'
    cases extra with
    | nil =>
      obtain ⟨rfl, -⟩ := List.cons.inj split''
      cases isDigit
    | cons _ extra =>
      have behind : objid ++ '\t' :: (hexObjid ++ '\t' :: group) = extra ++ c :: after := (List.cons.inj split'').2
      have counted := congrArg (List.count '\t') behind
      simp only [List.count_append, List.count_cons_self, List.count_eq_zero.2 isObjid.tab,
        List.count_eq_zero.2 isHex.tab, List.count_eq_zero.2 isGroup.tab] at counted tabs
      omega
  · rw [List.length_append] at longer
    omega

/-- **The greedy `.+`** takes everything before the last digit of the index. -/
theorem regexMatch_row {front objid hexObjid group : List Char} {d : Char} (some_char : front ≠ [])
    (any : front.all anyChar = true) (digit : d.isDigit = true) (isObjid : IsCell objid) (isHex : IsCell hexObjid)
    (isGroup : IsCell group) :
    regexMatch getStripeRegex
      ('\t' :: (front ++ d :: '\t' :: (objid ++ '\t' :: (hexObjid ++ '\t' :: group)))) = some [[d]] := by
  have tail : Matches (getStripeRegex.drop 3) ('\t' :: (objid ++ '\t' :: (hexObjid ++ '\t' :: group))) :=
    matches_lit.2 ⟨_, rfl, objid, _, rfl, takes_plus.2 ⟨isObjid.some_char, isObjid.any⟩,
      matches_lit.2 ⟨_, rfl, hexObjid, _, rfl, takes_plus.2 ⟨isHex.some_char, isHex.any⟩,
        matches_lit.2 ⟨_, rfl, group, [], by simp, takes_star.2 isGroup.any, rfl⟩⟩⟩
  have rest : regexMatch (getStripeRegex.drop 3)
      ('\t' :: (objid ++ '\t' :: (hexObjid ++ '\t' :: group))) = some [] :=
    regexMatch_of_matches (by simp [getStripeRegex, Item.lit, Item.plus, Item.star]) tail
  have index : regexMatch (getStripeRegex.drop 2)
      ([d] ++ '\t' :: (objid ++ '\t' :: (hexObjid ++ '\t' :: group))) = some [[d]] :=
    regexMatch_group_of_stop (takes_plus.2 ⟨List.cons_ne_nil _ _, by simp [digit]⟩) (by simp [Item.plus]) rest
  refine regexMatch_lit_eq_some.2 ⟨_, rfl, regexMatch_cons_eq_some_iff.2 ⟨front, _, _, rfl,
    takes_plus.2 ⟨some_char, any⟩, index, rfl, fun more later split _ longer => ?_⟩⟩
  rw [← Option.not_isSome_iff_eq_none, regexMatch_isSome_iff]
  exact not_matches_index isObjid isHex isGroup split longer

/-- The digits of a number, the last one apart. -/
theorem toDigits_eq_snoc (n : Nat) : ∃ front, Nat.toDigits 10 n = front ++ [(n % 10).digitChar] := by
  rw [Nat.toDigits_eq_if (by decide)]
  split
  · rename_i small
    exact ⟨[], by rw [Nat.mod_eq_of_lt small, List.nil_append]⟩
  · exact ⟨_, rfl⟩

/-- **A row** is read as the last digit of its index. -/
theorem getStripeLine_row (r : StripeRow) :
    getStripeLine r.text = some (.ofList [(r.obdidx % 10).digitChar]) := by
  obtain ⟨front, digits⟩ := toDigits_eq_snoc r.obdidx
  have index : IsCell (Nat.toDigits 10 r.obdidx) := isCell_number (by decide) (by decide)
  have before : (blanks (r.obdidxBlanks + 1) ++ front).all anyChar = true := by
    have any := (index.blanks_append (r.obdidxBlanks + 1)).any
    rw [digits, ← List.append_assoc, List.all_append, Bool.and_eq_true] at any
    exact any.1
  have digit : (r.obdidx % 10).digitChar.isDigit = true := by
    rw [Nat.isDigit_digitChar, decide_eq_true_eq]
    omega
  have prefixed : IsCell (blanks r.hexBlanks ++ (['0', 'x'] ++ Nat.toDigits 16 r.hexObjid)) := by
    have hex : IsCell (Nat.toDigits 16 r.hexObjid) := isCell_number (by decide) (by decide)
    refine IsCell.blanks_append ⟨by simp, ?_, ?_⟩ _
    · simpa [hex.any] using by decide
    · simpa using hex.tab
  have some_blank : blanks (r.obdidxBlanks + 1) ++ front ≠ [] := by simp [blanks]
  have objid : IsCell (Nat.toDigits 10 r.objid) := isCell_number (by decide) (by decide)
  have group : IsCell (Nat.toDigits 10 r.group) := isCell_number (by decide) (by decide)
  have matched := regexMatch_row some_blank before digit (objid.blanks_append r.objidBlanks) prefixed
    (group.blanks_append r.groupBlanks)
  have text : r.text = '\t' :: (blanks (r.obdidxBlanks + 1) ++ front ++ (r.obdidx % 10).digitChar :: '\t' ::
      (blanks r.objidBlanks ++ Nat.toDigits 10 r.objid ++ '\t' ::
        (blanks r.hexBlanks ++ (['0', 'x'] ++ Nat.toDigits 16 r.hexObjid) ++ '\t' ::
          (blanks r.groupBlanks ++ Nat.toDigits 10 r.group)))) := by
    simp [StripeRow.text, digits]
  rw [getStripeLine, text, matched]

theorem getStripeLine_text (line : StripeLine) :
    getStripeLine line.text = line.row?.map fun r => .ofList [(r.obdidx % 10).digitChar] := by
  cases line with
  | header line => exact getStripeLine_header line
  | row r => exact getStripeLine_row r

/-- Each line is one line. -/
theorem newline_notMem_text (line : StripeLine) : '\n' ∉ line.text := by
  cases line with
  | header line => exact line.whole
  | row r =>
    have digits : ∀ n, '\n' ∉ Nat.toDigits 10 n :=
      fun _ => newline_notMem_of_anyChar (isCell_number (by decide) (by decide)).any
    have hex : '\n' ∉ Nat.toDigits 16 r.hexObjid :=
      newline_notMem_of_anyChar (isCell_number (by decide) (by decide)).any
    simp [StripeLine.text, StripeRow.text, blanks, digits, hex]

/-- A number is its last digit iff it has no other. -/
theorem toString_eq_lastDigit_iff (n : Nat) : String.ofList [(n % 10).digitChar] = toString n ↔ n < 10 := by
  rw [Nat.toString_eq_ofList_toDigits, String.ofList_inj]
  constructor
  · intro same
    have short : (Nat.toDigits 10 n).length ≤ 1 := by rw [← same]; exact Nat.le_refl 1
    exact (Nat.length_toDigits_le_iff (by decide) (by decide)).1 short
  · intro small
    rw [Nat.toDigits_of_lt_base small, Nat.mod_eq_of_lt small]

/-- **What is read of the stripes of a file**: the last digit of each index. -/
theorem parseOstsFromGetStripe_printStripes (lines : List StripeLine) (osts : List Ost) :
    parseOstsFromGetStripe (printStripes lines) osts =
      osts ++ (lines.filterMap StripeLine.row?).map fun r => .ofList [(r.obdidx % 10).digitChar] := by
  have each : getStripeLine ∘ StripeLine.text =
      fun line => line.row?.map fun r => .ofList [(r.obdidx % 10).digitChar] := funext getStripeLine_text
  rw [parseOstsFromGetStripe, printStripes, String.toList_ofList,
    getlines_printLines_map fun line _ => newline_notMem_text line, List.filterMap_map, each, List.map_filterMap]

/-- **The indexes are read** iff each of them has one digit only. -/
theorem stripes_read_iff (lines : List StripeLine) (osts : List Ost) :
    parseOstsFromGetStripe (printStripes lines) osts =
        osts ++ (lines.filterMap StripeLine.row?).map (fun r => toString r.obdidx) ↔
      ∀ r ∈ lines.filterMap StripeLine.row?, r.obdidx < 10 := by
  rw [parseOstsFromGetStripe_printStripes, List.append_cancel_left_eq, List.map_inj_left]
  simp only [toString_eq_lastDigit_iff]

/-- OST 10 is read as OST 0. -/
theorem stripe_index_truncated :
    let lines : List StripeLine := [.header ⟨"\tobdidx\t\t objid\t\t objid\t\t group".toList, by decide, Or.inr rfl⟩,
      .row ⟨10, 2, 2, 0, 4, 13, 10, 13⟩]
    parseOstsFromGetStripe (printStripes lines) [] = ["0"] ∧
      parseOstsFromGetStripe (printStripes lines) [] ≠
        (lines.filterMap StripeLine.row?).map fun r => toString r.obdidx := by
  decide +kernel

end Lustre

end QosPlanner
