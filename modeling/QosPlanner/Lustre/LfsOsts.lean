import QosPlanner.Lustre.Parsers

/-!
# The OST list

`ParseOstsFromLfsOsts` reads back what `lfs osts` prints, and takes nothing else for an
OST: each result comes from a line `<number>: <uuid> <status>`.
-/

namespace QosPlanner
set_option autoImplicit false

open Text

namespace Lustre

/-- A number, a uuid and a status as `lfs osts` prints them. -/
structure IsOst (r : GetOstsResults) : Prop where
  some_digit : r.number.toList ≠ []
  digits : r.number.toList.all Char.isDigit = true
  some_char : r.uuid.toList ≠ []
  uuid : r.uuid.toList.all uuidChar = true
  some_letter : r.status.toList ≠ []
  status : r.status.toList.all Char.isAlphanum = true

/-- The line of an OST. -/
def ostLine (r : GetOstsResults) : List Char :=
  r.number.toList ++ ([':', ' '] ++ (r.uuid.toList ++ ([' '] ++ r.status.toList)))

/-- What `lfs osts` prints. -/
def printOsts (osts : List GetOstsResults) : String :=
  .ofList (printLines ("OBDS::".toList :: osts.map ostLine))

/-- **One line**, in both directions. -/
theorem lfsOstsLine_eq_some_iff {line : List Char} {r : GetOstsResults} :
    lfsOstsLine line = some r ↔ IsOst r ∧ line = ostLine r := by
  constructor
  · intro read
    rw [lfsOstsLine] at read
    split at read
    · rename_i number uuid status matched
      obtain ⟨_, _, _, rfl, isNumber, colon, same⟩ := of_regexMatch_group matched
      obtain ⟨_, rfl, second⟩ := regexMatch_literal_eq_some.1 colon
      obtain ⟨_, _, _, rfl, isUuid, blank, rfl⟩ := of_regexMatch_group second
      obtain ⟨_, rfl, third⟩ := regexMatch_literal_eq_some.1 blank
      obtain ⟨_, _, _, rfl, isStatus, last, rfl⟩ := of_regexMatch_group third
      obtain ⟨rfl, rfl⟩ := regexMatch_nil_eq_some.1 last
      cases same
      cases read
      rw [takes_plus] at isNumber isUuid isStatus
      refine ⟨⟨?_, ?_, ?_, ?_, ?_, ?_⟩, by simp [ostLine]⟩ <;> simp only [String.toList_ofList]
      · exact isNumber.1
      · exact isNumber.2
      · exact isUuid.1
      · exact isUuid.2
      · exact isStatus.1
      · exact isStatus.2
    · cases read
  · rintro ⟨is_ost, rfl⟩
    have third : regexMatch [(Item.plus Char.isAlphanum).group] (r.status.toList ++ []) = some [r.status.toList] :=
      regexMatch_group_of_stop (takes_plus.2 ⟨is_ost.some_letter, is_ost.status⟩) (by simp) rfl
    rw [List.append_nil] at third
    have second : regexMatch ((Item.plus uuidChar).group :: (literal [' '] ++ [(Item.plus Char.isAlphanum).group]))
        (r.uuid.toList ++ ([' '] ++ r.status.toList)) = some [r.uuid.toList, r.status.toList] :=
      regexMatch_group_of_stop (takes_plus.2 ⟨is_ost.some_char, is_ost.uuid⟩) (by simp [Item.plus, uuidChar])
        (regexMatch_literal_eq_some.2 ⟨_, rfl, third⟩)
    have first : regexMatch lfsOstsRegex (ostLine r) = some [r.number.toList, r.uuid.toList, r.status.toList] :=
      regexMatch_group_of_stop (takes_plus.2 ⟨is_ost.some_digit, is_ost.digits⟩) (by simp [Item.plus])
        (regexMatch_literal_eq_some.2 ⟨_, rfl, second⟩)
    simp [lfsOstsLine, first]

/-- A printed line is one line. -/
theorem newline_notMem_ostLine {r : GetOstsResults} (is_ost : IsOst r) : '\n' ∉ ostLine r := by
  have digit := List.all_eq_true.1 is_ost.digits '\n'
  have char := List.all_eq_true.1 is_ost.uuid '\n'
  have letter := List.all_eq_true.1 is_ost.status '\n'
  simp only [ostLine, List.mem_append, not_or]
  exact ⟨fun member => absurd (digit member) (by decide), by decide,
    fun member => absurd (char member) (by decide), by decide, fun member => absurd (letter member) (by decide)⟩

theorem lfsOstsLine_header : lfsOstsLine "OBDS::".toList = none := by decide

theorem lfsOstsLine_nil : lfsOstsLine [] = none := by decide

/-- The lines of a printed list. -/
theorem getlines_printOsts {osts : List GetOstsResults} (are_osts : ∀ r ∈ osts, IsOst r) :
    getlines (printOsts osts).toList = "OBDS::".toList :: osts.map ostLine := by
  have lines : ∀ line ∈ "OBDS::".toList :: osts.map ostLine, '\n' ∉ line := by
    intro line member
    rcases List.mem_cons.1 member with rfl | later
    · decide
    · obtain ⟨r, listed, rfl⟩ := List.mem_map.1 later
      exact newline_notMem_ostLine (are_osts r listed)
  rw [printOsts, String.toList_ofList, getlines_printLines lines]

/-- They are read as the list. -/
theorem filterMap_getlines_printOsts {osts : List GetOstsResults} (are_osts : ∀ r ∈ osts, IsOst r) :
    (getlines (printOsts osts).toList).filterMap lfsOstsLine = osts := by
  have each : ∀ r ∈ osts, (lfsOstsLine ∘ ostLine) r = some r :=
    fun r listed => lfsOstsLine_eq_some_iff.2 ⟨are_osts r listed, rfl⟩
  rw [getlines_printOsts are_osts, List.filterMap_cons_none lfsOstsLine_header, List.filterMap_map,
    List.filterMap_congr each, List.filterMap_some]

/-- What is read from lines was printed in lines among them. -/
theorem map_ostLine_sublist (lines : List (List Char)) :
    ((lines.filterMap lfsOstsLine).map ostLine).Sublist lines := by
  induction lines with
  | nil => exact List.Sublist.slnil
  | cons line lines ih =>
    cases found : lfsOstsLine line with
    | none => simpa [found] using ih.cons line
    | some r =>
      obtain ⟨-, rfl⟩ := lfsOstsLine_eq_some_iff.1 found
      simpa [found] using ih.cons_cons (ostLine r)

/-- **The OST list is read back** from what `lfs osts` prints, with or without the last
newline; and in any text, each result comes from a line of its own that has exactly the
printed form. -/
theorem lfs_osts_round_trip (out : List GetOstsResults) :
    (∀ osts : List GetOstsResults, (∀ r ∈ osts, IsOst r) →
      ∀ text : String, text = printOsts osts ∨ text ++ "\n" = printOsts osts →
        parseOstsFromLfsOsts text out = out ++ osts) ∧
    (∀ text : String, ∃ osts, parseOstsFromLfsOsts text out = out ++ osts ∧
      (∀ r ∈ osts, IsOst r) ∧ (osts.map ostLine).Sublist (getlines text.toList)) := by
  constructor
  · intro osts are_osts text printed
    have whole := filterMap_getlines_printOsts are_osts
    rw [parseOstsFromLfsOsts]
    rcases printed with rfl | unended
    · rw [whole]
    · rw [← filterMap_getlines_snoc_newline lfsOstsLine_nil, ← whole, ← unended]
      simp
  · intro text
    refine ⟨_, rfl, fun r read => ?_, map_ostLine_sublist _⟩
    obtain ⟨line, -, found⟩ := List.mem_filterMap.1 read
    exact (lfsOstsLine_eq_some_iff.1 found).1

/-- The list of two OSTs, without the last newline. -/
theorem lfs_osts_two_osts :
    parseOstsFromLfsOsts "OBDS::\n0: lustret4-OST0000_UUID ACTIVE\n1: lustret4-OST0001_UUID ACTIVE" [] =
      [⟨"0", "lustret4-OST0000_UUID", "ACTIVE"⟩, ⟨"1", "lustret4-OST0001_UUID", "ACTIVE"⟩] := by
  have trip := (lfs_osts_round_trip []).1
    [⟨"0", "lustret4-OST0000_UUID", "ACTIVE"⟩, ⟨"1", "lustret4-OST0001_UUID", "ACTIVE"⟩]
  refine trip ?_ _ (Or.inr (by decide))
  intro r listed
  fin_cases listed <;> constructor <;> decide

end Lustre

end QosPlanner
