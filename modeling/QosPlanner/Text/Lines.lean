import QosPlanner.Text.Fields

/-!
# Lines

Reading a text line by line, as a loop of `std::getline` does: a line ends at a newline,
which is dropped, and a text that does not end with a newline has one more line, if
anything is left. Printing lines, each with its newline, is undone by it; for a reader
that skips empty lines the last newline can be missing.
-/

namespace Text
set_option autoImplicit false

variable {β : Type*}

/-- The lines that a loop of `std::getline` reads. -/
def getlines : List Char → List (List Char)
  | [] => []
  | c :: text =>
    if c = '\n' then [] :: getlines text
    else
      match getlines text with
      | [] => [[c]]
      | line :: lines => (c :: line) :: lines

/-- The lines as text, each with a newline. -/
def printLines (lines : List (List Char)) : List Char := lines.flatMap (· ++ ['\n'])

@[simp] theorem getlines_nil : getlines [] = [] := rfl

@[simp] theorem getlines_newline (text : List Char) : getlines ('\n' :: text) = [] :: getlines text := by
  simp [getlines]

@[simp] theorem printLines_nil : printLines [] = [] := rfl

@[simp] theorem printLines_cons (line : List Char) (lines : List (List Char)) :
    printLines (line :: lines) = line ++ '\n' :: printLines lines := by
  simp [printLines]

/-- Lines are fields that end at a newline. -/
theorem getlines_eq_fields (text : List Char) : getlines text = fields '\n' text := by
  induction text with
  | nil => rfl
  | cons c text ih =>
    rw [getlines, fields, ih]
    split
    · rfl
    · cases fields '\n' text <;> rfl

/-- A line up to its newline. -/
theorem getlines_line {line : List Char} (whole : '\n' ∉ line) (text : List Char) :
    getlines (line ++ '\n' :: text) = line :: getlines text := by
  rw [getlines_eq_fields, getlines_eq_fields, fields_field whole]

/-- **Printed lines are read back.** -/
theorem getlines_printLines_append {lines : List (List Char)} (whole : ∀ line ∈ lines, '\n' ∉ line)
    (text : List Char) : getlines (printLines lines ++ text) = lines ++ getlines text := by
  induction lines with
  | nil => rfl
  | cons line lines ih =>
    have rest := ih fun other member => whole other (List.mem_cons_of_mem _ member)
    rw [printLines_cons, List.append_assoc, List.cons_append, getlines_line (whole line List.mem_cons_self), rest]
    rfl

theorem getlines_printLines {lines : List (List Char)} (whole : ∀ line ∈ lines, '\n' ∉ line) :
    getlines (printLines lines) = lines := by
  simpa using getlines_printLines_append whole []

/-- The same for items printed in a line each. -/
theorem getlines_printLines_map {items : List β} {text : β → List Char} (whole : ∀ item ∈ items, '\n' ∉ text item) :
    getlines (printLines (items.map text)) = items.map text := by
  apply getlines_printLines
  intro line member
  obtain ⟨item, listed, rfl⟩ := List.mem_map.1 member
  exact whole item listed

/-- A newline at the end adds at most an empty line. -/
theorem getlines_snoc_newline (text : List Char) :
    getlines (text ++ ['\n']) = getlines text ∨ getlines (text ++ ['\n']) = getlines text ++ [[]] := by
  induction text with
  | nil => exact Or.inr (by simp)
  | cons c text ih =>
    rw [List.cons_append, getlines, getlines]
    by_cases newline : c = '\n'
    · simpa [newline] using ih
    · rw [if_neg newline, if_neg newline]
      rcases ih with same | more
      · left
        rw [same]
      · rw [more]
        cases found : getlines text with
        | nil => exact Or.inl rfl
        | cons line lines => exact Or.inr rfl

/-- **The last newline** makes no difference to a reader that skips empty lines. -/
theorem filterMap_getlines_snoc_newline {f : List Char → Option β} (skips : f [] = none) (text : List Char) :
    (getlines (text ++ ['\n'])).filterMap f = (getlines text).filterMap f := by
  rcases getlines_snoc_newline text with same | more
  · rw [same]
  · rw [more, List.filterMap_append]
    simp [skips]

end Text
