import Mathlib

/-!
# Fields

Reading a text field by field, as a loop of `std::getline` with a delimiter does: a field
ends at a delimiter, which is dropped, and a text that does not end with a delimiter has
one more field, if anything is left. So reading undoes joining unless the last field is
empty or some field contains the delimiter.
-/

namespace Text
set_option autoImplicit false

/-- The fields that a loop of `std::getline` with a delimiter reads. -/
def fields (delim : Char) : List Char → List (List Char)
  | [] => []
  | c :: text =>
    if c = delim then [] :: fields delim text
    else
      let rest := fields delim text
      (c :: rest.headD []) :: rest.tail

variable {delim : Char}

@[simp] theorem fields_nil : fields delim [] = [] := rfl

@[simp] theorem fields_delim (text : List Char) : fields delim (delim :: text) = [] :: fields delim text := by
  simp [fields]

theorem fields_eq_nil {text : List Char} : fields delim text = [] ↔ text = [] := by
  cases text with
  | nil => simp
  | cons c text =>
    rw [fields]
    split <;> simp

/-- A character that is no delimiter stands at the head of the first field. -/
theorem fields_cons_of_ne {c : Char} (ordinary : c ≠ delim) (text : List Char) :
    fields delim (c :: text) = (c :: (fields delim text).headD []) :: (fields delim text).tail := by
  rw [fields, if_neg ordinary]

/-- A field up to its delimiter. -/
theorem fields_field {field : List Char} (whole : delim ∉ field) (text : List Char) :
    fields delim (field ++ delim :: text) = field :: fields delim text := by
  induction field with
  | nil => simp
  | cons c field ih =>
    obtain ⟨other, rest⟩ := List.ne_and_not_mem_of_not_mem_cons whole
    rw [List.cons_append, fields_cons_of_ne (Ne.symm other), ih rest]
    rfl

/-- The last field has no delimiter behind it, and is not empty. -/
theorem fields_last {field : List Char} (whole : delim ∉ field) (some : field ≠ []) :
    fields delim field = [field] := by
  induction field with
  | nil => exact absurd rfl some
  | cons c field ih =>
    obtain ⟨other, rest⟩ := List.ne_and_not_mem_of_not_mem_cons whole
    rw [fields_cons_of_ne (Ne.symm other)]
    cases field with
    | nil => rfl
    | cons _ _ => rw [ih rest (by simp)]; rfl

/-- **Joined fields are read back**, if none contains the delimiter and the last one is
not empty. -/
theorem fields_intercalate {names : List (List Char)} (whole : ∀ name ∈ names, delim ∉ name)
    (last : names.getLast? ≠ some []) : fields delim (List.intercalate [delim] names) = names := by
  induction names with
  | nil => simp
  | cons name names ih =>
    have here := whole name List.mem_cons_self
    cases names with
    | nil =>
      rw [List.intercalate_singleton]
      exact fields_last here fun empty => last (by rw [empty]; rfl)
    | cons next rest =>
      rw [List.intercalate_cons_cons, List.append_assoc, List.singleton_append, fields_field here,
        ih (fun other member => whole other (List.mem_cons_of_mem _ member)) (by simpa using last)]

/-- No field contains the delimiter. -/
theorem not_mem_of_mem_fields {text field : List Char} (member : field ∈ fields delim text) : delim ∉ field := by
  induction text generalizing field with
  | nil => cases member
  | cons c text ih =>
    by_cases same : c = delim
    · subst same
      rw [fields_delim] at member
      rcases List.mem_cons.1 member with rfl | rest
      · exact List.not_mem_nil
      · exact ih rest
    · rw [fields_cons_of_ne same] at member
      rcases List.mem_cons.1 member with rfl | rest
      · rw [List.mem_cons, not_or]
        refine ⟨Ne.symm same, ?_⟩
        cases found : fields delim text with
        | nil => exact List.not_mem_nil
        | cons first others => exact ih (by rw [found]; exact List.mem_cons_self)
      · exact ih (List.mem_of_mem_tail rest)

/-- Behind the first field an empty one stands between two delimiters. -/
theorem nil_mem_tail_fields_iff {text : List Char} :
    ([] ∈ (fields delim text).tail ↔ [delim, delim] <:+: text) ∧
      ([] ∈ fields delim text ↔ [delim] <+: text ∨ [delim, delim] <:+: text) := by
  induction text with
  | nil => simp
  | cons c text ih =>
    by_cases same : c = delim
    · subst same
      rw [fields_delim, List.tail_cons, ih.2, List.infix_cons_iff]
      simp [List.cons_prefix_cons]
    · rw [fields_cons_of_ne same, List.tail_cons, List.mem_cons, ih.1, List.infix_cons_iff]
      simp [List.cons_prefix_cons, Ne.symm same]

/-- **Empty fields.** A text has one iff it starts with a delimiter or two stand together. -/
theorem nil_mem_fields_iff {text : List Char} :
    [] ∈ fields delim text ↔ [delim] <+: text ∨ [delim, delim] <:+: text :=
  nil_mem_tail_fields_iff.2

end Text
