import Mathlib

/-!
# Maps filled from a list

A loop that inserts an entry for each element of a list into a map. Where two elements have
the same key the later one wins, so a lookup finds the last element with its key, and what
the map held before only where there is none.
-/

namespace Map
set_option autoImplicit false

variable {ι κ ν : Type*}

section Last

variable [DecidableEq κ] (key : ι → κ)

/-- The last element with a key. -/
def lastWith (list : List ι) (k : κ) : Option ι := list.reverse.find? (key · = k)

theorem lastWith_snoc (list : List ι) (a : ι) (k : κ) :
    lastWith key (list ++ [a]) k = if key a = k then some a else lastWith key list k := by
  by_cases same : key a = k <;> simp [lastWith, same]

variable {key}

theorem of_lastWith_eq_some {list : List ι} {k : κ} {a : ι} (last : lastWith key list k = some a) :
    a ∈ list ∧ key a = k := by
  constructor
  · simpa using List.mem_of_find?_eq_some last
  · simpa using List.find?_some last

theorem lastWith_eq_none {list : List ι} {k : κ} : lastWith key list k = none ↔ ∀ a ∈ list, key a ≠ k := by
  simp [lastWith]

end Last

variable {cmp : κ → κ → Ordering} [Std.TransCmp cmp] (key : ι → κ) (val : ι → ν)

/-- The map after an entry for each element, in order. -/
def insertAll (map : Std.ExtTreeMap κ ν cmp) (list : List ι) : Std.ExtTreeMap κ ν cmp :=
  list.foldl (fun map a => map.insert (key a) (val a)) map

theorem insertAll_snoc (map : Std.ExtTreeMap κ ν cmp) (list : List ι) (a : ι) :
    insertAll key val map (list ++ [a]) = (insertAll key val map list).insert (key a) (val a) := by
  simp [insertAll]

/-- **A lookup** finds the last element with the key. -/
theorem getElem?_insertAll [Std.LawfulEqCmp cmp] [DecidableEq κ] (map : Std.ExtTreeMap κ ν cmp) (list : List ι)
    (k : κ) : (insertAll key val map list)[k]? = ((lastWith key list k).map val).or map[k]? := by
  induction list using List.reverseRecOn with
  | nil => rfl
  | append_singleton list a ih =>
    rw [insertAll_snoc, lastWith_snoc, Std.ExtTreeMap.getElem?_insert, ih]
    by_cases same : key a = k <;> simp [same]

end Map
