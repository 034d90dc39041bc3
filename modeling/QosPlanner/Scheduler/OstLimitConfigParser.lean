import QosPlanner.Json.Value
import QosPlanner.Scheduler.StaticWorkloads

/-!
# The file with the OST limits

`OSTLimitConfigParser` (`src/common/OSTLimitConfigParser.cpp`) reads the limits of the
scheduler from a JSON array. As in the client's parser a syntax error is caught, and an
element whose name is no string, or whose limit is no number, throws out of `Parse`, past
the test that `Init` makes of its result.
-/

namespace QosPlanner
set_option autoImplicit false

open Json

namespace OSTLimitConfigParser

/-- The name and the limit of an element, if it has both fields. -/
def fieldsOf (element : Value) : Option (Value × Value) :=
  match element.find "name", element.find "max_mbs" with
  | some name, some maxMbs => some (name, maxMbs)
  | _, _ => none

/-- `ParseContent`, from an element on. -/
def parseContent (limits : Limits) : List Value → Except Exception Limits
  | [] => .ok limits
  | element :: rest =>
    match fieldsOf element with
    | some (name, maxMbs) => do
      let limit ← maxMbs.getDouble
      let ost ← name.getString
      parseContent (limits.insert ost limit) rest
    | none => parseContent limits rest

/-- `Parse`, on what the JSON parser makes of the stream, `none` being a syntax error: the
result and the limits. -/
def parse (_limits : Limits) (doc : Option Value) : Except Exception (Bool × Limits) :=
  let limits : Limits := ∅
  match doc with
  | none => .ok (false, limits)
  | some j =>
    if j.empty then .ok (true, limits)
    else (parseContent limits j.items).map fun limits => (true, limits)

end OSTLimitConfigParser

/-- `JobSchedulerStaticWorkloads::Init`, with the name of the file and what opening and
parsing it gives. -/
def JobSchedulerStaticWorkloads.init (ostLimitsFile : String) (openFile : String → Option (Option Value))
    (limits : Limits) : Except Exception (Bool × Limits) :=
  if ostLimitsFile.isEmpty then .ok (true, limits)
  else
    match openFile ostLimitsFile with
    | none => .ok (false, limits)
    | some doc => do
      let (ok, fileLimits) ← OSTLimitConfigParser.parse ∅ doc
      if !ok then .ok (false, limits) else .ok (true, fileLimits)

namespace OSTLimitConfigParser

/-! ## The elements of the file -/

/-- The entry an element makes, if both its fields have the right type. -/
def entryOf (element : Value) : Option (Ost × ℚ) :=
  (fieldsOf element).bind fun (name, maxMbs) => name.text.bind fun ost => maxMbs.number.map fun limit => (ost, limit)

/-- The element has both fields, and one of a wrong type. -/
def WrongType (element : Value) : Prop := (fieldsOf element).isSome ∧ entryOf element = none

/-- The limit of the last element with the name of the OST. -/
def lastLimit (elements : List Value) (ost : Ost) : Option ℚ :=
  elements.reverse.findSome? fun element =>
    (entryOf element).bind fun (name, limit) => if name = ost then some limit else none

/-- What loading the limits has to give: no exception, a false result exactly for a text
that does not parse or an element of a wrong type, and else the limits of the elements. -/
structure Exact (elements : Option (List Value)) (result : Except Exception (Bool × Limits)) : Prop where
  total : ∃ ok limits, result = .ok (ok, limits)
  refused : ∀ ok limits, result = .ok (ok, limits) →
    (ok = false ↔ ∀ list, elements = some list → ∃ element ∈ list, WrongType element)
  exact : ∀ limits, result = .ok (true, limits) →
    ∃ list, elements = some list ∧ ∀ ost, limits[ost]? = lastLimit list ost

/-- **One element.** It has not both fields, or makes an entry, or has a field of a wrong type
and throws. -/
theorem parseContent_cons (limits : Limits) (element : Value) (rest : List Value) :
    (entryOf element = none ∧ ¬ WrongType element ∧ parseContent limits (element :: rest) = parseContent limits rest) ∨
    (∃ ost limit, entryOf element = some (ost, limit) ∧ ¬ WrongType element ∧
      parseContent limits (element :: rest) = parseContent (limits.insert ost limit) rest) ∨
    WrongType element ∧ parseContent limits (element :: rest) = .error .typeError := by
  rw [parseContent]
  unfold WrongType entryOf
  rcases fieldsOf element with _ | ⟨name, maxMbs⟩
  · exact Or.inl (by simp)
  · refine Or.inr ?_
    simp only [Option.bind_some, Value.getDouble, Value.getString]
    cases maxMbs.number with
    | none => 
      cases name.text <;> exact Or.inr ⟨by simp, rfl⟩
    | some limit =>
      cases name.text with
      | none => exact Or.inr ⟨by simp, rfl⟩
      | some ost => exact Or.inl ⟨ost, limit, rfl, by simp, rfl⟩

theorem lastLimit_cons (element : Value) (rest : List Value) (ost : Ost) :
    lastLimit (element :: rest) ost = (lastLimit rest ost).or
      ((entryOf element).bind fun (name, limit) => if name = ost then some limit else none) := by
  rw [lastLimit, List.reverse_cons, List.findSome?_append]
  simp only [List.findSome?_singleton]
  rfl

/-- The limits after the elements, on top of those there are. -/
theorem parseContent_ok {list : List Value} (fine : ∀ element ∈ list, ¬ WrongType element) (limits : Limits) :
    ∃ limits', parseContent limits list = .ok limits' ∧
      ∀ ost, limits'[ost]? = (lastLimit list ost).or limits[ost]? := by
  induction list generalizing limits with
  | nil => exact ⟨limits, rfl, fun ost => rfl⟩
  | cons element rest ih =>
    have others := fun other member => fine other (List.mem_cons_of_mem element member)
    rcases parseContent_cons limits element rest with
      ⟨none, -, step⟩ | ⟨ost, limit, entry, -, step⟩ | ⟨wrong, -⟩
    · obtain ⟨limits', loaded, exact⟩ := ih others limits
      refine ⟨limits', step.trans loaded, fun o => ?_⟩
      rw [exact, lastLimit_cons, none, Option.bind_none, Option.or_none]
    · obtain ⟨limits', loaded, exact⟩ := ih others (limits.insert ost limit)
      refine ⟨limits', step.trans loaded, fun o => ?_⟩
      rw [exact, lastLimit_cons, entry, Option.bind_some, Option.or_assoc, Std.ExtTreeMap.getElem?_insert]
      by_cases same : ost = o <;> simp [same]
    · exact absurd wrong (fine element List.mem_cons_self)

/-- An element of a wrong type ends the loop with an exception. -/
theorem parseContent_error {list : List Value} (wrong : ∃ element ∈ list, WrongType element) (limits : Limits) :
    parseContent limits list = .error .typeError := by
  obtain ⟨bad, member, wrong⟩ := wrong
  induction list generalizing limits with
  | nil => cases member
  | cons element rest ih =>
    rcases parseContent_cons limits element rest with
      ⟨-, fine, step⟩ | ⟨ost, limit, -, fine, step⟩ | ⟨-, thrown⟩
    · rw [step]
      refine ih limits ?_
      exact (List.mem_cons.1 member).resolve_left fun same => fine (same ▸ wrong)
    · rw [step]
      refine ih (limits.insert ost limit) ?_
      exact (List.mem_cons.1 member).resolve_left fun same => fine (same ▸ wrong)
    · exact thrown

/-- `Parse` of an array is its loop. -/
theorem parse_array (limits : Limits) (list : List Value) :
    parse limits (some (.array list)) = (parseContent ∅ list).map fun limits => (true, limits) := by
  cases list <;> rfl

/-- `Init` starts with the limits of its file, if none of them is of a wrong type. -/
theorem init_of_fine {ostLimitsFile : String} (named : ostLimitsFile ≠ "")
    {openFile : String → Option (Option Value)} {list : List Value}
    (file : openFile ostLimitsFile = some (some (.array list))) (fine : ∀ element ∈ list, ¬ WrongType element)
    (limits : Limits) :
    ∃ limits', JobSchedulerStaticWorkloads.init ostLimitsFile openFile limits = .ok (true, limits') ∧
      ∀ ost, limits'[ost]? = lastLimit list ost := by
  obtain ⟨limits', loaded, last⟩ := parseContent_ok fine ∅
  refine ⟨limits', ?_, fun ost => by rw [last]; simp⟩
  rw [JobSchedulerStaticWorkloads.init, if_neg (by simpa using named), file]
  simp only [parse_array, loaded]
  rfl

/-- **When the limits are loaded totally and exactly.** Whatever limits were held before,
no exception escapes, the result is false exactly for a text that does not parse or an
element of a wrong type, and the limits are those of the elements, iff the text does not
parse or no element is of a wrong type. -/
theorem parse_exact_iff (limits : Limits) (elements : Option (List Value)) :
    Exact elements (parse limits (elements.map .array)) ↔
      ∀ list, elements = some list → ∀ element ∈ list, ¬ WrongType element := by
  cases elements with
  | none =>
    refine iff_of_true ⟨⟨false, ∅, rfl⟩, ?_, ?_⟩ (by simp)
    · rintro ok limits' ⟨⟩
      simp
    · rintro limits' ⟨⟩
  | some list =>
    rw [Option.map_some, parse_array]
    simp only [Option.some.injEq, forall_eq']
    constructor
    · rintro exact element member wrong
      obtain ⟨ok, limits', result⟩ := exact.total
      rw [parseContent_error ⟨element, member, wrong⟩] at result
      cases result
    · intro fine
      obtain ⟨limits', loaded, last⟩ := parseContent_ok fine ∅
      rw [loaded]
      refine ⟨⟨true, limits', rfl⟩, ?_, ?_⟩
      · rintro ok _ ⟨⟩
        simpa using fine
      · rintro _ ⟨⟩
        exact ⟨list, rfl, fun ost => by rw [last]; simp⟩

/-- A limit that is a string ends `Parse`, and with it `Init`, by an exception. -/
theorem wrong_type_escapes :
    let element : Value := .object [("max_mbs", .string "100"), ("name", .string "OST_a")]
    parse ∅ (some (.array [element])) = .error .typeError ∧
      JobSchedulerStaticWorkloads.init "limits.json" (fun _ => some (some (.array [element]))) ∅ = .error .typeError ∧
      ¬ Exact (some [element]) (parse ∅ (some (.array [element]))) := by
  refine ⟨rfl, rfl, fun exact => ?_⟩
  obtain ⟨ok, limits, thrown⟩ := exact.total
  cases thrown

end OSTLimitConfigParser

end QosPlanner
