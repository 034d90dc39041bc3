import QosPlanner.Json.Value

/-!
# The requirements file

`StorageReqParser` (`src/client/StorageReqParser.cpp`) reads the throughput and the files
of a reservation from a JSON document. A syntax error is caught and gives a false result;
what `get` throws in `ParseContent` is not caught. `throughput_mbs_` has no initial value,
so a document without that field leaves in it whatever the memory held, and `Parse` still
returns true.
-/

namespace QosPlanner
set_option autoImplicit false

open Json

/-- `StorageReqParser`, by its fields. -/
@[ext]
structure StorageReqParser where
  readFiles : String
  throughputMbs : Int32
  deriving DecidableEq, Repr

namespace StorageReqParser

/-- A fresh object: the string is empty, the `int` holds what its memory held. -/
def fresh (garbage : Int32) : StorageReqParser := ⟨"", garbage⟩

/-- The loop over `read_files`; `ss` is what the stream holds so far. -/
def joinFiles (separator ss : String) : List Value → Except Exception String
  | [] => .ok ss
  | rfile :: rest => do
    let name ← rfile.getString
    joinFiles "," (ss ++ separator ++ name) rest

/-- The first half of `ParseContent`: `throughput_mbs_`, which keeps its value if the field is absent. -/
def parseThroughput (undefined : ℚ → Int32) (p : StorageReqParser) (j : Value) : Except Exception Int32 :=
  match j.find "throughput_mbs" with
  | some throughput => throughput.getInt undefined
  | none => .ok p.throughputMbs

/-- The second half of `ParseContent`: `read_files_`. -/
def parseReadFiles (p : StorageReqParser) (j : Value) : Except Exception String :=
  match j.find "read_files" with
  | some readFiles => joinFiles "" "" readFiles.items
  | none => .ok p.readFiles

/-- `ParseContent`. -/
def parseContent (undefined : ℚ → Int32) (p : StorageReqParser) (j : Value) : Except Exception StorageReqParser := do
  let throughputMbs ← p.parseThroughput undefined j
  let readFiles ← p.parseReadFiles j
  .ok ⟨readFiles, throughputMbs⟩

/-- `Parse`, on what the JSON parser makes of the stream; `none` is a syntax error. -/
def parse (undefined : ℚ → Int32) (p : StorageReqParser) : Option Value → Except Exception (Bool × StorageReqParser)
  | none => .ok (false, p)
  | some j =>
    if j.empty then .ok (true, p)
    else (p.parseContent undefined j).map fun p => (true, p)

/-! ## The loop over the files -/

/-- Behind the first name every name follows a comma. -/
theorem joinFiles_rest (ss : String) (names : List String) :
    joinFiles "," ss (names.map .string) = .ok (",".intercalate (ss :: names)) := by
  induction names generalizing ss with
  | nil => rw [String.intercalate_singleton]; rfl
  | cons name names ih =>
    have turn : joinFiles "," ss (.string name :: names.map .string) =
      joinFiles "," (ss ++ "," ++ name) (names.map .string) := rfl
    rw [List.map_cons, turn, ih, String.intercalate_cons_append, String.intercalate_cons_cons]

theorem joinFiles_names (names : List String) :
    joinFiles "" "" (names.map .string) = .ok (",".intercalate names) := by
  cases names with
  | nil => rfl
  | cons name names =>
    have turn : joinFiles "" "" (.string name :: names.map .string) =
      joinFiles "," ("" ++ "" ++ name) (names.map .string) := rfl
    rw [List.map_cons, turn, joinFiles_rest, String.empty_append, String.empty_append]

/-- The loop gets through only if all values are strings. -/
theorem strings_of_joinFiles {separator ss joined : String} {values : List Value}
    (ok : joinFiles separator ss values = .ok joined) : ∃ names : List String, values = names.map .string := by
  induction values generalizing separator ss with
  | nil => exact ⟨[], rfl⟩
  | cons value values ih =>
    cases value with
    | string name =>
      obtain ⟨names, rfl⟩ := ih (show joinFiles "," (ss ++ separator ++ name) values = .ok joined from ok)
      exact ⟨name :: names, rfl⟩
    | _ => cases ok

/-- **The loop joins the names**, if all values are strings. -/
theorem joinFiles_ok_iff {values : List Value} {joined : String} :
    joinFiles "" "" values = .ok joined ↔ ∃ names : List String, values = names.map .string ∧ joined = ",".intercalate names := by
  constructor
  · intro ok
    obtain ⟨names, rfl⟩ := strings_of_joinFiles ok
    rw [joinFiles_names] at ok
    exact ⟨names, rfl, (Except.ok.inj ok).symm⟩
  · rintro ⟨names, rfl, rfl⟩
    exact joinFiles_names names

/-- Joined names are empty only if there is none, or one without characters. -/
theorem intercalate_eq_empty_iff {names : List String} : ",".intercalate names = "" ↔ names = [] ∨ names = [""] := by
  rcases names with _ | ⟨name, _ | ⟨next, rest⟩⟩
  · simp
  · simp
  · rw [String.intercalate_cons_cons]
    simp

/-! ## What `Parse` returns -/

/-- **The result of `Parse`** on a document that parses. -/
theorem parse_some_iff {undefined : ℚ → Int32} {p p' : StorageReqParser} {j : Value} {ok : Bool} :
    parse undefined p (some j) = .ok (ok, p') ↔
      ok = true ∧ p.parseThroughput undefined j = .ok p'.throughputMbs ∧ p.parseReadFiles j = .ok p'.readFiles := by
  obtain ⟨files', mbs'⟩ := p'
  rw [parse]
  split
  · rename_i empty
    have absent : ∀ key, j.find key = none := by
      intro key
      cases j with
      | object members =>
        have none : members = [] := List.isEmpty_iff.1 empty
        rw [none]; rfl
      | _ => rfl
    obtain ⟨files, mbs⟩ := p
    simp only [parseThroughput, parseReadFiles, absent, Except.ok.injEq, Prod.mk.injEq, StorageReqParser.mk.injEq]
    exact ⟨fun ⟨ok, files, mbs⟩ => ⟨ok.symm, mbs, files⟩, fun ⟨ok, mbs, files⟩ => ⟨ok.symm, files, mbs⟩⟩
  · unfold parseContent
    cases p.parseThroughput undefined j with
    | error thrown => simp [Except.map, bind, Except.bind]
    | ok mbs =>
      cases p.parseReadFiles j with
      | error thrown => simp [Except.map, bind, Except.bind]
      | ok files =>
        simp only [Except.map, bind, Except.bind, Except.ok.injEq, Prod.mk.injEq, StorageReqParser.mk.injEq]
        exact ⟨fun ⟨ok, files, mbs⟩ => ⟨ok.symm, mbs, files⟩, fun ⟨ok, mbs, files⟩ => ⟨ok.symm, files, mbs⟩⟩

/-- What the getters have to give for a document: the values of the fields, and a fixed
default for a field that is absent or of another type. -/
structure Follows (default : Int32) (j : Value) (p : StorageReqParser) : Prop where
  throughput : ∀ x, (j.find "throughput_mbs").bind Value.number = some x → (p.throughputMbs.toInt : ℚ) = x
  noThroughput : (j.find "throughput_mbs").bind Value.number = none → p.throughputMbs = default
  readFiles : ∀ names : List String, j.find "read_files" = some (.array (names.map .string)) →
    p.readFiles = ",".intercalate names
  noReadFiles : (∀ names : List String, j.find "read_files" ≠ some (.array (names.map .string))) → p.readFiles = ""

/-- No exception escapes, and after a true result the getters follow the document. -/
def Specified (default : Int32) (doc : Option Value) (result : Except Exception (Bool × StorageReqParser)) : Prop :=
  ∃ ok p, result = .ok (ok, p) ∧ (ok = true → ∃ j, doc = some j ∧ Follows default j p)

/-- The document has a throughput that is an `int`, and its files, if it has any, are an
array of strings or, being something else, hold no character. -/
structure Readable (j : Value) : Prop where
  throughput : ∃ x, (j.find "throughput_mbs").bind Value.number = some x ∧ Value.IsInt x
  readFiles : ∀ files, j.find "read_files" = some files →
    ∃ names : List String, files.items = names.map .string ∧ (files = .array (names.map .string) ∨ names = [] ∨ names = [""])

/-- Without a throughput the parser gives what its memory held. -/
theorem number_of_specified {undefined : ℚ → Int32} {default : Int32} {j : Value}
    (specified : ∀ garbage, Specified default (some j) (parse undefined (fresh garbage) (some j))) :
    ∃ x, (j.find "throughput_mbs").bind Value.number = some x := by
  by_contra absent
  have noNumber := Option.eq_none_iff_forall_ne_some.2 (not_exists.1 absent)
  obtain ⟨ok, p, result, follows⟩ := specified (default + 1)
  obtain ⟨rfl, throughput, -⟩ := parse_some_iff.1 result
  obtain ⟨_, ⟨⟩, follows⟩ := follows rfl
  have fixed := follows.noThroughput noNumber
  unfold parseThroughput at throughput
  cases found : j.find "throughput_mbs" with
  | none =>
    rw [found] at throughput
    have garbage : default + 1 = p.throughputMbs := Except.ok.inj throughput
    rw [fixed] at garbage
    simp at garbage
  | some value =>
    rw [found] at throughput noNumber
    obtain ⟨x, number⟩ := Value.getInt_isOk.1 ⟨_, throughput⟩
    rw [Option.bind_some, number] at noNumber
    cases noNumber

/-- The document is readable if the parser's result is specified whatever its memory held. -/
theorem readable_of_specified {undefined : ℚ → Int32} {default : Int32} {j : Value}
    (specified : ∀ garbage, Specified default (some j) (parse undefined (fresh garbage) (some j))) : Readable j := by
  obtain ⟨x, number⟩ := number_of_specified specified
  obtain ⟨ok, p, result, follows⟩ := specified 0
  obtain ⟨rfl, -, read⟩ := parse_some_iff.1 result
  obtain ⟨_, ⟨⟩, follows⟩ := follows rfl
  refine ⟨⟨x, number, p.throughputMbs, follows.throughput x number⟩, fun files found => ?_⟩
  rw [parseReadFiles, found] at read
  obtain ⟨names, items, joined⟩ := joinFiles_ok_iff.1 read
  refine ⟨names, items, ?_⟩
  by_cases array : files = .array (names.map .string)
  · exact Or.inl array
  · refine Or.inr (intercalate_eq_empty_iff.1 ?_)
    rw [← joined]
    refine follows.noReadFiles fun others same => array ?_
    obtain rfl := Option.some.inj (found.symm.trans same)
    rw [← items]
    rfl

/-- The files of a readable document, or none. -/
theorem parseReadFiles_of_readable {j : Value} (readable : Readable j) (garbage : Int32) :
    ∃ files, (fresh garbage).parseReadFiles j = .ok files ∧
      (∀ names : List String, j.find "read_files" = some (.array (names.map .string)) → files = ",".intercalate names) ∧
      ((∀ names : List String, j.find "read_files" ≠ some (.array (names.map .string))) → files = "") := by
  rw [parseReadFiles]
  cases found : j.find "read_files" with
  | none => exact ⟨"", rfl, by simp, fun _ => rfl⟩
  | some value =>
    obtain ⟨names, items, shape⟩ := readable.readFiles value found
    refine ⟨",".intercalate names, joinFiles_ok_iff.2 ⟨names, items, rfl⟩, ?_, ?_⟩
    · rintro others ⟨⟩
      obtain rfl : others = names := List.map_injective_iff.2 (fun _ _ same => Value.string.inj same) items
      rfl
    · intro others
      rcases shape with array | empty
      · exact absurd (congrArg some array) (others names)
      · exact intercalate_eq_empty_iff.2 empty

/-- A readable document specifies the parser's result. -/
theorem specified_of_readable {undefined : ℚ → Int32} {default : Int32} {j : Value} (readable : Readable j)
    (garbage : Int32) : Specified default (some j) (parse undefined (fresh garbage) (some j)) := by
  obtain ⟨x, number, n, rfl⟩ := readable.throughput
  obtain ⟨value, found, isNumber⟩ := Option.bind_eq_some_iff.1 number
  have throughput : (fresh garbage).parseThroughput undefined j = .ok n := by
    rw [parseThroughput, found]
    exact Value.getInt_of_isInt isNumber
  obtain ⟨files, read, array, noArray⟩ := parseReadFiles_of_readable readable garbage
  refine ⟨true, ⟨files, n⟩, parse_some_iff.2 ⟨rfl, throughput, read⟩, fun _ => ⟨j, rfl, ?_, ?_, array, noArray⟩⟩
  · intro x same
    exact Option.some.inj (number.symm.trans same)
  · intro absent
    rw [number] at absent
    cases absent

/-- **When the parser's result is specified.** Whatever memory a fresh parser lies in, no
exception escapes and the getters follow the document iff the text does not parse or the
document is readable. -/
theorem parse_specified_iff (undefined : ℚ → Int32) (default : Int32) (doc : Option Value) :
    (∀ garbage, Specified default doc (parse undefined (fresh garbage) doc)) ↔ ∀ j, doc = some j → Readable j := by
  cases doc with
  | none => exact iff_of_true (fun garbage => ⟨false, fresh garbage, rfl, by simp⟩) (by simp)
  | some j =>
    simp only [Option.some.injEq, forall_eq']
    exact ⟨readable_of_specified, specified_of_readable⟩

/-- An empty object is accepted, and the throughput is what the memory held; so it is for
a document with files only. A throughput that is a string ends the client. -/
theorem unspecified_results :
    let undefined : ℚ → Int32 := fun _ => 0
    (∀ garbage, parse undefined (fresh garbage) (some (.object [])) = .ok (true, ⟨"", garbage⟩)) ∧
    (∀ garbage, parse undefined (fresh garbage) (some (.object [("read_files", .array [.string "a"])])) =
      .ok (true, ⟨"a", garbage⟩)) ∧
    (∀ garbage, parse undefined (fresh garbage) (some (.object [("throughput_mbs", .string "x")])) =
      .error .typeError) ∧
    ∀ default,
      (¬ ∀ garbage, Specified default (some (.object [])) (parse undefined (fresh garbage) (some (.object [])))) ∧
      ∀ garbage, ¬ Specified default (some (.object [("throughput_mbs", .string "x")]))
        (parse undefined (fresh garbage) (some (.object [("throughput_mbs", .string "x")]))) := by
  refine ⟨fun _ => rfl, fun _ => rfl, fun _ => rfl, fun default => ⟨fun specified => ?_, ?_⟩⟩
  · obtain ⟨x, number⟩ := number_of_specified specified
    cases number
  · rintro garbage ⟨ok, p, thrown, -⟩
    cases thrown

end StorageReqParser

end QosPlanner
