import Mathlib

/-!
# JSON values

A value as the parser of `nlohmann::json` gives it, and what its documentation says of the
accessors: `find` of anything but an object finds nothing, a range-based `for` visits the
elements of an array, the values of an object and any other value but `null` itself, and
`get<T>` throws when the value has another type. A number is stored as an integer if it is
written as one, and as a floating-point number otherwise; here both are exact.
-/

namespace Json
set_option autoImplicit false

/-- The exception of a conversion to another type. -/
inductive Exception where
  | typeError
  deriving DecidableEq, Repr

/-- A value; the members of an object stand in the order of its map. -/
inductive Value where
  | null
  | boolean (b : Bool)
  | integer (n : Int)
  | float (x : ℚ)
  | string (s : String)
  | array (elements : List Value)
  | object (members : List (String × Value))

namespace Value

/-- `empty()` -/
def empty : Value → Bool
  | .null => true
  | .array elements => elements.isEmpty
  | .object members => members.isEmpty
  | _ => false

/-- `find(key)`; `none` is `end()`. -/
def find (key : String) : Value → Option Value
  | .object members => members.lookup key
  | _ => none

/-- What a range-based `for` visits. -/
def items : Value → List Value
  | .null => []
  | .array elements => elements
  | .object members => members.map (·.2)
  | value => [value]

/-- The number a value is. -/
def number : Value → Option ℚ
  | .integer n => some n
  | .float x => some x
  | _ => none

/-- The string a value is. -/
def text : Value → Option String
  | .string s => some s
  | _ => none

/-- `get<std::string>()` -/
def getString (value : Value) : Except Exception String :=
  match value.text with
  | some s => .ok s
  | none => .error .typeError

/-- `get<double>()` -/
def getDouble (value : Value) : Except Exception ℚ :=
  match value.number with
  | some x => .ok x
  | none => .error .typeError

/-- A floating-point number converted to an `int`: its integer part, if that is an `int`.
The result is `undefined x` otherwise. -/
def toInt (undefined : ℚ → Int32) (x : ℚ) : Int32 :=
  let whole : Int := if 0 ≤ x then ⌊x⌋ else ⌈x⌉
  if -2 ^ 31 ≤ whole ∧ whole < 2 ^ 31 then Int32.ofInt whole else undefined x

/-- `get<int>()` -/
def getInt (undefined : ℚ → Int32) : Value → Except Exception Int32
  | .integer n => .ok (Int32.ofInt n)
  | .float x => .ok (toInt undefined x)
  | _ => .error .typeError

/-- The number is an `int`. -/
def IsInt (x : ℚ) : Prop := ∃ n : Int32, (n.toInt : ℚ) = x

/-- A conversion to `int` succeeds on the numbers. -/
theorem getInt_isOk {undefined : ℚ → Int32} {value : Value} :
    (∃ n, value.getInt undefined = .ok n) ↔ ∃ x, value.number = some x := by
  cases value <;> simp [getInt, number]

/-- It is exact on the numbers that are `int`s. -/
theorem getInt_of_isInt {undefined : ℚ → Int32} {value : Value} {n : Int32}
    (isInt : value.number = some (n.toInt : ℚ)) : value.getInt undefined = .ok n := by
  have low := n.le_toInt
  have high := n.toInt_lt
  cases value with
  | integer m =>
    have same : m = n.toInt := by exact_mod_cast Option.some.inj isInt
    rw [getInt, same, Int32.ofInt_toInt]
  | float x =>
    obtain rfl := Option.some.inj isInt
    have range : -2 ^ 31 ≤ n.toInt ∧ n.toInt < 2 ^ 31 := ⟨low, high⟩
    simp only [getInt, toInt, Int.floor_intCast, Int.ceil_intCast, ite_self, if_pos range, Int32.ofInt_toInt]
  | _ => cases isInt

end Value

end Json
