import Mathlib

/-!
# Bytes as a C string

What is left of a sequence of bytes that is passed on by a pointer to its first one: the
bytes before the first zero. Nothing is lost iff there is no zero. Of a text it is what
comes before its first NUL, the one character that is encoded with a zero byte.
-/

namespace QosPlanner
set_option autoImplicit false

/-- A text passed on by its `c_str`: up to the first NUL. -/
def cStr (text : String) : String := .ofList (text.toList.takeWhile (· != '\x00'))

/-- The string that is made of the bytes as a C string: it ends before the first zero. -/
def cString (bytes : List UInt8) : List UInt8 := bytes.takeWhile (· ≠ 0)

theorem cString_eq_self_iff {bytes : List UInt8} : cString bytes = bytes ↔ 0 ∉ bytes := by
  rw [cString, List.takeWhile_eq_self_iff]
  constructor
  · intro nonzero zero
    simpa using nonzero 0 zero
  · intro whole byte member
    simpa using fun zero : byte = 0 => whole (zero ▸ member)

theorem length_cString_le (bytes : List UInt8) : (cString bytes).length ≤ bytes.length :=
  (List.takeWhile_prefix _).length_le

/-- The string ends at a zero of the bytes. -/
theorem cString_append_zero {bytes : List UInt8} (zero : 0 ∈ bytes) : ∃ tail, bytes = cString bytes ++ 0 :: tail := by
  have parts := (List.takeWhile_append_dropWhile (p := (· ≠ (0 : UInt8))) (l := bytes)).symm
  cases rest : bytes.dropWhile (· ≠ 0) with
  | nil =>
    have whole : cString bytes = bytes := by
      rw [rest, List.append_nil] at parts
      exact parts.symm
    exact absurd zero (cString_eq_self_iff.1 whole)
  | cons byte tail =>
    have head := List.head?_dropWhile_not (· ≠ (0 : UInt8)) bytes
    rw [rest] at head parts
    have first : byte = 0 := by simpa using head
    exact ⟨tail, first ▸ parts⟩

end QosPlanner
