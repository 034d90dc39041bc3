import QosPlanner.Protobuf.Encodes

/-!
# Zeros in an encoding

Where the bytes of an encoding are zero: in a number that is zero, so in the length of what
is empty, and in a string that has the character zero. No tag is zero.
-/

namespace Protobuf
set_option autoImplicit false

theorem toUInt8_eq_zero_iff {n : Nat} (small : n < 256) : n.toUInt8 = 0 ↔ n = 0 := by
  rw [← UInt8.toNat_inj, toNat_toUInt8 small]
  rfl

theorem zero_mem_groups {fuel n : Nat} (fits : n < 128 ^ (fuel + 1)) : 0 ∈ groups (fuel + 1) n ↔ n = 0 := by
  induction fuel generalizing n with
  | zero =>
    have small : n < 128 := by simpa using fits
    rw [groups, if_pos small, List.mem_singleton, eq_comm, toUInt8_eq_zero_iff (by omega)]
  | succ fuel ih =>
    rw [groups]
    split
    next small => rw [List.mem_singleton, eq_comm, toUInt8_eq_zero_iff (by omega)]
    next large =>
      have rest_fits : n / 128 < 128 ^ (fuel + 1) := by
        rw [Nat.div_lt_iff_lt_mul (by decide), ← Nat.pow_succ]
        exact fits
      rw [List.mem_cons, eq_comm, toUInt8_eq_zero_iff (by omega), ih rest_fits]
      omega

@[simp] theorem zero_mem_writeVarint (value : UInt64) : 0 ∈ writeVarint value ↔ value = 0 := by
  rw [writeVarint, zero_mem_groups (toNat_lt_groups value), ← UInt64.toNat_inj]
  rfl

theorem zero_mem_writeTag {number wireType : Nat} (valid : OneByteTag number) (kind : wireType < 8) :
    0 ∉ writeTag number wireType := by
  have tag := makeTag_valid valid.1 valid.2 kind
  rw [writeTag_eq tag.2, List.mem_singleton, eq_comm, toUInt8_eq_zero_iff (by omega)]
  omega

/-! ## Strings -/

theorem zero_mem_utf8EncodeChar (c : Char) : 0 ∈ String.utf8EncodeChar c ↔ c = '\x00' := by
  have byte : c = '\x00' ↔ c.val.toNat = 0 := by
    rw [Char.ext_iff, ← UInt32.toNat_inj]
    rfl
  rw [byte, String.utf8EncodeChar]
  split_ifs with one two three
  · rw [List.mem_singleton, eq_comm, ← Nat.toUInt8_eq, toUInt8_eq_zero_iff (by omega)]
  all_goals
    simp only [List.mem_cons, List.not_mem_nil, or_false, ← UInt8.toNat_inj, UInt8.toNat_ofNat', UInt8.toNat_zero]
    omega

theorem utf8_eq (text : String) : utf8 text = text.toList.flatMap String.utf8EncodeChar := by
  rw [utf8, ← String.utf8Encode_toList, List.utf8Encode]
  simp

theorem zero_mem_utf8 (text : String) : 0 ∈ utf8 text ↔ '\x00' ∈ text.toList := by
  simp only [utf8_eq, List.mem_flatMap, zero_mem_utf8EncodeChar, exists_eq_right]

theorem length_utf8_eq_zero (text : String) : (utf8 text).length = 0 ↔ text = "" := by
  rw [utf8, Array.length_toList, ByteArray.size_data, ← String.utf8ByteSize, String.utf8ByteSize_eq_zero_iff]

/-- A text that has a zero when it is written with its length. -/
def ZeroText (text : String) : Prop := text = "" ∨ '\x00' ∈ text.toList

instance (text : String) : Decidable (ZeroText text) := inferInstanceAs (Decidable (_ ∨ _))

variable {number : Nat} (valid : OneByteTag number)
include valid

theorem zero_mem_writeString {text : String} (fits : (utf8 text).length < 2 ^ 31) :
    0 ∈ writeString number text ↔ ZeroText text := by
  have length : (utf8 text).length.toUInt64 = 0 ↔ text = "" := by
    rw [← UInt64.toNat_inj, Nat.toUInt64_eq, UInt64.toNat_ofNat', ← length_utf8_eq_zero text]
    simp only [UInt64.toNat_zero]
    omega
  simp only [writeString, writeDelimited, List.mem_append, zero_mem_writeTag valid (show wireDelimited < 8 by decide),
    zero_mem_writeVarint, length, zero_mem_utf8, false_or, ZeroText]

theorem zero_mem_writeInt32 (value : Int32) : 0 ∈ writeInt32 number value ↔ value = 0 := by
  have zero : signExtend value = 0 ↔ value = 0 := by
    constructor
    · intro same
      rw [← toInt32_signExtend value, same]
      rfl
    · rintro rfl
      rfl
  simp only [writeInt32, List.mem_append, zero_mem_writeTag valid (show wireVarint < 8 by decide),
    zero_mem_writeVarint, zero, false_or]

theorem zero_mem_writeInt64 (value : Int64) : 0 ∈ writeInt64 number value ↔ value = 0 := by
  have zero : value.toUInt64 = 0 ↔ value = 0 := by
    constructor
    · intro same
      rw [← Int64.toInt64_toUInt64 value, same]
      rfl
    · rintro rfl
      rfl
  simp only [writeInt64, List.mem_append, zero_mem_writeTag valid (show wireVarint < 8 by decide),
    zero_mem_writeVarint, zero, false_or]

theorem zero_mem_writeMessage {size : Nat} (fits : size < 2 ^ 31) (body : List UInt8) :
    0 ∈ writeMessage number size body ↔ size = 0 ∨ 0 ∈ body := by
  have length : size.toUInt64 = 0 ↔ size = 0 := by
    rw [← UInt64.toNat_inj, Nat.toUInt64_eq, UInt64.toNat_ofNat']
    simp only [UInt64.toNat_zero]
    omega
  simp only [writeMessage, writeDelimited, List.mem_append, zero_mem_writeTag valid (show wireDelimited < 8 by decide),
    zero_mem_writeVarint, length, false_or]

end Protobuf
