import Mathlib

/-!
# Variable-length integers

The integers of the protocol buffer encoding: groups of seven bits, the lowest first, one
to a byte; every byte but the last has its high bit set. A number of 64 bits takes at most
ten bytes, and a reader takes no more than that.
-/

namespace Protobuf
set_option autoImplicit false

/-- A number in at most `fuel` groups of seven bits. -/
def groups : Nat → Nat → List UInt8
  | 0, _ => []
  | fuel + 1, n => if n < 128 then [n.toUInt8] else (n % 128 + 128).toUInt8 :: groups fuel (n / 128)

/-- The number in the first groups, of which there are at most `fuel`, and what follows it. -/
def readGroups : Nat → List UInt8 → Option (Nat × List UInt8)
  | 0, _ => none
  | _ + 1, [] => none
  | fuel + 1, byte :: rest =>
    if byte.toNat < 128 then some (byte.toNat, rest)
    else (readGroups fuel rest).map fun (n, rest) => (byte.toNat - 128 + 128 * n, rest)

/-- `WriteVarint64` -/
def writeVarint (value : UInt64) : List UInt8 := groups 10 value.toNat

/-- `ReadVarint64`. A tenth byte can hold more than the one bit that is left; the rest of it is lost. -/
def readVarint (bytes : List UInt8) : Option (UInt64 × List UInt8) :=
  (readGroups 10 bytes).map fun (n, rest) => (n.toUInt64, rest)

/-- The number of bytes `writeVarint` takes: one for each seven bits. -/
def varintSize (value : UInt64) : Nat := Nat.log 128 value.toNat + 1

theorem toNat_toUInt8 {n : Nat} (small : n < 256) : n.toUInt8.toNat = n := by
  simp [Nat.mod_eq_of_lt small]

theorem readGroups_groups {fuel n : Nat} (fits : n < 128 ^ (fuel + 1)) (rest : List UInt8) :
    readGroups (fuel + 1) (groups (fuel + 1) n ++ rest) = some (n, rest) := by
  induction fuel generalizing n with
  | zero =>
    have small : n < 128 := by simpa using fits
    simp [groups, readGroups, small, toNat_toUInt8 (show n < 256 by omega)]
  | succ fuel ih =>
    rw [groups]
    split
    next small => simp [readGroups, small, toNat_toUInt8 (show n < 256 by omega)]
    next large =>
      have byte := toNat_toUInt8 (show n % 128 + 128 < 256 by omega)
      have rest_fits : n / 128 < 128 ^ (fuel + 1) := by
        rw [Nat.div_lt_iff_lt_mul (by decide), ← Nat.pow_succ]
        exact fits
      rw [List.cons_append, readGroups, byte, if_neg (by omega), ih rest_fits]
      simp only [Option.map_some, Option.some.injEq, Prod.mk.injEq, and_true]
      omega

/-- Groups that end before the last one are no number, whatever the reader's bound. -/
theorem readGroups_cut {fuel n : Nat} {cut : List UInt8} (start : cut <+: groups fuel n)
    (proper : cut ≠ groups fuel n) (bound : Nat) : readGroups bound cut = none := by
  induction fuel generalizing n cut bound with
  | zero => simp_all [groups]
  | succ fuel ih =>
    cases bound with
    | zero => rfl
    | succ bound =>
      cases cut with
      | nil => rfl
      | cons byte cut =>
        rw [groups] at start proper
        split at start
        next small =>
          obtain ⟨same, more⟩ := List.cons_prefix_cons.1 start
          simp_all
        next large =>
          obtain ⟨rfl, more⟩ := List.cons_prefix_cons.1 start
          rw [if_neg large] at proper
          have byte := toNat_toUInt8 (show n % 128 + 128 < 256 by omega)
          rw [readGroups, byte, if_neg (by omega), ih more (by simpa using proper)]
          rfl

theorem length_groups {fuel n : Nat} (fits : n < 128 ^ (fuel + 1)) :
    (groups (fuel + 1) n).length = Nat.log 128 n + 1 := by
  induction fuel generalizing n with
  | zero =>
    have small : n < 128 := by simpa using fits
    rw [groups, if_pos small, Nat.log_of_lt small, List.length_singleton]
  | succ fuel ih =>
    rw [groups]
    split
    next small => rw [Nat.log_of_lt small, List.length_singleton]
    next large =>
      have rest_fits : n / 128 < 128 ^ (fuel + 1) := by
        rw [Nat.div_lt_iff_lt_mul (by decide), ← Nat.pow_succ]
        exact fits
      have pos : 0 < Nat.log 128 n := Nat.log_pos (by decide) (by omega)
      rw [List.length_cons, ih rest_fits, Nat.log_div_base]
      omega

theorem toNat_lt_groups (value : UInt64) : value.toNat < 128 ^ (9 + 1) := by
  have := value.toNat_lt
  omega

/-- **Round trip of a number.** -/
@[simp] theorem readVarint_writeVarint (value : UInt64) (rest : List UInt8) :
    readVarint (writeVarint value ++ rest) = some (value, rest) := by
  rw [readVarint, writeVarint, readGroups_groups (toNat_lt_groups value)]
  simp

/-- A number that is cut off is not read. -/
theorem readVarint_cut {value : UInt64} {cut : List UInt8} (start : cut <+: writeVarint value)
    (proper : cut ≠ writeVarint value) : readVarint cut = none := by
  rw [readVarint, readGroups_cut start proper]
  rfl

@[simp] theorem length_writeVarint (value : UInt64) : (writeVarint value).length = varintSize value :=
  length_groups (toNat_lt_groups value)

end Protobuf
