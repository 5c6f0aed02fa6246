/-
# RegisterTransfer.Proofs.Meaning.Quotient -- division with and without a sign

A number is read as it is or as two's complement (`Bits.reading`).  Division rounds toward zero in both
readings: the operators give the quotient and the remainder of the integers that their operands stand
for, cut to the width of the result (`BinaryOp.value_quotient`, `BinaryOp.value_remainder`).  An integer
that fits the width is read back as it was (`Bits.reading_ofInt`); a remainder always fits where its
divisor does.
-/
import RegisterTransfer.Proofs.Meaning.Value

namespace RegisterTransfer

set_option autoImplicit false

namespace Bits

/-! ## Readings -/

/-- The integer that a number stands for, as two's complement or as it is. -/
def reading (isSigned : Bool) (width value : Nat) : Int :=
  if isSigned then signed width value else value

/-- An integer that a number of the width stands for. -/
structure Fits (isSigned : Bool) (width : Nat) (n : Int) : Prop where
  least : (if isSigned then -2 ^ (width - 1) else 0) ≤ n
  bound : n < if isSigned then 2 ^ (width - 1) else 2 ^ width

theorem two_pow_eq {width : Nat} (positive : 0 < width) : 2 ^ width = 2 * 2 ^ (width - 1) := by
  obtain ⟨k, rfl⟩ : ∃ k, width = k + 1 := ⟨width - 1, by omega⟩
  rw [Nat.add_sub_cancel, Nat.pow_succ, Nat.mul_comm]

/-- What a number of the width stands for fits it. -/
theorem fits_reading {width value : Nat} (isSigned : Bool) (positive : 0 < width)
    (inside : value < 2 ^ width) : Fits isSigned width (reading isSigned width value) := by
  have twice := two_pow_eq positive
  have half := natCast_two_pow (width - 1)
  have whole := natCast_two_pow width
  cases isSigned with
  | false =>
      constructor
      · exact Int.natCast_nonneg value
      · show (value : Int) < 2 ^ width
        omega
  | true =>
      have low := Int.le_bmod (x := (value : Int)) (Nat.two_pow_pos width)
      have high := Int.bmod_lt (x := (value : Int)) (Nat.two_pow_pos width)
      constructor
      · show -2 ^ (width - 1) ≤ Int.bmod value (2 ^ width)
        omega
      · show Int.bmod value (2 ^ width) < 2 ^ (width - 1)
        omega

/-- An integer that fits is what its number stands for. -/
theorem reading_ofInt {isSigned : Bool} {width : Nat} {n : Int} (positive : 0 < width)
    (fits : Fits isSigned width n) : reading isSigned width (ofInt width n) = n := by
  obtain ⟨least, bound⟩ := fits
  have twice := two_pow_eq positive
  have half := natCast_two_pow (width - 1)
  have whole := natCast_two_pow width
  have nonneg : 0 ≤ n % 2 ^ width := Int.emod_nonneg n (by omega)
  have number : ((ofInt width n : Nat) : Int) = n % 2 ^ width := Int.toNat_of_nonneg nonneg
  cases isSigned with
  | false =>
      show ((ofInt width n : Nat) : Int) = n
      rw [number]
      exact Int.emod_eq_of_lt least bound
  | true =>
      show Int.bmod (ofInt width n : Nat) (2 ^ width) = n
      rw [number, ← whole, Int.emod_bmod]
      have least' : -2 ^ (width - 1) ≤ n := least
      have bound' : n < 2 ^ (width - 1) := bound
      exact Int.bmod_eq_of_le (by omega) (by omega)

/-- The remainder of a division fits the width of the divisor. -/
theorem fits_tmod {isSigned : Bool} {width : Nat} {a b : Int} (fits : Fits isSigned width b)
    (nonzero : b ≠ 0) (natural : isSigned = false → 0 ≤ a) : Fits isSigned width (a.tmod b) := by
  obtain ⟨least, bound⟩ := fits
  cases isSigned with
  | false =>
      have least' : 0 ≤ b := least
      have bound' : b < 2 ^ width := bound
      have positive : 0 < b := by omega
      constructor
      · exact Int.tmod_nonneg b (natural rfl)
      · exact Int.lt_trans (Int.tmod_lt_of_pos a positive) bound'
  | true =>
      have least' : -2 ^ (width - 1) ≤ b := least
      have bound' : b < 2 ^ (width - 1) := bound
      have small : (a.tmod b).natAbs < b.natAbs := by
        rw [Int.natAbs_tmod]
        exact Nat.mod_lt _ (Int.natAbs_pos.mpr nonzero)
      constructor
      · show -2 ^ (width - 1) ≤ a.tmod b
        omega
      · show a.tmod b < 2 ^ (width - 1)
        omega

end Bits

/-! ## Operators -/

namespace BinaryOp

open Bits

variable (I : Interpretation) (isSigned : Bool) (t : DataType)
  (leftBits rightBits left right : Nat)

theorem value_quotient :
    (if isSigned then sdiv else udiv).value I t leftBits rightBits left right =
      ofInt t.bits ((reading isSigned leftBits left).tdiv (reading isSigned rightBits right)) := by
  cases isSigned with
  | true => rfl
  | false =>
      show left / right % 2 ^ t.bits = ofInt t.bits ((left : Int).tdiv right)
      rw [← Int.ofNat_tdiv, ofInt_natCast]

theorem value_remainder :
    (if isSigned then smod else umod).value I t leftBits rightBits left right =
      ofInt t.bits ((reading isSigned leftBits left).tmod (reading isSigned rightBits right)) := by
  cases isSigned with
  | true => rfl
  | false =>
      show left % right % 2 ^ t.bits = ofInt t.bits ((left : Int).tmod right)
      rw [← Int.ofNat_tmod, ofInt_natCast]

end BinaryOp

end RegisterTransfer
