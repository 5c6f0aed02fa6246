/-
# RegisterTransfer.Constant -- typed literals

A literal is a bit pattern of at most 64 bits together with its type.  `Constant.of` cuts a value
to the type's width, so a literal built with it never has bits outside the type
(`value_of_le_mask`).  Real literals keep their IEEE bit pattern.
-/
import RegisterTransfer.DataType
import RegisterTransfer.Decimal.Shortest

namespace RegisterTransfer

set_option autoImplicit false

/-- The two's complement bit pattern of an integer in 64 bits. -/
def word64OfInt (n : Int) : Nat := (n % 2 ^ 64).toNat

/-- The integer that 64-bit signed arithmetic gives for `n`: it wraps. -/
def wrap64 (n : Int) : Int := n.bmod (2 ^ 64)

/-- A typed literal. -/
structure Constant where
  value : Nat
  type : DataType
deriving DecidableEq

namespace Constant

/-- The literal of the type with the low-order bits of `value`. -/
def of (value : Nat) (type : DataType) : Constant :=
  ⟨value % 2 ^ type.literalBits, type⟩

/-- The literal of the type with the low-order bits of an integer. -/
def ofInt (value : Int) (type : DataType) : Constant :=
  of (word64OfInt value) type

/-- The binary64 literal with the given bit pattern. -/
def real64 (bits : Nat) : Constant := of bits .real64

def bool (b : Bool) : Constant := of b.toNat .bool

theorem value_of_le_mask (value : Nat) (type : DataType) : (of value type).value ≤ type.mask := by
  have := Nat.mod_lt value (Nat.two_pow_pos type.literalBits)
  simp only [of, DataType.mask]
  omega

theorem type_of (value : Nat) (type : DataType) : (of value type).type = type := rfl

/-- The value read as two's complement of the type's width. -/
def signed (c : Constant) : Int :=
  let bits := if c.type.literalBits = 0 then 64 else c.type.literalBits
  Int.bmod c.value (2 ^ bits)

/-- Binary64 literals switch to an exponent at `10 ^ 16` and below `10 ^ -4`, and keep `.0`. -/
def realLayout : Decimal.Layout where
  leastPositional := -4
  leastExponential := 16
  mark := "e"
  nan := "NaN"
  infinity := "inf"

/-- The text of a literal. -/
def text (c : Constant) : String :=
  match c.type with
  | .bool => if c.value = 0 then "false" else "true"
  | .real64 => realLayout.render c.value
  | type =>
      if type.isSigned then Numeral.signedDecimal c.signed
      else "0x" ++ Numeral.hexUpper type.hexDigits c.value

end Constant

end RegisterTransfer
