/-
# RegisterTransfer.Numeral -- numbers as text

What a number in the text of this library stands for is settled here, so that a statement means the
same whatever else is imported where it is made.

* Sizes, masks and limits are powers of two.  Natural numbers and integers have a power operation of
  their own and, beside a library of algebra, a second one as monoids; `2 ^ n` is always the first.
* Pointers, the bits of a byte and the families of registers are numbered in `Fin 3`, `Fin 8` and
  `Fin 16`.  A literal of these types needs to know that they have elements.

Then come the numeral forms every printer of this library is built from:

* `decimal` and `signedDecimal`, the shortest decimal numeral of a natural and of an integer;
* `hexLower`, the shortest lower-case hexadecimal numeral;
* `hexUpper width`, an upper-case hexadecimal numeral of at least `width` digits, zero filled.

None of them writes a `0x`; the printers do.  The numeral of a natural number has at least
`width` digits (`le_length_padLeft`), and padding never shortens it.
-/
namespace RegisterTransfer

set_option autoImplicit false

/-! ## Literals -/

-- The first line decides where both types are known, the second where the exponent is a literal; it has
-- to outrank the choice of algebra, for of two equal ones the last to be imported would count.
attribute [scoped instance (high)] instPowNat
attribute [default_instance (high + 1)] instPowNat

-- The zero is named: the one that is found depends on what is imported.
instance neZero_three : @NeZero Nat Zero.ofOfNat0 3 := ⟨by decide⟩
instance neZero_eight : @NeZero Nat Zero.ofOfNat0 8 := ⟨by decide⟩
instance neZero_sixteen : @NeZero Nat Zero.ofOfNat0 16 := ⟨by decide⟩

/-! ## Numerals -/

namespace Numeral

/-- The digits of `n` in base ten, most significant first. -/
def decimal (n : Nat) : String :=
  String.ofList (Nat.toDigits 10 n)

/-- A minus sign for negative numbers and nothing for the others. -/
def signedDecimal : Int → String
  | .ofNat n => decimal n
  | .negSucc n => "-" ++ decimal (n + 1)

/-- `digits` filled with zeros on the left up to `width` characters. -/
def padLeft (width : Nat) (digits : List Char) : List Char :=
  List.replicate (width - digits.length) '0' ++ digits

theorem length_padLeft (width : Nat) (digits : List Char) :
    (padLeft width digits).length = max width digits.length := by
  simp only [padLeft, List.length_append, List.length_replicate]
  omega

theorem le_length_padLeft (width : Nat) (digits : List Char) :
    width ≤ (padLeft width digits).length := by
  rw [length_padLeft]
  exact Nat.le_max_left ..

/-- The shortest hexadecimal numeral of `n`, in lower case. -/
def hexLower (n : Nat) : String :=
  String.ofList (Nat.toDigits 16 n)

/-- A hexadecimal numeral of `n` in upper case with at least `width` digits. -/
def hexUpper (width n : Nat) : String :=
  String.ofList (padLeft width ((Nat.toDigits 16 n).map Char.toUpper))

/-- An address as diagnostics and assembly text show it in running text: `0x1F`. -/
def hex0x (n : Nat) : String := "0x" ++ hexUpper 1 n

/-- An address as the structured output formats show it: `0x1f`. -/
def lower0x (n : Nat) : String := "0x" ++ hexLower n

/-- The two-digit form of one byte: `0x0F`. -/
def byte0x (b : UInt8) : String := "0x" ++ hexUpper 2 b.toNat

end Numeral

end RegisterTransfer
