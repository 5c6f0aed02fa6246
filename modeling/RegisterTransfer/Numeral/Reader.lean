/-
# RegisterTransfer.Numeral.Reader -- reading unsigned numbers

`unsigned? radix bound` accepts an optional plus sign and one or more digits of the radix, of
either case, whose value lies below the bound.
-/
import RegisterTransfer.Numeral

namespace RegisterTransfer.Numeral

set_option autoImplicit false

/-- The value of a digit or letter, whatever the radix. -/
def digitValue? (c : Char) : Option Nat :=
  if '0' ≤ c ∧ c ≤ '9' then some (c.toNat - '0'.toNat)
  else if 'a' ≤ c ∧ c ≤ 'z' then some (c.toNat - 'a'.toNat + 10)
  else if 'A' ≤ c ∧ c ≤ 'Z' then some (c.toNat - 'A'.toNat + 10)
  else none

/-- The value of a digit of the radix. -/
def digitOf? (radix : Nat) (c : Char) : Option Nat :=
  (digitValue? c).filter (· < radix)

/-- The value of a row of digits after the value read so far. -/
def accumulate? (radix : Nat) : Nat → List Char → Option Nat
  | n, [] => some n
  | n, c :: rest =>
      match digitOf? radix c with
      | some d => accumulate? radix (n * radix + d) rest
      | none => none

/-- The value of one or more digits. -/
def digits? (radix : Nat) : List Char → Option Nat
  | [] => none
  | cs => accumulate? radix 0 cs

/-- The characters after an optional plus sign. -/
def dropPlus : List Char → List Char
  | '+' :: rest => rest
  | cs => cs

/-- The value of an optional plus sign and one or more digits, if it lies below the bound. -/
def unsigned? (radix bound : Nat) (cs : List Char) : Option Nat :=
  (digits? radix (dropPlus cs)).filter (· < bound)

end RegisterTransfer.Numeral
