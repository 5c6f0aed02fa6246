/-
# RegisterTransfer.Decimal.Shortest -- the fewest decimal digits that read back

A finite binary64 number is `m * 2 ^ q`.  The decimal numbers that round to it form an interval
around it, closed exactly when `m` is even.  `shortest` looks for the coarsest decimal grid with a
point in that interval; of two such points it takes the nearer, and of two equally near ones the
larger.  All arithmetic is exact, on natural numbers over a common denominator.

`Layout` holds the choices of a particular notation -- where positional notation ends, the mark
before an exponent, the texts of the special values -- and `Layout.render` writes a number in it.
-/
import RegisterTransfer.Numeral

namespace RegisterTransfer.Decimal

set_option autoImplicit false

/-- A positive number given as the interval of numbers that round to it.  All three ends count in
units of `unit / denominator`, so that each is a fraction of natural numbers. -/
structure Interval where
  low : Nat
  value : Nat
  high : Nat
  denominator : Nat
  /-- Whether the two ends themselves round to the value. -/
  closed : Bool
deriving DecidableEq

namespace Interval

/-- Whether the decimal number `digits * 10 ^ up / 10 ^ down` rounds to the value. -/
def holds (i : Interval) (digits up down : Nat) : Bool :=
  let point := digits * 10 ^ up * i.denominator
  let low := i.low * 10 ^ down
  let high := i.high * 10 ^ down
  if i.closed then low ≤ point && point ≤ high else low < point && point < high

/-- The interval of `m * 2 ^ q`.  Below a power of two the neighbours lie half as far apart as
above it. -/
def ofBinary (m : Nat) (q : Int) : Interval :=
  let lowest := 2 ^ 52
  let low := if m = lowest then 4 * m - 1 else 4 * m - 2
  let scale := q - 2
  let up := 2 ^ scale.toNat
  let down := 2 ^ (-scale).toNat
  ⟨low * up, 4 * m * up, (4 * m + 2) * up, down, m % 2 = 0⟩

/-- The largest `e` with `10 ^ e` at most the value, searched between -400 and 400. -/
def exponent (i : Interval) : Int :=
  if i.denominator ≤ i.value then
    Int.ofNat ((Nat.toDigits 10 (i.value / i.denominator)).length - 1)
  else
    match (List.range 400).find? (fun k => i.denominator ≤ i.value * 10 ^ k) with
    | some k => -Int.ofNat k
    | none => -400

/-- The point of the grid of multiples of `10 ^ e` that is nearest to the value among the two
around it, if one of the two rounds to the value. -/
def nearest? (i : Interval) (e : Int) : Option Nat :=
  let up := e.toNat
  let down := (-e).toNat
  let step := 10 ^ up * i.denominator
  let scaled := i.value * 10 ^ down
  let below := scaled / step
  let rest := scaled % step
  let lower := i.holds below up down
  let upper := i.holds (below + 1) up down
  if lower && upper then
    if 2 * rest < step then some below else some (below + 1)
  else if lower then some below
  else if upper then some (below + 1)
  else none

end Interval

/-- The decimal number `digits * 10 ^ exponent`. -/
structure Digits where
  digits : Nat
  exponent : Int
deriving DecidableEq

/-- Drop the trailing zeros of the digits, at most `fuel` of them. -/
def Digits.trim : Nat → Digits → Digits
  | 0, d => d
  | fuel + 1, d =>
      if d.digits % 10 = 0 ∧ d.digits ≠ 0 then Digits.trim fuel ⟨d.digits / 10, d.exponent + 1⟩
      else d

/-- The shortest decimal number that rounds to the value of the interval.  Seventeen digits always
suffice for binary64. -/
def shortest (i : Interval) : Digits :=
  let top := i.exponent
  let found := (List.range 17).findSome? fun n =>
    (i.nearest? (top - Int.ofNat n)).map fun d => Digits.mk d (top - Int.ofNat n)
  (found.getD ⟨0, 0⟩).trim 20

/-- The choices of a notation for binary64 numbers. -/
structure Layout where
  /-- Numbers below `10 ^ leastPositional` are written with an exponent. -/
  leastPositional : Int
  /-- Numbers from `10 ^ leastExponential` on are written with an exponent. -/
  leastExponential : Int
  /-- What stands between the digits and the exponent. -/
  mark : String
  nan : String
  infinity : String
deriving DecidableEq

namespace Layout

/-- Digits with a point, always with at least one digit on each side of it. -/
def positional (d : Digits) : String :=
  let text := Nat.toDigits 10 d.digits
  if 0 ≤ d.exponent then
    String.ofList (text ++ List.replicate d.exponent.toNat '0') ++ ".0"
  else
    let places := (-d.exponent).toNat
    let filled := Numeral.padLeft (places + 1) text
    String.ofList (filled.take (filled.length - places)) ++ "."
      ++ String.ofList (filled.drop (filled.length - places))

/-- One digit, the others after a point if there are any, and the exponent. -/
def exponential (l : Layout) (d : Digits) : String :=
  let text := Nat.toDigits 10 d.digits
  let exponent := d.exponent + Int.ofNat (text.length - 1)
  let rest := text.drop 1
  String.ofList (text.take 1)
    ++ (if rest.isEmpty then "" else "." ++ String.ofList rest)
    ++ l.mark ++ Numeral.signedDecimal exponent

/-- The text of a finite positive number. -/
def finite (l : Layout) (d : Digits) : String :=
  let top := d.exponent + Int.ofNat ((Nat.toDigits 10 d.digits).length - 1)
  if l.leastPositional ≤ top ∧ top < l.leastExponential then positional d else l.exponential d

/-- The text of the binary64 number with the given bit pattern. -/
def render (l : Layout) (bits : Nat) : String :=
  let sign := if bits / 2 ^ 63 % 2 = 1 then "-" else ""
  let exponent := bits / 2 ^ 52 % 2 ^ 11
  let fraction := bits % 2 ^ 52
  if exponent = 2047 then
    if fraction = 0 then sign ++ l.infinity else l.nan
  else if exponent = 0 ∧ fraction = 0 then sign ++ "0.0"
  else
    let interval :=
      if exponent = 0 then Interval.ofBinary fraction (-1074)
      else Interval.ofBinary (2 ^ 52 + fraction) (Int.ofNat exponent - 1075)
    sign ++ l.finite (shortest interval)

end Layout

end RegisterTransfer.Decimal
