/-
# RegisterTransfer.Proofs.Meaning.Value -- what operators compute

The value of an expression is a number below `2 ^ bits` of its type.  Operators are read on such
numbers: arithmetic wraps at the width of the result, signed operators read their operands as two's
complement, and a cast extends the sign if its target is signed.

Real arithmetic, intrinsics and the flags an operation sets are left open: an `Interpretation`
supplies them, and theorems hold for every one.  The value of an intrinsic may depend on everything
that was applied before, as reading a port does.
-/
import RegisterTransfer.Expr
import RegisterTransfer.Proofs.Meaning.Bits

namespace RegisterTransfer

set_option autoImplicit false

/-- An intrinsic that was applied to values. -/
structure Application where
  name : String
  arguments : List Nat
deriving DecidableEq

/-- What condition codes are derived from: an operation on two values, or a value. -/
inductive Outcome where
  | operation (op : BinaryOp) (bits left right : Nat)
  | value (bits value : Nat)
deriving DecidableEq

/-- What the language leaves open. -/
structure Interpretation where
  /-- The value of an intrinsic after some applications. -/
  intrinsic : List Application → String → List Nat → Nat
  /-- Whether an operation sets a bit of a flag register. -/
  flag : String → Nat → Outcome → Bool
  /-- Arithmetic on bit patterns of reals. -/
  real : BinaryOp → DataType → Nat → Nat → Nat
  realNegate : DataType → Nat → Nat
  /-- Conversions from or to a real type. -/
  convert : DataType → DataType → Nat → Nat

variable (I : Interpretation)

/-- The value of an operation with a result of type `t` on operands of some widths. -/
def BinaryOp.value (op : BinaryOp) (t : DataType) (leftBits rightBits left right : Nat) : Nat :=
  let signedLeft := Bits.signed leftBits left
  let signedRight := Bits.signed rightBits right
  match op with
  | .add => (left + right) % 2 ^ t.bits
  | .sub => Bits.ofInt t.bits (left - right)
  | .mul | .umul => left * right % 2 ^ t.bits
  | .smul => Bits.ofInt t.bits (signedLeft * signedRight)
  | .sdiv => Bits.ofInt t.bits (signedLeft.tdiv signedRight)
  | .udiv => left / right % 2 ^ t.bits
  | .smod => Bits.ofInt t.bits (signedLeft.tmod signedRight)
  | .umod => left % right % 2 ^ t.bits
  | .and => (left &&& right) % 2 ^ t.bits
  | .or => (left ||| right) % 2 ^ t.bits
  | .xor => (left ^^^ right) % 2 ^ t.bits
  | .shl => (left <<< right) % 2 ^ t.bits
  | .shr => (left >>> right) % 2 ^ t.bits
  | .sar => Bits.ofInt t.bits (signedLeft >>> right)
  | .eq => (left == right).toNat
  | .ne => (left != right).toNat
  | .ult => (decide (left < right)).toNat
  | .ule => (decide (left ≤ right)).toNat
  | .ugt => (decide (right < left)).toNat
  | .uge => (decide (right ≤ left)).toNat
  | .lt => (decide (signedLeft < signedRight)).toNat
  | .le => (decide (signedLeft ≤ signedRight)).toNat
  | .gt => (decide (signedRight < signedLeft)).toNat
  | .ge => (decide (signedRight ≤ signedLeft)).toNat
  | .both => (left != 0 && right != 0).toNat
  | .either => (left != 0 || right != 0).toNat
  | .fadd | .fsub | .fmul | .fdiv => I.real op t left right % 2 ^ t.bits

def UnaryOp.value (op : UnaryOp) (t : DataType) (operand : Nat) : Nat :=
  match op with
  | .not => (operand == 0).toNat
  | .complement => 2 ^ t.bits - 1 - operand % 2 ^ t.bits
  | .negate =>
      if t.isReal then I.realNegate t operand % 2 ^ t.bits else Bits.ofInt t.bits (-operand)

/-- The value of a cast between two types. -/
def DataType.castValue (source target : DataType) (value : Nat) : Nat :=
  if source.isReal || target.isReal then I.convert source target value % 2 ^ target.bits
  else if target.isSigned then Bits.ofInt target.bits (Bits.signed source.bits value)
  else value % 2 ^ target.bits

/-- Whether a condition holds of the flags it depends on, gathered with the lowest first: the carry
below zero, and zero below the sign below the overflow. -/
def Condition.holds (c : Condition) (flags : Nat) : Bool :=
  match c with
  | .ult | .eq | .ov | .sg | .pe => flags.testBit 0
  | .uge | .ne | .no | .ns | .po => !flags.testBit 0
  | .ule => flags != 0
  | .ugt => !(flags != 0)
  | .lt => flags.testBit 0 != flags.testBit 1
  | .ge => !(flags.testBit 0 != flags.testBit 1)
  | .le => flags.testBit 0 || flags.testBit 1 != flags.testBit 2
  | .gt => !(flags.testBit 0 || flags.testBit 1 != flags.testBit 2)

/-- Of a condition and its inverse exactly one holds. -/
theorem Condition.holds_invert (c : Condition) (flags : Nat) :
    c.invert.holds flags = !c.holds flags := by
  cases c <;> simp [invert, holds]

end RegisterTransfer
