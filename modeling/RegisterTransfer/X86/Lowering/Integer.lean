/-
# RegisterTransfer.X86.Lowering.Integer -- integer instructions

Arithmetic, logic, shifts, moves and flags.  The operand size is that of the first operand.
-/
import RegisterTransfer.Intrinsic.Names
import RegisterTransfer.X86.Lowering.Operand

namespace RegisterTransfer.X86.Lower

set_option autoImplicit false

/-- Both operands, the second read with the type of the first. -/
def operands (m : Mode) (i : Instruction) : Except Fault (Expr × Expr × DataType) := do
  let (dst, type) ← i.destination m
  return (dst, ← i.readAt m 1 type, type)

/-! ## Arithmetic and logic -/

def binary (m : Mode) (i : Instruction) (op : BinaryOp) : Lowering Unit := do
  let (dst, src, type) ← operands m i
  storeWithFlags i dst (.binary op type dst src)

/-- An operation applied once more to the carry. -/
def withCarry (m : Mode) (i : Instruction) (op : BinaryOp) : Lowering Unit := do
  let (dst, src, type) ← operands m i
  storeWithFlags i dst (.binary op type (.binary op type dst src) (Flag.value Flag.carry))

/-- A logical operation clears the carry. -/
def logical (m : Mode) (i : Instruction) (op : BinaryOp) : Lowering Unit := do
  binary m i op
  setFlag Flag.carry false

def compare (m : Mode) (i : Instruction) : Lowering Unit := do
  let (a, b, _) ← operands m i
  setFlagsFrom Flag.sczo (a.sub b)

def test (m : Mode) (i : Instruction) : Lowering Unit := do
  let (a, b, _) ← operands m i
  setFlagsFrom Flag.szo (a.and b)
  setFlag Flag.carry false

/-- Count the operand up or down, which leaves the carry alone. -/
def count (m : Mode) (i : Instruction) (delta : Int) : Lowering Unit := do
  let (dst, _) ← i.destination m
  storeWithFlags i dst (dst.addInt delta)

def complement (m : Mode) (i : Instruction) : Lowering Unit := do
  let (dst, _) ← i.destination m
  let _ ← store i .viaTemporary dst dst.complement

/-- Negate the operand.  The carry is set unless it was zero. -/
def negate (m : Mode) (i : Instruction) : Lowering Unit := do
  let (dst, _) ← i.destination m
  let result ← store i .withFlags dst dst.negate
  .assign (Flag.value Flag.carry) result.isNonzero

def adjustPrivilege (m : Mode) (i : Instruction) : Lowering Unit := do
  let dst ← i.readAt m 0 .word16
  let src ← i.readAt m 1 .word16
  storeWithFlags i dst (← .apply IntrinsicName.arpl .word16 [dst, src])

/-- The integer type of a width. -/
def integer (signed : Bool) (bits : Nat) : DataType :=
  if signed then .int bits else .uint bits

/-- The registers of a multiplication or division: the low and the high half and both together. -/
structure Accumulator where
  low : Register
  high : Register
  whole : Expr

/-- The accumulator for operands of some width, whose whole is of the type given.  For bytes it is
one register. -/
def accumulator (bits : Nat) (type : DataType) : Accumulator :=
  if bits = 8 then ⟨.al, .ah, Register.ax.value⟩
  else
    let low := Register.eax.resize bits
    let high := Register.edx.resize bits
    ⟨low, high, .concat type high.value low.value⟩

/-- A product of twice the operand's width. -/
def wideMultiply (m : Mode) (i : Instruction) (signed : Bool) : Lowering Unit := do
  let (src, type) ← i.destination m
  let wide := integer signed (2 * type.bits)
  let acc := accumulator type.bits wide
  .assign acc.whole (.binary (if signed then .smul else .umul) wide acc.low.value src)
  setFlagsFrom Flag.sczo acc.whole

/-- Signed multiplication: with one operand into the accumulator, with two or three cut to the
width of the first. -/
def multiplySigned (m : Mode) (i : Instruction) : Lowering Unit := do
  if i.operands.length = 1 then wideMultiply m i true
  else
    let (dst, type) ← i.destination m
    let (left, right) := if i.operands.length = 2 then (0, 1) else (1, 2)
    let a ← i.readAt m left type
    let b ← i.readAt m right type
    storeWithFlags i dst (.binary .smul (.int type.bits) a b)

/-- The remainder goes to the high half and the quotient to the low half; the dividend is kept in a
temporary so that both are taken from it. -/
def divide (m : Mode) (i : Instruction) (signed : Bool) : Lowering Unit := do
  let (divisor, type) ← i.destination m
  let wide := integer signed (2 * type.bits)
  let part := integer signed type.bits
  let acc := accumulator type.bits wide
  let dividend ← Lowering.temporary wide
  .assign dividend acc.whole
  .assign acc.high.value (.binary (if signed then .smod else .umod) part dividend divisor)
  .assign acc.low.value (.binary (if signed then .sdiv else .udiv) part dividend divisor)

/-- The count of a shift, which is one if no operand gives it. -/
def shiftCount (m : Mode) (i : Instruction) : Expr := i.readOr m 1 .byte (.byte 1)

def shift (m : Mode) (i : Instruction) (op : BinaryOp) : Lowering Unit := do
  let (dst, type) ← i.destination m
  storeWithFlags i dst (.binary op type dst (shiftCount m i))

def rotate (m : Mode) (i : Instruction) (name : String) (throughCarry : Bool) :
    Lowering Unit := do
  let (dst, type) ← i.destination m
  let carry := if throughCarry then [Flag.value Flag.carry] else []
  storeWithFlags i dst (← .apply name type ([dst, shiftCount m i] ++ carry))

def doubleShift (m : Mode) (i : Instruction) (name : String) : Lowering Unit := do
  let (dst, src, type) ← operands m i
  let by_ ← i.readAt m 2 .byte
  let value ← Lowering.apply name type [dst, src, by_]
  let _ ← store i .viaTemporary dst value

def bitTest (m : Mode) (i : Instruction) : Lowering Unit := do
  let (base, bit, _) ← operands m i
  .assign (Flag.value Flag.carry) (← .apply IntrinsicName.bt .bool [base, bit])

def bitScan (m : Mode) (i : Instruction) : Lowering Unit := do
  let (dst, src, type) ← operands m i
  .assign (Flag.value Flag.zero) src.isZero
  .assign dst (← .apply IntrinsicName.bsr type [src])

def byteSwap (m : Mode) (i : Instruction) : Lowering Unit := do
  let (dst, type) ← i.destination m
  let value ← Lowering.apply IntrinsicName.bswap type [dst]
  let _ ← store i .plain dst value

/-- Correct a register after arithmetic on decimal digits. -/
def decimalAdjust (i : Instruction) (name : String) (r : Register) : Lowering Unit := do
  storeWithFlags i r.value (← .apply name r.type [r.value])

/-- Split a byte into digits, in base ten if no operand gives another. -/
def splitDigits (m : Mode) (i : Instruction) : Lowering Unit := do
  let base := i.readOr m 0 .byte (.byte 10)
  .assign Register.ax.value (← .apply IntrinsicName.aam .word16 [Register.al.value, base])

/-! ## Moves -/

def move (m : Mode) (i : Instruction) : Lowering Unit := do
  let (dst, src, _) ← operands m i
  let _ ← store i .plain dst src

/-- A move that widens its source. -/
def extend (m : Mode) (i : Instruction) (signed : Bool) : Lowering Unit := do
  let (dst, type) ← i.destination m
  let source ← i.operand 1
  .assign dst (.cast (integer signed type.bits) (i.read m source source.type))

def loadAddress (m : Mode) (i : Instruction) : Lowering Unit := do
  let (dst, _) ← i.destination m
  match ← i.operand 1 with
  | .memory ref => .assign dst (i.effectiveAddress ref)
  | _ => .fail (i.malformed "lea needs a memory operand")

/-- Load an offset and a segment from memory.  The offset goes through a temporary, so a register in
the address is read before it changes. -/
def loadFarPointer (m : Mode) (i : Instruction) (segment : Segment) : Lowering Unit := do
  let (dst, type) ← i.destination m
  let ref ← i.reference 1
  let offset ← Lowering.temporary type
  .assign offset (i.memory m { ref with type })
  .assign (Register.segment segment).value
    (i.memory m
      { ref with type := .word16, displacement := wrap64 (ref.displacement + type.bytes) })
  .assign dst offset

/-- Exchange two operands.  Exchanging an operand with itself does nothing. -/
def exchange (m : Mode) (i : Instruction) : Lowering Unit := do
  let a ← i.operand 0
  let b ← i.operand 1
  if a = b then .nop
  else
    let kept ← Lowering.temporary a.type
    .assign kept (i.read m a a.type)
    .assign (i.read m a a.type) (i.read m b a.type)
    .assign (i.read m b a.type) kept

/-- Extend the sign of a register into a wider one. -/
def widen (source wide : Register) : Lowering Unit :=
  .assign wide.value (.cast (.int wide.bits) source.value)

/-- Extend the sign of a register into a second one. -/
def widenPair (low high : Register) : Lowering Unit :=
  let type := DataType.int (2 * low.bits)
  .assign (.concat type high.value low.value) (.cast type low.value)

/-- Replace a byte by the entry of a table that it selects. -/
def translate (m : Mode) (i : Instruction) : Lowering Unit :=
  let bits := i.addressType.bits
  let table := (Register.ebx.resize bits).value
  let index := Expr.cast (.uint bits) Register.al.value
  let segment := if m.isSegmented then some (Register.segment .ds).value else none
  .assign Register.al.value (.memoryIn segment .byte (table.add index))

/-! ## Flags -/

def invertCarry : Lowering Unit :=
  .assign (Flag.value Flag.carry) (Flag.value Flag.carry).not

def loadFlags : Lowering Unit := .assign Register.ah.value (Flag.value Flag.inAh)

def storeFlags : Lowering Unit := .assign (Flag.value Flag.inAh) Register.ah.value

def setIf (m : Mode) (i : Instruction) (c : Condition) : Lowering Unit := do
  .assign (← i.readAt m 0 .byte) (conditionHolds c)

def moveIf (m : Mode) (i : Instruction) (c : Condition) : Lowering Unit := do
  let (dst, src, _) ← operands m i
  .assignIf (conditionHolds c) dst src

end RegisterTransfer.X86.Lower
