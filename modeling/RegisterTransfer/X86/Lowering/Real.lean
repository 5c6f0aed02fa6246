/-
# RegisterTransfer.X86.Lowering.Real -- the floating-point unit

The registers of the unit form a stack whose top is counted in a register of its own.  A lowering
names the registers by their distance from the top as the instruction finds it, and moves the top
with additions; values widen to extended precision when they are loaded.
-/
import RegisterTransfer.Intrinsic.Names
import RegisterTransfer.X86.Lowering.Operand

namespace RegisterTransfer.X86.Lower

set_option autoImplicit false

def st0 : Expr := Register.st0.value

def st1 : Expr := Register.st1.value

/-- Move the top of the stack; a positive number pops. -/
def moveTop (n : Int) : Lowering Unit := adjust .top n

def popTopIf (pops : Bool) : Lowering Unit := if pops then moveTop 1 else pure ()

/-- The reference with the real or integer type of its width. -/
def numeric (ref : MemoryOperand) (integer : Bool) : MemoryOperand :=
  { ref with type := if integer then .int ref.type.bits else .real ref.type.bits }

/-- The value of an operand in extended precision. -/
def realValue (m : Mode) (i : Instruction) (o : Operand) (integer : Bool) : Expr :=
  match o with
  | .memory ref =>
      let value := i.memory m (numeric ref integer)
      if value.type = .real80 then value else .cast .real80 value
  | other => i.read m other .real80

/-- Push a constant, given by its IEEE bits. -/
def loadConstant (bits : Nat) : Lowering Unit := do
  moveTop (-1)
  .assign st0 (.constant (.real64 bits))

/-- Push a value.  A register that is pushed is one deeper once the top has moved. -/
def loadReal (m : Mode) (i : Instruction) (integer : Bool) : Lowering Unit := do
  let o ← i.operand 0
  let value :=
    match o.register?.bind Register.fpuIndex? with
    | some n => (Register.fpu (n + 1)).value
    | none => realValue m i o integer
  moveTop (-1)
  .assign st0 value

/-- Store the top to memory or to a register.  Storing it to itself does nothing. -/
def storeReal (m : Mode) (i : Instruction) (integer pops : Bool) : Lowering Unit := do
  match ← i.operand 0 with
  | .memory ref =>
      let dst := i.memory m (numeric ref integer)
      .assign dst (if dst.type = .real80 then st0 else .cast dst.type st0)
  | .register r => if r ≠ .st0 then .assign r.value st0
  | other => .assign (i.read m other .real80) st0
  popTopIf pops

/-- Destination and source of arithmetic.  Without operands they are the two topmost registers; a
single operand is the destination if it is a register of a popping form, and the source
otherwise. -/
def realOperands (m : Mode) (i : Instruction) (pops : Bool) : Except Fault (Expr × Expr) :=
  match i.operands with
  | [] => return (st1, st0)
  | [o] =>
      if pops && o.register?.isSome then return (i.read m o .real80, st0)
      else return (st0, realValue m i o false)
  | [dst, src] => return (i.read m dst .real80, realValue m i src false)
  | _ => throw (i.malformed (i.mnemonic ++ " takes at most two operands"))

/-- The operation between a destination and a source. -/
def realResult (op : RealArithmetic) (dst src : Expr) : Expr :=
  if op.isReversed then .binary op.operator .real80 src dst
  else .binary op.operator .real80 dst src

def realArithmetic (m : Mode) (i : Instruction) (op : RealArithmetic) (pops : Bool) :
    Lowering Unit := do
  let (dst, src) ← realOperands m i pops
  .assign dst (realResult op dst src)
  popTopIf pops

def integerArithmetic (m : Mode) (i : Instruction) (op : RealArithmetic) : Lowering Unit := do
  let o ← i.operand 0
  .assign st0 (realResult op st0 (realValue m i o true))

/-- Derive the condition codes of the unit from the difference between the top and a value. -/
def compareTop (value : Expr) : Lowering Unit :=
  .assign (.identifier Flag.fpuGroup) (.conditionCodes (.binary .fsub .real80 st0 value))

/-- Compare the top with the last operand, or with the register below it. -/
def compareReal (m : Mode) (i : Instruction) (integer : Bool) (pops : Nat) : Lowering Unit := do
  let value :=
    match i.operands.getLast? with
    | some o => realValue m i o integer
    | none => st1
  compareTop value
  if pops > 0 then moveTop pops

def examine : Lowering Unit := do
  .assign (.identifier Flag.fpuGroup) (← .apply IntrinsicName.fxam .byte [st0])

/-- Replace the top by a function of it. -/
def realFunction (name : String) : Lowering Unit := do
  .assign st0 (← .apply name .real80 [st0])

def changeSign : Lowering Unit := .assign st0 st0.negate

def arctangent : Lowering Unit := do
  .assign st1 (← .apply IntrinsicName.atan .real80 [st1, st0])
  moveTop 1

def logarithm : Lowering Unit := do
  let log ← Lowering.apply IntrinsicName.lg2 .real80 [st0]
  .assign st1 (.binary .fmul .real80 st1 log)
  moveTop 1

/-- The top becomes its sine, and its cosine is pushed. -/
def sineCosine : Lowering Unit := do
  let angle ← Lowering.temporary .real80
  .assign angle st0
  moveTop (-1)
  .assign st1 (← .apply IntrinsicName.sin .real80 [angle])
  .assign st0 (← .apply IntrinsicName.cos .real80 [angle])

/-- Exchange the top with the last operand, or with the register below it. -/
def exchangeReal (i : Instruction) : Lowering Unit := do
  let other := (i.operands.getLast?.bind Operand.register?).getD .st1
  if other = .st0 then .nop
  else
    let kept ← Lowering.temporary .real80
    .assign kept st0
    .assign st0 other.value
    .assign other.value kept

def loadControl (m : Mode) (i : Instruction) : Lowering Unit := do
  .assign Register.controlWord.value (← i.readAt m 0 .word16)

/-- Store the control or status word, to the accumulator if no operand says where. -/
def storeWord (m : Mode) (i : Instruction) (word : Register) : Lowering Unit :=
  .assign (i.readOr m 0 .word16 Register.ax.value) word.value

/-- The register transfers of a floating-point instruction. -/
def real (m : Mode) (i : Instruction) : RealOp → Lowering Unit
  | .arithmetic op pops => realArithmetic m i op pops
  | .integerArithmetic op => integerArithmetic m i op
  | .load => loadReal m i false
  | .loadInteger => loadReal m i true
  | .store integer pops => storeReal m i integer pops
  | .loadOne => loadConstant 0x3FF0000000000000
  | .loadZero => loadConstant 0
  | .loadPi => loadConstant 0x400921FB54442D18
  | .compare pops => compareReal m i false pops.val
  | .compareInteger pops => compareReal m i true pops.toNat
  | .test => compareTop (.constant (.real64 0))
  | .examine => examine
  | .changeSign => changeSign
  | .sine => realFunction IntrinsicName.sin
  | .cosine => realFunction IntrinsicName.cos
  | .squareRoot => realFunction IntrinsicName.sqrt
  | .round => realFunction IntrinsicName.rndint
  | .sineCosine => sineCosine
  | .arctangent => arctangent
  | .logarithm => logarithm
  | .exchange => exchangeReal i
  | .clearExceptions => effect IntrinsicName.fclex []
  | .loadControl => loadControl m i
  | .storeControl => storeWord m i .controlWord
  | .storeStatus => storeWord m i .statusWord

end RegisterTransfer.X86.Lower
