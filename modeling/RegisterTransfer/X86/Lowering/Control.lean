/-
# RegisterTransfer.X86.Lowering.Control -- stack, control flow, ports and string instructions

A repeated string instruction is a loop: it leaves when the count is zero, does one step, counts
down and starts again at its own address.
-/
import RegisterTransfer.Intrinsic.Names
import RegisterTransfer.X86.Lowering.Operand

namespace RegisterTransfer.X86.Lower

set_option autoImplicit false

/-! ## Stack -/

/-- Push the operand.  A literal is as wide as the mode's words. -/
def push (m : Mode) (i : Instruction) : Lowering Unit := do
  let o ← i.operand 0
  let type :=
    match o with
    | .immediate .. => m.word
    | other => other.type
  pushValue m (i.read m o type) type

def pop (m : Mode) (i : Instruction) : Lowering Unit := do
  let (dst, type) ← i.destination m
  popInto m dst type

def pushFlags (m : Mode) : Lowering Unit := pushValue m (Flag.value Flag.saved) m.word

def popFlags (m : Mode) : Lowering Unit := popInto m (Flag.value Flag.saved) m.word

def leaveFrame (m : Mode) : Lowering Unit := do
  .assign m.stackPointer.value m.framePointer.value
  popInto m m.framePointer.value m.framePointer.type

/-- Copy one outer frame pointer. -/
def copyFramePointer (m : Mode) : Lowering Unit := do
  let type := m.framePointer.type
  adjust m.framePointer (-(type.bytes : Int))
  pushValue m (stackSlot m type m.framePointer.value) type

/-- Push the frame pointer, copy those of the outer frames up to the nesting level, and reserve
space. -/
def enterFrame (m : Mode) (i : Instruction) : Lowering Unit := do
  let size ← i.immediate 0
  let level ← if i.operands.length > 1 then i.immediate 1 else pure 0
  let level := (level % 32).toNat
  let type := m.framePointer.type
  pushValue m m.framePointer.value type
  let frame ← Lowering.temporary type
  .assign frame m.stackPointer.value
  (List.replicate (level - 1) ()).forM fun _ => copyFramePointer m
  if level > 0 then pushValue m frame type
  .assign m.framePointer.value frame
  if size ≠ 0 then adjust m.stackPointer (wrap64 (-size))

/-- The families of the general registers that are pushed together, in their order. -/
def pushedTogether : List (Fin 16) := [0, 1, 2, 3, 4, 5, 6, 7]

/-- A general register at the width of a type, or at 32 bits if it has no such part. -/
def generalAt (family : Fin 16) (type : DataType) : Register :=
  (Register.general family .bits32).resize type.bits

/-- Push the general registers.  The stack pointer is pushed as it was at first. -/
def pushGeneral (m : Mode) (i : Instruction) : Lowering Unit := do
  let type := i.dataType
  let saved ← Lowering.temporary type
  .assign saved (generalAt 4 type).value
  pushedTogether.forM fun family =>
    pushValue m (if family = 4 then saved else (generalAt family type).value) type

/-- Pop the general registers.  The stack pointer is skipped. -/
def popGeneral (m : Mode) (i : Instruction) : Lowering Unit := do
  let type := i.dataType
  pushedTogether.reverse.forM fun family =>
    if family = 4 then adjust m.stackPointer type.bytes
    else popInto m (generalAt family type).value type

/-! ## Control flow -/

def call (m : Mode) (i : Instruction) : Lowering Unit := do
  .call (← i.readAt m 0 m.word) m.pointerSize

def jump (m : Mode) (i : Instruction) : Lowering Unit := do
  .goto (← i.readAt m 0 m.word)

/-- Return, and drop as many bytes of arguments as an immediate operand says. -/
def returnFromCall (m : Mode) (i : Instruction) : Lowering Unit :=
  let extra :=
    match i.operands with
    | .immediate value _ :: _ => (value % 2 ^ 32).toNat
    | _ => 0
  .ret m.pointerSize extra

/-- Return from an interrupt.  The flags are above the far return address. -/
def returnFromInterrupt (m : Mode) : Lowering Unit := do
  let bytes := m.word.bytes
  let saved := stackSlot m m.word (m.stackPointer.value.addInt (2 * bytes))
  .assign (Flag.value Flag.saved) saved
  .ret (2 * bytes) bytes

def jumpIf (i : Instruction) (c : Condition) : Lowering Unit := do
  .branch (conditionHolds c) (← i.codeTarget 0)

def jumpIfNoCount (i : Instruction) (width : Mode) : Lowering Unit := do
  .branch (Register.ecx.resize width.bits).value.isZero (← i.codeTarget 0)

/-- Whether the zero flag is as a condition says. -/
def zeroFlag (c : Condition) : Expr := .test c (Flag.value Flag.zero)

/-- The count register of an instruction. -/
def countRegister (i : Instruction) : Register := Register.ecx.resize i.addressType.bits

/-- Count down and jump while the count is not zero and the condition, if any, holds. -/
def loop (i : Instruction) (condition : Option Condition) : Lowering Unit := do
  let target ← i.codeTarget 0
  adjust (countRegister i) (-1)
  let counting := (countRegister i).value.isNonzero
  .branch ((condition.map fun c => counting.both (zeroFlag c)).getD counting) target

/-! ## System and ports -/

def halt : Lowering Unit := do
  effect IntrinsicName.hlt []
  .setFlow .halt

def interrupt (m : Mode) (i : Instruction) : Lowering Unit := do
  effect IntrinsicName.syscall [← i.readAt m 0 .byte]

def portIn (m : Mode) (i : Instruction) : Lowering Unit := do
  let (dst, type) ← i.destination m
  let port ← i.readAt m 1 .word16
  .assign dst (← .apply IntrinsicName.portIn type [port])

def portOut (m : Mode) (i : Instruction) : Lowering Unit := do
  let port ← i.readAt m 0 .word16
  let source ← i.operand 1
  effect IntrinsicName.portOut [port, i.read m source source.type]

/-! ## String instructions -/

/-- Memory at an index register. -/
def indexed (m : Mode) (type : DataType) (index : Register) (segment : Segment) : Expr :=
  .memoryIn (if m.isSegmented then some (Register.segment segment).value else none) type
    index.value

/-- Type of the first reference among some operands. -/
def referenceType? (operands : List Operand) : Option DataType :=
  operands.findSome? fun
    | .memory ref => some ref.type
    | _ => none

/-- Type of the elements of a string instruction. -/
def elementType (i : Instruction) (op : StringOp) : DataType :=
  if op.isByte then .byte
  else
    match op with
    | .ins | .outs => (referenceType? i.operands).getD i.dataType
    | _ => i.dataType

/-- One step of a string instruction.  The direction flag is taken to be clear. -/
def stringStep (m : Mode) (i : Instruction) (op : StringOp) : Lowering Unit := do
  let type := elementType i op
  let si := Register.esi.resize i.addressType.bits
  let di := Register.edi.resize i.addressType.bits
  let acc := (Register.eax.resize type.bits).value
  let src := indexed m type si .ds
  let dst := indexed m type di .es
  let step (r : Register) : Lowering Unit := adjust r type.bytes
  match op with
  | .movs | .movsb =>
      .assign dst src
      step si
      step di
  | .stos | .stosb =>
      .assign dst acc
      step di
  | .lods | .lodsb =>
      .assign acc src
      step si
  | .ins =>
      .assign dst (← .apply IntrinsicName.portIn type [Register.dx.value])
      step di
  | .outs =>
      effect IntrinsicName.portOut [Register.dx.value, src]
      step si
  | .cmps | .cmpsb =>
      setFlagsFrom Flag.sczo (src.sub dst)
      step si
      step di
  | .scas | .scasb =>
      setFlagsFrom Flag.sczo (acc.sub dst)
      step di

/-- The condition on the zero flag that ends a repetition. -/
def stopCondition : Repetition → Condition
  | .whileEqual => .ne
  | .whileDifferent => .eq

/-- A string instruction repeated from an address on, up to the end of the instruction. -/
def repeated (m : Mode) (start : Nat) (i : Instruction) (op : StringOp)
    (repetition : Repetition) : Lowering Unit := do
  .branch (countRegister i).value.isZero i.nextAddress
  stringStep m i op
  adjust (countRegister i) (-1)
  if op.isComparison then .branch (zeroFlag (stopCondition repetition)) i.nextAddress
  .goto (.address start)
  .setFlow .conditional

/-- A string instruction, with the repetition in front of it if there is one. -/
def string (m : Mode) (i : Instruction) (op : StringOp) : Lowering Unit :=
  match i.repetition with
  | some repetition => repeated m i.address i op repetition
  | none => stringStep m i op

/-- A repetition decoded on its own absorbs the string instruction after it.  Before anything else
it does nothing. -/
def repeatNext (m : Mode) (i : Instruction) (next : Option Instruction)
    (repetition : Repetition) : Lowering Bool :=
  match next with
  | some following =>
      match following.opcode with
      | .string op => do
          repeated m i.address following op repetition
          return true
      | _ => do
          .nop
          return false
  | none => do
      .nop
      return false

end RegisterTransfer.X86.Lower
