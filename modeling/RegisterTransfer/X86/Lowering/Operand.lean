/-
# RegisterTransfer.X86.Lowering.Operand -- operands as expressions

What an operand of an instruction stands for in a mode: a register, a literal as wide as the other
operand asks, memory at its effective address, or an address in code.  An instruction that lacks an
operand its lowering needs, or has one of another kind, is malformed.
-/
import RegisterTransfer.Draft.Copy
import RegisterTransfer.X86.Instruction

namespace RegisterTransfer.X86

set_option autoImplicit false

/-- The value of a register. -/
def Register.value (r : Register) : Expr := .identifier r.identifier

/-- The value of a group of flags. -/
def Flag.value (mask : Nat) : Expr := .identifier (Flag.group mask)

namespace Instruction

def malformed (i : Instruction) (reason : String) : Fault := .malformed i.address reason

/-- An operand by its position. -/
def operand (i : Instruction) (n : Nat) : Except Fault Operand :=
  match i.operands[n]? with
  | some o => .ok o
  | none =>
      .error (i.malformed (i.mnemonic ++ " needs operand " ++ Numeral.decimal (n + 1)))

/-- The address in code that an operand gives. -/
def codeTarget (i : Instruction) (n : Nat) : Except Fault Nat := do
  match ← i.operand n with
  | .address a => return a
  | .immediate value _ => return word64OfInt value
  | other => throw (i.malformed ("expected a code address, found " ++ other.text))

/-- The number that an operand gives. -/
def immediate (i : Instruction) (n : Nat) : Except Fault Int := do
  match ← i.operand n with
  | .immediate value _ => return value
  | other => throw (i.malformed ("expected an immediate, found " ++ other.text))

/-- The reference that an operand gives. -/
def reference (i : Instruction) (n : Nat) : Except Fault MemoryOperand := do
  match ← i.operand n with
  | .memory m => return m
  | _ => throw (i.malformed (i.mnemonic ++ " needs a memory operand"))

/-- The index register of a reference, times its scale. -/
def scaledIndex (m : MemoryOperand) : Option Expr :=
  m.index.map fun r =>
    if m.scale > 1 then r.value.mul (.word m.scale r.type) else r.value

/-- The registers of a reference added up. -/
def registerSum (m : MemoryOperand) : Option Expr :=
  match m.base.map Register.value, scaledIndex m with
  | some base, some index => some (base.add index)
  | base, index => base.or index

/-- The address a reference stands for within its segment. -/
def effectiveAddress (i : Instruction) (m : MemoryOperand) : Expr :=
  if m.isInstructionRelative then
    .constant (.ofInt (i.nextAddress + m.displacement) i.addressType)
  else
    match registerSum m with
    | some sum => if m.displacement = 0 then sum else sum.addInt m.displacement
    | none => .constant (.ofInt m.displacement i.addressType)

/-- The memory a reference stands for. -/
def memory (i : Instruction) (mode : Mode) (m : MemoryOperand) : Expr :=
  .memoryIn ((m.segmentIn mode).map Register.value) m.type (i.effectiveAddress m)

theorem type_memory (i : Instruction) (mode : Mode) (m : MemoryOperand) :
    (i.memory mode m).type = m.type :=
  Expr.type_memoryIn _ _ _

/-- The value of an operand.  Literals take the type given. -/
def read (i : Instruction) (mode : Mode) (o : Operand) (type : DataType) : Expr :=
  match o with
  | .register r => r.value
  | .immediate value _ => .constant (.ofInt value type)
  | .memory m => i.memory mode m
  | .address a => .address a

/-- The value of the operand at a position. -/
def readAt (i : Instruction) (mode : Mode) (n : Nat) (type : DataType) : Except Fault Expr := do
  return i.read mode (← i.operand n) type

/-- The first operand as a destination, and its type. -/
def destination (i : Instruction) (mode : Mode) : Except Fault (Expr × DataType) := do
  let o ← i.operand 0
  return (i.read mode o o.type, o.type)

/-- The value of the operand at a position, or of another expression if there is none. -/
def readOr (i : Instruction) (mode : Mode) (n : Nat) (type : DataType) (default : Expr) : Expr :=
  match i.operands[n]? with
  | some o => i.read mode o type
  | none => default

end Instruction

namespace Lower

/-- Store a result and derive the opcode's flags from it as the mode says. -/
def store (i : Instruction) (how : CopyMode) (dst src : Expr) : Lowering Expr :=
  .copy ⟨Flag.group i.opcode.definedFlags, Flag.group Flag.carry⟩ how dst src

/-- Store a result and derive the opcode's flags from it. -/
def storeWithFlags (i : Instruction) (dst src : Expr) : Lowering Unit := do
  let _ ← store i .withFlags dst src

/-- Add a number to a register. -/
def adjust (r : Register) (delta : Int) : Lowering Unit :=
  .assign r.value (r.value.addInt delta)

/-- Set or clear the flags of a mask. -/
def setFlag (mask : Nat) (value : Bool) : Lowering Unit :=
  .assign (Flag.value mask) (.ofBool value)

/-- Derive a group of flags from a value. -/
def setFlagsFrom (mask : Nat) (e : Expr) : Lowering Unit :=
  .assign (Flag.value mask) (.conditionCodes e)

/-- An intrinsic called for its effect. -/
def effect (name : String) (arguments : List Expr) : Lowering Unit := do
  .effect (← .apply name .void arguments)

/-- Whether a condition holds of the flags it depends on. -/
def conditionHolds (c : Condition) : Expr := .test c (Flag.value (Flag.usedBy c))

/-- Memory at an address of the stack. -/
def stackSlot (mode : Mode) (type : DataType) (address : Expr) : Expr :=
  .memoryIn (if mode.isSegmented then some (Register.segment .ss).value else none) type address

/-- Move the stack pointer down and store a value there. -/
def pushValue (mode : Mode) (value : Expr) (type : DataType) : Lowering Unit := do
  adjust mode.stackPointer (-(type.bytes : Int))
  .assign (stackSlot mode type mode.stackPointer.value) value

/-- Load a value from the stack and move the stack pointer up. -/
def popInto (mode : Mode) (dst : Expr) (type : DataType) : Lowering Unit := do
  .assign dst (stackSlot mode type mode.stackPointer.value)
  adjust mode.stackPointer type.bytes

end Lower

end RegisterTransfer.X86
