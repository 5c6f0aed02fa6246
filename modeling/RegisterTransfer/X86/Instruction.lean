/-
# RegisterTransfer.X86.Instruction -- x86 instructions

An instruction is an opcode with operands at an address, the mnemonic it was decoded with and the
widths in effect.  Its text is the repetition, the mnemonic, a tab, and the operands with commas
between them.
-/
import RegisterTransfer.Stream
import RegisterTransfer.X86.Opcode
import RegisterTransfer.X86.Operand

namespace RegisterTransfer.X86

set_option autoImplicit false

/-- How a string instruction is repeated. -/
inductive Repetition where
  /-- While the count is not zero, and for comparisons while their operands are equal. -/
  | whileEqual
  /-- While the count is not zero and the compared operands differ. -/
  | whileDifferent
deriving DecidableEq

def Repetition.name : Repetition → String
  | whileEqual => "rep"
  | whileDifferent => "repne"

/-- An instruction at an address. -/
structure Instruction where
  address : Nat
  length : Nat
  opcode : Opcode
  /-- The spelling the instruction was decoded with. -/
  mnemonic : String
  operands : List Operand
  repetition : Option Repetition
  /-- Type of the values worked on. -/
  dataType : DataType
  /-- Type of addresses. -/
  addressType : DataType
deriving DecidableEq

instance : MachineInstruction Instruction where
  address i := i.address
  length i := i.length

namespace Instruction

/-- An instruction without a repetition.  It works on values of its first operand's type, or of the
address type if it has no operands. -/
def of (address length : Nat) (opcode : Opcode) (operands : List Operand)
    (addressType : DataType) : Instruction where
  address
  length
  opcode
  mnemonic := opcode.name
  operands
  repetition := none
  dataType :=
    match operands with
    | [] => addressType
    | first :: _ => first.type
  addressType

def nextAddress (i : Instruction) : Nat := i.address + i.length

/-- The repetition in front of the mnemonic. -/
def repetitionText (i : Instruction) : String :=
  match i.repetition with
  | some r => r.name ++ " "
  | none => ""

/-- The assembly text of an instruction. -/
def text (i : Instruction) : String :=
  let head := i.repetitionText ++ i.mnemonic
  match i.operands with
  | [] => head
  | operands => head ++ "\t" ++ ",".intercalate (operands.map (·.text))

end Instruction

end RegisterTransfer.X86
