/-
# RegisterTransfer.Pic18.Instruction -- PIC18 instructions

An instruction is an opcode with operands at an address.  Its text is the mnemonic, a tab, and the
operands that have a text, with commas between them.
-/
import RegisterTransfer.Pic18.Opcode
import RegisterTransfer.Pic18.Operand.Printer
import RegisterTransfer.Stream

namespace RegisterTransfer.Pic18

set_option autoImplicit false

/-- An instruction or data directive at an address. -/
structure Instruction where
  address : Nat
  /-- Length in bytes: 2, 4 or 6, or the size of a directive's payload. -/
  length : Nat
  opcode : Opcode
  operands : List Operand
deriving DecidableEq

instance : MachineInstruction Instruction where
  address i := i.address
  length i := i.length

namespace Instruction

/-- A word that is no instruction. -/
def invalid (address : Nat) : Instruction := ⟨address, 2, .invalid, []⟩

def nextAddress (i : Instruction) : Nat := i.address + i.length

/-- The texts of the operands that have one. -/
def operandTexts (i : Instruction) (c : Catalog) : List String :=
  (i.operands.map (·.text c)).filter (· ≠ "")

/-- The assembly text of an instruction. -/
def text (i : Instruction) (c : Catalog) : String :=
  match i.operandTexts c with
  | [] => i.opcode.name
  | texts => i.opcode.name ++ "\t" ++ ",".intercalate texts

end Instruction

end RegisterTransfer.Pic18
