/-
# RegisterTransfer.X86.Operand -- x86 operands

An operand is a register, an immediate number, a reference to memory or an address in code.  A
reference adds a base register, a scaled index register and a displacement.  In real mode every
reference goes through a segment; the other modes are flat, and only the two extra segments count
there (`MemoryOperand.segmentIn`).
-/
import RegisterTransfer.Architecture
import RegisterTransfer.X86.Register

namespace RegisterTransfer.X86

set_option autoImplicit false

/-- A reference to memory. -/
structure MemoryOperand where
  /-- Type of the value in memory. -/
  type : DataType
  segment : Option Register := none
  base : Option Register := none
  index : Option Register := none
  scale : Nat := 1
  displacement : Int := 0
deriving DecidableEq

namespace MemoryOperand

/-- Whether the displacement counts from the next instruction. -/
def isInstructionRelative (m : MemoryOperand) : Bool :=
  m.base = some (.instructionPointer .longMode)
    || m.base = some (.instructionPointer .protectedMode)

/-- Whether the base is one of the registers that address the stack. -/
def isStackBased (m : MemoryOperand) : Bool :=
  m.base = some .bp || m.base = some .sp

/-- The segment of a reference that names none: in real mode the stack segment if the base is a
stack register and the data segment otherwise. -/
def defaultSegment (m : MemoryOperand) (mode : Mode) : Option Register :=
  if !mode.isSegmented then none
  else if m.isStackBased then some (.segment .ss)
  else some (.segment .ds)

/-- Whether a segment register counts in a mode: all do in real mode, two in the flat ones. -/
def honours (mode : Mode) (segment : Register) : Bool :=
  mode.isSegmented || segment = .segment .fs || segment = .segment .gs

/-- The segment that a reference goes through in a mode. -/
def segmentIn (m : MemoryOperand) (mode : Mode) : Option Register :=
  (m.segment.or (m.defaultSegment mode)).filter (honours mode)

/-- In real mode every reference goes through a segment. -/
theorem isSome_segmentIn_realMode (m : MemoryOperand) : (m.segmentIn .realMode).isSome := by
  have h : ∃ s, m.segment.or (m.defaultSegment .realMode) = some s := by
    cases hs : m.segment with
    | some s => exact ⟨s, rfl⟩
    | none =>
        by_cases hb : m.isStackBased = true
        · exact ⟨.segment .ss, by simp [defaultSegment, Mode.isSegmented, hb]⟩
        · exact ⟨.segment .ds, by simp [defaultSegment, Mode.isSegmented, hb]⟩
  obtain ⟨s, hs⟩ := h
  simp [segmentIn, hs, honours, Mode.isSegmented]

/-- The word for the size of a value in memory, with the space after it. -/
def sizeText (type : DataType) : String :=
  match type.bits with
  | 8 => "byte ptr "
  | 16 => "word ptr "
  | 32 => "dword ptr "
  | 64 => "qword ptr "
  | 80 => "tbyte ptr "
  | _ => ""

/-- The registers of a reference, the index with its scale. -/
def registersText (m : MemoryOperand) : String :=
  let base := m.base.toList.map (·.name)
  let index := m.index.toList.map fun r =>
    if m.scale > 1 then r.name ++ "*" ++ Numeral.decimal m.scale else r.name
  "+".intercalate (base ++ index)

/-- The displacement, which is left out when it is zero and registers precede it.  On its own it is
written as the 64 bits of its two's complement. -/
def displacementText (m : MemoryOperand) : String :=
  if m.base.isSome || m.index.isSome then
    if m.displacement = 0 then ""
    else if m.displacement < 0 then "-" ++ Numeral.lower0x m.displacement.natAbs
    else "+" ++ Numeral.lower0x m.displacement.toNat
  else Numeral.lower0x (m.displacement % 2 ^ 64).toNat

def text (m : MemoryOperand) : String :=
  sizeText m.type
    ++ (match m.segment with
      | some s => s.name ++ ":"
      | none => "")
    ++ "[" ++ m.registersText ++ m.displacementText ++ "]"

end MemoryOperand

/-- An operand. -/
inductive Operand where
  | register (r : Register)
  | immediate (value : Int) (type : DataType)
  | memory (m : MemoryOperand)
  /-- The target of a jump or call. -/
  | address (a : Nat)
deriving DecidableEq

namespace Operand

/-- Type of the operand's value. -/
def type : Operand → DataType
  | register r => r.type
  | immediate _ t => t
  | memory m => m.type
  | address _ => .ptr32

def register? : Operand → Option Register
  | register r => some r
  | _ => none

def text : Operand → String
  | register r => r.name
  | immediate value _ =>
      if value < 0 then "-" ++ Numeral.lower0x value.natAbs else Numeral.lower0x value.toNat
  | memory m => m.text
  | address a => Numeral.lower0x a

end Operand

/-- Storage that an x86 operand can touch. -/
inductive OperandStorage where
  | register (r : Register)
  /-- Memory, with the segment the reference goes through. -/
  | memory (m : MemoryOperand)
deriving DecidableEq

/-- What an operand touches in a mode.  A reference reads its segment, base and index; an instruction
pointer as the base is part of the address and not read. -/
def Operand.access (mode : Mode) : Operand → Access OperandStorage
  | register r => { target := [.register r] }
  | immediate .. | address _ => {}
  | memory m =>
      let segment := m.segmentIn mode
      let base := if m.isInstructionRelative then none else m.base
      { reads := (segment.toList ++ base.toList ++ m.index.toList).map .register
        target := [.memory { m with segment }] }

end RegisterTransfer.X86
