/-
# RegisterTransfer.Proofs.X86.OperandValue -- what the value of an operand depends on

Reading an operand names its registers and no other storage: the register itself, or the segment, base
and index of a reference (`Instruction.identifiers_read`).  So between two states that agree on these and
on memory the value is the same (`Instruction.eval_read_of_registers`); what else an instruction has
written by then does not matter.  Where registers share their bits, two of the same width have none in
common or hold the same number (`get_of_overlap`).
-/
import RegisterTransfer.Proofs.Meaning.Frame
import RegisterTransfer.Proofs.Meaning.Memory
import RegisterTransfer.Proofs.X86.Ledger
import RegisterTransfer.Proofs.X86.StringStep

namespace RegisterTransfer.X86

set_option autoImplicit false

/-- The registers that the value of an operand is taken from or addressed by.  An address that counts
from the next instruction is a number. -/
def Operand.registers (mode : Mode) : Operand → List Register
  | register r => [r]
  | immediate .. | address _ => []
  | memory m =>
      (m.segmentIn mode).toList ++
        if m.isInstructionRelative then [] else m.base.toList ++ m.index.toList

/-- Whether an operand is a value: all but the targets of jumps are. -/
def Operand.isData : Operand → Bool
  | address _ => false
  | register _ | immediate .. | memory _ => true

@[simp]
theorem Register.identifiers_value (r : Register) : r.value.identifiers = [r.identifier] := rfl

namespace Instruction

/-! ## Positions -/

theorem operand_of_getElem? {i : Instruction} {n : Nat} {o : Operand}
    (found : i.operands[n]? = some o) : i.operand n = .ok o := by
  simp only [operand, found]

/-- The first operand as a destination. -/
theorem destination_of_head? {i : Instruction} (m : Mode) {o : Operand}
    (first : i.operands.head? = some o) : i.destination m = .ok (i.read m o o.type, o.type) := by
  rw [List.head?_eq_getElem?] at first
  rw [destination, operand_of_getElem? first]
  rfl

/-! ## Identifiers -/

theorem identifiers_scaledIndex (ref : MemoryOperand) :
    ((scaledIndex ref).map Expr.identifiers).getD [] = ref.index.toList.map Register.identifier := by
  unfold scaledIndex
  cases ref.index with
  | none => rfl
  | some r =>
      by_cases scaled : ref.scale > 1
      · simp [scaled, Expr.mul, Expr.sameType]
      · simp [scaled]

theorem identifiers_registerSum (ref : MemoryOperand) :
    ((registerSum ref).map Expr.identifiers).getD [] =
      (ref.base.toList ++ ref.index.toList).map Register.identifier := by
  have inIndex := identifiers_scaledIndex ref
  unfold registerSum
  cases ref.base with
  | none => simpa using inIndex
  | some base =>
      cases index : scaledIndex ref with
      | none =>
          rw [index] at inIndex
          simpa using inIndex
      | some scaled =>
          rw [index] at inIndex
          simpa [Expr.add, Expr.sameType] using inIndex

theorem identifiers_effectiveAddress (i : Instruction) (ref : MemoryOperand) :
    (i.effectiveAddress ref).identifiers =
      (if ref.isInstructionRelative then [] else ref.base.toList ++ ref.index.toList).map
        Register.identifier := by
  have inSum := identifiers_registerSum ref
  unfold effectiveAddress
  by_cases relative : ref.isInstructionRelative = true
  · simp [relative]
  · cases sum : registerSum ref with
    | none =>
        rw [sum] at inSum
        simpa [relative] using inSum
    | some e =>
        rw [sum] at inSum
        by_cases nowhere : ref.displacement = 0
        · simpa [relative, nowhere] using inSum
        · simpa [relative, nowhere] using inSum

theorem identifiers_memory (i : Instruction) (mode : Mode) (ref : MemoryOperand) :
    (i.memory mode ref).identifiers =
      ((Operand.memory ref).registers mode).map Register.identifier := by
  rw [memory, Expr.identifiers_memoryIn, identifiers_effectiveAddress, Operand.registers,
    List.map_append]
  cases ref.segmentIn mode <;> rfl

/-- An operand is read from its registers. -/
theorem identifiers_read (i : Instruction) (mode : Mode) (o : Operand) (type : DataType) :
    (i.read mode o type).identifiers = (o.registers mode).map Register.identifier := by
  cases o with
  | memory ref => exact i.identifiers_memory mode ref
  | register | immediate | address => rfl

/-! ## Values -/

section Values

variable {ρ : Type} [RegisterFile ρ] {I : Interpretation} {σ τ : State ρ} {mode : Mode}

/-- An operand has the same value wherever its registers and memory are the same. -/
theorem eval_read_of_registers (i : Instruction) {o : Operand} (type : DataType)
    (same : ∀ r, r ∈ o.registers mode → σ.get r.identifier = τ.get r.identifier)
    (memory : σ.memory = τ.memory) (history : σ.history = τ.history) :
    (i.read mode o type).eval I σ = (i.read mode o type).eval I τ := by
  refine Expr.eval_of_identifiers _ (fun id named => ?_) memory history
  rw [identifiers_read, List.mem_map] at named
  obtain ⟨r, listed, rfl⟩ := named
  exact same r listed

/-- An operand that is read with its own type has it. -/
theorem type_read (i : Instruction) (mode : Mode) {o : Operand} (data : o.isData = true) :
    (i.read mode o o.type).type = o.type := by
  cases o with
  | register r => rfl
  | immediate n t => rfl
  | memory ref => exact i.type_memory mode ref
  | address a => cases data

/-- The value of an operand fits its type. -/
theorem eval_read_lt [LawfulRegisterFile ρ] (i : Instruction) (mode : Mode) {o : Operand}
    (type : DataType) (data : o.isData = true) :
    (i.read mode o type).eval I σ < 2 ^ (i.read mode o type).type.bits := by
  cases o with
  | register r => exact σ.get_lt r.isRegister_identifier
  | immediate n t => exact Nat.mod_lt _ (Nat.two_pow_pos _)
  | memory ref =>
      rw [read, memory, Expr.eval_memoryIn, Expr.type_memoryIn]
      exact Nat.mod_lt _ (Nat.two_pow_pos _)
  | address a => cases data

end Values

end Instruction

/-! ## Registers that share bits -/

theorem bits_identifier (r : Register) : r.identifier.bits = r.bits := r.bits_type

theorem get_setRegister_of_family_ne {ρ : Type} [RegisterFile ρ] [LawfulRegisterFile ρ]
    {r s : Register} (apart : r.family ≠ s.family) (σ : State ρ) (value : Nat) :
    (σ.setRegister s.identifier value).get r.identifier = σ.get r.identifier :=
  σ.get_set_of_outside value fun _ => apart

/-- An operand whose registers have no bit in common with a register keeps its value when that is
written. -/
theorem eval_read_of_apart {I : Interpretation} {m : Mode} (i : Instruction) {o : Operand}
    (type : DataType) {id : Identifier} (value : Nat) (σ : State Families)
    (apart : ∀ r, r ∈ o.registers m → Families.Apart r.identifier id) :
    (i.read m o type).eval I (σ.setRegister id value) = (i.read m o type).eval I σ :=
  i.eval_read_of_registers type
    (fun r named => σ.get_setRegister_of_apart value r.isRegister_identifier (apart r named)) rfl rfl

/-- Registers of one width that overlap are the same part of one family. -/
theorem get_of_overlap {r s : Register} (width : r.bits = s.bits)
    (overlap : ¬Families.Apart r.identifier s.identifier) (σ : State Families) :
    σ.get r.identifier = σ.get s.identifier := by
  -- The second byte of a family is the only part that does not start at its lowest bit.
  have starts : ∀ r : Register, r.lowestBit = 0 ∨ r.lowestBit = 8 ∧ r.bits = 8 := by
    intro r
    cases r <;> simp [Register.lowestBit, Register.bits]
  obtain ⟨family, below, above⟩ := (not_or.trans (and_congr_right' not_or)).mp overlap
  have family : r.identifier.family = s.identifier.family := not_not.mp family
  have bits : r.identifier.bits = s.identifier.bits := by
    rw [bits_identifier, bits_identifier, width]
  have lowest : r.identifier.lowestBit = s.identifier.lowestBit := by
    rw [bits_identifier] at below above
    show r.lowestBit = s.lowestBit
    have startR := starts r
    have startS := starts s
    have below : ¬r.lowestBit + r.bits ≤ s.lowestBit := below
    have above : ¬s.lowestBit + s.bits ≤ r.lowestBit := above
    omega
  show Bits.window (σ.registers.bit _) _ _ = Bits.window (σ.registers.bit _) _ _
  rw [family, lowest, bits]

end RegisterTransfer.X86
