/-
# RegisterTransfer.Proofs.X86.Place -- where an operand is stored

A place is a register, or the bytes of a value in a segment.  Which place an operand stands for is a
matter of the state (`Instruction.place?`): when a register that a reference is addressed through has
changed, the reference stands for other bytes.  Reading an operand reads its place, and a transfer to it
writes the place of the moment (`Instruction.exec_assign_place`).

What is written to a place is read back from it (`Place.read_write`), and places that are apart do not
touch each other (`Place.read_write_of_apart`).
-/
import RegisterTransfer.Proofs.X86.OperandValue

namespace RegisterTransfer.X86

set_option autoImplicit false

/-- A register, or the bytes of a value in a segment. -/
inductive Place where
  | register (r : Register)
  | memory (segment : Option Nat) (width address : Nat) (type : DataType)

namespace Place

def type : Place → DataType
  | register r => r.type
  | memory _ _ _ type => type

/-- Whether the bytes of a place do not run into each other. -/
def Fits : Place → Prop
  | register _ => True
  | memory _ width _ type => type.bytes ≤ 2 ^ width

/-- Whether two places cannot touch each other: registers without a common bit, or a register and
memory. -/
def Apart : Place → Place → Prop
  | register r, register s => Families.Apart r.identifier s.identifier
  | register _, memory .. | memory .., register _ => True
  | memory .., memory .. => False

theorem Apart.symm {p q : Place} (apart : p.Apart q) : q.Apart p := by
  cases p with
  | register r =>
      cases q with
      | register s => exact Families.Apart.symm apart
      | memory => exact trivial
  | memory =>
      cases q with
      | register s => exact trivial
      | memory => exact apart

/-! ## Reading and writing -/

section Contents

variable {ρ : Type} [RegisterFile ρ]

/-- The number in a place. -/
def read (p : Place) (σ : State ρ) : Nat :=
  match p with
  | register r => σ.get r.identifier
  | memory segment width address type => σ.load segment width address type.bytes % 2 ^ type.bits

/-- Put a number into a place. -/
def write (p : Place) (value : Nat) (σ : State ρ) : State ρ :=
  match p with
  | register r => σ.setRegister r.identifier value
  | memory segment width address type => σ.store segment width address type.bytes value

/-- Temporaries are no places. -/
theorem read_of_forget (p : Place) {σ τ : State ρ} (same : σ.forget = τ.forget) :
    p.read σ = p.read τ := by
  cases p with
  | register r =>
      have registers := congrArg State.registers same
      exact State.get_of_registers r.isRegister_identifier registers
  | memory segment width address type =>
      have memory := congrArg State.memory same
      exact congrArg (· % 2 ^ type.bits) (State.load_congr memory segment width address type.bytes)

theorem write_setTemporary (p : Place) (σ : State ρ) (n v value : Nat) :
    p.write value (σ.setTemporary n v) = (p.write value σ).setTemporary n v := by
  cases p <;> rfl

variable [LawfulRegisterFile ρ]

theorem read_lt (p : Place) (σ : State ρ) : p.read σ < 2 ^ p.type.bits := by
  cases p with
  | register r => exact σ.get_lt r.isRegister_identifier
  | memory => exact Nat.mod_lt _ (Nat.two_pow_pos _)

/-- What is written is read back, cut to the bits of the place. -/
theorem read_write {p : Place} (fits : p.Fits) (value : Nat) (σ : State ρ) :
    p.read (p.write value σ) = value % 2 ^ p.type.bits := by
  cases p with
  | register r => exact σ.get_setRegister value r.isRegister_identifier
  | memory segment width address type =>
      rw [read, write, σ.load_store segment address value fits]
      exact Nat.mod_mod_of_dvd value type.two_pow_bits_dvd

end Contents

/-- Writing a place leaves alone what is apart from it. -/
theorem read_write_of_apart {p q : Place} (apart : p.Apart q) (value : Nat) (σ : State Families) :
    p.read (q.write value σ) = p.read σ := by
  cases p with
  | register r =>
      cases q with
      | register s => exact σ.get_setRegister_of_apart value r.isRegister_identifier apart
      | memory => exact State.get_of_registers r.isRegister_identifier rfl
  | memory =>
      cases q with
      | register s => rfl
      | memory => exact absurd apart id

end Place

/-! ## Addresses -/

/-- Whether an operand can be written: a register or memory. -/
def Operand.isStored : Operand → Bool
  | register _ | memory _ => true
  | immediate .. | address _ => false

/-- No register is narrower than a byte. -/
theorem Register.eight_le_bits (r : Register) : 8 ≤ r.type.bits := by
  rw [r.bits_type]
  cases r with
  | general family width => cases width <;> simp [bits, Width.bits]
  | instructionPointer mode => cases mode <;> simp [bits, Mode.bits]
  | highByte | segment | stack | top | statusWord | controlWord => simp [bits]

namespace Instruction

/-- A sum of registers has the type of one of them. -/
theorem type_registerSum {ref : MemoryOperand} {e : Expr} (found : registerSum ref = some e) :
    ∃ r : Register, (ref.base = some r ∨ ref.index = some r) ∧ e.type = r.type := by
  unfold registerSum scaledIndex at found
  cases base : ref.base with
  | some r =>
      refine ⟨r, .inl rfl, ?_⟩
      cases index : ref.index with
      | none | some =>
          rw [base, index] at found
          cases found
          rfl
  | none =>
      cases index : ref.index with
      | none =>
          rw [base, index] at found
          cases found
      | some r =>
          rw [base, index] at found
          cases found
          refine ⟨r, .inr rfl, ?_⟩
          split <;> rfl

/-- Addresses are counted in a byte or more. -/
theorem eight_le_bits_effectiveAddress {i : Instruction} (wide : 8 ≤ i.addressType.bits)
    (ref : MemoryOperand) : 8 ≤ (i.effectiveAddress ref).type.bits := by
  unfold effectiveAddress
  split
  · exact wide
  · split
    · rename_i sum found
      obtain ⟨r, -, type⟩ := type_registerSum found
      have narrowest := r.eight_le_bits
      rw [← type] at narrowest
      split
      · exact narrowest
      · rwa [Expr.type_addInt]
    · exact wide

section Addresses

variable {ρ : Type} [RegisterFile ρ] {I : Interpretation} {σ τ : State ρ} (ref : MemoryOperand)

theorem eval_scaledIndex_congr
    (same : ∀ r, ref.index = some r → σ.get r.identifier = τ.get r.identifier) :
    (scaledIndex ref).map (·.eval I σ) = (scaledIndex ref).map (·.eval I τ) := by
  unfold scaledIndex
  cases index : ref.index with
  | none => rfl
  | some r =>
      have value : r.value.eval I σ = r.value.eval I τ := same r index
      simp only [Option.map_some]
      split
      · exact congrArg (fun v => some (BinaryOp.value I .mul _ _ _ v _)) value
      · rw [value]

theorem eval_registerSum_congr
    (base : ∀ r, ref.base = some r → σ.get r.identifier = τ.get r.identifier)
    (index : ∀ r, ref.index = some r → σ.get r.identifier = τ.get r.identifier) :
    (registerSum ref).map (·.eval I σ) = (registerSum ref).map (·.eval I τ) := by
  have inIndex := eval_scaledIndex_congr (I := I) ref index
  unfold registerSum
  cases named : ref.base with
  | none => simpa using inIndex
  | some r =>
      have inBase : r.value.eval I σ = r.value.eval I τ := base r named
      cases scaled : scaledIndex ref with
      | none => exact congrArg some inBase
      | some e =>
          rw [scaled] at inIndex
          have inIndex : e.eval I σ = e.eval I τ := Option.some.inj inIndex
          exact congrArg₂ (fun v w => some (BinaryOp.value I .add _ _ _ v w)) inBase inIndex

/-- An address depends on the registers that it is added up from. -/
theorem eval_effectiveAddress_congr (i : Instruction)
    (same : ∀ r, r ∈ (if ref.isInstructionRelative then [] else ref.base.toList ++ ref.index.toList) →
      σ.get r.identifier = τ.get r.identifier) :
    (i.effectiveAddress ref).eval I σ = (i.effectiveAddress ref).eval I τ := by
  unfold effectiveAddress
  by_cases relative : ref.isInstructionRelative = true
  · rw [if_pos relative]
    rfl
  · rw [if_neg relative] at same ⊢
    have inSum := eval_registerSum_congr (I := I) ref (fun r named => same r (by simp [named]))
      fun r named => same r (by simp [named])
    cases sum : registerSum ref with
    | none => rfl
    | some e =>
        rw [sum] at inSum
        have inSum : e.eval I σ = e.eval I τ := Option.some.inj inSum
        by_cases nowhere : ref.displacement = 0
        · simpa [nowhere] using inSum
        · simp only [if_neg nowhere, Expr.addInt]
          split
          · exact congrArg (fun v => BinaryOp.value I .sub _ _ _ v _) inSum
          · exact congrArg (fun v => BinaryOp.value I .add _ _ _ v _) inSum

end Addresses

/-! ## The place of an operand -/

section Places

variable {ρ : Type} [RegisterFile ρ] {I : Interpretation} {m : Mode} {i : Instruction}
variable {o : Operand} {p : Place} {σ τ : State ρ}

/-- The place that an operand stands for in a state.  Literals and targets of jumps have none. -/
def place? (i : Instruction) (m : Mode) (I : Interpretation) (σ : State ρ) :
    Operand → Option Place
  | .register r => some (.register r)
  | .memory ref =>
      some (.memory ((ref.segmentIn m).map fun r => σ.get r.identifier)
        (i.effectiveAddress ref).type.bits ((i.effectiveAddress ref).eval I σ) ref.type)
  | .immediate .. | .address _ => none

theorem exists_place (i : Instruction) (m : Mode) (I : Interpretation) (σ : State ρ)
    (stored : o.isStored = true) : ∃ p, i.place? m I σ o = some p := by
  cases o with
  | register | memory => exact ⟨_, rfl⟩
  | immediate | address => cases stored

theorem type_place (found : i.place? m I σ o = some p) : p.type = o.type := by
  cases o with
  | register | memory => cases found; rfl
  | immediate | address => cases found

theorem fits_place (wide : 8 ≤ i.addressType.bits) (found : i.place? m I σ o = some p) :
    p.Fits := by
  cases o with
  | register r => cases found; exact trivial
  | memory ref =>
      cases found
      have narrow := ref.type.bytes_le
      have room : 2 ^ 8 ≤ 2 ^ (i.effectiveAddress ref).type.bits :=
        Nat.pow_le_pow_right (by decide) (eight_le_bits_effectiveAddress wide ref)
      show ref.type.bytes ≤ 2 ^ _
      omega
  | immediate | address => cases found

/-- An operand stands for the same place wherever its registers hold the same. -/
theorem place?_congr (i : Instruction)
    (same : ∀ r, r ∈ o.registers m → σ.get r.identifier = τ.get r.identifier) :
    i.place? m I σ o = i.place? m I τ o := by
  cases o with
  | register | immediate | address => rfl
  | memory ref =>
      have inSegment : (ref.segmentIn m).map (fun r => σ.get r.identifier) =
          (ref.segmentIn m).map fun r => τ.get r.identifier := by
        cases segment : ref.segmentIn m with
        | none => rfl
        | some r => exact congrArg some (same r (by simp [Operand.registers, segment]))
      have inAddress := eval_effectiveAddress_congr (I := I) ref i
        fun r named => same r (List.mem_append_right _ named)
      rw [place?, place?, inSegment, inAddress]

/-- An operand is read from its place. -/
theorem eval_read_place (found : i.place? m I σ o = some p) (type : DataType) :
    (i.read m o type).eval I σ = p.read σ := by
  cases o with
  | register r => cases found; rfl
  | memory ref =>
      cases found
      rw [read, memory, Expr.eval_memoryIn]
      cases ref.segmentIn m <;> rfl
  | immediate | address => cases found

/-- A transfer to an operand writes its place. -/
theorem exec_assign_place (found : i.place? m I σ o = some p) (type : DataType) {src : Expr}
    (plain : src.uses = []) :
    σ.exec I (.assign (i.read m o type) src) = (p.write (src.eval I σ) σ, none) := by
  rw [State.exec_assign_of_plain σ (i.plain_read m o type) plain]
  cases o with
  | register r =>
      cases found
      exact congrArg₂ Prod.mk (σ.assign_register r.isRegister_identifier src) rfl
  | memory ref =>
      cases found
      rw [read, memory, State.assign_memoryIn]
      cases ref.segmentIn m <;> rfl
  | immediate | address => cases found

end Places

end Instruction

end RegisterTransfer.X86
