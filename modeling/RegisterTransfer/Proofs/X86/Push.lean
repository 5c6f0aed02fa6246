/-
# RegisterTransfer.Proofs.X86.Push -- what a push leaves on the stack

A push moves the stack pointer down by the bytes of its operand and then stores the operand, read at that
moment, at the new stack pointer (`lowerWith_push`).  An operand that names no register of the stack
pointer's family has the value that it had before the instruction.  The stack pointer itself, and memory
addressed through it, are read after they moved (`push_esp_misses`).
-/
import RegisterTransfer.Proofs.Draft.Emission
import RegisterTransfer.Proofs.X86.OperandValue

namespace RegisterTransfer.X86

set_option autoImplicit false

/-! ## The stack -/

namespace Mode

theorem bits_stackPointer (m : Mode) : m.stackPointer.identifier.bits = m.bits := by
  cases m <;> decide

theorem type_stackPointer (m : Mode) : m.stackPointer.value.type.bits = m.bits :=
  m.bits_stackPointer

/-- Addresses are wide enough for every value that is pushed. -/
theorem bytes_le_two_pow (m : Mode) (t : DataType) : t.bytes ≤ 2 ^ m.bits := by
  have narrow := t.bytes_le
  have wide : 2 ^ 16 ≤ 2 ^ m.bits := Nat.pow_le_pow_right (by decide) (by cases m <;> decide)
  omega

/-- The segment of the stack, where memory has segments. -/
def stackSegment (m : Mode) {ρ : Type} [RegisterFile ρ] (σ : State ρ) : Option Nat :=
  if m.isSegmented then some (σ.get (Register.segment .ss).identifier) else none

end Mode

/-- The type of what is pushed: a literal is pushed as a word. -/
def Operand.pushedType (m : Mode) : Operand → DataType
  | immediate .. => m.word
  | other => other.type

/-- What is pushed is read with that type. -/
theorem Instruction.type_read_pushed (i : Instruction) (m : Mode) {o : Operand}
    (data : o.isData = true) : (i.read m o (o.pushedType m)).type = o.pushedType m := by
  cases o with
  | immediate n t => rfl
  | register r => rfl
  | memory ref => exact i.type_memory m ref
  | address a => cases data

/-! ## Storing on the stack -/

section Run

variable {ρ : Type} [RegisterFile ρ] {I : Interpretation} (m : Mode)

/-- Moving a register by less than 64 bits can count. -/
theorem exec_adjust (σ : State ρ) (r : Register) {delta : Int} (short : delta.natAbs < 2 ^ 64) :
    σ.exec I (.assign r.value (r.value.addInt delta)) =
      (σ.setRegister r.identifier (Bits.ofInt r.identifier.bits (σ.get r.identifier + delta)),
        none) :=
  σ.exec_addInt r.isRegister_identifier short

theorem exec_stackSlot (σ : State ρ) (type : DataType) {value : Expr} (plain : value.uses = []) :
    σ.exec I (.assign (Lower.stackSlot m type m.stackPointer.value) value) =
      (σ.store (m.stackSegment σ) m.bits (σ.get m.stackPointer.identifier) type.bytes
        (value.eval I σ), none) := by
  rw [σ.exec_assign_of_plain (Lower.plain_stackSlot m type _) plain, Lower.stackSlot,
    State.assign_memoryIn, m.type_stackPointer, Mode.stackSegment]
  cases m.isSegmented <;> rfl

/-- The statements that push a value. -/
def pushed (m : Mode) (value : Expr) (type : DataType) : List Statement :=
  [.assign m.stackPointer.value (m.stackPointer.value.addInt (-(type.bytes : Int))),
    .assign (Lower.stackSlot m type m.stackPointer.value) value]

theorem Lower.emits_pushValue (k : Nat) (value : Expr) (type : DataType) :
    Lowering.Emits k (pushValue m value type) () (pushed m value type) k :=
  Lowering.emits_bind (Lowering.emits_assign _ _) (Lowering.emits_assign _ _)

theorem Lower.emits_push {i : Instruction} {o : Operand} (first : i.operands.head? = some o)
    (k : Nat) :
    Lowering.Emits k (push m i) () (pushed m (i.read m o (o.pushedType m)) (o.pushedType m)) k := by
  have found : i.operand 0 = .ok o :=
    Instruction.operand_of_getElem? (List.head?_eq_getElem? ▸ first)
  cases o with
  | register | immediate | memory | address =>
      exact Lowering.emits_operand found (emits_pushValue m k _ _)

/-- The state after the stack pointer moved down to make room for a value. -/
def Mode.makeRoom (σ : State ρ) (type : DataType) : State ρ :=
  σ.setRegister m.stackPointer.identifier
    (Bits.ofInt m.bits (σ.get m.stackPointer.identifier - type.bytes))

/-- A value that is pushed is read when the stack pointer has moved. -/
theorem run_pushed (σ : State ρ) (type : DataType) {value : Expr} (plain : value.uses = []) :
    let moved := m.makeRoom σ type
    σ.run I (pushed m value type) =
      (moved.store (m.stackSegment moved) m.bits (moved.get m.stackPointer.identifier) type.bytes
        (value.eval I moved), none) := by
  intro moved
  have moves : σ.exec I (.assign m.stackPointer.value
      (m.stackPointer.value.addInt (-(type.bytes : Int)))) = (moved, none) := by
    have narrow := type.bytes_le
    rw [exec_adjust σ m.stackPointer (by omega), m.bits_stackPointer]
    rfl
  rw [pushed, State.run_cons_of_falls _ moves,
    State.run_cons_of_falls _ (exec_stackSlot m _ type plain)]
  rfl

variable [LawfulRegisterFile ρ]

theorem Mode.get_makeRoom (σ : State ρ) (type : DataType) :
    (m.makeRoom σ type).get m.stackPointer.identifier =
      Bits.ofInt m.bits (σ.get m.stackPointer.identifier - type.bytes) := by
  rw [makeRoom, σ.get_setRegister _ (Register.isRegister_identifier _), m.bits_stackPointer]
  exact Nat.mod_eq_of_lt (Bits.ofInt_lt _ _)

/-- Making room changes no register but the stack pointer and its parts. -/
theorem Mode.get_makeRoom_of_family_ne (σ : State ρ) (type : DataType) {r : Register}
    (apart : r.family ≠ m.stackPointer.family) :
    (m.makeRoom σ type).get r.identifier = σ.get r.identifier :=
  get_setRegister_of_family_ne apart σ _

theorem Mode.stackSegment_makeRoom (σ : State ρ) (type : DataType) :
    m.stackSegment (m.makeRoom σ type) = m.stackSegment σ := by
  have apart : (Register.segment .ss).family ≠ m.stackPointer.family := by
    cases m <;> decide
  rw [stackSegment, stackSegment, m.get_makeRoom_of_family_ne σ type apart]

end Run

/-! ## Pushes -/

section Push

variable {ρ : Type} [RegisterFile ρ] [LawfulRegisterFile ρ] {I : Interpretation} {m : Mode}
variable {i : Instruction} {o : Operand}

/-- A push of an operand stores its value on the stack. -/
theorem load_pushed (data : o.isData = true) (σ : State ρ) :
    let type := o.pushedType m
    let moved := m.makeRoom σ type
    (moved.store (m.stackSegment σ) m.bits (moved.get m.stackPointer.identifier) type.bytes
        ((i.read m o type).eval I moved)).load (m.stackSegment σ) m.bits
          (moved.get m.stackPointer.identifier) type.bytes =
      (i.read m o type).eval I moved := by
  intro type moved
  have inside := i.eval_read_lt (I := I) (σ := moved) m type data
  rw [i.type_read_pushed m data] at inside
  rw [State.load_store _ _ _ _ (m.bytes_le_two_pow type)]
  exact Nat.mod_eq_of_lt (Nat.lt_of_lt_of_le inside (DataType.two_pow_bits_le _))

/-- The cluster of a push, and the state it leaves. -/
theorem lowered_push (next : Option Instruction) {t : IntrinsicTable} (opcode : i.opcode = .push)
    (first : i.operands.head? = some o) (regular : t.Regular) :
    ∃ cluster t', (backend m).lowerWith i next t = (.ok cluster, t') ∧
      ∀ (I : Interpretation) (σ : State ρ),
        let type := o.pushedType m
        let moved := m.makeRoom σ type
        σ.run I cluster.statements =
          (moved.store (m.stackSegment σ) m.bits (moved.get m.stackPointer.identifier) type.bytes
            ((i.read m o type).eval I moved), none) := by
  have emits : Lowering.Emits 0 ((backend m).lower i next) false
      (pushed m (i.read m o (o.pushedType m)) (o.pushedType m)) 0 := by
    simp only [backend, opcode, Lower.instruction]
    exact Lowering.emits_return false (Lower.emits_push m first 0)
  obtain ⟨cluster, t', ran, settled⟩ := Backend.runs_of_emits emits regular
  refine ⟨cluster, t', ran, fun I σ => ?_⟩
  have runs := run_pushed (I := I) m σ (o.pushedType m) (i.plain_read m o (o.pushedType m))
  simp only [m.stackSegment_makeRoom] at runs
  exact (settled I σ).trans runs

/-- A push moves the stack pointer down by the bytes of its operand, and the bytes from the new stack
pointer on, in the segment of the stack, hold the value that the operand has when the pointer has moved.
That is the value from before the instruction if the operand is no part of the stack pointer and is not
addressed through one. -/
theorem lowerWith_push {ρ : Type} [RegisterFile ρ] [LawfulRegisterFile ρ] (m : Mode)
    {i : Instruction} {o : Operand} (next : Option Instruction) {t : IntrinsicTable}
    (opcode : i.opcode = .push) (first : i.operands.head? = some o) (data : o.isData = true)
    (regular : t.Regular) :
    ∃ cluster t', (backend m).lowerWith i next t = (.ok cluster, t') ∧
      ∀ (I : Interpretation) (σ : State ρ),
        let type := o.pushedType m
        let sp := m.stackPointer.identifier
        let moved := σ.setRegister sp (Bits.ofInt m.bits (σ.get sp - type.bytes))
        ∃ τ, σ.run I cluster.statements = (τ, none) ∧
          τ.registers = moved.registers ∧
          τ.get sp = Bits.ofInt m.bits (σ.get sp - type.bytes) ∧
          τ.load (m.stackSegment σ) m.bits (τ.get sp) type.bytes =
            (i.read m o type).eval I moved ∧
          ((∀ r, r ∈ o.registers m → r.family ≠ m.stackPointer.family) →
            τ.load (m.stackSegment σ) m.bits (τ.get sp) type.bytes =
              (i.read m o type).eval I σ) := by
  obtain ⟨cluster, t', ran, runs⟩ := lowered_push (ρ := ρ) (m := m) next opcode first regular
  refine ⟨cluster, t', ran, fun I σ => ?_⟩
  intro type sp moved
  have stored := load_pushed (I := I) (i := i) (m := m) data σ
  have unmoved : (∀ r, r ∈ o.registers m → r.family ≠ m.stackPointer.family) →
      (i.read m o type).eval I moved = (i.read m o type).eval I σ := by
    intro apart
    refine i.eval_read_of_registers type (fun r named => ?_) rfl rfl
    exact m.get_makeRoom_of_family_ne σ type (apart r named)
  exact ⟨_, runs I σ, rfl, m.get_makeRoom σ type, stored, fun apart => stored.trans (unmoved apart)⟩

end Push

/-- The instruction that pushes an operand, at no address in particular. -/
def pushOf (o : Operand) : Instruction := .of 0x1000 1 .push [o] .word32

/-- A word that is addressed through another register is pushed as it was. -/
theorem lowerWith_push_ebx :
    ∃ cluster t', (backend .protectedMode).lowerWith
        (pushOf (.memory { type := .word32, base := some .ebx })) none .empty =
          (.ok cluster, t') ∧
      ∀ (I : Interpretation) (σ : State Families), ∃ τ, σ.run I cluster.statements = (τ, none) ∧
        τ.get Register.esp.identifier = Bits.ofInt 32 (σ.get Register.esp.identifier - 4) ∧
        τ.load none 32 (τ.get Register.esp.identifier) 4 =
          σ.load none 32 (σ.get Register.ebx.identifier) 4 % 2 ^ 32 := by
  obtain ⟨cluster, t', ran, runs⟩ := lowerWith_push (ρ := Families) .protectedMode
    (i := pushOf (.memory { type := .word32, base := some .ebx })) none rfl rfl rfl
    IntrinsicTable.regular_empty
  refine ⟨cluster, t', ran, fun I σ => ?_⟩
  obtain ⟨τ, run, _, top, _, value⟩ := runs I σ
  exact ⟨τ, run, top, value (by decide)⟩

/-- The stack pointer itself is pushed four bytes too low, in every state. -/
theorem push_esp_misses :
    ∃ cluster t', (backend .protectedMode).lowerWith (pushOf (.register .esp)) none .empty =
        (.ok cluster, t') ∧
      ∀ (I : Interpretation) (σ : State Families), ∃ τ, σ.run I cluster.statements = (τ, none) ∧
        τ.load none 32 (τ.get Register.esp.identifier) 4 =
          Bits.ofInt 32 (σ.get Register.esp.identifier - 4) ∧
        τ.load none 32 (τ.get Register.esp.identifier) 4 ≠ σ.get Register.esp.identifier := by
  obtain ⟨cluster, t', ran, runs⟩ := lowered_push (ρ := Families) (m := .protectedMode)
    (i := pushOf (.register .esp)) none rfl rfl IntrinsicTable.regular_empty
  refine ⟨cluster, t', ran, fun I σ => ⟨_, runs I σ, ?_⟩⟩
  have inside : σ.get Register.esp.identifier < 2 ^ 32 :=
    σ.get_lt Register.esp.isRegister_identifier
  have stored := load_pushed (I := I) (i := pushOf (.register .esp)) (m := .protectedMode)
    (o := .register .esp) rfl σ
  have lower := stored.trans (Mode.protectedMode.get_makeRoom σ .word32)
  refine ⟨lower, fun same => ?_⟩
  have equal : Bits.ofInt 32 (σ.get Register.esp.identifier - 4) =
      σ.get Register.esp.identifier := lower.symm.trans same
  rw [Bits.ofInt] at equal
  omega

end RegisterTransfer.X86
