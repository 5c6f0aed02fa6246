/-
# RegisterTransfer.Proofs.X86.Pop -- what a pop takes from the stack

A pop writes the value at the stack pointer to the place that its operand stands for at that moment, and
then moves the stack pointer up by the bytes of the operand (`lowerWith_pop`).  Memory, and a register
outside of the stack pointer's family, hold the value from then on.  The stack pointer itself is moved
with the value in it (`pop_esp_misses`), and memory that is addressed through the stack pointer is the
place from before the move.
-/
import RegisterTransfer.Proofs.X86.Place
import RegisterTransfer.Proofs.X86.Push

namespace RegisterTransfer.X86

set_option autoImplicit false

/-! ## Loading from the stack -/

section Run

variable {ρ : Type} [RegisterFile ρ] {I : Interpretation} (m : Mode)

/-- The value of a type at the stack pointer. -/
def Mode.topOfStack (σ : State ρ) (type : DataType) : Nat :=
  σ.load (m.stackSegment σ) m.bits (σ.get m.stackPointer.identifier) type.bytes % 2 ^ type.bits

theorem eval_stackSlot (σ : State ρ) (type : DataType) :
    (Lower.stackSlot m type m.stackPointer.value).eval I σ = m.topOfStack σ type := by
  rw [Lower.stackSlot, Expr.eval_memoryIn, m.type_stackPointer, Mode.topOfStack, Mode.stackSegment]
  cases m.isSegmented <;> rfl

/-- The state after the stack pointer moved up past a value. -/
def Mode.dropTop (σ : State ρ) (type : DataType) : State ρ :=
  σ.setRegister m.stackPointer.identifier
    ((σ.get m.stackPointer.identifier + type.bytes) % 2 ^ m.bits)

theorem exec_dropTop (σ : State ρ) (type : DataType) :
    σ.exec I (.assign m.stackPointer.value (m.stackPointer.value.addInt type.bytes)) =
      (m.dropTop σ type, none) := by
  have narrow := type.bytes_le
  have short : (type.bytes : Int).natAbs < 2 ^ 64 := by omega
  rw [exec_adjust σ m.stackPointer short, m.bits_stackPointer, ← Int.natCast_add, Bits.ofInt_natCast]
  rfl

/-- The statements that pop a value. -/
def popped (m : Mode) (dst : Expr) (type : DataType) : List Statement :=
  [.assign dst (Lower.stackSlot m type m.stackPointer.value),
    .assign m.stackPointer.value (m.stackPointer.value.addInt type.bytes)]

theorem Lower.emits_pop {i : Instruction} {o : Operand} (first : i.operands.head? = some o)
    (k : Nat) :
    Lowering.Emits k (pop m i) () (popped m (i.read m o o.type) o.type) k :=
  Lowering.emits_operand (i.destination_of_head? m first)
    (Lowering.emits_bind (Lowering.emits_assign _ _) (Lowering.emits_assign _ _))

/-- The operand is written before the stack pointer moves. -/
theorem run_popped {i : Instruction} {o : Operand} {p : Place} (σ : State ρ) (type : DataType)
    (found : i.place? m I σ o = some p) :
    σ.run I (popped m (i.read m o o.type) type) =
      (m.dropTop (p.write (m.topOfStack σ type) σ) type, none) := by
  have plain : (Lower.stackSlot m type m.stackPointer.value).uses = [] :=
    Lower.plain_stackSlot m type _
  have writes := i.exec_assign_place found o.type plain
  rw [eval_stackSlot m σ type] at writes
  rw [popped, State.run_cons_of_falls _ writes, State.run_cons_of_falls _ (exec_dropTop m _ type)]
  rfl

variable [LawfulRegisterFile ρ]

theorem Mode.get_dropTop (σ : State ρ) (type : DataType) :
    (m.dropTop σ type).get m.stackPointer.identifier =
      (σ.get m.stackPointer.identifier + type.bytes) % 2 ^ m.bits := by
  rw [dropTop, σ.get_setRegister _ (Register.isRegister_identifier _), m.bits_stackPointer,
    Nat.mod_mod]

/-- Only the stack pointer and its parts change when it moves. -/
theorem Mode.get_dropTop_of_family_ne (σ : State ρ) (type : DataType) {r : Register}
    (outside : r.family ≠ m.stackPointer.family) :
    (m.dropTop σ type).get r.identifier = σ.get r.identifier :=
  get_setRegister_of_family_ne outside σ _

end Run

/-! ## Pops -/

section Pop

variable {ρ : Type} [RegisterFile ρ] {I : Interpretation} {m : Mode}
variable {i : Instruction} {o : Operand} {p : Place} {σ : State ρ}

/-- The cluster of a pop, and the state it leaves. -/
theorem lowered_pop (next : Option Instruction) {t : IntrinsicTable} (opcode : i.opcode = .pop)
    (first : i.operands.head? = some o) (regular : t.Regular) :
    ∃ cluster t', (backend m).lowerWith i next t = (.ok cluster, t') ∧
      ∀ (I : Interpretation) (σ : State ρ) (p : Place), i.place? m I σ o = some p →
        σ.run I cluster.statements = (m.dropTop (p.write (m.topOfStack σ o.type) σ) o.type, none) := by
  have emits : Lowering.Emits 0 ((backend m).lower i next) false
      (popped m (i.read m o o.type) o.type) 0 := by
    simp only [backend, opcode, Lower.instruction]
    exact Lowering.emits_return false (Lower.emits_pop m first 0)
  obtain ⟨cluster, t', ran, settled⟩ := Backend.runs_of_emits emits regular
  exact ⟨cluster, t', ran, fun I σ p found => (settled I σ).trans (run_popped m σ o.type found)⟩

/-- Whether an operand is not the stack pointer or a part of it. -/
def Operand.OutsideStack (m : Mode) (o : Operand) : Prop :=
  ∀ r, o = register r → r.family ≠ m.stackPointer.family

theorem Operand.outsideStack_memory (ref : MemoryOperand) : (memory ref).OutsideStack m :=
  fun _ named => by cases named

variable [LawfulRegisterFile ρ]

/-- Writing an operand outside of the stack pointer's family does not move the stack pointer. -/
theorem Operand.OutsideStack.get_write (outside : o.OutsideStack m)
    (found : i.place? m I σ o = some p) (value : Nat) :
    (p.write value σ).get m.stackPointer.identifier = σ.get m.stackPointer.identifier := by
  cases o with
  | register r =>
      cases found
      exact get_setRegister_of_family_ne (outside r rfl).symm σ value
  | memory ref =>
      cases found
      exact State.get_of_registers (Register.isRegister_identifier _) rfl
  | immediate | address => cases found

/-- Moving the stack pointer changes no operand outside of its family. -/
theorem Operand.OutsideStack.read_dropTop (outside : o.OutsideStack m)
    (found : i.place? m I σ o = some p) (τ : State ρ) (type : DataType) :
    p.read (m.dropTop τ type) = p.read τ := by
  cases o with
  | register r =>
      cases found
      exact m.get_dropTop_of_family_ne τ type (outside r rfl)
  | memory ref =>
      cases found
      rfl
  | immediate | address => cases found

/-- An operand that names no register of the stack pointer's family stands for the same place after a
pop. -/
theorem place?_of_popped (apart : ∀ r, r ∈ o.registers m → r.family ≠ m.stackPointer.family)
    (found : i.place? m I σ o = some p) (value : Nat) (type : DataType) :
    i.place? m I (m.dropTop (p.write value σ) type) o = some p := by
  cases o with
  | register r => exact found
  | memory ref =>
      rw [← found]
      refine i.place?_congr fun r named => ?_
      rw [m.get_dropTop_of_family_ne _ type (apart r named)]
      cases found
      exact State.get_of_registers r.isRegister_identifier rfl
  | immediate | address => cases found

/-- A pop writes the value at the stack pointer to the place of its operand in the state before, and then
moves the stack pointer up.  Unless the operand is the stack pointer or a part of it, the stack pointer
ends behind the value and the place holds the value.  It is still the place of the operand if that is
not addressed through the stack pointer. -/
theorem lowerWith_pop {ρ : Type} [RegisterFile ρ] [LawfulRegisterFile ρ] (m : Mode)
    {i : Instruction} {o : Operand} (next : Option Instruction) {t : IntrinsicTable}
    (opcode : i.opcode = .pop) (first : i.operands.head? = some o) (stored : o.isStored = true)
    (wide : 8 ≤ i.addressType.bits) (regular : t.Regular) :
    ∃ cluster t', (backend m).lowerWith i next t = (.ok cluster, t') ∧
      ∀ (I : Interpretation) (σ : State ρ),
        let sp := m.stackPointer.identifier
        let value := m.topOfStack σ o.type
        ∃ p τ, i.place? m I σ o = some p ∧ σ.run I cluster.statements = (τ, none) ∧
          τ = m.dropTop (p.write value σ) o.type ∧
          (o.OutsideStack m →
            τ.get sp = (σ.get sp + o.type.bytes) % 2 ^ m.bits ∧ p.read τ = value) ∧
          ((∀ r, r ∈ o.registers m → r.family ≠ m.stackPointer.family) →
            i.place? m I τ o = some p) := by
  obtain ⟨cluster, t', ran, runs⟩ := lowered_pop (ρ := ρ) (m := m) next opcode first regular
  refine ⟨cluster, t', ran, fun I σ => ?_⟩
  intro sp value
  obtain ⟨p, found⟩ := i.exists_place m I σ stored
  let τ := m.dropTop (p.write value σ) o.type
  refine ⟨p, τ, found, runs I σ p found, rfl, fun outside => ⟨?_, ?_⟩, fun apart => ?_⟩
  · rw [m.get_dropTop, outside.get_write found]
  · have inside : value < 2 ^ p.type.bits := by
      rw [i.type_place found]
      exact Nat.mod_lt _ (Nat.two_pow_pos _)
    rw [outside.read_dropTop found, p.read_write (i.fits_place wide found)]
    exact Nat.mod_eq_of_lt inside
  · exact place?_of_popped apart found value o.type

end Pop

/-- The instruction that pops to an operand, at no address in particular. -/
def popOf (o : Operand) : Instruction := .of 0x1000 1 .pop [o] .word32

/-- A word is popped to where ebx points. -/
theorem lowerWith_pop_ebx :
    ∃ cluster t', (backend .protectedMode).lowerWith
        (popOf (.memory { type := .word32, base := some .ebx })) none .empty =
          (.ok cluster, t') ∧
      ∀ (I : Interpretation) (σ : State Families), ∃ τ, σ.run I cluster.statements = (τ, none) ∧
        τ.get Register.esp.identifier = (σ.get Register.esp.identifier + 4) % 2 ^ 32 ∧
        τ.load none 32 (σ.get Register.ebx.identifier) 4 % 2 ^ 32 =
          σ.load none 32 (σ.get Register.esp.identifier) 4 % 2 ^ 32 := by
  obtain ⟨cluster, t', ran, runs⟩ := lowerWith_pop (ρ := Families) .protectedMode
    (i := popOf (.memory { type := .word32, base := some .ebx })) none rfl rfl rfl (by decide)
    IntrinsicTable.regular_empty
  refine ⟨cluster, t', ran, fun I σ => ?_⟩
  obtain ⟨p, τ, found, run, _, holds, _⟩ := runs I σ
  obtain ⟨top, value⟩ := holds (Operand.outsideStack_memory _)
  have place : p = .memory none 32 (σ.get Register.ebx.identifier) .word32 :=
    (Option.some.inj found).symm
  rw [place] at value
  exact ⟨τ, run, top, value⟩

/-- The stack pointer ends four bytes above the value that is popped to it, in every state. -/
theorem pop_esp_misses :
    ∃ cluster t', (backend .protectedMode).lowerWith (popOf (.register .esp)) none .empty =
        (.ok cluster, t') ∧
      ∀ (I : Interpretation) (σ : State Families), ∃ τ, σ.run I cluster.statements = (τ, none) ∧
        let value := σ.load none 32 (σ.get Register.esp.identifier) 4 % 2 ^ 32
        τ.get Register.esp.identifier = (value + 4) % 2 ^ 32 ∧
        τ.get Register.esp.identifier ≠ value := by
  obtain ⟨cluster, t', ran, runs⟩ := lowered_pop (ρ := Families) (m := .protectedMode)
    (i := popOf (.register .esp)) none rfl rfl IntrinsicTable.regular_empty
  refine ⟨cluster, t', ran, fun I σ => ⟨_, runs I σ (.register .esp) rfl, ?_⟩⟩
  intro value
  have inside : value < 2 ^ 32 := Nat.mod_lt _ (Nat.two_pow_pos _)
  let written := σ.setRegister Register.esp.identifier value
  have holds : written.get Register.esp.identifier = value :=
    (σ.get_setRegister value Register.esp.isRegister_identifier).trans (Nat.mod_eq_of_lt inside)
  have moved : (Mode.protectedMode.dropTop written .word32).get Register.esp.identifier =
      (value + 4) % 2 ^ 32 := by
    rw [← holds]
    exact Mode.protectedMode.get_dropTop written .word32
  have ends : (value + 4) % 2 ^ 32 ≠ value := by omega
  exact ⟨moved, fun same => ends (moved.symm.trans same)⟩

end RegisterTransfer.X86
