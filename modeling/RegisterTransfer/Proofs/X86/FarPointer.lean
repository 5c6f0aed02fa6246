/-
# RegisterTransfer.Proofs.X86.FarPointer -- far pointers are loaded from the state before

A far pointer is an offset and, behind it in memory, a segment selector.  Its load reads the offset into a
temporary, loads the segment register, and only then writes the destination: both reads go through the
segment and the registers of the reference as they were before the instruction, also if the destination
or the loaded segment register is one of them (`lowerWith_loadFarPointer`).
-/
import RegisterTransfer.Proofs.X86.EffectiveAddress

namespace RegisterTransfer.X86

set_option autoImplicit false

/-! ## Operands -/

/-- The segment register that an opcode loads together with its destination. -/
def Opcode.farSegment? : Opcode → Option Segment
  | .lds => some .ds
  | .les => some .es
  | .lfs => some .fs
  | .lgs => some .gs
  | .lss => some .ss
  | _ => none

namespace Register

/-- Whether a register is a part of one of the sixteen general ones. -/
def isGeneral : Register → Bool
  | general .. | highByte _ => true
  | segment _ | instructionPointer _ | stack _ | top | statusWord | controlWord => false

theorem family_ne_segment {r : Register} (isGeneral : r.isGeneral = true) (s : Segment) :
    r.family ≠ (segment s).family := by
  have above : 16 ≤ (segment s).family := Nat.le_add_right 16 _
  cases r with
  | general n w =>
      have below : (general n w).family < 16 := n.isLt
      omega
  | highByte n =>
      have below : (highByte n).family < 4 := n.isLt
      omega
  | segment | instructionPointer | stack | top | statusWord | controlWord => cases isGeneral

/-- A general register takes up all bits of its bytes. -/
theorem bits_eq_bytes {r : Register} (isGeneral : r.isGeneral = true) :
    r.type.bits = 8 * r.type.bytes := by
  rw [DataType.bytes, r.bits_type]
  cases r with
  | general n w => cases w <;> simp [bits, Width.bits]
  | highByte n => simp [bits]
  | segment | instructionPointer | stack | top | statusWord | controlWord => cases isGeneral

end Register

theorem Instruction.reference_of_getElem? {i : Instruction} {n : Nat} {ref : MemoryOperand}
    (found : i.operands[n]? = some (.memory ref)) : i.reference n = .ok ref := by
  rw [reference, operand_of_getElem? found]
  rfl

/-! ## The statements of a load -/

namespace Lower

/-- Where the selector of a far pointer stands: behind its offset. -/
def selectorOf (ref : MemoryOperand) (offset : DataType) : MemoryOperand :=
  { ref with type := .word16, displacement := wrap64 (ref.displacement + offset.bytes) }

/-- The statements that load a far pointer. -/
def farLoaded (m : Mode) (i : Instruction) (r : Register) (ref : MemoryOperand) (s : Segment) :
    List Statement :=
  let kept := Expr.identifier (.temporary 0 r.type)
  [.assign kept (i.memory m { ref with type := r.type }),
    .assign (Register.segment s).value (i.memory m (selectorOf ref r.type)),
    .assign r.value kept]

variable {m : Mode} {i : Instruction} {r : Register} {ref : MemoryOperand}

theorem emits_loadFarPointer (s : Segment) (first : i.operands[0]? = some (.register r))
    (second : i.operands[1]? = some (.memory ref)) :
    Lowering.Emits 0 (loadFarPointer m i s) () (farLoaded m i r ref s) 1 := by
  refine Lowering.emits_operand
    (i.destination_of_head? m (List.head?_eq_getElem?.trans first)) ?_
  refine Lowering.emits_operand (Instruction.reference_of_getElem? second) ?_
  refine Lowering.emits_bind (Lowering.emits_temporary _) ?_
  refine Lowering.emits_bind (Lowering.emits_assign _ _) ?_
  exact Lowering.emits_bind (Lowering.emits_assign _ _) (Lowering.emits_assign _ _)

theorem lower_of_farSegment? {s : Segment} (next : Option Instruction)
    (opcode : i.opcode.farSegment? = some s) :
    (backend m).lower i next = (do
      loadFarPointer m i s
      return false) := by
  unfold Opcode.farSegment? at opcode
  split at opcode <;> cases opcode
  all_goals
    rename_i named
    simp only [backend, named, instruction]

end Lower

/-! ## The state after a load -/

section Run

variable {ρ : Type} [RegisterFile ρ] {I : Interpretation} {m : Mode} {i : Instruction}

/-- Memory is read at the address of its reference. -/
theorem Instruction.eval_memory (i : Instruction) (m : Mode) (ref : MemoryOperand) {σ : State ρ} :
    (i.memory m ref).eval I σ =
      σ.load ((ref.segmentIn m).map fun q => σ.get q.identifier) (i.effectiveAddress ref).type.bits
        ((i.effectiveAddress ref).eval I σ) ref.type.bytes % 2 ^ ref.type.bits :=
  i.eval_read_place (o := .memory ref) (m := m) rfl ref.type

/-- Memory some bytes behind a reference is read behind its address, in the same segment. -/
theorem Instruction.eval_memory_behind [LawfulRegisterFile ρ] (i : Instruction) (m : Mode)
    {ref : MemoryOperand} {σ : State ρ} (narrow : i.addressType.bits ≤ 64) (type : DataType) (n : Nat)
    (short : ref.displacement.natAbs < 2 ^ 64) (short' : (ref.displacement + n).natAbs < 2 ^ 64) :
    (i.memory m { ref with type, displacement := ref.displacement + n }).eval I σ =
      σ.load ((ref.segmentIn m).map fun q => σ.get q.identifier) (i.effectiveAddress ref).type.bits
        (((i.effectiveAddress ref).eval I σ + n) % 2 ^ (i.effectiveAddress ref).type.bits)
          type.bytes % 2 ^ type.bits := by
  rw [eval_memory, eval_effectiveAddress_displaced narrow type n short short',
    type_effectiveAddress_displaced]
  rfl

/-- Memory does not depend on temporaries. -/
theorem eval_memory_setTemporary (ref : MemoryOperand) (σ : State ρ) (n value : Nat) :
    (i.memory m ref).eval I (σ.setTemporary n value) = (i.memory m ref).eval I σ :=
  i.eval_read_of_registers (o := .memory ref) ref.type
    (fun r _ => State.get_of_registers r.isRegister_identifier rfl) rfl rfl

/-- Both reads are done in the state before. -/
theorem run_farLoaded {r : Register} {ref : MemoryOperand} (s : Segment) (σ : State ρ) {offset : Nat}
    (inside : offset < 2 ^ r.type.bits)
    (reads : (i.memory m { ref with type := r.type }).eval I σ = offset) :
    σ.run I (Lower.farLoaded m i r ref s) =
      (((σ.setRegister (Register.segment s).identifier
        ((i.memory m (Lower.selectorOf ref r.type)).eval I σ)).setRegister r.identifier
          offset).setTemporary 0 offset, none) := by
  let selector := (i.memory m (Lower.selectorOf ref r.type)).eval I σ
  let loaded := σ.setRegister (Register.segment s).identifier selector
  have keeps : σ.exec I (.assign (.identifier (.temporary 0 r.type))
      (i.memory m { ref with type := r.type })) = (σ.setTemporary 0 offset, none) := by
    rw [σ.exec_assign_of_plain rfl (i.plain_memory m _)]
    show (σ.setTemporary 0 (Expr.eval I σ _ % 2 ^ r.type.bits), none) = _
    rw [reads, Nat.mod_eq_of_lt inside]
  have loads : (σ.setTemporary 0 offset).exec I (.assign (Register.segment s).value
      (i.memory m (Lower.selectorOf ref r.type))) = (loaded.setTemporary 0 offset, none) := by
    rw [State.exec_assign_of_plain _ rfl (i.plain_memory m _), Register.value,
      State.assign_register _ (Register.isRegister_identifier _), eval_memory_setTemporary]
    rfl
  have returns : (loaded.setTemporary 0 offset).exec I
      (.assign r.value (.identifier (.temporary 0 r.type))) =
        ((loaded.setRegister r.identifier offset).setTemporary 0 offset, none) := by
    rw [State.exec_assign_of_plain _ rfl rfl, Register.value,
      State.assign_register _ r.isRegister_identifier]
    show (((loaded.setTemporary 0 offset).setRegister r.identifier (offset % 2 ^ r.type.bits)), none) = _
    rw [Nat.mod_eq_of_lt inside]
    rfl
  rw [Lower.farLoaded, State.run_cons_of_falls _ keeps, State.run_cons_of_falls _ loads,
    State.run_cons_of_falls _ returns]
  rfl

end Run

/-! ## Loads -/

/-- A load of a far pointer leaves in its destination the value at the address of its reference, and in
the segment register the 16 bits behind that value, at an address that wraps at its width.  Segment and
address are those of the state before, and nothing else changes but a temporary.  Addresses have 64 bits
at most, as all of the processor's have. -/
theorem lowerWith_loadFarPointer {ρ : Type} [RegisterFile ρ] [LawfulRegisterFile ρ] (m : Mode)
    {i : Instruction} {r : Register} {ref : MemoryOperand} {s : Segment} (next : Option Instruction)
    {t : IntrinsicTable} (opcode : i.opcode.farSegment? = some s)
    (first : i.operands[0]? = some (.register r)) (isGeneral : r.isGeneral = true)
    (second : i.operands[1]? = some (.memory ref)) (narrow : i.addressType.bits ≤ 64)
    (least : -2 ^ 63 ≤ ref.displacement) (bound : ref.displacement + r.type.bytes < 2 ^ 63)
    (regular : t.Regular) :
    ∃ cluster t', (backend m).lowerWith i next t = (.ok cluster, t') ∧
      ∀ (I : Interpretation) (σ : State ρ),
        let segment := (ref.segmentIn m).map fun q => σ.get q.identifier
        let width := (i.effectiveAddress ref).type.bits
        let address := (i.effectiveAddress ref).eval I σ
        let size := r.type.bytes
        let offset := σ.load segment width address size
        let selector := σ.load segment width ((address + size) % 2 ^ width) 2
        ∃ τ, σ.run I cluster.statements = (τ, none) ∧
          τ.get r.identifier = offset ∧ τ.get (Register.segment s).identifier = selector ∧
          τ.forget = ((σ.setRegister (Register.segment s).identifier selector).setRegister
            r.identifier offset).forget := by
  have emits : Lowering.Emits 0 ((backend m).lower i next) false (Lower.farLoaded m i r ref s) 1 := by
    rw [Lower.lower_of_farSegment? next opcode]
    exact Lowering.emits_return false (Lower.emits_loadFarPointer s first second)
  obtain ⟨cluster, t', ran, settled⟩ := Backend.runs_of_emits emits regular
  refine ⟨cluster, t', ran, fun I σ => ?_⟩
  intro segment width address size offset selector
  have whole : offset < 2 ^ r.type.bits := by
    rw [Register.bits_eq_bytes isGeneral, Nat.pow_mul]
    exact σ.load_lt segment width address size
  have word : selector < 2 ^ 16 := σ.load_lt segment width _ 2
  have reads : (i.memory m { ref with type := r.type }).eval I σ = offset :=
    (i.eval_memory m _).trans (Nat.mod_eq_of_lt whole)
  have selects : (i.memory m (Lower.selectorOf ref r.type)).eval I σ = selector := by
    rw [Lower.selectorOf, wrap64_of_inside (by omega) bound,
      i.eval_memory_behind m narrow .word16 size (by omega) (by omega)]
    exact Nat.mod_eq_of_lt word
  have runs := run_farLoaded s σ whole reads
  rw [selects] at runs
  refine ⟨_, (settled I σ).trans runs, ?_, ?_, rfl⟩
  · exact (State.get_setRegister _ _ r.isRegister_identifier).trans (Nat.mod_eq_of_lt whole)
  · have apart : (Register.segment s).family ≠ r.family :=
      (Register.family_ne_segment isGeneral s).symm
    refine (get_setRegister_of_family_ne apart _ offset).trans ?_
    refine (σ.get_setRegister selector (Register.isRegister_identifier _)).trans ?_
    show selector % 2 ^ DataType.word16.bits = selector
    exact Nat.mod_eq_of_lt word

/-- The instruction that loads es and di from where they point, in 16 bits. -/
def loadThroughItself : Instruction :=
  .of 0x1000 3 .les [.register (.general 7 .bits16), .memory
    { type := .word32, segment := some (.segment .es), base := some (.general 7 .bits16) }] .word16

/-- Both registers of the address are overwritten, and both halves come from the address before. -/
theorem lowerWith_loadFarPointer_es :
    ∃ cluster t', (backend .realMode).lowerWith loadThroughItself none .empty = (.ok cluster, t') ∧
      ∀ (I : Interpretation) (σ : State Families),
        let es := σ.get (Register.segment .es).identifier
        let di := σ.get (Register.general 7 .bits16).identifier
        ∃ τ, σ.run I cluster.statements = (τ, none) ∧
          τ.get (Register.general 7 .bits16).identifier = σ.load (some es) 16 di 2 ∧
          τ.get (Register.segment .es).identifier =
            σ.load (some es) 16 ((di + 2) % 2 ^ 16) 2 := by
  obtain ⟨cluster, t', ran, runs⟩ := lowerWith_loadFarPointer (ρ := Families) .realMode
    (i := loadThroughItself) none rfl rfl rfl rfl (by decide) (by decide) (by decide)
    IntrinsicTable.regular_empty
  refine ⟨cluster, t', ran, fun I σ => ?_⟩
  obtain ⟨τ, run, offset, selector, -⟩ := runs I σ
  exact ⟨τ, run, offset, selector⟩

end RegisterTransfer.X86
