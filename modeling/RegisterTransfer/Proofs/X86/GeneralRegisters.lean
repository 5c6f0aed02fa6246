/-
# RegisterTransfer.Proofs.X86.GeneralRegisters -- general registers saved and restored together

The general registers are pushed in the order of their numbers and popped in the reverse order, so each
pop finds the slot of its own register.  The stack pointer is pushed as it was before the first push; its
slot is passed over, and moving up past all slots restores it (`lowerWith_pusha_popa`).
-/
import RegisterTransfer.Proofs.X86.Stack

namespace RegisterTransfer.X86

set_option autoImplicit false

/-! ## The registers -/

/-- The general registers at the width of the mode's words, in the order of their slots from the top of
the stack. -/
def Mode.generalRegisters (m : Mode) : List Register :=
  [.edi, .esi, .ebp, .esp, .ebx, .edx, .ecx, .eax].map m.native

namespace Lower

variable {m : Mode} {type : DataType}

theorem family_generalAt (family : Fin 16) (type : DataType) :
    (generalAt family type).family = family :=
  Register.family_resize _ _

theorem family_generalAt_ne {family : Fin 16} (other : family ≠ 4) :
    (generalAt family type).family ≠ m.stackPointer.family := by
  rw [family_generalAt, m.family_stackPointer]
  exact fun same => other (Fin.ext same)

theorem generalAt_of_native (native : type.bits = m.bits) (family : Fin 16) :
    generalAt family type = m.native (.general family .bits32) := by
  rw [generalAt, native]
  rfl

theorem generalAt_four (native : type.bits = m.bits) : generalAt 4 type = m.stackPointer := by
  rw [generalAt_of_native native]
  cases m <;> rfl

theorem bits_generalAt (native : type.bits = m.bits) (family : Fin 16) :
    (generalAt family type).identifier.bits = m.bits := by
  rw [generalAt_of_native native]
  cases m <;> rfl

/-- The registers are popped in the order of their slots. -/
theorem map_generalAt_reverse (native : type.bits = m.bits) :
    pushedTogether.reverse.map (generalAt · type) = m.generalRegisters := by
  simp only [generalAt_of_native native]
  rfl

/-! ## The statements -/

/-- The value that is pushed for a register: the stack pointer is in a temporary. -/
def savedValue (type : DataType) (family : Fin 16) : Expr :=
  if family = 4 then .identifier (.temporary 0 type) else (generalAt family type).value

theorem uses_savedValue (type : DataType) (family : Fin 16) :
    (savedValue type family).uses = [] := by
  unfold savedValue
  split <;> rfl

/-- The statements that push the general registers. -/
def generalPushed (m : Mode) (type : DataType) : List Statement :=
  .assign (.identifier (.temporary 0 type)) (generalAt 4 type).value ::
    (pushedTogether.map (savedValue type)).flatMap (pushed m · type)

theorem emits_pushGeneral (i : Instruction) :
    Lowering.Emits 0 (pushGeneral m i) () (generalPushed m i.dataType) 1 := by
  have loop : Lowering.Emits 1 (pushedTogether.forM fun family =>
      pushValue m (savedValue i.dataType family) i.dataType) ()
      ((pushedTogether.map (savedValue i.dataType)).flatMap (pushed m · i.dataType)) 1 := by
    rw [List.flatMap_map]
    exact Lowering.emits_forM_flatMap (fun _ => emits_pushValue m 1 _ _) _
  exact Lowering.emits_bind (Lowering.emits_temporary _)
    (Lowering.emits_bind (Lowering.emits_assign _ _) loop)

/-- The statements that take the slot of a register from the stack. -/
def restored (m : Mode) (type : DataType) (family : Fin 16) : List Statement :=
  if family = 4 then [.assign m.stackPointer.value (m.stackPointer.value.addInt type.bytes)]
  else popped m (generalAt family type).value type

theorem emits_popGeneral (i : Instruction) :
    Lowering.Emits 0 (popGeneral m i) () (pushedTogether.reverse.flatMap (restored m i.dataType))
      0 := by
  refine Lowering.emits_forM_flatMap (fun family => ?_) _
  unfold restored
  split
  · exact Lowering.emits_assign _ _
  · exact Lowering.emits_bind (Lowering.emits_assign _ _) (Lowering.emits_assign _ _)

end Lower

/-! ## Pushing -/

section Run

variable {ρ : Type} [RegisterFile ρ] [LawfulRegisterFile ρ] {I : Interpretation} {m : Mode}
variable {type : DataType} {σ τ : State ρ}

theorem get_generalAt_lt (native : type.bits = m.bits) (σ : State ρ) (family : Fin 16) :
    σ.get (Lower.generalAt family type).identifier < 2 ^ m.bits := by
  have inside := σ.get_lt (Lower.generalAt family type).isRegister_identifier
  rwa [Lower.bits_generalAt native] at inside

/-- The value that is pushed for a register is the one from before the first push. -/
theorem eval_savedValue (native : type.bits = m.bits) (same : m.SameOutsideStack
    (σ.setTemporary 0 (σ.get m.stackPointer.identifier)) τ) (family : Fin 16) :
    (Lower.savedValue type family).eval I τ = σ.get (Lower.generalAt family type).identifier := by
  unfold Lower.savedValue
  split
  · rename_i stackPointer
    rw [stackPointer, Lower.generalAt_four native]
    show τ.temporaries 0 % 2 ^ type.bits = _
    rw [same.temporaries, native]
    exact Nat.mod_eq_of_lt (m.get_stackPointer_lt σ)
  · rename_i other
    exact same.registers _ (Lower.family_generalAt_ne other)

/-- Pushing the general registers leaves all of them on the stack as they were. -/
theorem run_generalPushed (native : type.bits = m.bits) (σ : State ρ) :
    ∃ τ, σ.run I (Lower.generalPushed m type) = (τ, none) ∧
      τ.get m.stackPointer.identifier =
        Bits.ofInt m.bits (σ.get m.stackPointer.identifier - 8 * m.pointerSize) ∧
      m.slots τ m.pointerSize 8 = m.generalRegisters.map fun r => σ.get r.identifier := by
  let kept := σ.setTemporary 0 (σ.get m.stackPointer.identifier)
  have keeps : σ.exec I (.assign (.identifier (.temporary 0 type))
      (Lower.generalAt 4 type).value) = (kept, none) := by
    rw [σ.exec_assign_of_plain rfl rfl, Lower.generalAt_four native]
    show (σ.setTemporary 0 (σ.get m.stackPointer.identifier % 2 ^ type.bits), none) = _
    rw [native, Nat.mod_eq_of_lt (m.get_stackPointer_lt σ)]
  have plain : ∀ e, e ∈ Lower.pushedTogether.map (Lower.savedValue type) → e.uses = [] :=
    List.forall_mem_map.mpr fun family _ => Lower.uses_savedValue type family
  have steady : ∀ e, e ∈ Lower.pushedTogether.map (Lower.savedValue type) →
      ∀ τ, m.SameOutsideStack kept τ → e.eval I τ = e.eval I kept :=
    List.forall_mem_map.mpr fun family _ τ same =>
      (eval_savedValue native same family).trans (eval_savedValue native (.refl kept) family).symm
  obtain ⟨τ, runs, -, top, slots⟩ := run_pushed_all _ plain steady (.refl kept) (n := 0)
    (m.room type (by simp [Lower.pushedTogether]))
  have whole : ∀ family, (Lower.savedValue type family).eval I kept % 256 ^ type.bytes =
      σ.get (Lower.generalAt family type).identifier := by
    intro family
    rw [eval_savedValue native (.refl kept), m.bytes_of_bits native, m.pow_pointerSize,
      Nat.mod_eq_of_lt (get_generalAt_lt native σ family)]
  have values : (Lower.pushedTogether.map (Lower.savedValue type)).map
      (fun e => e.eval I kept % 256 ^ type.bytes) =
        Lower.pushedTogether.map fun family => σ.get (Lower.generalAt family type).identifier := by
    rw [List.map_map]
    exact List.map_congr_left fun family _ => whole family
  rw [values, ← List.map_reverse, m.bytes_of_bits native] at slots
  rw [m.bytes_of_bits native] at top
  refine ⟨τ, ?_, top, ?_⟩
  · rw [Lower.generalPushed, State.run_cons_of_falls _ keeps]
    exact runs
  · rw [← Lower.map_generalAt_reverse native, List.map_map]
    exact slots.trans (List.append_nil _)

end Run

/-! ## Popping -/

section Run

variable {ρ : Type} [RegisterFile ρ] {I : Interpretation} {m : Mode} {type : DataType}

/-- The state after the slot of a register was taken from the stack. -/
def Mode.restore (m : Mode) (type : DataType) (σ : State ρ) (family : Fin 16) : State ρ :=
  m.dropTop (if family = 4 then σ
    else σ.setRegister (Lower.generalAt family type).identifier (m.topOfStack σ type)) type

theorem run_restored (σ : State ρ) (family : Fin 16) :
    σ.run I (Lower.restored m type family) = (m.restore type σ family, none) := by
  unfold Lower.restored Mode.restore
  split
  · rw [State.run_cons_of_falls _ (exec_dropTop m σ type)]
    rfl
  · exact run_popped_register σ type _

/-- Taking the slots of some registers from the stack takes them one by one. -/
theorem run_restored_all (families : List (Fin 16)) (σ : State ρ) :
    σ.run I (families.flatMap (Lower.restored m type)) =
      (families.foldl (m.restore type) σ, none) := by
  induction families generalizing σ with
  | nil => rfl
  | cons family rest ih =>
      rw [List.flatMap_cons, State.run_append_of_falls _ (run_restored σ family), ih]
      rfl

namespace Mode

variable [LawfulRegisterFile ρ] {σ τ : State ρ}

theorem get_restore_top (family : Fin 16) :
    (m.restore type σ family).get m.stackPointer.identifier =
      (σ.get m.stackPointer.identifier + type.bytes) % 2 ^ m.bits := by
  rw [restore, get_dropTop]
  split
  · rfl
  · rename_i other
    rw [get_setRegister_of_family_ne (Lower.family_generalAt_ne other).symm]

theorem slot_restore (family : Fin 16) (k : Nat) :
    m.slot (m.restore type σ family) type.bytes k = m.slot σ type.bytes (k + 1) := by
  rw [restore, slot_dropTop]
  split
  · rfl
  · rename_i other
    have isGeneral : (Lower.generalAt family type).family < 16 := by
      rw [Lower.family_generalAt]
      exact family.isLt
    exact slot_setRegister isGeneral (Lower.family_generalAt_ne other) _ _

/-- A register that has a slot of its own takes the number in it. -/
theorem get_restore (native : type.bits = m.bits) {family : Fin 16} (other : family ≠ 4) :
    (m.restore type σ family).get (Lower.generalAt family type).identifier =
      m.slot σ type.bytes 0 % 2 ^ m.bits := by
  rw [restore, if_neg other, m.get_dropTop_of_family_ne _ type (Lower.family_generalAt_ne other),
    σ.get_setRegister _ (Register.isRegister_identifier _), Lower.bits_generalAt native, topOfStack,
    native, Nat.mod_mod, slot, Nat.zero_mul, Nat.add_zero]

theorem get_restore_of_family_ne {family : Fin 16} {r : Register} (other : r.family ≠ family)
    (apart : r.family ≠ m.stackPointer.family) :
    (m.restore type σ family).get r.identifier = σ.get r.identifier := by
  rw [restore, m.get_dropTop_of_family_ne _ type apart]
  split
  · rfl
  · refine get_setRegister_of_family_ne ?_ σ _
    rwa [Lower.family_generalAt]

theorem get_foldl_restore_top (families : List (Fin 16)) (σ : State ρ) :
    (families.foldl (m.restore type) σ).get m.stackPointer.identifier =
      (σ.get m.stackPointer.identifier + families.length * type.bytes) % 2 ^ m.bits := by
  induction families generalizing σ with
  | nil =>
      rw [List.length_nil, Nat.zero_mul, Nat.add_zero, Nat.mod_eq_of_lt (m.get_stackPointer_lt σ)]
      rfl
  | cons family rest ih =>
      rw [List.foldl_cons, ih, get_restore_top, Nat.mod_add_mod, List.length_cons, Nat.succ_mul,
        Nat.add_assoc, Nat.add_comm type.bytes]

theorem get_foldl_restore_of_family_ne {families : List (Fin 16)} {r : Register}
    (others : ∀ family, family ∈ families → r.family ≠ family)
    (apart : r.family ≠ m.stackPointer.family) (σ : State ρ) :
    (families.foldl (m.restore type) σ).get r.identifier = σ.get r.identifier := by
  induction families generalizing σ with
  | nil => rfl
  | cons family rest ih =>
      rw [List.foldl_cons, ih (fun family' later => others family' (.tail family later)),
        get_restore_of_family_ne (others family List.mem_cons_self) apart]

/-- Every register takes the number in its own slot. -/
theorem get_foldl_restore (native : type.bits = m.bits) {families : List (Fin 16)}
    (distinct : families.Nodup) {k : Nat} {family : Fin 16} (found : families[k]? = some family)
    (other : family ≠ 4) (σ : State ρ) :
    (families.foldl (m.restore type) σ).get (Lower.generalAt family type).identifier =
      m.slot σ type.bytes k % 2 ^ m.bits := by
  induction families generalizing σ k with
  | nil => cases found
  | cons first rest ih =>
      obtain ⟨notLater, distinct⟩ := List.nodup_cons.mp distinct
      cases k with
      | zero =>
          obtain rfl : first = family := Option.some.inj found
          have others : ∀ later, later ∈ rest →
              (Lower.generalAt first type).family ≠ later := by
            intro later listed same
            rw [Lower.family_generalAt] at same
            exact notLater (Fin.ext same ▸ listed)
          rw [List.foldl_cons, get_foldl_restore_of_family_ne others (Lower.family_generalAt_ne other),
            get_restore native other]
      | succ k =>
          rw [List.foldl_cons, ih distinct found, slot_restore]

end Mode

end Run

/-! ## Both instructions -/

section Both

variable {ρ : Type} [RegisterFile ρ] [LawfulRegisterFile ρ] {m : Mode} {type : DataType}

/-- Taking all slots from a stack that holds the general registers restores them. -/
theorem get_foldl_restore_general (native : type.bits = m.bits) {σ τ : State ρ}
    (top : τ.get m.stackPointer.identifier =
      Bits.ofInt m.bits (σ.get m.stackPointer.identifier - 8 * m.pointerSize))
    (slots : m.slots τ m.pointerSize 8 = m.generalRegisters.map fun r => σ.get r.identifier)
    {r : Register} (listed : r ∈ m.generalRegisters) :
    (Lower.pushedTogether.reverse.foldl (m.restore type) τ).get r.identifier =
      σ.get r.identifier := by
  rw [← Lower.map_generalAt_reverse native] at slots listed
  obtain ⟨family, inside, rfl⟩ := List.mem_map.mp listed
  by_cases stackPointer : family = 4
  · rw [stackPointer, Lower.generalAt_four native, Mode.get_foldl_restore_top, top,
      m.bytes_of_bits native]
    exact Bits.ofInt_sub_add_mod (m.get_stackPointer_lt σ) (8 * m.pointerSize)
  · obtain ⟨k, found⟩ := List.mem_iff_getElem?.mp inside
    have saved : m.slot τ m.pointerSize k = σ.get (Lower.generalAt family type).identifier := by
      refine Mode.slot_of_slots slots ?_
      rw [List.map_map, List.getElem?_map, found]
      rfl
    rw [Mode.get_foldl_restore native (by decide) found stackPointer, m.bytes_of_bits native, saved,
      Nat.mod_eq_of_lt (get_generalAt_lt native σ family)]

end Both

/-- Pushing the general registers moves the stack pointer down by eight words, which hold all of the
registers as they were before, the stack pointer among them.  Popping them, whatever registers and flags
were changed to in between, restores all of them as long as the stack is the same. -/
theorem lowerWith_pusha_popa {ρ : Type} [RegisterFile ρ] [LawfulRegisterFile ρ] (m : Mode)
    {i j : Instruction} (next next' : Option Instruction) {t u : IntrinsicTable}
    (saves : i.opcode = .pusha) (restores : j.opcode = .popa) (native : i.dataType.bits = m.bits)
    (native' : j.dataType.bits = m.bits) (regular : t.Regular) (regular' : u.Regular) :
    ∃ saving t', (backend m).lowerWith i next t = (.ok saving, t') ∧
      ∃ restoring u', (backend m).lowerWith j next' u = (.ok restoring, u') ∧
        ∀ (I : Interpretation) (σ : State ρ),
          let sp := m.stackPointer.identifier
          ∃ τ, σ.run I saving.statements = (τ, none) ∧
            τ.get sp = Bits.ofInt m.bits (σ.get sp - 8 * m.pointerSize) ∧
            m.slots τ m.pointerSize 8 = m.generalRegisters.map (fun r => σ.get r.identifier) ∧
            ∀ τ' : State ρ, τ'.memory = τ.memory → τ'.get sp = τ.get sp →
              m.stackSegment τ' = m.stackSegment τ →
              ∃ υ, τ'.run I restoring.statements = (υ, none) ∧
                ∀ r, r ∈ m.generalRegisters → υ.get r.identifier = σ.get r.identifier := by
  have pushes : Lowering.Emits 0 ((backend m).lower i next) false
      (Lower.generalPushed m i.dataType) 1 := by
    simp only [backend, saves, Lower.instruction]
    exact Lowering.emits_return false (Lower.emits_pushGeneral i)
  have pops : Lowering.Emits 0 ((backend m).lower j next') false
      (Lower.pushedTogether.reverse.flatMap (Lower.restored m j.dataType)) 0 := by
    simp only [backend, restores, Lower.instruction]
    exact Lowering.emits_return false (Lower.emits_popGeneral j)
  obtain ⟨saving, t', ran, settled⟩ := Backend.runs_of_emits pushes regular
  obtain ⟨restoring, u', ran', settled'⟩ := Backend.runs_of_emits pops regular'
  refine ⟨saving, t', ran, restoring, u', ran', fun I σ => ?_⟩
  intro sp
  obtain ⟨τ, runs, top, slots⟩ := run_generalPushed (I := I) native σ
  refine ⟨τ, (settled I σ).trans runs, top, slots, fun τ' memory top' segment => ?_⟩
  have top' : τ'.get sp = Bits.ofInt m.bits (σ.get sp - 8 * m.pointerSize) := top'.trans top
  have slots' : m.slots τ' m.pointerSize 8 = m.generalRegisters.map fun r => σ.get r.identifier :=
    (Mode.slots_congr memory (top'.trans top.symm) segment 8).trans slots
  exact ⟨_, (settled' I τ').trans (run_restored_all _ τ'),
    fun r listed => get_foldl_restore_general native' top' slots' listed⟩

/-- The accumulator may be changed between saving and restoring in 32 bits. -/
theorem lowerWith_pusha_popa_eax :
    ∃ saving t', (backend .protectedMode).lowerWith (.of 0x1000 1 .pusha [] .word32) none .empty =
        (.ok saving, t') ∧
      ∃ restoring u', (backend .protectedMode).lowerWith (.of 0x1001 1 .popa [] .word32) none .empty =
          (.ok restoring, u') ∧
        ∀ (I : Interpretation) (σ : State Families) (value : Nat),
          ∃ τ υ, σ.run I saving.statements = (τ, none) ∧
            (τ.setRegister Register.eax.identifier value).run I restoring.statements = (υ, none) ∧
            υ.get Register.eax.identifier = σ.get Register.eax.identifier ∧
            υ.get Register.esp.identifier = σ.get Register.esp.identifier := by
  obtain ⟨saving, t', ran, restoring, u', ran', runs⟩ := lowerWith_pusha_popa (ρ := Families)
    .protectedMode (i := .of 0x1000 1 .pusha [] .word32) (j := .of 0x1001 1 .popa [] .word32) none
    none rfl rfl rfl rfl IntrinsicTable.regular_empty IntrinsicTable.regular_empty
  refine ⟨saving, t', ran, restoring, u', ran', fun I σ value => ?_⟩
  obtain ⟨τ, run, -, -, restores⟩ := runs I σ
  have apart : Mode.protectedMode.stackPointer.family ≠ Register.eax.family := by decide
  obtain ⟨υ, run', restored⟩ := restores (τ.setRegister Register.eax.identifier value) rfl
    (get_setRegister_of_family_ne apart τ value) rfl
  exact ⟨τ, υ, run, run', restored .eax (by decide), restored .esp (by decide)⟩

end RegisterTransfer.X86
