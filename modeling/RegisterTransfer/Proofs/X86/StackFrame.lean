/-
# RegisterTransfer.Proofs.X86.StackFrame -- frames entered and left

Entering a frame pushes the frame pointer and remembers where, copies the frame pointers of the outer
frames up to the nesting level, moves the frame pointer to the remembered place and reserves space below.
All through the copies the saved frame pointer keeps its place, which is one more slot down from the top
after each of them (`Mode.Framed`): there are at most 31 more of them, which fit into every address space
together with it.  Leaving the frame goes back there and pops it (`lowerWith_enter_leave`).
-/
import RegisterTransfer.Proofs.X86.Stack

namespace RegisterTransfer.X86

set_option autoImplicit false

/-! ## Frames -/

/-- The size and the nesting level of the frame that an instruction enters.  A level that is not given
is zero. -/
def Instruction.frame? (i : Instruction) : Option (Int × Int) :=
  match i.operands with
  | [.immediate size _] => some (size, 0)
  | .immediate size _ :: .immediate level _ :: _ => some (size, level)
  | _ => none

namespace Instruction

variable {i : Instruction} {size level : Int}

theorem operands_of_frame? (frame : i.frame? = some (size, level)) :
    (∃ t, i.operands = [.immediate size t] ∧ level = 0) ∨
      ∃ t t' rest, i.operands = .immediate size t :: .immediate level t' :: rest := by
  unfold frame? at frame
  split at frame
  · rename_i operands
    cases frame
    exact .inl ⟨_, operands, rfl⟩
  · rename_i operands
    cases frame
    exact .inr ⟨_, _, _, operands⟩
  · cases frame

theorem immediate_of_getElem? {n : Nat} {value : Int} {t : DataType}
    (found : i.operands[n]? = some (.immediate value t)) : i.immediate n = .ok value := by
  rw [immediate, operand_of_getElem? found]
  rfl

theorem size_of_frame? (frame : i.frame? = some (size, level)) : i.immediate 0 = .ok size := by
  obtain ⟨t, operands, -⟩ | ⟨t, t', rest, operands⟩ := operands_of_frame? frame
  · exact immediate_of_getElem? (t := t) (by rw [operands]; rfl)
  · exact immediate_of_getElem? (t := t) (by rw [operands]; rfl)

end Instruction

namespace Mode

theorem family_framePointer (m : Mode) : m.framePointer.family = 5 := Register.family_resize .bp _

theorem bits_framePointer (m : Mode) : m.framePointer.identifier.bits = m.bits := by
  cases m <;> decide

theorem type_framePointer (m : Mode) : m.framePointer.type.bits = m.bits := m.bits_framePointer

theorem bytes_framePointer (m : Mode) : m.framePointer.type.bytes = m.pointerSize :=
  m.bytes_of_bits m.type_framePointer

theorem framePointer_apart (m : Mode) : m.framePointer.family ≠ m.stackPointer.family := by
  rw [m.family_framePointer, m.family_stackPointer]
  decide

theorem framePointer_isGeneral (m : Mode) : m.framePointer.family < 16 := by
  rw [m.family_framePointer]
  decide

theorem get_framePointer_lt {ρ : Type} [RegisterFile ρ] [LawfulRegisterFile ρ] (m : Mode)
    (σ : State ρ) : σ.get m.framePointer.identifier < 2 ^ m.bits := by
  have inside := σ.get_lt m.framePointer.isRegister_identifier
  rwa [m.bits_framePointer] at inside

end Mode

/-! ## The statements -/

namespace Lower

/-- Where the place of the saved frame pointer is remembered. -/
def rememberedFrame (m : Mode) : Expr := .identifier (.temporary 0 m.framePointer.type)

/-- The statements that copy one outer frame pointer. -/
def frameCopied (m : Mode) : List Statement :=
  let type := m.framePointer.type
  .assign m.framePointer.value (m.framePointer.value.addInt (-(type.bytes : Int))) ::
    pushed m (stackSlot m type m.framePointer.value) type

/-- The statements that put frame pointers on the stack for a number of levels. -/
def framesPushed (m : Mode) (depth : Nat) : List Statement :=
  let type := m.framePointer.type
  pushed m m.framePointer.value type ++
    (.assign (rememberedFrame m) m.stackPointer.value ::
      ((List.replicate (depth - 1) ()).flatMap (fun _ => frameCopied m) ++
        if depth > 0 then pushed m (rememberedFrame m) type else []))

/-- The statements that move the frame pointer and reserve space. -/
def frameReserved (m : Mode) (size : Int) : List Statement :=
  .assign m.framePointer.value (rememberedFrame m) ::
    if size ≠ 0 then
      [.assign m.stackPointer.value (m.stackPointer.value.addInt (wrap64 (-size)))]
    else []

/-- The statements that leave a frame. -/
def frameLeft (m : Mode) : List Statement :=
  .assign m.stackPointer.value m.framePointer.value ::
    popped m m.framePointer.value m.framePointer.type

variable {m : Mode} {i : Instruction} {size level : Int}

theorem emits_copyFramePointer (k : Nat) :
    Lowering.Emits k (copyFramePointer m) () (frameCopied m) k :=
  Lowering.emits_bind (Lowering.emits_assign _ _) (emits_pushValue m k _ _)

/-- The level is read from the second operand, if there is one. -/
theorem emits_level {k k' : Nat} {f : Int → Lowering Unit} {statements : List Statement}
    (frame : i.frame? = some (size, level)) (then_ : Lowering.Emits k (f level) () statements k') :
    Lowering.Emits k (if i.operands.length > 1 then liftM (i.immediate 1) >>= f else pure 0 >>= f)
      () statements k' := by
  obtain ⟨t, operands, rfl⟩ | ⟨t, t', rest, operands⟩ := Instruction.operands_of_frame? frame
  · rw [if_neg (by simp [operands])]
    exact Lowering.emits_bind (Lowering.emits_pure 0) then_
  · rw [if_pos (by simp [operands])]
    refine Lowering.emits_operand (Instruction.immediate_of_getElem? (t := t') ?_) then_
    rw [operands]
    rfl

theorem emits_enterFrame (frame : i.frame? = some (size, level)) :
    Lowering.Emits 0 (enterFrame m i) ()
      (framesPushed m (level % 32).toNat ++ frameReserved m size) 1 := by
  refine Lowering.emits_operand (Instruction.size_of_frame? frame) ?_
  refine emits_level frame ?_
  rw [framesPushed, List.append_assoc, List.cons_append, List.append_assoc]
  refine Lowering.emits_bind (emits_pushValue m 0 _ _) ?_
  refine Lowering.emits_temporary_bind ?_
  refine Lowering.emits_assign_bind ?_
  refine Lowering.emits_bind
    (Lowering.emits_forM_flatMap (fun _ => emits_copyFramePointer 1) _) ?_
  refine Lowering.emits_ite_bind (emits_pushValue m 1 _ _) ?_
  exact Lowering.emits_assign_bind (Lowering.emits_ite (Lowering.emits_assign _ _))

theorem emits_leaveFrame (m : Mode) : Lowering.Emits 0 (leaveFrame m) () (frameLeft m) 0 :=
  Lowering.emits_bind (Lowering.emits_assign _ _)
    (Lowering.emits_bind (Lowering.emits_assign _ _) (Lowering.emits_assign _ _))

end Lower

/-! ## Entering -/

/-- Whether a state is inside of entering a frame from another state: some frame pointers stand on top
of the one that was saved, whose place is remembered. -/
structure Mode.Framed (m : Mode) {ρ : Type} [RegisterFile ρ] (σ : State ρ) (n : Nat) (τ : State ρ) :
    Prop where
  top : τ.get m.stackPointer.identifier =
    Bits.ofInt m.bits (σ.get m.stackPointer.identifier - (n + 1) * m.pointerSize)
  remembered : τ.temporaries 0 =
    Bits.ofInt m.bits (σ.get m.stackPointer.identifier - m.pointerSize)
  saved : m.slot τ m.pointerSize n = σ.get m.framePointer.identifier

section Run

variable {ρ : Type} [RegisterFile ρ] {I : Interpretation} {m : Mode} {σ τ : State ρ} {n : Nat}

/-- The saved frame pointer is found at the remembered place. -/
theorem Mode.Framed.load_remembered (framed : m.Framed σ n τ) :
    τ.load (m.stackSegment τ) m.bits
        (Bits.ofInt m.bits (σ.get m.stackPointer.identifier - m.pointerSize)) m.pointerSize =
      σ.get m.framePointer.identifier := by
  rw [← framed.saved, Mode.slot]
  refine State.load_of_mod τ _ ?_ _
  rw [framed.top, ← Bits.ofInt_natCast, ← Bits.ofInt_natCast, Int.natCast_add, Bits.ofInt_ofInt_add,
    Bits.ofInt_of_lt (Bits.ofInt_lt _ _), Int.natCast_mul, Int.add_mul, Int.one_mul]
  congr 1
  omega

variable [LawfulRegisterFile ρ]

namespace Mode.Framed

/-- One more frame pointer on the stack. -/
theorem push (framed : m.Framed σ n τ) (few : n + 2 ≤ 4096) (value : Nat) :
    m.Framed σ (n + 1) (m.push τ m.framePointer.type value) where
  top := by
    rw [get_push, framed.top, m.bytes_framePointer, Int.sub_eq_add_neg, Bits.ofInt_ofInt_add,
      Int.natCast_succ]
    congr 1
    rw [Int.add_mul (n + 1) 1, Int.one_mul]
    omega
  remembered := framed.remembered
  saved := by
    have kept := slot_push_succ (σ := τ) value (m.room m.framePointer.type few)
    rw [m.bytes_framePointer] at kept
    exact kept.trans framed.saved

theorem setFramePointer (framed : m.Framed σ n τ) (value : Nat) :
    m.Framed σ n (τ.setRegister m.framePointer.identifier value) where
  top := (get_setRegister_of_family_ne m.framePointer_apart.symm τ value).trans framed.top
  remembered := framed.remembered
  saved := (slot_setRegister m.framePointer_isGeneral m.framePointer_apart value n).trans framed.saved

end Mode.Framed

/-- When the frame pointer was saved and its place is remembered, entering has started. -/
theorem framed_zero (σ : State ρ) :
    let saved := m.push σ m.framePointer.type (σ.get m.framePointer.identifier)
    m.Framed σ 0 (saved.setTemporary 0 (saved.get m.stackPointer.identifier)) := by
  intro saved
  have top : saved.get m.stackPointer.identifier =
      Bits.ofInt m.bits (σ.get m.stackPointer.identifier - m.pointerSize) := by
    rw [Mode.get_push, m.bytes_framePointer]
  have inside := m.get_framePointer_lt σ
  rw [← m.pow_pointerSize] at inside
  have stored : m.slot saved m.pointerSize 0 = σ.get m.framePointer.identifier := by
    rw [← m.bytes_framePointer, Mode.slot_push_zero, m.bytes_framePointer, Nat.mod_eq_of_lt inside]
  exact ⟨by rw [Int.natCast_zero, Int.zero_add, Int.one_mul]; exact top, top, stored⟩

/-- Copying an outer frame pointer puts it on top of the others. -/
theorem run_frameCopied (framed : m.Framed σ n τ) (few : n + 2 ≤ 4096) :
    ∃ υ, τ.run I (Lower.frameCopied m) = (υ, none) ∧ m.Framed σ (n + 1) υ := by
  let type := m.framePointer.type
  have narrow := type.bytes_le
  have short : (-(type.bytes : Int)).natAbs < 2 ^ 64 := by omega
  have moves := exec_adjust (I := I) τ m.framePointer short
  let moved := τ.setRegister m.framePointer.identifier (Bits.ofInt m.framePointer.identifier.bits
    (τ.get m.framePointer.identifier + -(type.bytes : Int)))
  let slot := Lower.stackSlot m type m.framePointer.value
  have runs : τ.run I (Lower.frameCopied m) =
      (m.push moved type (slot.eval I (m.makeRoom moved type)), none) := by
    rw [Lower.frameCopied, State.run_cons_of_falls _ moves]
    exact run_pushed_eq_push moved type (Lower.plain_stackSlot m type _)
  exact ⟨_, runs, (framed.setFramePointer _).push few _⟩

theorem run_frameCopied_times (count : Nat) (framed : m.Framed σ n τ) (few : n + count + 1 ≤ 4096) :
    ∃ υ, τ.run I ((List.replicate count ()).flatMap fun _ => Lower.frameCopied m) = (υ, none) ∧
      m.Framed σ (n + count) υ := by
  induction count generalizing n τ with
  | zero => exact ⟨τ, rfl, framed⟩
  | succ count ih =>
      obtain ⟨next, copies, framed⟩ := run_frameCopied (I := I) framed (by omega)
      obtain ⟨υ, runs, framed⟩ := ih framed (by omega)
      refine ⟨υ, ?_, ?_⟩
      · rw [List.replicate_succ, List.flatMap_cons, State.run_append_of_falls _ copies]
        exact runs
      · rwa [Nat.add_right_comm] at framed

/-- The saved frame pointer is remembered behind all frame pointers of the levels. -/
theorem run_framesPushed (σ : State ρ) {depth : Nat} (few : depth < 32) :
    ∃ τ, σ.run I (Lower.framesPushed m depth) = (τ, none) ∧ m.Framed σ depth τ := by
  let type := m.framePointer.type
  let saved := m.push σ type (σ.get m.framePointer.identifier)
  have saves : σ.run I (pushed m m.framePointer.value type) = (saved, none) := by
    rw [run_pushed_eq_push σ type rfl]
    exact congrArg (fun v => (m.push σ type v, none))
      (m.get_makeRoom_of_family_ne σ type m.framePointer_apart)
  have remembers : saved.exec I (.assign (Lower.rememberedFrame m) m.stackPointer.value) =
      (saved.setTemporary 0 (saved.get m.stackPointer.identifier), none) := by
    rw [saved.exec_assign_of_plain rfl rfl]
    show (saved.setTemporary 0 (saved.get _ % 2 ^ m.framePointer.identifier.bits), none) = _
    rw [m.bits_framePointer, Nat.mod_eq_of_lt (m.get_stackPointer_lt saved)]
  obtain ⟨τ, copies, framed⟩ := run_frameCopied_times (I := I) (depth - 1) (framed_zero σ) (by omega)
  rw [Nat.zero_add] at framed
  have starts : ∀ rest, σ.run I (pushed m m.framePointer.value type ++
      (.assign (Lower.rememberedFrame m) m.stackPointer.value ::
        ((List.replicate (depth - 1) ()).flatMap (fun _ => Lower.frameCopied m) ++ rest))) =
          τ.run I rest := by
    intro rest
    rw [State.run_append_of_falls _ saves, State.run_cons_of_falls _ remembers,
      State.run_append_of_falls _ copies]
  rw [Lower.framesPushed, starts]
  -- The innermost level is the frame itself, whose place is pushed and not copied.
  by_cases nested : depth > 0
  · rw [if_pos nested, run_pushed_eq_push τ type rfl]
    refine ⟨_, rfl, ?_⟩
    have more := framed.push (by omega) ((Lower.rememberedFrame m).eval I (m.makeRoom τ type))
    rwa [Nat.sub_add_cancel nested] at more
  · obtain rfl : depth = 0 := by omega
    exact ⟨τ, rfl, framed⟩

/-- Space is reserved by moving the stack pointer down, as far as its width counts. -/
theorem run_reserve (σ : State ρ) (size : Int) :
    σ.run I (if size ≠ 0 then
      [.assign m.stackPointer.value (m.stackPointer.value.addInt (wrap64 (-size)))] else []) =
        (σ.setRegister m.stackPointer.identifier
          (Bits.ofInt m.bits (σ.get m.stackPointer.identifier - size)), none) := by
  by_cases reserves : size ≠ 0
  · have narrow : m.bits ≤ 64 := by cases m <;> decide
    rw [if_pos reserves, State.run_cons_of_falls _ (exec_adjust σ _ (natAbs_wrap64_lt (-size))),
      m.bits_stackPointer, Bits.ofInt_add_wrap64 narrow, ← Int.sub_eq_add_neg]
    rfl
  · have empty : size = 0 := not_not.mp reserves
    rw [if_neg reserves, empty, Int.sub_zero, Bits.ofInt_of_lt (m.get_stackPointer_lt σ),
      σ.setRegister_get m.stackPointer.isRegister_identifier]
    rfl

/-- When space is reserved the frame pointer is at the remembered place. -/
theorem run_frameReserved (framed : m.Framed σ n τ) (size : Int) :
    ∃ υ, τ.run I (Lower.frameReserved m size) = (υ, none) ∧
      υ.get m.framePointer.identifier =
        Bits.ofInt m.bits (σ.get m.stackPointer.identifier - m.pointerSize) ∧
      υ.get m.stackPointer.identifier =
        Bits.ofInt m.bits
          (σ.get m.stackPointer.identifier - m.pointerSize - n * m.pointerSize - size) ∧
      υ.load (m.stackSegment υ) m.bits (υ.get m.framePointer.identifier) m.pointerSize =
        σ.get m.framePointer.identifier := by
  let place := Bits.ofInt m.bits (σ.get m.stackPointer.identifier - m.pointerSize)
  let moved := τ.setRegister m.framePointer.identifier place
  let newTop := Bits.ofInt m.bits (moved.get m.stackPointer.identifier - size)
  let υ := moved.setRegister m.stackPointer.identifier newTop
  have inside : place < 2 ^ m.bits := Bits.ofInt_lt _ _
  have moves : τ.exec I (.assign m.framePointer.value (Lower.rememberedFrame m)) = (moved, none) := by
    rw [τ.exec_assign_of_plain rfl rfl, Register.value,
      τ.assign_register m.framePointer.isRegister_identifier]
    show (τ.setRegister _ (τ.temporaries 0 % 2 ^ m.framePointer.identifier.bits), none) = _
    rw [framed.remembered, m.bits_framePointer, Nat.mod_eq_of_lt inside]
  have frameAt : υ.get m.framePointer.identifier = place := by
    rw [get_setRegister_of_family_ne m.framePointer_apart,
      τ.get_setRegister _ m.framePointer.isRegister_identifier, m.bits_framePointer,
      Nat.mod_eq_of_lt inside]
  have segment : m.stackSegment υ = m.stackSegment τ :=
    (Mode.stackSegment_setRegister m.stackPointer_isGeneral newTop).trans
      (Mode.stackSegment_setRegister m.framePointer_isGeneral place)
  refine ⟨υ, ?_, frameAt, ?_, ?_⟩
  · rw [Lower.frameReserved, State.run_cons_of_falls _ moves]
    exact run_reserve moved size
  · rw [moved.get_setRegister _ m.stackPointer.isRegister_identifier, m.bits_stackPointer,
      Nat.mod_eq_of_lt (Bits.ofInt_lt _ _), (framed.setFramePointer place).top, Int.sub_eq_add_neg,
      Bits.ofInt_ofInt_add, Int.add_mul, Int.one_mul]
    congr 1
    omega
  · rw [frameAt, segment]
    exact framed.load_remembered

/-! ## Leaving -/

/-- Leaving a frame takes the stack pointer from the frame pointer, and the frame pointer from where it
pointed. -/
theorem run_frameLeft (σ : State ρ) :
    ∃ τ, σ.run I (Lower.frameLeft m) = (τ, none) ∧
      τ.get m.stackPointer.identifier =
        (σ.get m.framePointer.identifier + m.pointerSize) % 2 ^ m.bits ∧
      τ.get m.framePointer.identifier =
        σ.load (m.stackSegment σ) m.bits (σ.get m.framePointer.identifier) m.pointerSize := by
  let segment := m.stackSegment σ
  let place := σ.get m.framePointer.identifier
  let moved := σ.setRegister m.stackPointer.identifier place
  have moves : σ.exec I (.assign m.stackPointer.value m.framePointer.value) = (moved, none) := by
    rw [σ.exec_assign_of_plain rfl rfl, Register.value,
      σ.assign_register m.stackPointer.isRegister_identifier]
    rfl
  have top : moved.get m.stackPointer.identifier = place := by
    rw [σ.get_setRegister _ m.stackPointer.isRegister_identifier, m.bits_stackPointer,
      Nat.mod_eq_of_lt (m.get_framePointer_lt σ)]
  have short : σ.load segment m.bits place m.pointerSize < 2 ^ m.bits := by
    rw [← m.pow_pointerSize]
    exact σ.load_lt segment m.bits place m.pointerSize
  have value : m.topOfStack moved m.framePointer.type =
      σ.load segment m.bits place m.pointerSize := by
    rw [Mode.topOfStack, top, m.bytes_framePointer, m.type_framePointer,
      Mode.stackSegment_setRegister m.stackPointer_isGeneral]
    exact Nat.mod_eq_of_lt short
  have runs : σ.run I (Lower.frameLeft m) = (m.dropTop (moved.setRegister m.framePointer.identifier
      (m.topOfStack moved m.framePointer.type)) m.framePointer.type, none) := by
    rw [Lower.frameLeft, State.run_cons_of_falls _ moves]
    exact run_popped_register moved _ _
  refine ⟨_, runs, ?_, ?_⟩
  · rw [m.get_dropTop, get_setRegister_of_family_ne m.framePointer_apart.symm, top,
      m.bytes_framePointer]
  · rw [m.get_dropTop_of_family_ne _ _ m.framePointer_apart, value,
      State.get_setRegister _ _ m.framePointer.isRegister_identifier, m.bits_framePointer,
      Nat.mod_eq_of_lt short]

end Run

/-- Entering a frame leaves the frame pointer one word below the stack pointer of before, and the stack
pointer another word for each nesting level modulo 32 and the size of the frame below that.  Leaving the
frame from there restores both of them. -/
theorem lowerWith_enter_leave {ρ : Type} [RegisterFile ρ] [LawfulRegisterFile ρ] (m : Mode)
    {i j : Instruction} {size level : Int} (next next' : Option Instruction) {t u : IntrinsicTable}
    (enters : i.opcode = .enter) (frame : i.frame? = some (size, level)) (leaves : j.opcode = .leave)
    (regular : t.Regular) (regular' : u.Regular) :
    ∃ entering t', (backend m).lowerWith i next t = (.ok entering, t') ∧
      ∃ leaving u', (backend m).lowerWith j next' u = (.ok leaving, u') ∧
        ∀ (I : Interpretation) (σ : State ρ),
          let sp := m.stackPointer.identifier
          let bp := m.framePointer.identifier
          let word := m.pointerSize
          ∃ τ υ, σ.run I entering.statements = (τ, none) ∧
            τ.get bp = Bits.ofInt m.bits (σ.get sp - word) ∧
            τ.get sp = Bits.ofInt m.bits (σ.get sp - word - level % 32 * word - size) ∧
            τ.run I leaving.statements = (υ, none) ∧
            υ.get sp = σ.get sp ∧ υ.get bp = σ.get bp := by
  have emits : Lowering.Emits 0 ((backend m).lower i next) false
      (Lower.framesPushed m (level % 32).toNat ++ Lower.frameReserved m size) 1 := by
    simp only [backend, enters, Lower.instruction]
    exact Lowering.emits_return false (Lower.emits_enterFrame frame)
  have emits' : Lowering.Emits 0 ((backend m).lower j next') false (Lower.frameLeft m) 0 := by
    simp only [backend, leaves, Lower.instruction]
    exact Lowering.emits_return false (Lower.emits_leaveFrame m)
  obtain ⟨entering, t', ran, settled⟩ := Backend.runs_of_emits emits regular
  obtain ⟨leaving, u', ran', settled'⟩ := Backend.runs_of_emits emits' regular'
  refine ⟨entering, t', ran, leaving, u', ran', fun I σ => ?_⟩
  intro sp bp word
  have whole : ((level % 32).toNat : Int) = level % 32 := by omega
  have few : (level % 32).toNat < 32 := by omega
  obtain ⟨middle, pushes, framed⟩ := run_framesPushed (I := I) (m := m) σ few
  obtain ⟨τ, reserves, frameAt, top, saved⟩ := run_frameReserved (I := I) framed size
  obtain ⟨υ, left, top', frameAt'⟩ := run_frameLeft (I := I) (m := m) τ
  rw [whole] at top
  refine ⟨τ, υ, (settled I σ).trans ?_, frameAt, top, (settled' I τ).trans left, ?_,
    frameAt'.trans saved⟩
  · rw [State.run_append_of_falls _ pushes]
    exact reserves
  · rw [top', frameAt]
    exact Bits.ofInt_sub_add_mod (m.get_stackPointer_lt σ) word

/-- A frame of eight bytes at the second level, in 32 bits. -/
theorem lowerWith_enter_leave_nested :
    ∃ entering t', (backend .protectedMode).lowerWith (.of 0x1000 4 .enter
        [.immediate 8 .word16, .immediate 2 .byte] .word32) none .empty = (.ok entering, t') ∧
      ∃ leaving u', (backend .protectedMode).lowerWith (.of 0x1004 1 .leave [] .word32) none .empty =
          (.ok leaving, u') ∧
        ∀ (I : Interpretation) (σ : State Families),
          let esp := Register.esp.identifier
          let ebp := Register.ebp.identifier
          ∃ τ υ, σ.run I entering.statements = (τ, none) ∧
            τ.get ebp = Bits.ofInt 32 (σ.get esp - 4) ∧
            τ.get esp = Bits.ofInt 32 (σ.get esp - 20) ∧
            τ.run I leaving.statements = (υ, none) ∧
            υ.get esp = σ.get esp ∧ υ.get ebp = σ.get ebp := by
  obtain ⟨entering, t', ran, leaving, u', ran', runs⟩ := lowerWith_enter_leave (ρ := Families)
    .protectedMode
    (i := .of 0x1000 4 .enter [.immediate 8 .word16, .immediate 2 .byte] .word32)
    (j := .of 0x1004 1 .leave [] .word32) none none rfl rfl rfl IntrinsicTable.regular_empty
    IntrinsicTable.regular_empty
  refine ⟨entering, t', ran, leaving, u', ran', fun I σ => ?_⟩
  intro esp ebp
  obtain ⟨τ, υ, run, frameAt, top, run', restored⟩ := runs I σ
  have size : (σ.get esp - 4 - 2 % 32 * 4 - 8 : Int) = σ.get esp - 20 := by omega
  exact ⟨τ, υ, run, frameAt, top.trans (congrArg (Bits.ofInt 32) size), run', restored⟩

end RegisterTransfer.X86
