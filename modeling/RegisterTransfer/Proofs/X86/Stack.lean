/-
# RegisterTransfer.Proofs.X86.Stack -- the slots of the stack

The slots of the stack are counted from its top.  A push puts its value into a new first slot, and every
slot before it keeps its number and stands one further down, as long as all of them fit into the address
space (`Mode.slot_push_succ`); moving the stack pointer up takes the first slot away
(`Mode.slot_dropTop`).  Pushes in a row whose values do not depend on the stack leave their values in the
reverse of their order (`run_pushed_all`).
-/
import RegisterTransfer.Proofs.X86.Pop

namespace RegisterTransfer.X86

set_option autoImplicit false

/-! ## Slots -/

namespace Mode

section Slots

variable {ρ : Type} [RegisterFile ρ] (m : Mode)

/-- The number in a slot of the stack.  Slots of some bytes are counted from the top. -/
def slot (σ : State ρ) (size k : Nat) : Nat :=
  σ.load (m.stackSegment σ) m.bits (σ.get m.stackPointer.identifier + k * size) size

/-- The numbers in the first slots of the stack. -/
def slots (σ : State ρ) (size n : Nat) : List Nat :=
  (List.range n).map (m.slot σ size)

/-- The state after a number was pushed. -/
def push (σ : State ρ) (type : DataType) (value : Nat) : State ρ :=
  let moved := m.makeRoom σ type
  moved.store (m.stackSegment σ) m.bits (moved.get m.stackPointer.identifier) type.bytes value

theorem family_stackPointer (m : Mode) : m.stackPointer.family = 4 := Register.family_resize .sp _

theorem stackPointer_isGeneral (m : Mode) : m.stackPointer.family < 16 := by
  rw [m.family_stackPointer]
  decide

/-- A type as wide as the mode's words fills a slot of its words. -/
theorem bytes_of_bits {type : DataType} (native : type.bits = m.bits) :
    type.bytes = m.pointerSize := by
  rw [DataType.bytes, native]
  cases m <;> rfl

theorem pow_pointerSize (m : Mode) : 256 ^ m.pointerSize = 2 ^ m.bits := by
  cases m <;> decide

/-- Some thousand values of any type fit into the address space. -/
theorem room (type : DataType) {n : Nat} (few : n ≤ 4096) : n * type.bytes ≤ 2 ^ m.bits := by
  have wide : 2 ^ 16 ≤ 2 ^ m.bits := Nat.pow_le_pow_right (by decide) (by cases m <;> decide)
  calc
    n * type.bytes ≤ 4096 * 16 := Nat.mul_le_mul few type.bytes_le
    _ ≤ 2 ^ m.bits := wide

variable {m} {σ τ : State ρ} {type : DataType} {size : Nat}

theorem slot_congr (memory : τ.memory = σ.memory)
    (top : τ.get m.stackPointer.identifier = σ.get m.stackPointer.identifier)
    (segment : m.stackSegment τ = m.stackSegment σ) (k : Nat) :
    m.slot τ size k = m.slot σ size k := by
  rw [slot, slot, top, segment, State.load_congr memory]

theorem slots_congr (memory : τ.memory = σ.memory)
    (top : τ.get m.stackPointer.identifier = σ.get m.stackPointer.identifier)
    (segment : m.stackSegment τ = m.stackSegment σ) (n : Nat) :
    m.slots τ size n = m.slots σ size n :=
  List.map_congr_left fun k _ => slot_congr memory top segment k

theorem slot_of_slots {values : List Nat} {n k value : Nat} (same : m.slots σ size n = values)
    (found : values[k]? = some value) : m.slot σ size k = value := by
  rw [← same, slots, List.getElem?_map, Option.map_eq_some_iff] at found
  obtain ⟨k', inside, value⟩ := found
  rw [List.getElem?_eq_some_iff] at inside
  obtain ⟨less, rfl⟩ := inside
  rwa [List.getElem_range] at value

variable [LawfulRegisterFile ρ]

theorem get_stackPointer_lt (m : Mode) (σ : State ρ) :
    σ.get m.stackPointer.identifier < 2 ^ m.bits := by
  have inside := σ.get_lt m.stackPointer.isRegister_identifier
  rwa [m.bits_stackPointer] at inside

theorem get_push (value : Nat) : (m.push σ type value).get m.stackPointer.identifier =
    Bits.ofInt m.bits (σ.get m.stackPointer.identifier - type.bytes) :=
  m.get_makeRoom σ type

theorem get_push_of_family_ne (value : Nat) {r : Register}
    (apart : r.family ≠ m.stackPointer.family) :
    (m.push σ type value).get r.identifier = σ.get r.identifier :=
  m.get_makeRoom_of_family_ne σ type apart

theorem stackSegment_push (value : Nat) :
    m.stackSegment (m.push σ type value) = m.stackSegment σ :=
  m.stackSegment_makeRoom σ type

/-- The slots move up by one when the stack pointer moves down. -/
theorem top_push (value k : Nat) :
    ((m.push σ type value).get m.stackPointer.identifier + (k + 1) * type.bytes) % 2 ^ m.bits =
      (σ.get m.stackPointer.identifier + k * type.bytes) % 2 ^ m.bits := by
  rw [get_push, ← Bits.ofInt_natCast, ← Bits.ofInt_natCast, Int.natCast_add, Bits.ofInt_ofInt_add]
  congr 1
  rw [Int.natCast_add, Int.natCast_mul, Int.natCast_mul, Int.natCast_succ, Int.add_mul, Int.one_mul]
  omega

/-- What was pushed is in the first slot, cut to its bytes. -/
theorem slot_push_zero (value : Nat) :
    m.slot (m.push σ type value) type.bytes 0 = value % 256 ^ type.bytes := by
  rw [slot, stackSegment_push, Nat.zero_mul, Nat.add_zero]
  exact State.load_store _ _ _ _ (m.bytes_le_two_pow type)

/-- A push keeps the slots as long as they do not wrap around to the new one. -/
theorem slot_push_succ (value : Nat) {k : Nat} (room : (k + 2) * type.bytes ≤ 2 ^ m.bits) :
    m.slot (m.push σ type value) type.bytes (k + 1) = m.slot σ type.bytes k := by
  have above : type.bytes ≤ (k + 1) * type.bytes := Nat.le_mul_of_pos_left _ (Nat.succ_pos k)
  have fits : (k + 1) * type.bytes + type.bytes ≤ 2 ^ m.bits := by
    rwa [← Nat.succ_mul]
  have kept : m.slot (m.push σ type value) type.bytes (k + 1) =
      σ.load (m.stackSegment σ) m.bits
        ((m.push σ type value).get m.stackPointer.identifier + (k + 1) * type.bytes) type.bytes := by
    rw [slot, stackSegment_push]
    exact State.load_store_above (m.makeRoom σ type) _ _ value above fits
  rw [kept, slot]
  exact State.load_of_mod σ _ (top_push value k) _

/-- A push puts a slot in front of those before. -/
theorem slots_push (value : Nat) {n : Nat} (room : (n + 1) * type.bytes ≤ 2 ^ m.bits) :
    m.slots (m.push σ type value) type.bytes (n + 1) =
      value % 256 ^ type.bytes :: m.slots σ type.bytes n := by
  rw [slots, List.range_succ_eq_map, List.map_cons, List.map_map, slot_push_zero, slots]
  refine congrArg _ (List.map_congr_left fun k inside => slot_push_succ value ?_)
  have less : k < n := List.mem_range.mp inside
  exact Nat.le_trans (Nat.mul_le_mul_right _ (by omega)) room

/-- No general register is the segment register of the stack. -/
theorem stackSegment_setRegister {r : Register} (isGeneral : r.family < 16) (value : Nat) :
    m.stackSegment (σ.setRegister r.identifier value) = m.stackSegment σ := by
  have apart : (Register.segment .ss).family ≠ r.family := Nat.ne_of_gt (Nat.lt_add_right 2 isGeneral)
  rw [stackSegment, stackSegment, get_setRegister_of_family_ne apart]

/-- The stack does not change with the other general registers. -/
theorem slot_setRegister {r : Register} (isGeneral : r.family < 16)
    (apart : r.family ≠ m.stackPointer.family) (value k : Nat) :
    m.slot (σ.setRegister r.identifier value) size k = m.slot σ size k := by
  have memory : (σ.setRegister r.identifier value).memory = σ.memory := rfl
  exact slot_congr memory (get_setRegister_of_family_ne apart.symm σ value)
    (stackSegment_setRegister isGeneral value) k

theorem stackSegment_dropTop : m.stackSegment (m.dropTop σ type) = m.stackSegment σ :=
  stackSegment_setRegister m.stackPointer_isGeneral _

/-- Moving the stack pointer up takes away the first slot. -/
theorem slot_dropTop (k : Nat) :
    m.slot (m.dropTop σ type) type.bytes k = m.slot σ type.bytes (k + 1) := by
  rw [slot, slot, stackSegment_dropTop]
  refine State.load_of_mod σ _ ?_ _
  rw [m.get_dropTop, Nat.mod_add_mod, Nat.succ_mul, Nat.add_assoc, Nat.add_comm type.bytes]

end Slots

/-! ## What a push keeps -/

/-- Whether a state differs from another one in nothing but memory and the stack pointer. -/
structure SameOutsideStack (m : Mode) {ρ : Type} [RegisterFile ρ] (σ τ : State ρ) : Prop where
  registers : ∀ r : Register, r.family ≠ m.stackPointer.family →
    τ.get r.identifier = σ.get r.identifier
  temporaries : τ.temporaries = σ.temporaries

namespace SameOutsideStack

variable {ρ : Type} [RegisterFile ρ] {m : Mode} {σ τ υ : State ρ}

theorem refl (σ : State ρ) : m.SameOutsideStack σ σ := ⟨fun _ _ => rfl, rfl⟩

theorem trans (first : m.SameOutsideStack σ τ) (second : m.SameOutsideStack τ υ) :
    m.SameOutsideStack σ υ :=
  ⟨fun r apart => (second.registers r apart).trans (first.registers r apart),
    second.temporaries.trans first.temporaries⟩

variable [LawfulRegisterFile ρ]

theorem makeRoom (σ : State ρ) (type : DataType) : m.SameOutsideStack σ (m.makeRoom σ type) :=
  ⟨fun _ apart => m.get_makeRoom_of_family_ne σ type apart, rfl⟩

theorem push (σ : State ρ) (type : DataType) (value : Nat) :
    m.SameOutsideStack σ (m.push σ type value) :=
  ⟨fun _ apart => get_push_of_family_ne value apart, rfl⟩

end SameOutsideStack

end Mode

/-! ## Pushes in a row -/

section Run

variable {ρ : Type} [RegisterFile ρ] {I : Interpretation} {m : Mode}

/-- A register takes the value at the top, and the stack pointer moves up. -/
theorem run_popped_register (σ : State ρ) (type : DataType) (r : Register) :
    σ.run I (popped m r.value type) =
      (m.dropTop (σ.setRegister r.identifier (m.topOfStack σ type)) type, none) :=
  run_popped m (i := popOf (.register r)) (o := .register r) σ type rfl

variable [LawfulRegisterFile ρ]

/-- What is pushed is read when the stack pointer has moved. -/
theorem run_pushed_eq_push (σ : State ρ) (type : DataType) {value : Expr} (plain : value.uses = []) :
    σ.run I (pushed m value type) = (m.push σ type (value.eval I (m.makeRoom σ type)), none) := by
  rw [run_pushed m σ type plain, m.stackSegment_makeRoom]
  rfl

/-- Values that do not depend on the stack are found on it in the reverse of the order in which they were
pushed. -/
theorem run_pushed_all {σ : State ρ} {type : DataType} (values : List Expr)
    (plain : ∀ e, e ∈ values → e.uses = [])
    (steady : ∀ e, e ∈ values → ∀ τ, m.SameOutsideStack σ τ → e.eval I τ = e.eval I σ)
    {τ : State ρ} (start : m.SameOutsideStack σ τ) {n : Nat}
    (room : (values.length + n) * type.bytes ≤ 2 ^ m.bits) :
    ∃ υ, τ.run I (values.flatMap (pushed m · type)) = (υ, none) ∧ m.SameOutsideStack σ υ ∧
      υ.get m.stackPointer.identifier =
        Bits.ofInt m.bits (τ.get m.stackPointer.identifier - values.length * type.bytes) ∧
      m.slots υ type.bytes (values.length + n) =
        (values.map fun e => e.eval I σ % 256 ^ type.bytes).reverse ++ m.slots τ type.bytes n := by
  induction values generalizing τ n with
  | nil =>
      refine ⟨τ, rfl, start, ?_, ?_⟩
      · rw [List.length_nil, Int.natCast_zero, Int.zero_mul, Int.sub_zero,
          Bits.ofInt_of_lt (m.get_stackPointer_lt τ)]
      · rw [List.length_nil, Nat.zero_add]
        rfl
  | cons e rest ih =>
      let next := m.push τ type (e.eval I σ)
      have value : e.eval I (m.makeRoom τ type) = e.eval I σ :=
        steady e List.mem_cons_self _ (start.trans (.makeRoom τ type))
      have pushes : τ.run I (pushed m e type) = (next, none) := by
        rw [run_pushed_eq_push τ type (plain e List.mem_cons_self), value]
      have more : (rest.length + (n + 1)) * type.bytes ≤ 2 ^ m.bits := by
        rwa [Nat.add_comm n, ← Nat.add_assoc]
      obtain ⟨υ, runs, same, top, slots⟩ := ih (fun e' later => plain e' (.tail e later))
        (fun e' later => steady e' (.tail e later)) (start.trans (.push τ type (e.eval I σ))) more
      have first : (n + 1) * type.bytes ≤ 2 ^ m.bits :=
        Nat.le_trans (Nat.mul_le_mul_right _ (by omega)) more
      refine ⟨υ, ?_, same, ?_, ?_⟩
      · rw [List.flatMap_cons, State.run_append_of_falls _ pushes]
        exact runs
      · rw [top, Mode.get_push, Int.sub_eq_add_neg, Bits.ofInt_ofInt_add, List.length_cons,
          Int.natCast_succ, Int.add_mul, Int.one_mul]
        congr 1
        omega
      · rw [List.length_cons, Nat.add_assoc, Nat.add_comm 1, slots, Mode.slots_push _ first,
          List.map_cons, List.reverse_cons, List.append_assoc]
        rfl

end Run

end RegisterTransfer.X86
