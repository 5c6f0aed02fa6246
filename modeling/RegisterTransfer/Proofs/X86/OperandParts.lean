/-
# RegisterTransfer.Proofs.X86.OperandParts -- what operands are made of

An operand stands for a register, a literal, an address in code, or memory at an address computed from
registers.  What lowerings make of operands alone is *direct*: its identifiers are registers, and it
applies no intrinsic (`Expr.Direct`).  This is shown of each such expression once, and the rest is read off
its parts:

* `Expr.Direct.plain`: it uses no intrinsic;
* `Expr.Direct.free`: it has no temporaries;
* `Expr.Direct.isRegister_of_mem_targets`: an assignment to it changes registers, and so no flags.
-/
import RegisterTransfer.Proofs.Draft.Scope
import RegisterTransfer.X86.Lowering

namespace RegisterTransfer

set_option autoImplicit false

/-! ## Direct expressions -/

namespace Expr

/-- A part that is a register, or anything other than an identifier or an intrinsic. -/
def IsDirect : Expr → Prop
  | identifier id => id.IsRegister
  | apply .. => False
  | _ => True

/-- All identifiers in the expression are registers, and it applies no intrinsic. -/
def Direct (e : Expr) : Prop := ∀ p ∈ e.parts, p.IsDirect

namespace Direct

variable {e : Expr} (direct : e.Direct)

include direct

theorem plain : e.uses = [] := by
  refine List.filterMap_eq_nil_iff.mpr fun p inside => ?_
  have allowed := direct p inside
  cases p with
  | apply => cases allowed
  | _ => rfl

theorem free : e.Free := fun _ _ named => .of_isRegister (direct _ named)

theorem isRegister_of_mem_targets {id : Identifier} (changed : id ∈ e.targets) : id.IsRegister :=
  direct _ (mem_parts_of_mem_targets changed)

end Direct

section Constructors

variable (t : DataType) (a b : Expr)

@[simp]
theorem direct_identifier {id : Identifier} : (identifier id).Direct ↔ id.IsRegister := by
  simp [Direct, parts, IsDirect]

@[simp]
theorem direct_constant (c : Constant) : (constant c).Direct := by simp [Direct, parts, IsDirect]

@[simp]
theorem direct_address (n : Nat) : (address n).Direct := by simp [Direct, parts, IsDirect]

@[simp]
theorem direct_binary (op : BinaryOp) : (binary op t a b).Direct ↔ a.Direct ∧ b.Direct := by
  simp [Direct, parts, IsDirect, or_imp, forall_and]

@[simp]
theorem direct_concat : (concat t a b).Direct ↔ a.Direct ∧ b.Direct := by
  simp [Direct, parts, IsDirect, or_imp, forall_and]

@[simp]
theorem direct_cast : (cast t a).Direct ↔ a.Direct := by simp [Direct, parts, IsDirect]

@[simp]
theorem direct_memoryIn (segment : Option Expr) :
    (memoryIn segment t a).Direct ↔ (∀ s ∈ segment, s.Direct) ∧ a.Direct := by
  cases segment <;> simp [memoryIn, Direct, parts, IsDirect, or_imp, forall_and]

@[simp]
theorem direct_word (n : Nat) : (word n t).Direct := direct_constant _

@[simp]
theorem direct_sameType (op : BinaryOp) : (sameType op a b).Direct ↔ a.Direct ∧ b.Direct :=
  direct_binary ..

@[simp]
theorem direct_addInt (n : Int) : (a.addInt n).Direct ↔ a.Direct := by
  unfold addInt
  split <;> simp [sub, add]

end Constructors

end Expr

/-! ## Operands -/

namespace X86

@[simp]
theorem direct_register (r : Register) : r.value.Direct := Expr.direct_identifier.mpr ⟨_, _, _, rfl⟩

namespace Instruction

variable {m : Mode} {i : Instruction}

theorem direct_scaledIndex {ref : MemoryOperand} {e : Expr} (found : scaledIndex ref = some e) :
    e.Direct := by
  obtain ⟨r, _, rfl⟩ := Option.map_eq_some_iff.mp found
  split <;> simp [Expr.mul]

theorem direct_registerSum {ref : MemoryOperand} {e : Expr} (found : registerSum ref = some e) :
    e.Direct := by
  unfold registerSum at found
  cases base : ref.base with
  | none =>
      rw [base] at found
      exact direct_scaledIndex found
  | some r =>
      rw [base] at found
      cases index : scaledIndex ref with
      | none =>
          rw [index] at found
          cases found
          exact direct_register r
      | some scaled =>
          rw [index] at found
          cases found
          simp [Expr.add, direct_scaledIndex index]

theorem direct_effectiveAddress (i : Instruction) (ref : MemoryOperand) :
    (i.effectiveAddress ref).Direct := by
  unfold effectiveAddress
  split
  · simp
  · split
    · rename_i sum found
      split <;> simp [direct_registerSum found]
    · simp

@[simp]
theorem direct_memory (i : Instruction) (m : Mode) (ref : MemoryOperand) :
    (i.memory m ref).Direct := by
  cases segment : ref.segmentIn m <;> simp [memory, segment, direct_effectiveAddress]

@[simp]
theorem direct_read (i : Instruction) (m : Mode) (o : Operand) (type : DataType) :
    (i.read m o type).Direct := by
  cases o <;> simp [read]

theorem direct_readOr (i : Instruction) (m : Mode) (n : Nat) (type : DataType) {default : Expr}
    (direct : default.Direct) : (i.readOr m n type default).Direct := by
  unfold readOr
  split
  · simp
  · exact direct

theorem direct_of_readAt {n : Nat} {type : DataType} {e : Expr}
    (found : i.readAt m n type = .ok e) : e.Direct := by
  unfold readAt at found
  cases read : i.operand n with
  | error fault => rw [read] at found; cases found
  | ok o => rw [read] at found; cases found; exact i.direct_read m o type

theorem direct_of_destination {e : Expr} {type : DataType}
    (found : i.destination m = .ok (e, type)) : e.Direct := by
  unfold destination at found
  cases read : i.operand 0 with
  | error fault => rw [read] at found; cases found
  | ok o => rw [read] at found; cases found; exact i.direct_read m o o.type

end Instruction

namespace Lower

variable {m : Mode} {i : Instruction}

theorem direct_of_operands {dst src : Expr} {type : DataType}
    (found : operands m i = .ok (dst, src, type)) : dst.Direct ∧ src.Direct := by
  unfold operands at found
  cases first : i.destination m with
  | error fault => rw [first] at found; cases found
  | ok into =>
      cases second : i.readAt m 1 into.2 with
      | error fault => simp only [first, second, bind, Except.bind] at found; cases found
      | ok e =>
          simp only [first, second, bind, Except.bind] at found
          cases found
          exact ⟨Instruction.direct_of_destination first, Instruction.direct_of_readAt second⟩

/-! ## Other places -/

theorem direct_stackSlot (m : Mode) (type : DataType) {address : Expr} (direct : address.Direct) :
    (stackSlot m type address).Direct := by
  unfold stackSlot
  split <;> simp [direct]

theorem direct_indexed (m : Mode) (type : DataType) (index : Register) (segment : Segment) :
    (indexed m type index segment).Direct := by
  unfold indexed
  split <;> simp

theorem direct_accumulator (bits : Nat) (type : DataType) : (accumulator bits type).whole.Direct := by
  unfold accumulator
  split <;> simp

theorem direct_shiftCount (m : Mode) (i : Instruction) : (shiftCount m i).Direct :=
  i.direct_readOr m 1 .byte (Expr.direct_constant _)

@[simp]
theorem direct_st0 : st0.Direct := direct_register _

@[simp]
theorem direct_st1 : st1.Direct := direct_register _

@[simp]
theorem direct_realValue (m : Mode) (i : Instruction) (o : Operand) (integer : Bool) :
    (realValue m i o integer).Direct := by
  unfold realValue
  split
  · simp only
    split <;> simp
  · simp

theorem direct_of_realOperands {pops : Bool} {dst src : Expr}
    (found : realOperands m i pops = .ok (dst, src)) : dst.Direct ∧ src.Direct := by
  unfold realOperands at found
  split at found
  · cases found
    simp
  · split at found <;> cases found <;> simp
  · cases found
    simp
  · cases found

theorem direct_realResult (op : RealArithmetic) {dst src : Expr} (direct : dst.Direct)
    (direct' : src.Direct) : (realResult op dst src).Direct := by
  unfold realResult
  split <;> simp [direct, direct']

end Lower

end X86

end RegisterTransfer
