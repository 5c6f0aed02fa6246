/-
# RegisterTransfer.Proofs.X86.Scope -- temporaries of x86 lowerings

Operands stand for registers, flags, memory and literals, never for temporaries.  Lowerings define a
temporary where a value is copied to memory, where two places are exchanged, where a dividend, a far
pointer or a frame has to outlive what is written next, and where the stack pointer or an angle is used
after it changed; each is defined as soon as it is made.  So every lowering that ends, ends in a draft with
a scope (`delimits_backend`).
-/
import RegisterTransfer.Proofs.X86.OperandParts

namespace RegisterTransfer.X86

set_option autoImplicit false

open Lowering

variable {Γ : List DataType}

theorem free_register (r : Register) : r.value.Free := (direct_register r).free

@[simp]
theorem within_register (r : Register) : r.value.Within Γ := free_register r Γ

@[simp]
theorem within_flags (mask : Nat) : (Flag.value mask).Within Γ :=
  Expr.within_identifier.mpr (Identifier.inScope_flags _ _ _)

theorem free_flags (mask : Nat) : (Flag.value mask).Free := fun _ => within_flags mask

theorem free_fpuGroup : (Expr.identifier Flag.fpuGroup).Free :=
  fun _ => Expr.within_identifier.mpr (Identifier.inScope_flags _ _ _)

/-! ## Operands -/

namespace Instruction

theorem free_read (i : Instruction) (m : Mode) (o : Operand) (type : DataType) :
    (i.read m o type).Free := (i.direct_read m o type).free

@[simp]
theorem within_read (i : Instruction) (m : Mode) (o : Operand) (type : DataType) :
    (i.read m o type).Within Γ := i.free_read m o type Γ

@[simp]
theorem within_memory (i : Instruction) (m : Mode) (ref : MemoryOperand) :
    (i.memory m ref).Within Γ := (i.direct_memory m ref).free Γ

end Instruction

namespace Lower

variable {m : Mode} {i : Instruction} {α : Type} {P : List DataType → α → Prop}

/-! ## Reading operands -/

theorem grows_readAt {n : Nat} {type : DataType} {f : Expr → Lowering α}
    (then_ : ∀ e : Expr, e.Free → Grows Γ (f e) P) :
    Grows Γ (liftM (i.readAt m n type) >>= f) P :=
  grows_operand fun e found => then_ e (Instruction.direct_of_readAt found).free

theorem grows_destination {f : Expr × DataType → Lowering α}
    (then_ : ∀ (e : Expr) (type : DataType), e.Free → Grows Γ (f (e, type)) P) :
    Grows Γ (liftM (i.destination m) >>= f) P :=
  grows_operand fun (e, type) found =>
    then_ e type (Instruction.direct_of_destination found).free

theorem grows_operands {f : Expr × Expr × DataType → Lowering α}
    (then_ : ∀ (dst src : Expr) (type : DataType), dst.Free → src.Free →
      Grows Γ (f (dst, src, type)) P) :
    Grows Γ (liftM (operands m i) >>= f) P := by
  refine grows_operand fun (dst, src, type) found => ?_
  obtain ⟨direct, direct'⟩ := direct_of_operands found
  exact then_ dst src type direct.free direct'.free

/-! ## Steps that lowerings share -/

section Steps

variable {dst src : Expr}

/-- A step that leaves the scope alone, as the end of a lowering. -/
theorem grows_last {x : Lowering Unit} (keeps : Keeps Γ x Anything) : Grows Γ x fun _ _ => True :=
  keeps.grows fun _ _ => trivial

theorem grows_store (how : CopyMode) (free : dst.Free) (within : src.Within Γ) :
    Grows Γ (store i how dst src) fun Δ e => e.Within Δ :=
  grows_copy (free_flags _) (free_flags _) free within

/-- A result that is stored and not looked at again. -/
theorem grows_stored (how : CopyMode) (free : dst.Free) (within : src.Within Γ) :
    Grows Γ (store i how dst src >>= fun _ => pure ()) fun _ _ => True :=
  grows_bind (grows_store how free within) fun _ _ _ => grows_last (keeps_pure trivial)

theorem grows_storeWithFlags (free : dst.Free) (within : src.Within Γ) :
    Grows Γ (storeWithFlags i dst src) fun _ _ => True :=
  grows_stored _ free within

theorem keeps_adjust (r : Register) (delta : Int) : Keeps Γ (adjust r delta) Anything :=
  keeps_assign (free_register r) (by simp)

theorem keeps_setFlag (mask : Nat) (value : Bool) : Keeps Γ (setFlag mask value) Anything :=
  keeps_assign (free_flags mask) (by simp)

theorem keeps_setFlagsFrom (mask : Nat) {e : Expr} (within : e.Within Γ) :
    Keeps Γ (setFlagsFrom mask e) Anything :=
  keeps_assign (free_flags mask) (e.within_conditionCodes.mpr within)

theorem keeps_intrinsic {name : String} {arguments : List Expr}
    (within : ∀ e ∈ arguments, e.Within Γ) : Keeps Γ (effect name arguments) Anything :=
  keeps_bind (keeps_apply within) fun _ inside => keeps_effect inside

theorem free_stackSlot (m : Mode) (type : DataType) (r : Register) :
    (stackSlot m type r.value).Free :=
  (direct_stackSlot m type (direct_register r)).free

theorem keeps_pushValue {value : Expr} (within : value.Within Γ) (type : DataType) :
    Keeps Γ (pushValue m value type) Anything :=
  keeps_bind (keeps_adjust _ _) fun _ _ => keeps_assign (free_stackSlot m type _) within

theorem keeps_popInto (free : dst.Free) (type : DataType) : Keeps Γ (popInto m dst type) Anything :=
  keeps_bind (keeps_assign free (free_stackSlot m type _ Γ)) fun _ _ => keeps_adjust _ _

end Steps

/-! ## Integer instructions -/

theorem grows_binary {op : BinaryOp} : Grows Γ (binary m i op) fun _ _ => True :=
  grows_operands fun _ _ _ free free' => grows_storeWithFlags free (by simp [free Γ, free' Γ])

theorem grows_withCarry {op : BinaryOp} : Grows Γ (withCarry m i op) fun _ _ => True :=
  grows_operands fun _ _ _ free free' => grows_storeWithFlags free (by simp [free Γ, free' Γ])

theorem grows_logical {op : BinaryOp} : Grows Γ (logical m i op) fun _ _ => True :=
  grows_bind grows_binary fun _ _ _ => grows_last (keeps_setFlag _ _)

theorem grows_compare : Grows Γ (compare m i) fun _ _ => True :=
  grows_operands fun _ _ _ free free' =>
    grows_last (keeps_setFlagsFrom _ (by simp [Expr.sub, free Γ, free' Γ]))

theorem grows_test : Grows Γ (test m i) fun _ _ => True :=
  grows_operands fun _ _ _ free free' =>
    grows_last (keeps_bind (keeps_setFlagsFrom _ (by simp [Expr.and, free Γ, free' Γ])) fun _ _ =>
      keeps_setFlag _ _)

theorem grows_count {delta : Int} : Grows Γ (count m i delta) fun _ _ => True :=
  grows_destination fun dst _ free =>
    grows_storeWithFlags free ((dst.within_addInt delta).mpr (free Γ))

theorem grows_complement : Grows Γ (complement m i) fun _ _ => True :=
  grows_destination fun dst _ free => grows_stored _ free ((dst.within_unaryOf _).mpr (free Γ))

theorem grows_negate : Grows Γ (negate m i) fun _ _ => True :=
  grows_destination fun dst _ free =>
    grows_bind (grows_store _ free ((dst.within_unaryOf _).mpr (free Γ))) fun _ result within =>
      grows_last (keeps_assign (free_flags _) (result.within_isNonzero.mpr within))

theorem grows_adjustPrivilege : Grows Γ (adjustPrivilege m i) fun _ _ => True :=
  grows_readAt fun _ free => grows_readAt fun _ free' =>
    grows_then (keeps_apply (by simp [free Γ, free' Γ])) fun _ within =>
      grows_storeWithFlags free within

theorem free_accumulator (bits : Nat) (type : DataType) : (accumulator bits type).whole.Free :=
  (direct_accumulator bits type).free

theorem grows_wideMultiply {signed : Bool} : Grows Γ (wideMultiply m i signed) fun _ _ => True :=
  grows_destination fun _ _ free =>
    grows_last (keeps_bind (keeps_assign (free_accumulator _ _) (by simp [free Γ])) fun _ _ =>
      keeps_setFlagsFrom _ (free_accumulator _ _ Γ))

theorem grows_multiplySigned : Grows Γ (multiplySigned m i) fun _ _ => True := by
  unfold multiplySigned
  split
  · exact grows_wideMultiply
  · exact grows_destination fun _ _ free => grows_readAt fun _ free' => grows_readAt fun _ free'' =>
      grows_storeWithFlags free (by simp [free' Γ, free'' Γ])

theorem grows_divide {signed : Bool} : Grows Γ (divide m i signed) fun _ _ => True := by
  refine grows_destination fun divisor type free => ?_
  refine grows_define (free_accumulator _ _ Γ) fun dividend within => grows_last ?_
  refine keeps_bind (keeps_assign (free_register _) ?_) fun _ _ =>
    keeps_assign (free_register _) ?_
  · exact (Expr.within_binary ..).mpr ⟨within, free _⟩
  · exact (Expr.within_binary ..).mpr ⟨within, free _⟩

theorem grows_shift {op : BinaryOp} : Grows Γ (shift m i op) fun _ _ => True :=
  grows_destination fun _ _ free =>
    grows_storeWithFlags free (by simp [free Γ, (direct_shiftCount m i).free Γ])

theorem grows_rotate {name : String} {throughCarry : Bool} :
    Grows Γ (rotate m i name throughCarry) fun _ _ => True := by
  refine grows_destination fun dst type free => ?_
  refine grows_then (keeps_apply ?_) fun _ within => grows_storeWithFlags free within
  cases throughCarry <;> simp [free Γ, (direct_shiftCount m i).free Γ]

theorem grows_doubleShift {name : String} : Grows Γ (doubleShift m i name) fun _ _ => True :=
  grows_operands fun _ _ _ free free' => grows_readAt fun _ free'' =>
    grows_then (keeps_apply (by simp [free Γ, free' Γ, free'' Γ])) fun _ within =>
      grows_stored _ free within

theorem grows_bitTest : Grows Γ (bitTest m i) fun _ _ => True :=
  grows_operands fun _ _ _ free free' =>
    grows_then (keeps_apply (by simp [free Γ, free' Γ])) fun _ within =>
      grows_last (keeps_assign (free_flags _) within)

theorem grows_bitScan : Grows Γ (bitScan m i) fun _ _ => True :=
  grows_operands fun _ src _ free free' =>
    grows_then (keeps_assign (free_flags _) (src.within_isZero.mpr (free' Γ))) fun _ _ =>
      grows_then (keeps_apply (by simp [free' Γ])) fun _ within =>
        grows_last (keeps_assign free within)

theorem grows_byteSwap : Grows Γ (byteSwap m i) fun _ _ => True :=
  grows_destination fun _ _ free =>
    grows_then (keeps_apply (by simp [free Γ])) fun _ within => grows_stored _ free within

theorem grows_decimalAdjust {name : String} {r : Register} :
    Grows Γ (decimalAdjust i name r) fun _ _ => True :=
  grows_then (keeps_apply (by simp)) fun _ within => grows_storeWithFlags (free_register r) within

theorem keeps_splitDigits : Keeps Γ (splitDigits m i) Anything := by
  have base : (i.readOr m 0 .byte (.byte 10)).Free :=
    (i.direct_readOr m 0 .byte (Expr.direct_constant _)).free
  exact keeps_bind (keeps_apply (by simp [base Γ])) fun _ within =>
    keeps_assign (free_register _) within

/-! ## Moves and flags -/

theorem grows_move : Grows Γ (move m i) fun _ _ => True :=
  grows_operands fun _ _ _ free free' => grows_stored _ free (free' Γ)

theorem grows_extend {signed : Bool} : Grows Γ (extend m i signed) fun _ _ => True :=
  grows_destination fun _ _ free => grows_operand fun _ _ =>
    grows_last (keeps_assign free (by simp))

theorem grows_loadAddress : Grows Γ (loadAddress m i) fun _ _ => True := by
  refine grows_destination fun dst _ free => grows_operand fun o _ => grows_last ?_
  cases o with
  | memory ref => exact keeps_assign free ((i.direct_effectiveAddress ref).free Γ)
  | _ => exact keeps_fail _

theorem grows_loadFarPointer {segment : Segment} :
    Grows Γ (loadFarPointer m i segment) fun _ _ => True := by
  refine grows_destination fun dst type free => grows_operand fun ref _ => ?_
  refine grows_define (i.within_memory m _) fun offset within => grows_last ?_
  refine keeps_bind (keeps_assign (free_register _) (i.within_memory m _)) fun _ _ => ?_
  exact keeps_assign free within

theorem grows_exchange : Grows Γ (exchange m i) fun _ _ => True := by
  refine grows_operand fun a _ => grows_operand fun b _ => ?_
  split
  · exact grows_last keeps_nop
  · refine grows_define (i.within_read m a a.type) fun kept within => grows_last ?_
    refine keeps_bind (keeps_assign (i.free_read m a _) (i.within_read m b _)) fun _ _ => ?_
    exact keeps_assign (i.free_read m b _) within

theorem keeps_widen (source wide : Register) : Keeps Γ (widen source wide) Anything :=
  keeps_assign (free_register wide) (by simp)

theorem keeps_widenPair (low high : Register) : Keeps Γ (widenPair low high) Anything :=
  keeps_assign (fun _ => by simp) (by simp)

theorem keeps_translate : Keeps Γ (translate m i) Anything := by
  refine keeps_assign (free_register _) ?_
  split <;> simp [Expr.add]

theorem grows_setIf {c : Condition} : Grows Γ (setIf m i c) fun _ _ => True :=
  grows_readAt fun _ free => grows_last (keeps_assign free (by simp [conditionHolds]))

theorem grows_moveIf {c : Condition} : Grows Γ (moveIf m i c) fun _ _ => True :=
  grows_operands fun _ _ _ free free' =>
    grows_last (keeps_assignIf (by simp [conditionHolds]) free (free' Γ))

/-! ## Stack -/

theorem keeps_push : Keeps Γ (push m i) Anything :=
  keeps_operand fun _ _ => keeps_pushValue (i.within_read m _ _) _

theorem grows_pop : Grows Γ (pop m i) fun _ _ => True :=
  grows_destination fun _ _ free => grows_last (keeps_popInto free _)

theorem keeps_leaveFrame : Keeps Γ (leaveFrame m) Anything :=
  keeps_bind (keeps_assign (free_register _) (by simp)) fun _ _ =>
    keeps_popInto (free_register _) _

theorem keeps_copyFramePointer : Keeps Γ (copyFramePointer m) Anything :=
  keeps_bind (keeps_adjust _ _) fun _ _ =>
    keeps_pushValue (free_stackSlot m _ _ Γ) _

theorem grows_enterFrame : Grows Γ (enterFrame m i) fun _ _ => True := by
  refine grows_operand fun size _ => ?_
  -- The level is read from an operand or taken to be zero, and neither writes anything.
  have level {f : Int → Lowering Unit} (rest : ∀ level, Grows Γ (f level) fun _ _ => True) :
      Grows Γ (if i.operands.length > 1 then liftM (i.immediate 1) >>= f else pure 0 >>= f)
        fun _ _ => True := by
    split
    · exact grows_operand fun level _ => rest level
    · exact rest 0
  refine level fun level => ?_
  refine grows_then (keeps_pushValue (by simp) _) fun _ _ => ?_
  refine grows_define (within_register _) fun frame within => grows_last ?_
  refine keeps_bind (keeps_forM fun _ _ => keeps_copyFramePointer) fun _ _ => ?_
  refine keeps_when (keeps_pushValue within _) fun _ => ?_
  refine keeps_bind (keeps_assign (free_register _) within) fun _ _ => ?_
  split
  · exact keeps_adjust _ _
  · exact keeps_pure trivial

theorem grows_pushGeneral : Grows Γ (pushGeneral m i) fun _ _ => True := by
  refine grows_define (within_register _) fun saved within => grows_last ?_
  refine keeps_forM fun family _ => keeps_pushValue ?_ _
  split
  · exact within
  · exact within_register _

theorem keeps_popGeneral : Keeps Γ (popGeneral m i) Anything := by
  refine keeps_forM fun family _ => ?_
  split
  · exact keeps_adjust _ _
  · exact keeps_popInto (free_register _) _

/-! ## Control flow -/

theorem grows_call : Grows Γ (call m i) fun _ _ => True :=
  grows_readAt fun _ free => grows_last (keeps_call (free Γ) _)

theorem grows_jump : Grows Γ (jump m i) fun _ _ => True :=
  grows_readAt fun _ free => grows_last (keeps_goto (free Γ))

theorem keeps_returnFromCall : Keeps Γ (returnFromCall m i) Anything := keeps_ret _ _

theorem keeps_returnFromInterrupt : Keeps Γ (returnFromInterrupt m) Anything :=
  keeps_bind (keeps_assign (free_flags _) ((direct_stackSlot m _ (by simp)).free Γ)) fun _ _ =>
    keeps_ret _ _

theorem keeps_jumpIf {c : Condition} : Keeps Γ (jumpIf i c) Anything :=
  keeps_operand fun _ _ => keeps_branch (by simp [conditionHolds]) _

theorem keeps_jumpIfNoCount {width : Mode} : Keeps Γ (jumpIfNoCount i width) Anything :=
  keeps_operand fun _ _ => keeps_branch (by simp) _

theorem keeps_loop {condition : Option Condition} : Keeps Γ (loop i condition) Anything := by
  refine keeps_operand fun target _ => keeps_bind (keeps_adjust _ _) fun _ _ => keeps_branch ?_ _
  cases condition <;> simp [Expr.both, zeroFlag]

/-! ## System and ports -/

theorem keeps_halt : Keeps Γ halt Anything :=
  keeps_bind (keeps_intrinsic (by simp)) fun _ _ => keeps_setFlow _

theorem grows_interrupt : Grows Γ (interrupt m i) fun _ _ => True :=
  grows_readAt fun _ free => grows_last (keeps_intrinsic (by simp [free Γ]))

theorem grows_portIn : Grows Γ (portIn m i) fun _ _ => True :=
  grows_destination fun _ _ free => grows_readAt fun _ free' =>
    grows_then (keeps_apply (by simp [free' Γ])) fun _ within =>
      grows_last (keeps_assign free within)

theorem grows_portOut : Grows Γ (portOut m i) fun _ _ => True :=
  grows_readAt fun _ free => grows_operand fun _ _ =>
    grows_last (keeps_intrinsic (by simp [free Γ]))

/-! ## String instructions -/

theorem keeps_stringStep (op : StringOp) : Keeps Γ (stringStep m i op) Anything := by
  have free := fun type index segment => (direct_indexed m type index segment).free
  have within := fun type index segment => free type index segment Γ
  cases op with
  | movs | movsb =>
      exact keeps_bind (keeps_assign (free _ _ _) (within _ _ _)) fun _ _ =>
        keeps_bind (keeps_adjust _ _) fun _ _ => keeps_adjust _ _
  | cmps | cmpsb =>
      exact keeps_bind (keeps_setFlagsFrom _ (by simp [Expr.sub, within])) fun _ _ =>
        keeps_bind (keeps_adjust _ _) fun _ _ => keeps_adjust _ _
  | stos | stosb =>
      exact keeps_bind (keeps_assign (free _ _ _) (by simp)) fun _ _ => keeps_adjust _ _
  | lods | lodsb =>
      exact keeps_bind (keeps_assign (free_register _) (within _ _ _)) fun _ _ => keeps_adjust _ _
  | scas | scasb =>
      exact keeps_bind (keeps_setFlagsFrom _ (by simp [Expr.sub, within])) fun _ _ =>
        keeps_adjust _ _
  | ins =>
      exact keeps_bind (keeps_apply (by simp)) fun _ read =>
        keeps_bind (keeps_assign (free _ _ _) read) fun _ _ => keeps_adjust _ _
  | outs =>
      exact keeps_bind (keeps_intrinsic (by simp [within])) fun _ _ => keeps_adjust _ _

theorem keeps_repeated (start : Nat) (op : StringOp) (repetition : Repetition) :
    Keeps Γ (repeated m start i op repetition) Anything := by
  have back : Keeps Γ (Lowering.goto (.address start) >>= fun _ => .setFlow .conditional)
      Anything := keeps_bind (keeps_goto (by simp)) fun _ _ => keeps_setFlow _
  refine keeps_bind (keeps_branch (by simp) _) fun _ _ => ?_
  refine keeps_bind (keeps_stringStep op) fun _ _ => ?_
  refine keeps_bind (keeps_adjust _ _) fun _ _ => ?_
  exact keeps_when (keeps_branch (by simp [zeroFlag]) _) fun _ => back

theorem keeps_string (op : StringOp) : Keeps Γ (string m i op) Anything := by
  unfold string
  split
  · exact keeps_repeated _ op _
  · exact keeps_stringStep op

/-- Whether the string instruction behind it is absorbed or not. -/
theorem keeps_repeatNext (next : Option Instruction) (repetition : Repetition) :
    Keeps Γ (repeatNext m i next repetition) fun _ => True := by
  have alone : Keeps Γ (Lowering.nop >>= fun _ => pure false) fun _ : Bool => True :=
    keeps_bind keeps_nop fun _ _ => keeps_pure trivial
  cases next with
  | none => exact alone
  | some following =>
      unfold repeatNext
      simp only
      split
      · exact keeps_bind (keeps_repeated _ _ _) fun _ _ => keeps_pure trivial
      · exact alone

/-! ## The floating-point unit -/

@[simp]
theorem within_st0 : st0.Within Γ := within_register _

@[simp]
theorem within_st1 : st1.Within Γ := within_register _

theorem free_st0 : st0.Free := free_register _

theorem free_st1 : st1.Free := free_register _

theorem keeps_moveTop (n : Int) : Keeps Γ (moveTop n) Anything := keeps_adjust _ _

theorem keeps_popTopIf (pops : Bool) : Keeps Γ (popTopIf pops) Anything := by
  unfold popTopIf
  split
  · exact keeps_moveTop _
  · exact keeps_pure trivial

@[simp]
theorem within_realValue (m : Mode) (i : Instruction) (o : Operand) (integer : Bool) :
    (realValue m i o integer).Within Γ :=
  (direct_realValue m i o integer).free Γ

theorem keeps_loadConstant {bits : Nat} : Keeps Γ (loadConstant bits) Anything :=
  keeps_bind (keeps_moveTop _) fun _ _ => keeps_assign free_st0 (by simp)

theorem keeps_loadReal {integer : Bool} : Keeps Γ (loadReal m i integer) Anything := by
  refine keeps_operand fun o _ => keeps_bind (keeps_moveTop _) fun _ _ => keeps_assign free_st0 ?_
  split <;> simp

theorem keeps_storeReal {integer pops : Bool} : Keeps Γ (storeReal m i integer pops) Anything := by
  refine keeps_operand fun o _ => ?_
  cases o with
  | memory ref =>
      refine keeps_bind (keeps_assign (fun _ => i.within_memory m _) ?_) fun _ _ => keeps_popTopIf _
      split <;> simp
  | register r =>
      exact keeps_when (keeps_assign (free_register r) (by simp)) fun _ => keeps_popTopIf _
  | _ => exact keeps_bind (keeps_assign (i.free_read m _ _) (by simp)) fun _ _ => keeps_popTopIf _

theorem keeps_realArithmetic {op : RealArithmetic} {pops : Bool} :
    Keeps Γ (realArithmetic m i op pops) Anything := by
  refine keeps_operand fun (dst, src) found => ?_
  obtain ⟨direct, direct'⟩ := direct_of_realOperands found
  exact keeps_bind (keeps_assign direct.free ((direct_realResult op direct direct').free Γ)) fun _ _ =>
    keeps_popTopIf _

theorem keeps_integerArithmetic {op : RealArithmetic} :
    Keeps Γ (integerArithmetic m i op) Anything :=
  keeps_operand fun _ _ =>
    keeps_assign free_st0 ((direct_realResult op direct_st0 (direct_realValue m i _ true)).free Γ)

theorem keeps_compareTop {value : Expr} (within : value.Within Γ) :
    Keeps Γ (compareTop value) Anything :=
  keeps_assign free_fpuGroup (by simp [within])

theorem keeps_compareReal {integer : Bool} {pops : Nat} :
    Keeps Γ (compareReal m i integer pops) Anything := by
  refine keeps_bind (keeps_compareTop ?_) fun _ _ => ?_
  · split <;> simp
  · split
    · exact keeps_moveTop _
    · exact keeps_pure trivial

theorem keeps_examine : Keeps Γ examine Anything :=
  keeps_bind (keeps_apply (by simp)) fun _ within => keeps_assign free_fpuGroup within

theorem keeps_realFunction {name : String} : Keeps Γ (realFunction name) Anything :=
  keeps_bind (keeps_apply (by simp)) fun _ within => keeps_assign free_st0 within

theorem keeps_arctangent : Keeps Γ arctangent Anything :=
  keeps_bind (keeps_apply (by simp)) fun _ within =>
    keeps_bind (keeps_assign free_st1 within) fun _ _ => keeps_moveTop _

theorem keeps_logarithm : Keeps Γ logarithm Anything :=
  keeps_bind (keeps_apply (by simp)) fun _ within =>
    keeps_bind (keeps_assign free_st1 (by simp [within])) fun _ _ => keeps_moveTop _

theorem grows_sineCosine : Grows Γ sineCosine fun _ _ => True := by
  refine grows_define within_st0 fun angle within => grows_last ?_
  refine keeps_bind (keeps_moveTop _) fun _ _ => ?_
  refine keeps_bind (keeps_apply (by simp [within])) fun sine inside => ?_
  refine keeps_bind (keeps_assign free_st1 inside) fun _ _ => ?_
  exact keeps_bind (keeps_apply (by simp [within])) fun cosine inside' =>
    keeps_assign free_st0 inside'

theorem grows_exchangeReal : Grows Γ (exchangeReal i) fun _ _ => True := by
  unfold exchangeReal
  simp only
  split
  · exact grows_last keeps_nop
  · refine grows_define within_st0 fun kept within => grows_last ?_
    refine keeps_bind (keeps_assign free_st0 (within_register _)) fun _ _ => ?_
    exact keeps_assign (free_register _) within

theorem grows_loadControl : Grows Γ (loadControl m i) fun _ _ => True :=
  grows_readAt fun _ free => grows_last (keeps_assign (free_register _) (free Γ))

theorem keeps_storeWord (word : Register) : Keeps Γ (storeWord m i word) Anything :=
  keeps_assign (i.direct_readOr m 0 .word16 (direct_register _)).free (within_register word)

theorem delimits_real (op : RealOp) : Delimits (real m i op) := by
  cases op with
  | arithmetic op pops => exact keeps_realArithmetic.delimits
  | integerArithmetic op => exact keeps_integerArithmetic.delimits
  | load | loadInteger => exact keeps_loadReal.delimits
  | store integer pops => exact keeps_storeReal.delimits
  | loadOne | loadZero | loadPi => exact keeps_loadConstant.delimits
  | compare pops | compareInteger pops => exact keeps_compareReal.delimits
  | test => exact (keeps_compareTop (by simp)).delimits
  | examine => exact keeps_examine.delimits
  | changeSign => exact (keeps_assign free_st0 (by simp [Expr.negate])).delimits
  | sine | cosine | squareRoot | round => exact keeps_realFunction.delimits
  | sineCosine => exact grows_sineCosine.delimits
  | arctangent => exact keeps_arctangent.delimits
  | logarithm => exact keeps_logarithm.delimits
  | exchange => exact grows_exchangeReal.delimits
  | clearExceptions => exact (keeps_intrinsic (by simp)).delimits
  | loadControl => exact grows_loadControl.delimits
  | storeControl | storeStatus => exact (keeps_storeWord _).delimits

/-! ## Every opcode -/

theorem delimits_instruction (m : Mode) (i : Instruction) : Delimits (instruction m i) := by
  unfold instruction
  generalize i.opcode = opcode
  cases opcode with
  | add | sub => exact grows_binary.delimits
  | adc | sbb => exact grows_withCarry.delimits
  | and | or | xor => exact grows_logical.delimits
  | cmp => exact grows_compare.delimits
  | test => exact grows_test.delimits
  | inc | dec => exact grows_count.delimits
  | neg => exact grows_negate.delimits
  | not => exact grows_complement.delimits
  | mul => exact grows_wideMultiply.delimits
  | imul => exact grows_multiplySigned.delimits
  | div | idiv => exact grows_divide.delimits
  | shl | shr | sar => exact grows_shift.delimits
  | rol | ror | rcl | rcr => exact grows_rotate.delimits
  | shld | shrd => exact grows_doubleShift.delimits
  | bt => exact grows_bitTest.delimits
  | bsr => exact grows_bitScan.delimits
  | bswap => exact grows_byteSwap.delimits
  | arpl => exact grows_adjustPrivilege.delimits
  | daa | das | aaa => exact grows_decimalAdjust.delimits
  | aam => exact keeps_splitDigits.delimits
  | mov => exact grows_move.delimits
  | movzx | movsx | movsxd => exact grows_extend.delimits
  | lea => exact grows_loadAddress.delimits
  | xchg => exact grows_exchange.delimits
  | xlat => exact keeps_translate.delimits
  | lds | les | lfs | lgs | lss => exact grows_loadFarPointer.delimits
  | cbw | cwde | cdqe => exact (keeps_widen _ _).delimits
  | cwd | cdq | cqo => exact (keeps_widenPair _ _).delimits
  | push => exact keeps_push.delimits
  | pop => exact grows_pop.delimits
  | pushf => exact (keeps_pushValue (within_flags _) _).delimits
  | popf => exact (keeps_popInto (free_flags _) _).delimits
  | pusha => exact grows_pushGeneral.delimits
  | popa => exact keeps_popGeneral.delimits
  | enter => exact grows_enterFrame.delimits
  | leave => exact keeps_leaveFrame.delimits
  | call => exact grows_call.delimits
  | jmp => exact grows_jump.delimits
  | ret => exact keeps_returnFromCall.delimits
  | iret => exact keeps_returnFromInterrupt.delimits
  | jumpIf c => exact keeps_jumpIf.delimits
  | jumpIfNoCount width => exact keeps_jumpIfNoCount.delimits
  | loop | loopEqual | loopNotEqual => exact keeps_loop.delimits
  | setIf c => exact grows_setIf.delimits
  | moveIf c => exact grows_moveIf.delimits
  | clc | stc | cld | std => exact (keeps_setFlag _ _).delimits
  | cmc => exact (keeps_assign (free_flags _) (by simp [Expr.not])).delimits
  | lahf => exact (keeps_assign (free_register _) (within_flags _)).delimits
  | sahf => exact (keeps_assign (free_flags _) (within_register _)).delimits
  | cli | sti => exact (keeps_intrinsic (by simp)).delimits
  | int => exact grows_interrupt.delimits
  | hlt => exact keeps_halt.delimits
  | portIn => exact grows_portIn.delimits
  | portOut => exact grows_portOut.delimits
  | string op => exact (keeps_string op).delimits
  | real op => exact delimits_real op
  | rep | repne | nop | wait => exact keeps_nop.delimits
  | illegal => exact delimits_invalid
  | cpuid | rdtsc | unrecognized => exact (keeps_fail (V := Anything) _).delimits

end Lower

theorem delimits_backend (m : Mode) (i : Instruction) (next : Option Instruction) :
    Delimits ((backend m).lower i next) := by
  simp only [backend]
  split
  · exact (Lower.keeps_repeatNext next _).delimits
  · exact (Lower.keeps_repeatNext next _).delimits
  · exact delimits_return false (Lower.delimits_instruction m i)

end RegisterTransfer.X86
