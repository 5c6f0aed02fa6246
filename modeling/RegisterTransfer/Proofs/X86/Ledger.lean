/-
# RegisterTransfer.Proofs.X86.Ledger -- x86 lowerings apply what they ask for

Every instruction in every mode, with any operands and anything behind it, is refused before it asks for an
intrinsic, or its statements apply just the intrinsics that it asked for (`settles_backend`).  What an
operand stands for applies nothing, so an intrinsic is owed only between its request and the statement
that stores its result.
-/
import RegisterTransfer.Proofs.Draft.Ledger
import RegisterTransfer.Proofs.X86.OperandParts

namespace RegisterTransfer.X86

set_option autoImplicit false

open Lowering

@[simp]
theorem plain_register (r : Register) : r.value.uses = [] := rfl

@[simp]
theorem plain_flags (mask : Nat) : (Flag.value mask).uses = [] := rfl

/-! ## Operands -/

namespace Instruction

@[simp]
theorem plain_memory (i : Instruction) (m : Mode) (ref : MemoryOperand) : (i.memory m ref).uses = [] :=
  (i.direct_memory m ref).plain

@[simp]
theorem plain_read (i : Instruction) (m : Mode) (o : Operand) (type : DataType) :
    (i.read m o type).uses = [] :=
  (i.direct_read m o type).plain

end Instruction

namespace Lower

variable {m : Mode} {i : Instruction} {α : Type} {W : α → Prop}

/-! ## Reading operands -/

theorem settles_readAt {n : Nat} {type : DataType} {f : Expr → Lowering α}
    (then_ : ∀ e : Expr, e.uses = [] → Settles (f e) W) :
    Settles (liftM (i.readAt m n type) >>= f) W :=
  settles_operand fun e found => then_ e (Instruction.direct_of_readAt found).plain

theorem settles_destination {f : Expr × DataType → Lowering α}
    (then_ : ∀ (e : Expr) (type : DataType), e.uses = [] → Settles (f (e, type)) W) :
    Settles (liftM (i.destination m) >>= f) W :=
  settles_operand fun (e, type) found =>
    then_ e type (Instruction.direct_of_destination found).plain

theorem settles_operands {f : Expr × Expr × DataType → Lowering α}
    (then_ : ∀ (dst src : Expr) (type : DataType), dst.uses = [] → src.uses = [] →
      Settles (f (dst, src, type)) W) :
    Settles (liftM (operands m i) >>= f) W := by
  refine settles_operand fun (dst, src, type) found => ?_
  obtain ⟨direct, direct'⟩ := direct_of_operands found
  exact then_ dst src type direct.plain direct'.plain

/-! ## Steps that lowerings share -/

section Steps

variable {held : List IntrinsicUse} {dst src : Expr}

theorem pays_store (how : CopyMode) (plain : dst.uses = []) (pays : src.uses = held) :
    Pays held (store i how dst src) [] fun e => e.uses = [] :=
  pays_copy _ how plain pays

/-- A result that is stored and not looked at again. -/
theorem pays_stored (how : CopyMode) (plain : dst.uses = [])
    (pays : src.uses = held) :
    Pays held (store i how dst src >>= fun _ => pure ()) [] Anything :=
  pays_bind (pays_store how plain pays) fun _ _ => pays_pure trivial

theorem pays_storeWithFlags (plain : dst.uses = []) (pays : src.uses = held) :
    Pays held (storeWithFlags i dst src) [] Anything :=
  pays_stored _ plain pays

theorem pays_adjust (r : Register) (delta : Int) : Pays [] (adjust r delta) [] Anything :=
  pays_assign rfl (by simp)

theorem pays_setFlag (mask : Nat) (value : Bool) : Pays [] (setFlag mask value) [] Anything :=
  pays_assign rfl rfl

theorem pays_setFlagsFrom (mask : Nat) {e : Expr} (plain : e.uses = []) :
    Pays [] (setFlagsFrom mask e) [] Anything :=
  pays_assign rfl plain

theorem pays_intrinsic {name : String} {arguments : List Expr}
    (plain : ∀ e ∈ arguments, e.uses = []) : Pays [] (effect name arguments) [] Anything :=
  pays_apply plain fun _ => pays_effect rfl

theorem plain_stackSlot (m : Mode) (type : DataType) (r : Register) :
    (stackSlot m type r.value).uses = [] :=
  (direct_stackSlot m type (direct_register r)).plain

theorem pays_pushValue {value : Expr} (plain : value.uses = []) (type : DataType) :
    Pays [] (pushValue m value type) [] Anything :=
  pays_bind (pays_adjust _ _) fun _ _ => pays_assign (plain_stackSlot m type _) plain

theorem pays_popInto (plain : dst.uses = []) (type : DataType) :
    Pays [] (popInto m dst type) [] Anything :=
  pays_bind (pays_assign plain (plain_stackSlot m type _)) fun _ _ => pays_adjust _ _

end Steps

/-! ## Integer instructions -/

theorem settles_binary {op : BinaryOp} : Settles (binary m i op) Anything :=
  settles_operands fun _ _ _ free free' =>
    settles_of_pays (pays_storeWithFlags free (by simp [free, free']))

theorem settles_withCarry {op : BinaryOp} : Settles (withCarry m i op) Anything :=
  settles_operands fun _ _ _ free free' =>
    settles_of_pays (pays_storeWithFlags free (by simp [free, free']))

theorem settles_logical {op : BinaryOp} : Settles (logical m i op) Anything :=
  settles_bind settles_binary fun _ _ => pays_setFlag _ _

theorem settles_compare : Settles (compare m i) Anything :=
  settles_operands fun _ _ _ free free' =>
    settles_of_pays (pays_setFlagsFrom _ (by simp [Expr.sub, free, free']))

theorem settles_test : Settles (test m i) Anything :=
  settles_operands fun _ _ _ free free' =>
    settles_of_pays (pays_bind (pays_setFlagsFrom _ (by simp [Expr.and, free, free']))
      fun _ _ => pays_setFlag _ _)

theorem settles_count {delta : Int} : Settles (count m i delta) Anything :=
  settles_destination fun dst _ free =>
    settles_of_pays (pays_storeWithFlags free ((dst.uses_addInt delta).trans free))

theorem settles_complement : Settles (complement m i) Anything :=
  settles_destination fun _ _ free => settles_of_pays (pays_stored _ free free)

theorem settles_negate : Settles (negate m i) Anything :=
  settles_destination fun _ _ free =>
    settles_of_pays (pays_bind (pays_store _ free free) fun result free' =>
      pays_assign rfl (result.uses_isNonzero.trans free'))

theorem settles_adjustPrivilege : Settles (adjustPrivilege m i) Anything :=
  settles_readAt fun _ free => settles_readAt fun _ free' =>
    settles_of_pays (pays_apply (by simp [free, free']) fun _ => pays_storeWithFlags free rfl)

theorem plain_accumulator (bits : Nat) (type : DataType) : (accumulator bits type).whole.uses = [] :=
  (direct_accumulator bits type).plain

theorem settles_wideMultiply {signed : Bool} : Settles (wideMultiply m i signed) Anything :=
  settles_destination fun _ _ free =>
    settles_of_pays (pays_bind (pays_assign (plain_accumulator _ _) (by simp [free])) fun _ _ =>
      pays_setFlagsFrom _ (plain_accumulator _ _))

theorem settles_multiplySigned : Settles (multiplySigned m i) Anything := by
  unfold multiplySigned
  split
  · exact settles_wideMultiply
  · exact settles_destination fun _ _ free => settles_readAt fun _ free' =>
      settles_readAt fun _ free'' =>
        settles_of_pays (pays_storeWithFlags free (by simp [free', free'']))

theorem settles_divide {signed : Bool} : Settles (divide m i signed) Anything := by
  refine settles_destination fun divisor _ free => settles_of_pays ?_
  refine pays_bind (pays_temporary _) fun dividend free' => ?_
  refine pays_bind (pays_assign free' (plain_accumulator _ _)) fun _ _ => ?_
  refine pays_bind (pays_assign rfl (by simp [free, free'])) fun _ _ => ?_
  exact pays_assign rfl (by simp [free, free'])

theorem settles_shift {op : BinaryOp} : Settles (shift m i op) Anything :=
  settles_destination fun _ _ free =>
    settles_of_pays (pays_storeWithFlags free (by simp [free, (direct_shiftCount m i).plain]))

theorem settles_rotate {name : String} {throughCarry : Bool} :
    Settles (rotate m i name throughCarry) Anything := by
  refine settles_destination fun dst type free => settles_of_pays ?_
  refine pays_apply ?_ fun _ => pays_storeWithFlags free rfl
  cases throughCarry <;> simp [free, (direct_shiftCount m i).plain]

theorem settles_doubleShift {name : String} : Settles (doubleShift m i name) Anything :=
  settles_operands fun _ _ _ free free' => settles_readAt fun _ free'' =>
    settles_of_pays (pays_apply (by simp [free, free', free'']) fun _ => pays_stored _ free rfl)

theorem settles_bitTest : Settles (bitTest m i) Anything :=
  settles_operands fun _ _ _ free free' =>
    settles_of_pays (pays_apply (by simp [free, free']) fun _ => pays_assign rfl rfl)

theorem settles_bitScan : Settles (bitScan m i) Anything :=
  settles_operands fun _ src _ free free' =>
    settles_of_pays (pays_bind (pays_assign rfl (src.uses_isZero.trans free')) fun _ _ =>
      pays_apply (by simp [free']) fun _ => pays_assign free rfl)

theorem settles_byteSwap : Settles (byteSwap m i) Anything :=
  settles_destination fun _ _ free =>
    settles_of_pays (pays_apply (by simp [free]) fun _ => pays_stored _ free rfl)

theorem pays_decimalAdjust {name : String} {r : Register} :
    Pays [] (decimalAdjust i name r) [] Anything :=
  pays_apply (by simp) fun _ => pays_storeWithFlags rfl rfl

theorem pays_splitDigits : Pays [] (splitDigits m i) [] Anything := by
  have base : (i.readOr m 0 .byte (.byte 10)).uses = [] :=
    (i.direct_readOr m 0 .byte (Expr.direct_constant _)).plain
  exact pays_apply (by simp [base]) fun _ => pays_assign rfl rfl

/-! ## Moves and flags -/

theorem settles_move : Settles (move m i) Anything :=
  settles_operands fun _ _ _ free free' => settles_of_pays (pays_stored _ free free')

theorem settles_extend {signed : Bool} : Settles (extend m i signed) Anything :=
  settles_destination fun _ _ free => settles_operand fun _ _ =>
    settles_of_pays (pays_assign free (by simp))

theorem settles_loadAddress : Settles (loadAddress m i) Anything := by
  refine settles_destination fun dst _ free => settles_operand fun o _ => ?_
  cases o with
  | memory ref => exact settles_of_pays (pays_assign free (i.direct_effectiveAddress ref).plain)
  | _ => exact settles_fail _

theorem settles_loadFarPointer {segment : Segment} :
    Settles (loadFarPointer m i segment) Anything := by
  refine settles_destination fun dst type free => settles_operand fun ref _ => settles_of_pays ?_
  refine pays_bind (pays_temporary _) fun offset free' => ?_
  refine pays_bind (pays_assign free' (i.plain_memory ..)) fun _ _ => ?_
  refine pays_bind (pays_assign rfl (i.plain_memory ..)) fun _ _ => ?_
  exact pays_assign free free'

theorem settles_exchange : Settles (exchange m i) Anything := by
  refine settles_operand fun a _ => settles_operand fun b _ => settles_of_pays ?_
  split
  · exact pays_nop
  · refine pays_bind (pays_temporary _) fun kept free => ?_
    refine pays_bind (pays_assign free (i.plain_read ..)) fun _ _ => ?_
    refine pays_bind (pays_assign (i.plain_read ..) (i.plain_read ..)) fun _ _ => ?_
    exact pays_assign (i.plain_read ..) free

theorem pays_widen (source wide : Register) : Pays [] (widen source wide) [] Anything :=
  pays_assign rfl rfl

theorem pays_widenPair (low high : Register) : Pays [] (widenPair low high) [] Anything :=
  pays_assign (by simp) rfl

theorem pays_translate : Pays [] (translate m i) [] Anything := by
  refine pays_assign rfl ?_
  split <;> simp [Expr.add]

theorem settles_setIf {c : Condition} : Settles (setIf m i c) Anything :=
  settles_readAt fun _ free => settles_of_pays (pays_assign free rfl)

theorem settles_moveIf {c : Condition} : Settles (moveIf m i c) Anything :=
  settles_operands fun _ _ _ free free' => settles_of_pays (pays_assignIf rfl free free')

/-! ## Stack -/

theorem settles_push : Settles (push m i) Anything :=
  settles_operand fun _ _ => settles_of_pays (pays_pushValue (i.plain_read ..) _)

theorem settles_pop : Settles (pop m i) Anything :=
  settles_destination fun _ _ free => settles_of_pays (pays_popInto free _)

theorem pays_leaveFrame : Pays [] (leaveFrame m) [] Anything :=
  pays_bind (pays_assign rfl rfl) fun _ _ => pays_popInto rfl _

theorem pays_copyFramePointer : Pays [] (copyFramePointer m) [] Anything :=
  pays_bind (pays_adjust _ _) fun _ _ => pays_pushValue (plain_stackSlot m _ _) _

theorem settles_enterFrame : Settles (enterFrame m i) Anything := by
  refine settles_operand fun size _ => ?_
  refine settles_either (settles_read _) (settles_of_pays (pays_pure trivial)) fun level _ => ?_
  refine pays_bind (pays_pushValue rfl _) fun _ _ => ?_
  refine pays_bind (pays_temporary _) fun frame free => ?_
  refine pays_bind (pays_assign free rfl) fun _ _ => ?_
  refine pays_bind (pays_forM (fun _ => pays_copyFramePointer) _) fun _ _ => ?_
  refine pays_when (pays_pushValue free _) fun _ => ?_
  refine pays_bind (pays_assign rfl free) fun _ _ => ?_
  split
  · exact pays_adjust _ _
  · exact pays_pure trivial

theorem pays_pushGeneral : Pays [] (pushGeneral m i) [] Anything := by
  refine pays_bind (pays_temporary _) fun saved free => ?_
  refine pays_bind (pays_assign free rfl) fun _ _ => pays_forM (fun family => ?_) _
  refine pays_pushValue ?_ _
  split
  · exact free
  · rfl

theorem pays_popGeneral : Pays [] (popGeneral m i) [] Anything := by
  refine pays_forM (fun family => ?_) _
  split
  · exact pays_adjust _ _
  · exact pays_popInto rfl _

/-! ## Control flow -/

theorem settles_call : Settles (call m i) Anything :=
  settles_readAt fun _ free => settles_of_pays (pays_call free _)

theorem settles_jump : Settles (jump m i) Anything :=
  settles_readAt fun _ free => settles_of_pays (pays_goto free)

theorem pays_returnFromCall : Pays [] (returnFromCall m i) [] Anything := pays_ret _ _

theorem pays_returnFromInterrupt : Pays [] (returnFromInterrupt m) [] Anything :=
  pays_bind (pays_assign rfl (direct_stackSlot m _ (by simp)).plain) fun _ _ => pays_ret _ _

theorem settles_jumpIf {c : Condition} : Settles (jumpIf i c) Anything :=
  settles_operand fun _ _ => settles_of_pays (pays_branch (by simp [conditionHolds]) _)

theorem settles_jumpIfNoCount {width : Mode} : Settles (jumpIfNoCount i width) Anything :=
  settles_operand fun _ _ => settles_of_pays (pays_branch (by simp) _)

theorem settles_loop {condition : Option Condition} : Settles (loop i condition) Anything := by
  refine settles_operand fun target _ => settles_of_pays ?_
  refine pays_bind (pays_adjust _ _) fun _ _ => pays_branch ?_ _
  cases condition <;> simp [Expr.both, zeroFlag]

/-! ## System and ports -/

theorem pays_halt : Pays [] halt [] Anything :=
  pays_bind (pays_intrinsic (by simp)) fun _ _ => pays_setFlow _

theorem settles_interrupt : Settles (interrupt m i) Anything :=
  settles_readAt fun _ free => settles_of_pays (pays_intrinsic (by simp [free]))

theorem settles_portIn : Settles (portIn m i) Anything :=
  settles_destination fun _ _ free => settles_readAt fun _ free' =>
    settles_of_pays (pays_apply (by simp [free']) fun _ => pays_assign free rfl)

theorem settles_portOut : Settles (portOut m i) Anything :=
  settles_readAt fun _ free => settles_operand fun _ _ =>
    settles_of_pays (pays_intrinsic (by simp [free]))

/-! ## String instructions -/

theorem pays_stringStep (op : StringOp) : Pays [] (stringStep m i op) [] Anything := by
  have plain := fun type index segment => (direct_indexed m type index segment).plain
  cases op with
  | movs | movsb =>
      exact pays_bind (pays_assign (plain ..) (plain ..)) fun _ _ =>
        pays_bind (pays_adjust _ _) fun _ _ => pays_adjust _ _
  | cmps | cmpsb =>
      exact pays_bind (pays_setFlagsFrom _ (by simp [Expr.sub, plain])) fun _ _ =>
        pays_bind (pays_adjust _ _) fun _ _ => pays_adjust _ _
  | stos | stosb =>
      exact pays_bind (pays_assign (plain ..) rfl) fun _ _ => pays_adjust _ _
  | lods | lodsb =>
      exact pays_bind (pays_assign rfl (plain ..)) fun _ _ => pays_adjust _ _
  | scas | scasb =>
      exact pays_bind (pays_setFlagsFrom _ (by simp [Expr.sub, plain])) fun _ _ => pays_adjust _ _
  | ins =>
      exact pays_apply (by simp) fun _ =>
        pays_bind (pays_assign (plain ..) rfl) fun _ _ => pays_adjust _ _
  | outs =>
      exact pays_bind (pays_intrinsic (by simp [plain])) fun _ _ => pays_adjust _ _

theorem pays_repeated (start : Nat) (op : StringOp) (repetition : Repetition) :
    Pays [] (repeated m start i op repetition) [] Anything := by
  have back : Pays [] (Lowering.goto (.address start) >>= fun _ => .setFlow .conditional) []
      Anything := pays_bind (pays_goto rfl) fun _ _ => pays_setFlow _
  refine pays_bind (pays_branch (by simp) _) fun _ _ => ?_
  refine pays_bind (pays_stringStep op) fun _ _ => ?_
  refine pays_bind (pays_adjust _ _) fun _ _ => ?_
  exact pays_when (pays_branch (by simp [zeroFlag]) _) fun _ => back

theorem pays_string (op : StringOp) : Pays [] (string m i op) [] Anything := by
  unfold string
  split
  · exact pays_repeated _ op _
  · exact pays_stringStep op

/-- Whether the string instruction behind it is absorbed or not. -/
theorem pays_repeatNext (next : Option Instruction) (repetition : Repetition) :
    Pays [] (repeatNext m i next repetition) [] fun _ => True := by
  have alone : Pays [] (Lowering.nop >>= fun _ => pure false) [] fun _ : Bool => True :=
    pays_bind pays_nop fun _ _ => pays_pure trivial
  cases next with
  | none => exact alone
  | some following =>
      unfold repeatNext
      simp only
      split
      · exact pays_bind (pays_repeated _ _ _) fun _ _ => pays_pure trivial
      · exact alone

/-! ## The floating-point unit -/

@[simp]
theorem plain_st0 : st0.uses = [] := rfl

@[simp]
theorem plain_st1 : st1.uses = [] := rfl

theorem pays_moveTop (n : Int) : Pays [] (moveTop n) [] Anything := pays_adjust _ _

theorem pays_popTopIf (pops : Bool) : Pays [] (popTopIf pops) [] Anything := by
  unfold popTopIf
  split
  · exact pays_moveTop _
  · exact pays_pure trivial

@[simp]
theorem plain_realValue (m : Mode) (i : Instruction) (o : Operand) (integer : Bool) :
    (realValue m i o integer).uses = [] :=
  (direct_realValue m i o integer).plain

theorem pays_loadConstant {bits : Nat} : Pays [] (loadConstant bits) [] Anything :=
  pays_bind (pays_moveTop _) fun _ _ => pays_assign rfl rfl

theorem settles_loadReal {integer : Bool} : Settles (loadReal m i integer) Anything := by
  refine settles_operand fun o _ => settles_of_pays ?_
  refine pays_bind (pays_moveTop _) fun _ _ => pays_assign rfl ?_
  split <;> simp

theorem settles_storeReal {integer pops : Bool} : Settles (storeReal m i integer pops) Anything := by
  refine settles_operand fun o _ => settles_of_pays ?_
  cases o with
  | memory ref =>
      refine pays_bind (pays_assign (i.plain_memory ..) ?_) fun _ _ => pays_popTopIf _
      split <;> simp
  | register r => exact pays_when (pays_assign rfl rfl) fun _ => pays_popTopIf _
  | _ => exact pays_bind (pays_assign (i.plain_read ..) rfl) fun _ _ => pays_popTopIf _

theorem settles_realArithmetic {op : RealArithmetic} {pops : Bool} :
    Settles (realArithmetic m i op pops) Anything := by
  refine settles_operand fun (dst, src) found => settles_of_pays ?_
  obtain ⟨direct, direct'⟩ := direct_of_realOperands found
  exact pays_bind (pays_assign direct.plain (direct_realResult op direct direct').plain) fun _ _ =>
    pays_popTopIf _

theorem settles_integerArithmetic {op : RealArithmetic} :
    Settles (integerArithmetic m i op) Anything :=
  settles_operand fun _ _ =>
    settles_of_pays
      (pays_assign rfl (direct_realResult op direct_st0 (direct_realValue m i _ true)).plain)

theorem pays_compareTop {value : Expr} (plain : value.uses = []) :
    Pays [] (compareTop value) [] Anything :=
  pays_assign rfl (by simp [plain])

theorem pays_compareReal {integer : Bool} {pops : Nat} :
    Pays [] (compareReal m i integer pops) [] Anything := by
  refine pays_bind (pays_compareTop ?_) fun _ _ => ?_
  · split <;> simp
  · split
    · exact pays_moveTop _
    · exact pays_pure trivial

theorem pays_examine : Pays [] examine [] Anything :=
  pays_apply (by simp) fun _ => pays_assign rfl rfl

theorem pays_realFunction {name : String} : Pays [] (realFunction name) [] Anything :=
  pays_apply (by simp) fun _ => pays_assign rfl rfl

theorem pays_arctangent : Pays [] arctangent [] Anything :=
  pays_apply (by simp) fun _ => pays_bind (pays_assign rfl rfl) fun _ _ => pays_moveTop _

theorem pays_logarithm : Pays [] logarithm [] Anything :=
  pays_apply (by simp) fun _ =>
    pays_bind (pays_assign rfl (by simp)) fun _ _ => pays_moveTop _

theorem pays_sineCosine : Pays [] sineCosine [] Anything := by
  refine pays_bind (pays_temporary _) fun angle free => ?_
  refine pays_bind (pays_assign free rfl) fun _ _ => ?_
  refine pays_bind (pays_moveTop _) fun _ _ => ?_
  refine pays_apply (by simp [free]) fun sine => ?_
  refine pays_bind (pays_assign rfl rfl) fun _ _ => ?_
  exact pays_apply (by simp [free]) fun cosine => pays_assign rfl rfl

theorem pays_exchangeReal : Pays [] (exchangeReal i) [] Anything := by
  unfold exchangeReal
  simp only
  split
  · exact pays_nop
  · refine pays_bind (pays_temporary _) fun kept free => ?_
    refine pays_bind (pays_assign free rfl) fun _ _ => ?_
    refine pays_bind (pays_assign rfl rfl) fun _ _ => ?_
    exact pays_assign rfl free

theorem settles_loadControl : Settles (loadControl m i) Anything :=
  settles_readAt fun _ free => settles_of_pays (pays_assign rfl free)

theorem pays_storeWord (word : Register) : Pays [] (storeWord m i word) [] Anything :=
  pays_assign (i.direct_readOr m 0 .word16 (direct_register _)).plain rfl

theorem settles_real (op : RealOp) : Settles (real m i op) Anything := by
  cases op with
  | arithmetic op pops => exact settles_realArithmetic
  | integerArithmetic op => exact settles_integerArithmetic
  | load | loadInteger => exact settles_loadReal
  | store integer pops => exact settles_storeReal
  | loadOne | loadZero | loadPi => exact settles_of_pays pays_loadConstant
  | compare pops | compareInteger pops => exact settles_of_pays pays_compareReal
  | test => exact settles_of_pays (pays_compareTop rfl)
  | examine => exact settles_of_pays pays_examine
  | changeSign => exact settles_of_pays (pays_assign rfl rfl)
  | sine | cosine | squareRoot | round => exact settles_of_pays pays_realFunction
  | sineCosine => exact settles_of_pays pays_sineCosine
  | arctangent => exact settles_of_pays pays_arctangent
  | logarithm => exact settles_of_pays pays_logarithm
  | exchange => exact settles_of_pays pays_exchangeReal
  | clearExceptions => exact settles_of_pays (pays_intrinsic (by simp))
  | loadControl => exact settles_loadControl
  | storeControl | storeStatus => exact settles_of_pays (pays_storeWord _)

/-! ## Every opcode -/

theorem settles_instruction (m : Mode) (i : Instruction) : Settles (instruction m i) Anything := by
  unfold instruction
  generalize i.opcode = opcode
  cases opcode with
  | add | sub => exact settles_binary
  | adc | sbb => exact settles_withCarry
  | and | or | xor => exact settles_logical
  | cmp => exact settles_compare
  | test => exact settles_test
  | inc | dec => exact settles_count
  | neg => exact settles_negate
  | not => exact settles_complement
  | mul => exact settles_wideMultiply
  | imul => exact settles_multiplySigned
  | div | idiv => exact settles_divide
  | shl | shr | sar => exact settles_shift
  | rol | ror | rcl | rcr => exact settles_rotate
  | shld | shrd => exact settles_doubleShift
  | bt => exact settles_bitTest
  | bsr => exact settles_bitScan
  | bswap => exact settles_byteSwap
  | arpl => exact settles_adjustPrivilege
  | daa | das | aaa => exact settles_of_pays pays_decimalAdjust
  | aam => exact settles_of_pays pays_splitDigits
  | mov => exact settles_move
  | movzx | movsx | movsxd => exact settles_extend
  | lea => exact settles_loadAddress
  | xchg => exact settles_exchange
  | xlat => exact settles_of_pays pays_translate
  | lds | les | lfs | lgs | lss => exact settles_loadFarPointer
  | cbw | cwde | cdqe => exact settles_of_pays (pays_widen _ _)
  | cwd | cdq | cqo => exact settles_of_pays (pays_widenPair _ _)
  | push => exact settles_push
  | pop => exact settles_pop
  | pushf => exact settles_of_pays (pays_pushValue rfl _)
  | popf => exact settles_of_pays (pays_popInto rfl _)
  | pusha => exact settles_of_pays pays_pushGeneral
  | popa => exact settles_of_pays pays_popGeneral
  | enter => exact settles_enterFrame
  | leave => exact settles_of_pays pays_leaveFrame
  | call => exact settles_call
  | jmp => exact settles_jump
  | ret => exact settles_of_pays pays_returnFromCall
  | iret => exact settles_of_pays pays_returnFromInterrupt
  | jumpIf c => exact settles_jumpIf
  | jumpIfNoCount width => exact settles_jumpIfNoCount
  | loop | loopEqual | loopNotEqual => exact settles_loop
  | setIf c => exact settles_setIf
  | moveIf c => exact settles_moveIf
  | clc | stc | cld | std => exact settles_of_pays (pays_setFlag _ _)
  | cmc | lahf | sahf => exact settles_of_pays (pays_assign rfl rfl)
  | cli | sti => exact settles_of_pays (pays_intrinsic (by simp))
  | int => exact settles_interrupt
  | hlt => exact settles_of_pays pays_halt
  | portIn => exact settles_portIn
  | portOut => exact settles_portOut
  | string op => exact settles_of_pays (pays_string op)
  | real op => exact settles_real op
  | rep | repne | nop | wait => exact settles_of_pays pays_nop
  | illegal => exact settles_invalid
  | cpuid | rdtsc | unrecognized => exact settles_fail _

end Lower

theorem settles_backend (m : Mode) (i : Instruction) (next : Option Instruction) :
    Settles ((backend m).lower i next) fun _ => True := by
  simp only [backend]
  split
  · exact settles_of_pays (Lower.pays_repeatNext next _)
  · exact settles_of_pays (Lower.pays_repeatNext next _)
  · exact settles_bind (Lower.settles_instruction m i) fun _ _ => pays_pure trivial

end RegisterTransfer.X86
