/-
# RegisterTransfer.Proofs.X86.Classification -- the classes of x86 clusters

Every instruction in every mode, with any operands, is refused with a fault of its own or gets a class
that agrees with its statements (`classifiesCluster_backend`).  A repetition is the one cluster with
more than one statement that moves control: it branches to its end, steps, and jumps to its start
(`Lower.classifies_repeated`).
-/
import RegisterTransfer.Proofs.Draft.Classification
import RegisterTransfer.X86.Lowering

namespace RegisterTransfer.X86

set_option autoImplicit false

open Lowering

/-! ## Operands -/

namespace Instruction

variable {m : Mode}

theorem reads_operand (i : Instruction) (n : Nat) : Reads (i.operand n) := by
  unfold operand
  split
  · exact reads_ok _
  · exact reads_error rfl

theorem reads_codeTarget (i : Instruction) (n : Nat) : Reads (i.codeTarget n) := by
  refine reads_bind (i.reads_operand n) fun o => ?_
  cases o with
  | address a => exact reads_ok _
  | immediate value type => exact reads_ok _
  | _ => exact reads_error rfl

theorem reads_immediate (i : Instruction) (n : Nat) : Reads (i.immediate n) := by
  refine reads_bind (i.reads_operand n) fun o => ?_
  cases o with
  | immediate value type => exact reads_ok _
  | _ => exact reads_error rfl

theorem reads_reference (i : Instruction) (n : Nat) : Reads (i.reference n) := by
  refine reads_bind (i.reads_operand n) fun o => ?_
  cases o with
  | memory ref => exact reads_ok _
  | _ => exact reads_error rfl

theorem reads_readAt (i : Instruction) (n : Nat) (type : DataType) : Reads (i.readAt m n type) :=
  reads_bind (i.reads_operand n) fun _ => reads_ok _

theorem reads_destination (i : Instruction) : Reads (i.destination m) :=
  reads_bind (i.reads_operand 0) fun _ => reads_ok _

end Instruction

namespace Lower

variable {m : Mode} {i : Instruction} {start stop : Nat}

theorem reads_operands (m : Mode) (i : Instruction) : Reads (operands m i) := by
  refine reads_bind i.reads_destination fun (dst, type) => ?_
  exact reads_bind (i.reads_readAt 1 type) fun _ => reads_ok _

/-! ## Steps that lowerings share -/

theorem straight_store (how : CopyMode) (dst src : Expr) : Straight (store i how dst src) :=
  straight_copy _ _ _ _

/-- A result that is stored and not looked at again. -/
theorem straight_stored (how : CopyMode) (dst src : Expr) :
    Straight (store i how dst src >>= fun _ => pure ()) :=
  straight_bind (straight_store how dst src) fun _ => straight_pure ()

theorem straight_storeWithFlags (dst src : Expr) : Straight (storeWithFlags i dst src) :=
  straight_stored _ dst src

theorem straight_adjust (r : Register) (delta : Int) : Straight (adjust r delta) :=
  straight_assign _ _

theorem straight_setFlag (mask : Nat) (value : Bool) : Straight (setFlag mask value) :=
  straight_assign _ _

theorem straight_setFlagsFrom (mask : Nat) (e : Expr) : Straight (setFlagsFrom mask e) :=
  straight_assign _ _

theorem straight_intrinsic {name : String} {arguments : List Expr}
    (fits : IntrinsicName.arity? name = some arguments.length) :
    Straight (effect name arguments) :=
  straight_bind (straight_apply fits) fun _ => straight_effect _

theorem straight_pushValue (value : Expr) (type : DataType) : Straight (pushValue m value type) :=
  straight_bind (straight_adjust _ _) fun _ => straight_assign _ _

theorem straight_popInto (dst : Expr) (type : DataType) : Straight (popInto m dst type) :=
  straight_bind (straight_assign _ _) fun _ => straight_adjust _ _

/-! ## Integer instructions -/

theorem straight_binary {op : BinaryOp} : Straight (binary m i op) :=
  straight_operand (reads_operands m i) fun _ => straight_storeWithFlags _ _

theorem straight_withCarry {op : BinaryOp} : Straight (withCarry m i op) :=
  straight_operand (reads_operands m i) fun _ => straight_storeWithFlags _ _

theorem straight_logical {op : BinaryOp} : Straight (logical m i op) :=
  straight_bind straight_binary fun _ => straight_setFlag _ _

theorem straight_compare : Straight (compare m i) :=
  straight_operand (reads_operands m i) fun _ => straight_setFlagsFrom _ _

theorem straight_test : Straight (test m i) :=
  straight_operand (reads_operands m i) fun _ =>
    straight_bind (straight_setFlagsFrom _ _) fun _ => straight_setFlag _ _

theorem straight_count {delta : Int} : Straight (count m i delta) :=
  straight_operand i.reads_destination fun _ => straight_storeWithFlags _ _

theorem straight_complement : Straight (complement m i) :=
  straight_operand i.reads_destination fun _ => straight_stored _ _ _

theorem straight_negate : Straight (negate m i) :=
  straight_operand i.reads_destination fun _ =>
    straight_bind (straight_store _ _ _) fun _ => straight_assign _ _

theorem straight_adjustPrivilege : Straight (adjustPrivilege m i) := by
  refine straight_operand (i.reads_readAt 0 _) fun dst => ?_
  refine straight_operand (i.reads_readAt 1 _) fun src => ?_
  exact straight_bind (straight_apply rfl) fun _ => straight_storeWithFlags _ _

theorem straight_wideMultiply {signed : Bool} : Straight (wideMultiply m i signed) :=
  straight_operand i.reads_destination fun _ =>
    straight_bind (straight_assign _ _) fun _ => straight_setFlagsFrom _ _

theorem straight_multiplySigned : Straight (multiplySigned m i) := by
  unfold multiplySigned
  split
  · exact straight_wideMultiply
  · refine straight_operand i.reads_destination fun (dst, type) => ?_
    refine straight_operand (i.reads_readAt _ _) fun a => ?_
    exact straight_operand (i.reads_readAt _ _) fun b => straight_storeWithFlags _ _

theorem straight_divide {signed : Bool} : Straight (divide m i signed) :=
  straight_operand i.reads_destination fun _ =>
    straight_bind (straight_temporary _) fun _ =>
      straight_bind (straight_assign _ _) fun _ =>
        straight_bind (straight_assign _ _) fun _ => straight_assign _ _

theorem straight_shift {op : BinaryOp} : Straight (shift m i op) :=
  straight_operand i.reads_destination fun _ => straight_storeWithFlags _ _

/-- A rotation takes the carry as a third argument if it goes through it. -/
theorem straight_rotate {name : String} {throughCarry : Bool}
    (fits : IntrinsicName.arity? name = some (if throughCarry then 3 else 2)) :
    Straight (rotate m i name throughCarry) := by
  refine straight_operand i.reads_destination fun (dst, type) => ?_
  refine straight_bind (straight_apply ?_) fun _ => straight_storeWithFlags _ _
  rw [fits]
  cases throughCarry <;> rfl

theorem straight_doubleShift {name : String} (fits : IntrinsicName.arity? name = some 3) :
    Straight (doubleShift m i name) := by
  refine straight_operand (reads_operands m i) fun (dst, src, type) => ?_
  refine straight_operand (i.reads_readAt 2 _) fun by_ => ?_
  exact straight_bind (straight_apply fits) fun _ => straight_stored _ _ _

theorem straight_bitTest : Straight (bitTest m i) :=
  straight_operand (reads_operands m i) fun _ =>
    straight_bind (straight_apply rfl) fun _ => straight_assign _ _

theorem straight_bitScan : Straight (bitScan m i) :=
  straight_operand (reads_operands m i) fun _ =>
    straight_bind (straight_assign _ _) fun _ =>
      straight_bind (straight_apply rfl) fun _ => straight_assign _ _

theorem straight_byteSwap : Straight (byteSwap m i) :=
  straight_operand i.reads_destination fun _ =>
    straight_bind (straight_apply rfl) fun _ => straight_stored _ _ _

theorem straight_decimalAdjust {name : String} {r : Register}
    (fits : IntrinsicName.arity? name = some 1) : Straight (decimalAdjust i name r) :=
  straight_bind (straight_apply fits) fun _ => straight_storeWithFlags _ _

theorem straight_splitDigits : Straight (splitDigits m i) :=
  straight_bind (straight_apply rfl) fun _ => straight_assign _ _

/-! ## Moves and flags -/

theorem straight_move : Straight (move m i) :=
  straight_operand (reads_operands m i) fun _ => straight_stored _ _ _

theorem straight_extend {signed : Bool} : Straight (extend m i signed) :=
  straight_operand i.reads_destination fun _ =>
    straight_operand (i.reads_operand 1) fun _ => straight_assign _ _

theorem straight_loadAddress : Straight (loadAddress m i) := by
  refine straight_operand i.reads_destination fun (dst, type) => ?_
  refine straight_operand (i.reads_operand 1) fun o => ?_
  cases o with
  | memory ref => exact straight_assign _ _
  | _ => exact straight_fail rfl

theorem straight_loadFarPointer {segment : Segment} : Straight (loadFarPointer m i segment) := by
  refine straight_operand i.reads_destination fun (dst, type) => ?_
  refine straight_operand (i.reads_reference 1) fun ref => ?_
  refine straight_bind (straight_temporary _) fun offset => ?_
  exact straight_bind (straight_assign _ _) fun _ =>
    straight_bind (straight_assign _ _) fun _ => straight_assign _ _

theorem straight_exchange : Straight (exchange m i) := by
  refine straight_operand (i.reads_operand 0) fun a => ?_
  refine straight_operand (i.reads_operand 1) fun b => ?_
  split
  · exact straight_nop
  · exact straight_bind (straight_temporary _) fun _ =>
      straight_bind (straight_assign _ _) fun _ =>
        straight_bind (straight_assign _ _) fun _ => straight_assign _ _

theorem straight_setIf {c : Condition} : Straight (setIf m i c) :=
  straight_operand (i.reads_readAt 0 _) fun _ => straight_assign _ _

theorem straight_moveIf {c : Condition} : Straight (moveIf m i c) :=
  straight_operand (reads_operands m i) fun _ => straight_assignIf _ _ _

/-! ## Stack -/

theorem straight_push : Straight (push m i) :=
  straight_operand (i.reads_operand 0) fun _ => straight_pushValue _ _

theorem straight_pop : Straight (pop m i) :=
  straight_operand i.reads_destination fun _ => straight_popInto _ _

theorem straight_leaveFrame : Straight (leaveFrame m) :=
  straight_bind (straight_assign _ _) fun _ => straight_popInto _ _

theorem straight_copyFramePointer : Straight (copyFramePointer m) :=
  straight_bind (straight_adjust _ _) fun _ => straight_pushValue _ _

theorem straight_enterFrame : Straight (enterFrame m i) := by
  refine straight_operand (i.reads_immediate 0) fun size => ?_
  refine straight_either (straight_read (i.reads_immediate 1)) (straight_pure 0) fun level => ?_
  refine straight_bind (straight_pushValue _ _) fun _ => ?_
  refine straight_bind (straight_temporary _) fun frame => ?_
  refine straight_bind (straight_assign _ _) fun _ => ?_
  refine straight_bind (straight_forM (fun _ => straight_copyFramePointer) _) fun _ => ?_
  refine straight_when (straight_pushValue _ _) fun _ => ?_
  refine straight_bind (straight_assign _ _) fun _ => ?_
  split
  · exact straight_adjust _ _
  · exact straight_pure ()

theorem straight_pushGeneral : Straight (pushGeneral m i) :=
  straight_bind (straight_temporary _) fun _ =>
    straight_bind (straight_assign _ _) fun _ =>
      straight_forM (fun _ => straight_pushValue _ _) _

theorem straight_popGeneral : Straight (popGeneral m i) := by
  refine straight_forM (fun family => ?_) _
  split
  · exact straight_adjust _ _
  · exact straight_popInto _ _

/-! ## Ports and string instructions -/

theorem straight_interrupt : Straight (interrupt m i) :=
  straight_operand (i.reads_readAt 0 _) fun _ => straight_intrinsic rfl

theorem straight_portIn : Straight (portIn m i) := by
  refine straight_operand i.reads_destination fun (dst, type) => ?_
  refine straight_operand (i.reads_readAt 1 _) fun port => ?_
  exact straight_bind (straight_apply rfl) fun _ => straight_assign _ _

theorem straight_portOut : Straight (portOut m i) := by
  refine straight_operand (i.reads_readAt 0 _) fun port => ?_
  exact straight_operand (i.reads_operand 1) fun source => straight_intrinsic rfl

theorem straight_stringStep (op : StringOp) : Straight (stringStep m i op) := by
  cases op with
  | movs | movsb | cmps | cmpsb =>
      exact straight_bind (straight_assign _ _) fun _ =>
        straight_bind (straight_adjust _ _) fun _ => straight_adjust _ _
  | stos | stosb | lods | lodsb | scas | scasb =>
      exact straight_bind (straight_assign _ _) fun _ => straight_adjust _ _
  | ins =>
      exact straight_bind (straight_apply rfl) fun _ =>
        straight_bind (straight_assign _ _) fun _ => straight_adjust _ _
  | outs => exact straight_bind (straight_intrinsic rfl) fun _ => straight_adjust _ _

/-! ## Control flow -/

theorem classifies_call : Classifies start stop (call m i) :=
  classifies_operand (i.reads_readAt 0 _) fun _ => Lowering.classifies_call _ _

theorem classifies_jump : Classifies start stop (jump m i) :=
  classifies_operand (i.reads_readAt 0 _) fun _ => classifies_goto _

theorem classifies_returnFromCall : Classifies start stop (returnFromCall m i) :=
  classifies_ret _ _

theorem classifies_returnFromInterrupt : Classifies start stop (returnFromInterrupt m) :=
  classifies_bind (straight_assign _ _) fun _ => classifies_ret _ _

theorem classifies_jumpIf {c : Condition} : Classifies start stop (jumpIf i c) :=
  classifies_operand (i.reads_codeTarget 0) fun _ => classifies_branch _ _

theorem classifies_jumpIfNoCount {width : Mode} :
    Classifies start stop (jumpIfNoCount i width) :=
  classifies_operand (i.reads_codeTarget 0) fun _ => classifies_branch _ _

theorem classifies_loop {condition : Option Condition} :
    Classifies start stop (loop i condition) :=
  classifies_operand (i.reads_codeTarget 0) fun _ =>
    classifies_bind (straight_adjust _ _) fun _ => classifies_branch _ _

theorem classifies_halt : Classifies start stop halt :=
  classifies_bind (straight_intrinsic rfl) fun _ => Lowering.classifies_halt

/-! ## Repetitions -/

/-- The draft of a repetition that has branched to its exit and not jumped back yet. -/
structure Looping (exit : Nat) (d : Draft) : Prop where
  regular : d.Regular
  leaves : ∃ condition, .branch condition exit ∈ d.statements
  within : ∀ s ∈ d.statements, s.control? ≠ some .goto

theorem Looping.push {exit : Nat} {d e : Draft} (loops : Looping exit d) {more : List Statement}
    (statements : e.statements = d.statements ++ more) (regular : e.Regular)
    (still : ∀ s ∈ more, s.control? ≠ some .goto) : Looping exit e := by
  obtain ⟨condition, found⟩ := loops.leaves
  refine ⟨regular, ⟨condition, ?_⟩, ?_⟩
  · rw [statements]
    exact List.mem_append_left _ found
  · intro s listed
    rw [statements] at listed
    rcases List.mem_append.mp listed with old | new
    · exact loops.within s old
    · exact still s new

theorem leaves_looping {x : Lowering Unit} (straight : Straight x) (exit : Nat) :
    Leaves (Looping exit) x fun _ => Looping exit := by
  intro d loops
  have left := straight d.statements d.flow d ⟨rfl, loops.regular, [], by simp, nofun⟩
  revert left
  cases x.run d with
  | error refusal => exact id
  | ok out =>
      intro left
      obtain ⟨_, regular, more, statements, all⟩ := left
      refine loops.push statements regular fun s found => ?_
      rw [Statement.control?_of_isStraight (all s found)]
      nofun

theorem leaves_exit (condition : Expr) (exit : Nat) :
    Leaves (Looping exit) (.branch condition exit) fun _ => Looping exit :=
  leaves_write fun d loops => loops.push rfl loops.regular (by simp [Statement.control?])

theorem classifies_repeated (op : StringOp) (repetition : Repetition) :
    Classifies start i.nextAddress (repeated m start i op repetition) := by
  have begun : Leaves (Draft.Extends [] .linear)
      (.branch (countRegister i).value.isZero i.nextAddress) fun _ => Looping i.nextAddress := by
    refine leaves_write fun d open_ => ?_
    obtain ⟨_, regular, more, statements, all⟩ := open_
    rw [List.nil_append] at statements
    refine ⟨regular, ⟨_, List.mem_append_right _ List.mem_cons_self⟩, fun s found => ?_⟩
    rcases List.mem_append.mp found with old | new
    · rw [Statement.control?_of_isStraight (all s (statements ▸ old))]
      nofun
    · rw [List.mem_singleton.mp new]
      simp [Statement.control?]
  have back : Leaves (Looping i.nextAddress)
      (Lowering.goto (.address start) >>= fun _ => .setFlow .conditional) fun _ d =>
        d.Regular ∧ Controlled start i.nextAddress d.flow d.statements := by
    intro d loops
    obtain ⟨condition, found⟩ := loops.leaves
    exact ⟨loops.regular, .loop found loops.within⟩
  refine leaves_bind begun fun _ => ?_
  refine leaves_bind (leaves_looping (straight_stringStep op) _) fun _ => ?_
  refine leaves_bind (leaves_looping (straight_adjust _ _) _) fun _ => ?_
  split
  · exact leaves_bind (leaves_exit _ _) fun _ => back
  · exact back

theorem classifies_string (op : StringOp) :
    Classifies i.address i.nextAddress (string m i op) := by
  unfold string
  split
  · exact classifies_repeated op _
  · exact classifies_of_straight (straight_stringStep op)

/-- A repetition decoded on its own.  Its cluster ends where the string instruction does that it
absorbs. -/
theorem classifiesCluster_repeatNext (next : Option Instruction) (repetition : Repetition) :
    ClassifiesCluster i next (repeatNext m i next repetition) := by
  have alone : ClassifiesCluster i next (Lowering.nop >>= fun _ => pure false) :=
    classifiesCluster_alone (classifies_of_straight straight_nop)
  cases next with
  | none => exact alone
  | some following =>
      unfold repeatNext
      simp only
      split
      · refine leaves_bind (classifies_repeated _ repetition) fun _ => ?_
        refine leaves_pure true fun d left => ⟨left.1, fun behind => ?_⟩
        have ends : following.nextAddress = clusterEnd i (some following) true := by
          have starts : following.address = i.address + i.length := behind following rfl
          rw [Instruction.nextAddress, starts, Nat.add_assoc]
          rfl
        rw [← ends]
        exact left.2
      · exact alone

/-! ## The floating-point unit -/

theorem straight_moveTop (n : Int) : Straight (moveTop n) := straight_adjust _ _

theorem straight_popTopIf (pops : Bool) : Straight (popTopIf pops) := by
  unfold popTopIf
  split
  · exact straight_moveTop _
  · exact straight_pure ()

theorem straight_loadConstant {bits : Nat} : Straight (loadConstant bits) :=
  straight_bind (straight_moveTop _) fun _ => straight_assign _ _

theorem straight_loadReal {integer : Bool} : Straight (loadReal m i integer) :=
  straight_operand (i.reads_operand 0) fun _ =>
    straight_bind (straight_moveTop _) fun _ => straight_assign _ _

theorem straight_storeReal {integer pops : Bool} : Straight (storeReal m i integer pops) := by
  refine straight_operand (i.reads_operand 0) fun o => ?_
  cases o with
  | memory ref => exact straight_bind (straight_assign _ _) fun _ => straight_popTopIf _
  | register r => exact straight_when (straight_assign _ _) fun _ => straight_popTopIf _
  | _ => exact straight_bind (straight_assign _ _) fun _ => straight_popTopIf _

theorem reads_realOperands (m : Mode) (i : Instruction) (pops : Bool) :
    Reads (realOperands m i pops) := by
  unfold realOperands
  split
  · exact reads_ok _
  · split
    · exact reads_ok _
    · exact reads_ok _
  · exact reads_ok _
  · exact reads_error rfl

theorem straight_realArithmetic {op : RealArithmetic} {pops : Bool} :
    Straight (realArithmetic m i op pops) :=
  straight_operand (reads_realOperands m i pops) fun _ =>
    straight_bind (straight_assign _ _) fun _ => straight_popTopIf _

theorem straight_integerArithmetic {op : RealArithmetic} :
    Straight (integerArithmetic m i op) :=
  straight_operand (i.reads_operand 0) fun _ => straight_assign _ _

theorem straight_compareTop (value : Expr) : Straight (compareTop value) := straight_assign _ _

theorem straight_compareReal {integer : Bool} {pops : Nat} :
    Straight (compareReal m i integer pops) := by
  refine straight_bind (straight_compareTop _) fun _ => ?_
  split
  · exact straight_moveTop _
  · exact straight_pure ()

theorem straight_examine : Straight examine :=
  straight_bind (straight_apply rfl) fun _ => straight_assign _ _

theorem straight_realFunction {name : String} (fits : IntrinsicName.arity? name = some 1) :
    Straight (realFunction name) :=
  straight_bind (straight_apply fits) fun _ => straight_assign _ _

theorem straight_arctangent : Straight arctangent :=
  straight_bind (straight_apply rfl) fun _ =>
    straight_bind (straight_assign _ _) fun _ => straight_moveTop _

theorem straight_logarithm : Straight logarithm :=
  straight_bind (straight_apply rfl) fun _ =>
    straight_bind (straight_assign _ _) fun _ => straight_moveTop _

theorem straight_sineCosine : Straight sineCosine := by
  refine straight_bind (straight_temporary _) fun angle => ?_
  refine straight_bind (straight_assign _ _) fun _ => ?_
  refine straight_bind (straight_moveTop _) fun _ => ?_
  refine straight_bind (straight_apply rfl) fun sine => ?_
  refine straight_bind (straight_assign _ _) fun _ => ?_
  exact straight_bind (straight_apply rfl) fun cosine => straight_assign _ _

theorem straight_exchangeReal : Straight (exchangeReal i) := by
  unfold exchangeReal
  simp only
  split
  · exact straight_nop
  · exact straight_bind (straight_temporary _) fun _ =>
      straight_bind (straight_assign _ _) fun _ =>
        straight_bind (straight_assign _ _) fun _ => straight_assign _ _

theorem straight_loadControl : Straight (loadControl m i) :=
  straight_operand (i.reads_readAt 0 _) fun _ => straight_assign _ _

theorem straight_real (op : RealOp) : Straight (real m i op) := by
  cases op with
  | arithmetic op pops => exact straight_realArithmetic
  | integerArithmetic op => exact straight_integerArithmetic
  | load | loadInteger => exact straight_loadReal
  | store integer pops => exact straight_storeReal
  | loadOne | loadZero | loadPi => exact straight_loadConstant
  | compare pops | compareInteger pops => exact straight_compareReal
  | test => exact straight_compareTop _
  | examine => exact straight_examine
  | changeSign => exact straight_assign _ _
  | sine | cosine | squareRoot | round => exact straight_realFunction rfl
  | sineCosine => exact straight_sineCosine
  | arctangent => exact straight_arctangent
  | logarithm => exact straight_logarithm
  | exchange => exact straight_exchangeReal
  | clearExceptions => exact straight_intrinsic rfl
  | loadControl => exact straight_loadControl
  | storeControl | storeStatus => exact straight_assign _ _

/-! ## Every opcode -/

theorem classifies_instruction (m : Mode) (i : Instruction) :
    Classifies i.address i.nextAddress (instruction m i) := by
  unfold instruction
  generalize i.opcode = opcode
  cases opcode with
  | add | sub => exact classifies_of_straight straight_binary
  | adc | sbb => exact classifies_of_straight straight_withCarry
  | and | or | xor => exact classifies_of_straight straight_logical
  | cmp => exact classifies_of_straight straight_compare
  | test => exact classifies_of_straight straight_test
  | inc | dec => exact classifies_of_straight straight_count
  | neg => exact classifies_of_straight straight_negate
  | not => exact classifies_of_straight straight_complement
  | mul => exact classifies_of_straight straight_wideMultiply
  | imul => exact classifies_of_straight straight_multiplySigned
  | div | idiv => exact classifies_of_straight straight_divide
  | shl | shr | sar => exact classifies_of_straight straight_shift
  | rol | ror | rcl | rcr => exact classifies_of_straight (straight_rotate rfl)
  | shld | shrd => exact classifies_of_straight (straight_doubleShift rfl)
  | bt => exact classifies_of_straight straight_bitTest
  | bsr => exact classifies_of_straight straight_bitScan
  | bswap => exact classifies_of_straight straight_byteSwap
  | arpl => exact classifies_of_straight straight_adjustPrivilege
  | daa | das | aaa => exact classifies_of_straight (straight_decimalAdjust rfl)
  | aam => exact classifies_of_straight straight_splitDigits
  | mov => exact classifies_of_straight straight_move
  | movzx | movsx | movsxd => exact classifies_of_straight straight_extend
  | lea => exact classifies_of_straight straight_loadAddress
  | xchg => exact classifies_of_straight straight_exchange
  | xlat | cbw | cwde | cdqe | cwd | cdq | cqo | clc | stc | cmc | cld | std | lahf | sahf =>
      exact classifies_of_straight (straight_assign _ _)
  | lds | les | lfs | lgs | lss => exact classifies_of_straight straight_loadFarPointer
  | push => exact classifies_of_straight straight_push
  | pop => exact classifies_of_straight straight_pop
  | pushf => exact classifies_of_straight (straight_pushValue _ _)
  | popf => exact classifies_of_straight (straight_popInto _ _)
  | pusha => exact classifies_of_straight straight_pushGeneral
  | popa => exact classifies_of_straight straight_popGeneral
  | enter => exact classifies_of_straight straight_enterFrame
  | leave => exact classifies_of_straight straight_leaveFrame
  | call => exact classifies_call
  | jmp => exact classifies_jump
  | ret => exact classifies_returnFromCall
  | iret => exact classifies_returnFromInterrupt
  | jumpIf c => exact classifies_jumpIf
  | jumpIfNoCount width => exact classifies_jumpIfNoCount
  | loop | loopEqual | loopNotEqual => exact classifies_loop
  | setIf c => exact classifies_of_straight straight_setIf
  | moveIf c => exact classifies_of_straight straight_moveIf
  | cli | sti => exact classifies_of_straight (straight_intrinsic rfl)
  | int => exact classifies_of_straight straight_interrupt
  | hlt => exact classifies_halt
  | portIn => exact classifies_of_straight straight_portIn
  | portOut => exact classifies_of_straight straight_portOut
  | string op => exact classifies_string op
  | real op => exact classifies_of_straight (straight_real op)
  | rep | repne | nop | wait => exact classifies_of_straight straight_nop
  | illegal => exact classifies_invalid
  | cpuid | rdtsc | unrecognized => exact classifies_fail rfl

end Lower

theorem classifiesCluster_backend (m : Mode) (i : Instruction) (next : Option Instruction) :
    ClassifiesCluster i next ((backend m).lower i next) := by
  simp only [backend]
  split
  · exact Lower.classifiesCluster_repeatNext next _
  · exact Lower.classifiesCluster_repeatNext next _
  · exact classifiesCluster_alone (Lower.classifies_instruction m i)

end RegisterTransfer.X86
