/-
# RegisterTransfer.Proofs.X86.FlagsWritten -- which flags a cluster assigns

`Opcode.definedFlags` is the table of the flags that an opcode writes.  Some lowerings take their flags
from the table, others name a group of their own, and some assign the carry once more.  What a cluster
assigns is collected here over every lowering (`Lower.sets_instruction`), apart from the table.

`flags_written`: the flags that a cluster assigns are those of the table and those of
`Opcode.undeclaredFlags`.  The table leaves out the carry that logical operations clear, all flags of an
unsigned multiplication, and the flag of every instruction that sets, clears or inverts one.

An instruction that loads the flags from elsewhere defines none by its result; a repetition on its own
has the flags of what it absorbs.
-/
import RegisterTransfer.Proofs.Draft.Collection
import RegisterTransfer.Proofs.X86.OperandParts

namespace RegisterTransfer.X86

set_option autoImplicit false

open Lowering

/-! ## Groups of flags that are assigned -/

namespace Flag

/-- The flags of the flag register that an identifier stands for. -/
def mask? (id : Identifier) : Option Nat :=
  match id.storage with
  | .flags register mask => if register = "eflags" then some mask else none
  | _ => none

/-- The flags of some groups together. -/
def union (masks : List Nat) : Nat := masks.foldr (· ||| ·) 0

/-- The groups of flags that an assignment to an expression changes. -/
def masksOf (e : Expr) : List Nat := e.targets.filterMap mask?

end Flag

/-- The groups of flags that a statement assigns. -/
def flagMasks (s : Statement) : List Nat := s.targets.filterMap Flag.mask?

/-- The flags that some statements assign. -/
def writtenFlags (statements : List Statement) : Nat := Flag.union (statements.flatMap flagMasks)

theorem flagMasks_assign (dst src : Expr) : flagMasks (.assign dst src) = Flag.masksOf dst := by
  rw [flagMasks, Statement.targets_assign, Flag.masksOf]

theorem flagMasks_mapIntrinsics (f : Intrinsic → Intrinsic) (s : Statement) :
    flagMasks (s.mapIntrinsics f) = flagMasks s := by
  rw [flagMasks, Statement.targets_mapIntrinsics, flagMasks]

/-- The flags that an opcode writes and its table does not have. -/
def Opcode.undeclaredFlags : Opcode → Nat
  | and | or | xor | test | clc | stc | cmc => Flag.carry
  | mul => Flag.sczo
  | cld | std => Flag.direction
  | _ => 0

namespace Lower

variable {m : Mode} {i : Instruction} {α : Type} {masks : List Nat} {V : α → Prop}

/-- The lowering assigns these groups of flags, and its value satisfies `V`. -/
abbrev Sets (x : Lowering α) (masks : List Nat) (V : α → Prop) : Prop := Collects flagMasks x masks V

/-- An expression that is no group of flags. -/
def NoFlags (e : Expr) : Prop := Flag.masksOf e = []

theorem noFlags_of_direct {e : Expr} (direct : e.Direct) : NoFlags e := by
  refine List.filterMap_eq_nil_iff.mpr fun id changed => ?_
  obtain ⟨family, lowest, width, storage⟩ := direct.isRegister_of_mem_targets changed
  rw [Flag.mask?, storage]

theorem noFlags_register (r : Register) : NoFlags r.value := rfl

/-! ## Operands -/

theorem noFlags_read (o : Operand) (type : DataType) : NoFlags (i.read m o type) :=
  noFlags_of_direct (i.direct_read m o type)

theorem sets_readAt {n : Nat} {type : DataType} {f : Expr → Lowering α}
    (then_ : ∀ e, NoFlags e → Sets (f e) masks V) :
    Sets (liftM (i.readAt m n type) >>= f) masks V :=
  collects_operand fun e found =>
    then_ e (noFlags_of_direct (Instruction.direct_of_readAt found))

theorem sets_destination {f : Expr × DataType → Lowering α}
    (then_ : ∀ e type, NoFlags e → Sets (f (e, type)) masks V) :
    Sets (liftM (i.destination m) >>= f) masks V :=
  collects_operand fun (e, type) found =>
    then_ e type (noFlags_of_direct (Instruction.direct_of_destination found))

theorem sets_operands {f : Expr × Expr × DataType → Lowering α}
    (then_ : ∀ dst src type, NoFlags dst → Sets (f (dst, src, type)) masks V) :
    Sets (liftM (operands m i) >>= f) masks V :=
  collects_operand fun (dst, src, type) found =>
    then_ dst src type (noFlags_of_direct (direct_of_operands found).1)

/-! ## Steps that lowerings share -/

theorem sets_assign {dst : Expr} (src : Expr) (has : Flag.masksOf dst = masks) :
    Sets (.assign dst src) masks Anything :=
  collects_assign (by rw [flagMasks_assign, has])

/-- A temporary is no group of flags. -/
theorem sets_temporary (type : DataType) : Sets (.temporary type) [] NoFlags :=
  collects_temporary fun _ => rfl

theorem sets_apply {name : String} {type : DataType} {arguments : List Expr} :
    Sets (.apply name type arguments) [] fun _ => True := collects_apply trivial

theorem sets_store (how : CopyMode) {dst : Expr} (src : Expr) (free : NoFlags dst)
    (has : ∀ value, (flagging ⟨Flag.group i.opcode.definedFlags, Flag.group Flag.carry⟩ how
      value).flatMap flagMasks = masks) :
    Sets (store i how dst src) masks fun _ => True := by
  have assigned := fun value => (flagMasks_assign dst value).trans free
  refine collects_copy (assigned src) (fun n => ⟨?_, assigned _⟩) trivial (fun _ => trivial)
    fun value _ => has value
  rw [flagMasks_assign]
  rfl

/-- A result that is stored and not looked at again, and no flags of it. -/
theorem sets_stored (how : CopyMode) (codes : how.conditionCodes = false)
    (carry : how.carryIfZero = false) {dst : Expr} (src : Expr) (free : NoFlags dst) :
    Sets (store i how dst src >>= fun _ => pure ()) [] Anything := by
  refine collects_then (sets_store how src free fun value => ?_) fun _ _ => collects_pure trivial
  rw [flagging, codes, carry]
  rfl

/-- A result and the flags that the table has for the opcode. -/
theorem sets_storeWith {dst : Expr} (src : Expr) (free : NoFlags dst) :
    Sets (store i .withFlags dst src) [i.opcode.definedFlags] fun _ => True :=
  sets_store _ src free fun _ => rfl

theorem sets_storeWithFlags {dst : Expr} (src : Expr) (free : NoFlags dst) :
    Sets (storeWithFlags i dst src) [i.opcode.definedFlags] Anything :=
  collects_last (sets_storeWith src free) fun _ _ => collects_pure trivial

theorem sets_adjust (r : Register) (delta : Int) : Sets (adjust r delta) [] Anything :=
  sets_assign _ rfl

theorem sets_setFlag (mask : Nat) (value : Bool) : Sets (setFlag mask value) [mask] Anything :=
  sets_assign _ rfl

theorem sets_setFlagsFrom (mask : Nat) (e : Expr) : Sets (setFlagsFrom mask e) [mask] Anything :=
  sets_assign _ rfl

theorem sets_fail (fault : Fault) : Sets (.fail fault) [] Anything := collects_fail fault

theorem sets_effect (name : String) (arguments : List Expr) :
    Sets (effect name arguments) [] Anything :=
  collects_then sets_apply fun _ _ => collects_effect rfl

theorem sets_pushValue (value : Expr) (type : DataType) : Sets (pushValue m value type) [] Anything :=
  collects_then (sets_adjust _ _) fun _ _ =>
    sets_assign _ (noFlags_of_direct (direct_stackSlot m type (direct_register _)))

theorem sets_popInto {dst : Expr} (type : DataType) (has : Flag.masksOf dst = masks) :
    Sets (popInto m dst type) masks Anything :=
  collects_last (sets_assign _ has) fun _ _ => sets_adjust _ _

/-! ## Integer instructions -/

theorem sets_binary {op : BinaryOp} : Sets (binary m i op) [i.opcode.definedFlags] Anything :=
  sets_operands fun _ _ _ free => sets_storeWithFlags _ free

theorem sets_withCarry {op : BinaryOp} : Sets (withCarry m i op) [i.opcode.definedFlags] Anything :=
  sets_operands fun _ _ _ free => sets_storeWithFlags _ free

/-- The carry is cleared by hand. -/
theorem sets_logical {op : BinaryOp} :
    Sets (logical m i op) [i.opcode.definedFlags, Flag.carry] Anything :=
  collects_bind sets_binary fun _ _ => sets_setFlag _ _

theorem sets_compare : Sets (compare m i) [Flag.sczo] Anything :=
  sets_operands fun _ _ _ _ => sets_setFlagsFrom _ _

theorem sets_test : Sets (test m i) [Flag.szo, Flag.carry] Anything :=
  sets_operands fun _ _ _ _ => collects_bind (sets_setFlagsFrom _ _) fun _ _ => sets_setFlag _ _

theorem sets_count {delta : Int} : Sets (count m i delta) [i.opcode.definedFlags] Anything :=
  sets_destination fun _ _ free => sets_storeWithFlags _ free

theorem sets_complement : Sets (complement m i) [] Anything :=
  sets_destination fun _ _ free => sets_stored _ rfl rfl _ free

theorem sets_negate : Sets (negate m i) [i.opcode.definedFlags, Flag.carry] Anything :=
  sets_destination fun _ _ free =>
    collects_bind (sets_storeWith _ free) fun _ _ => sets_assign _ rfl

theorem sets_adjustPrivilege : Sets (adjustPrivilege m i) [i.opcode.definedFlags] Anything :=
  sets_readAt fun _ free => sets_readAt fun _ _ =>
    collects_then sets_apply fun _ _ => sets_storeWithFlags _ free

theorem sets_wideMultiply {signed : Bool} : Sets (wideMultiply m i signed) [Flag.sczo] Anything :=
  sets_destination fun _ _ _ =>
    collects_then (sets_assign _ (noFlags_of_direct (direct_accumulator _ _))) fun _ _ =>
      sets_setFlagsFrom _ _

/-- With one operand as with more, the flags are those of the table. -/
theorem sets_multiplySigned (opcode : i.opcode = .imul) :
    Sets (multiplySigned m i) [Flag.sczo] Anything := by
  have table : i.opcode.definedFlags = Flag.sczo := by rw [opcode]; rfl
  unfold multiplySigned
  split
  · exact sets_wideMultiply
  · rw [← table]
    exact sets_destination fun _ _ free => sets_readAt fun _ _ => sets_readAt fun _ _ =>
      sets_storeWithFlags _ free

theorem sets_divide {signed : Bool} : Sets (divide m i signed) [] Anything := by
  refine sets_destination fun divisor _ _ => ?_
  refine collects_then (sets_temporary _) fun dividend free => ?_
  refine collects_then (sets_assign _ free) fun _ _ => ?_
  exact collects_then (sets_assign _ (noFlags_register _)) fun _ _ =>
    sets_assign _ (noFlags_register _)

theorem sets_shift {op : BinaryOp} : Sets (shift m i op) [i.opcode.definedFlags] Anything :=
  sets_destination fun _ _ free => sets_storeWithFlags _ free

theorem sets_rotate {name : String} {throughCarry : Bool} :
    Sets (rotate m i name throughCarry) [i.opcode.definedFlags] Anything :=
  sets_destination fun _ _ free => collects_then sets_apply fun _ _ => sets_storeWithFlags _ free

theorem sets_doubleShift {name : String} : Sets (doubleShift m i name) [] Anything :=
  sets_operands fun _ _ _ free => sets_readAt fun _ _ =>
    collects_then sets_apply fun _ _ => sets_stored _ rfl rfl _ free

theorem sets_bitTest : Sets (bitTest m i) [Flag.carry] Anything :=
  sets_operands fun _ _ _ _ => collects_then sets_apply fun _ _ => sets_assign _ rfl

theorem sets_bitScan : Sets (bitScan m i) [Flag.zero] Anything :=
  sets_operands fun _ _ _ free =>
    collects_last (sets_assign _ rfl) fun _ _ =>
      collects_then sets_apply fun _ _ => sets_assign _ free

theorem sets_byteSwap : Sets (byteSwap m i) [] Anything :=
  sets_destination fun _ _ free =>
    collects_then sets_apply fun _ _ => sets_stored _ rfl rfl _ free

theorem sets_decimalAdjust {name : String} {r : Register} :
    Sets (decimalAdjust i name r) [i.opcode.definedFlags] Anything :=
  collects_then sets_apply fun _ _ => sets_storeWithFlags _ (noFlags_register r)

theorem sets_splitDigits : Sets (splitDigits m i) [] Anything :=
  collects_then sets_apply fun _ _ => sets_assign _ rfl

/-! ## Moves and flags -/

theorem sets_move : Sets (move m i) [] Anything :=
  sets_operands fun _ _ _ free => sets_stored _ rfl rfl _ free

theorem sets_extend {signed : Bool} : Sets (extend m i signed) [] Anything :=
  sets_destination fun _ _ free => collects_operand fun _ _ => sets_assign _ free

theorem sets_loadAddress : Sets (loadAddress m i) [] Anything := by
  refine sets_destination fun dst _ free => collects_operand fun o _ => ?_
  cases o with
  | memory ref => exact sets_assign _ free
  | _ => exact collects_fail _

theorem sets_loadFarPointer {segment : Segment} : Sets (loadFarPointer m i segment) [] Anything := by
  refine sets_destination fun dst type free => collects_operand fun ref _ => ?_
  refine collects_then (sets_temporary _) fun offset free' => ?_
  refine collects_then (sets_assign _ free') fun _ _ => ?_
  exact collects_then (sets_assign _ rfl) fun _ _ => sets_assign _ free

theorem sets_exchange : Sets (exchange m i) [] Anything := by
  refine collects_operand fun a _ => collects_operand fun b _ => ?_
  split
  · exact collects_nop rfl
  · refine collects_then (sets_temporary _) fun kept free => ?_
    refine collects_then (sets_assign _ free) fun _ _ => ?_
    exact collects_then (sets_assign _ (noFlags_read ..)) fun _ _ => sets_assign _ (noFlags_read ..)

theorem sets_setIf {c : Condition} : Sets (setIf m i c) [] Anything :=
  sets_readAt fun _ free => sets_assign _ free

theorem sets_moveIf {c : Condition} : Sets (moveIf m i c) [] Anything :=
  sets_operands fun dst src _ free => collects_assignIf ((flagMasks_assign dst src).trans free)

/-! ## Stack -/

theorem sets_push : Sets (push m i) [] Anything := collects_operand fun _ _ => sets_pushValue _ _

theorem sets_pop : Sets (pop m i) [] Anything := sets_destination fun _ _ free => sets_popInto _ free

theorem sets_leaveFrame : Sets (leaveFrame m) [] Anything :=
  collects_then (sets_assign _ rfl) fun _ _ => sets_popInto _ rfl

theorem sets_copyFramePointer : Sets (copyFramePointer m) [] Anything :=
  collects_then (sets_adjust _ _) fun _ _ => sets_pushValue _ _

theorem sets_enterFrame : Sets (enterFrame m i) [] Anything := by
  refine collects_operand fun size _ => ?_
  refine collects_either (collects_read _) (collects_pure trivial) fun level _ => ?_
  refine collects_then (sets_pushValue _ _) fun _ _ => ?_
  refine collects_then (sets_temporary _) fun frame free => ?_
  refine collects_then (sets_assign _ free) fun _ _ => ?_
  refine collects_then (collects_forM (fun _ => sets_copyFramePointer) _) fun _ _ => ?_
  refine collects_when (sets_pushValue _ _) fun _ => ?_
  refine collects_then (sets_assign _ rfl) fun _ _ => ?_
  split
  · exact sets_adjust _ _
  · exact collects_pure trivial

theorem sets_pushGeneral : Sets (pushGeneral m i) [] Anything := by
  refine collects_then (sets_temporary _) fun saved free => ?_
  exact collects_then (sets_assign _ free) fun _ _ => collects_forM (fun _ => sets_pushValue _ _) _

theorem sets_popGeneral : Sets (popGeneral m i) [] Anything := by
  refine collects_forM (fun family => ?_) _
  split
  · exact sets_adjust _ _
  · exact sets_popInto _ rfl

/-! ## Control flow, the system and ports -/

theorem sets_call : Sets (call m i) [] Anything := sets_readAt fun _ _ => collects_call rfl

theorem sets_jump : Sets (jump m i) [] Anything := sets_readAt fun _ _ => collects_goto rfl

theorem sets_jumpIf {c : Condition} : Sets (jumpIf i c) [] Anything :=
  collects_operand fun _ _ => collects_branch rfl

theorem sets_jumpIfNoCount {width : Mode} : Sets (jumpIfNoCount i width) [] Anything :=
  collects_operand fun _ _ => collects_branch rfl

theorem sets_loop {condition : Option Condition} : Sets (loop i condition) [] Anything :=
  collects_operand fun _ _ => collects_then (sets_adjust _ _) fun _ _ => collects_branch rfl

theorem sets_halt : Sets halt [] Anything :=
  collects_then (sets_effect _ _) fun _ _ => collects_setFlow _

theorem sets_interrupt : Sets (interrupt m i) [] Anything := sets_readAt fun _ _ => sets_effect _ _

theorem sets_portIn : Sets (portIn m i) [] Anything :=
  sets_destination fun _ _ free => sets_readAt fun _ _ =>
    collects_then sets_apply fun _ _ => sets_assign _ free

theorem sets_portOut : Sets (portOut m i) [] Anything :=
  sets_readAt fun _ _ => collects_operand fun _ _ => sets_effect _ _

/-! ## String instructions -/

/-- The flags that one step of a string instruction assigns. -/
def stepMasks (op : StringOp) : List Nat := if op.isComparison then [Flag.sczo] else []

theorem sets_stringStep (op : StringOp) : Sets (stringStep m i op) (stepMasks op) Anything := by
  have adjusted : ∀ (r r' : Register) (delta delta' : Int),
      Sets (adjust r delta >>= fun _ => adjust r' delta') [] Anything := fun _ _ _ _ =>
    collects_then (sets_adjust _ _) fun _ _ => sets_adjust _ _
  have free := fun type index segment => noFlags_of_direct (direct_indexed m type index segment)
  cases op with
  | movs | movsb =>
      exact collects_then (sets_assign _ (free _ _ _)) fun _ _ => adjusted _ _ _ _
  | cmps | cmpsb => exact collects_last (sets_setFlagsFrom _ _) fun _ _ => adjusted _ _ _ _
  | stos | stosb =>
      exact collects_then (sets_assign _ (free _ _ _)) fun _ _ => sets_adjust _ _
  | lods | lodsb =>
      exact collects_then (sets_assign _ (noFlags_register _)) fun _ _ => sets_adjust _ _
  | scas | scasb => exact collects_last (sets_setFlagsFrom _ _) fun _ _ => sets_adjust _ _
  | ins =>
      exact collects_then sets_apply fun _ _ =>
        collects_then (sets_assign _ (free _ _ _)) fun _ _ => sets_adjust _ _
  | outs => exact collects_then (sets_effect _ _) fun _ _ => sets_adjust _ _

/-- A loop assigns the flags of its step. -/
theorem sets_repeated (start : Nat) (op : StringOp) (repetition : Repetition) :
    Sets (repeated m start i op repetition) (stepMasks op) Anything := by
  have back : Sets (Lowering.goto (.address start) >>= fun _ => .setFlow .conditional) []
      Anything := collects_then (collects_goto rfl) fun _ _ => collects_setFlow _
  refine collects_then (collects_branch rfl) fun _ _ => ?_
  refine collects_last (sets_stringStep op) fun _ _ => ?_
  refine collects_then (sets_adjust _ _) fun _ _ => ?_
  exact collects_when (collects_branch rfl) fun _ => back

theorem sets_string (op : StringOp) : Sets (string m i op) (stepMasks op) Anything := by
  unfold string
  split
  · exact sets_repeated _ op _
  · exact sets_stringStep op

/-! ## The floating-point unit -/

theorem sets_popTopIf (pops : Bool) : Sets (popTopIf pops) [] Anything := by
  unfold popTopIf
  split
  · exact sets_adjust _ _
  · exact collects_pure trivial

theorem sets_loadConstant {bits : Nat} : Sets (loadConstant bits) [] Anything :=
  collects_then (sets_adjust _ _) fun _ _ => sets_assign _ rfl

theorem sets_loadReal {integer : Bool} : Sets (loadReal m i integer) [] Anything :=
  collects_operand fun _ _ => collects_then (sets_adjust _ _) fun _ _ => sets_assign _ rfl

theorem sets_storeReal {integer pops : Bool} : Sets (storeReal m i integer pops) [] Anything := by
  refine collects_operand fun o _ => ?_
  cases o with
  | memory ref =>
      exact collects_then (sets_assign _ (noFlags_of_direct (i.direct_memory m _))) fun _ _ =>
        sets_popTopIf _
  | register r => exact collects_when (sets_assign _ rfl) fun _ => sets_popTopIf _
  | _ => exact collects_then (sets_assign _ (noFlags_read ..)) fun _ _ => sets_popTopIf _

theorem sets_realArithmetic {op : RealArithmetic} {pops : Bool} :
    Sets (realArithmetic m i op pops) [] Anything :=
  collects_operand fun (_, _) found =>
    collects_then (sets_assign _ (noFlags_of_direct (direct_of_realOperands found).1)) fun _ _ =>
      sets_popTopIf _

theorem sets_integerArithmetic {op : RealArithmetic} : Sets (integerArithmetic m i op) [] Anything :=
  collects_operand fun _ _ => sets_assign _ rfl

/-- The condition codes of the unit are in a register of their own. -/
theorem sets_compareTop (value : Expr) : Sets (compareTop value) [] Anything := sets_assign _ rfl

theorem sets_compareReal {integer : Bool} {pops : Nat} :
    Sets (compareReal m i integer pops) [] Anything := by
  refine collects_then (sets_compareTop _) fun _ _ => ?_
  split
  · exact sets_adjust _ _
  · exact collects_pure trivial

theorem sets_examine : Sets examine [] Anything :=
  collects_then sets_apply fun _ _ => sets_assign _ rfl

theorem sets_realFunction {name : String} : Sets (realFunction name) [] Anything :=
  collects_then sets_apply fun _ _ => sets_assign _ rfl

/-- A function of two registers, which pops one. -/
theorem sets_popping {name : String} {arguments : List Expr} {value : Expr → Expr} :
    Sets (do
      let result ← Lowering.apply name .real80 arguments
      .assign st1 (value result)
      moveTop 1) [] Anything :=
  collects_then sets_apply fun _ _ =>
    collects_then (sets_assign _ rfl) fun _ _ => sets_adjust _ _

theorem sets_sineCosine : Sets sineCosine [] Anything := by
  refine collects_then (sets_temporary _) fun angle free => ?_
  refine collects_then (sets_assign _ free) fun _ _ => ?_
  refine collects_then (sets_adjust _ _) fun _ _ => collects_then sets_apply fun _ _ => ?_
  exact collects_then (sets_assign _ rfl) fun _ _ =>
    collects_then sets_apply fun _ _ => sets_assign _ rfl

theorem sets_exchangeReal : Sets (exchangeReal i) [] Anything := by
  unfold exchangeReal
  simp only
  split
  · exact collects_nop rfl
  · refine collects_then (sets_temporary _) fun kept free => ?_
    refine collects_then (sets_assign _ free) fun _ _ => ?_
    exact collects_then (sets_assign _ rfl) fun _ _ => sets_assign _ (noFlags_register _)

theorem sets_loadControl : Sets (loadControl m i) [] Anything :=
  sets_readAt fun _ _ => sets_assign _ rfl

theorem sets_storeWord (word : Register) : Sets (storeWord m i word) [] Anything :=
  sets_assign _ (noFlags_of_direct (i.direct_readOr m 0 .word16 (direct_register .ax)))

theorem sets_real (op : RealOp) : Sets (real m i op) [] Anything := by
  cases op with
  | arithmetic op pops => exact sets_realArithmetic
  | integerArithmetic op => exact sets_integerArithmetic
  | load | loadInteger => exact sets_loadReal
  | store integer pops => exact sets_storeReal
  | loadOne | loadZero | loadPi => exact sets_loadConstant
  | compare pops | compareInteger pops => exact sets_compareReal
  | test => exact sets_compareTop _
  | examine => exact sets_examine
  | changeSign => exact sets_assign _ rfl
  | sine | cosine | squareRoot | round => exact sets_realFunction
  | sineCosine => exact sets_sineCosine
  | arctangent | logarithm => exact sets_popping
  | exchange => exact sets_exchangeReal
  | clearExceptions => exact sets_effect _ _
  | loadControl => exact sets_loadControl
  | storeControl | storeStatus => exact sets_storeWord _

/-! ## Every opcode -/

/-- The lowering assigns just the flags in a mask, group by group. -/
def Writes (x : Lowering Unit) (flags : Nat) : Prop :=
  ∃ masks, Yields flagMasks x masks ∧ Flag.union masks = flags

theorem writes_of_sets {x : Lowering Unit} {flags : Nat} (sets : Sets x masks Anything)
    (all : Flag.union masks = flags) : Writes x flags := ⟨masks, sets.yields, all⟩

/-- The opcodes that take the flags from elsewhere, and the repetitions. -/
def flagLoads : List Opcode := [.iret, .popf, .sahf, .rep, .repne]

/-- Every opcode that computes its flags writes those of the table and the undeclared ones. -/
theorem writes_instruction (m : Mode) (i : Instruction) (computes : i.opcode ∉ flagLoads) :
    Writes (instruction m i) (i.opcode.definedFlags ||| i.opcode.undeclaredFlags) := by
  unfold instruction
  generalize opcode : i.opcode = op at computes
  -- The table's flags of an opcode are those of the instruction.
  have table : [i.opcode.definedFlags] = [op.definedFlags] := by rw [opcode]
  have corrected : [i.opcode.definedFlags, Flag.carry] = [op.definedFlags, Flag.carry] := by
    rw [opcode]
  have none_ : Flag.union [] = 0 ||| 0 := rfl
  cases op with
  | add | sub => exact writes_of_sets (table ▸ sets_binary) rfl
  | adc | sbb => exact writes_of_sets (table ▸ sets_withCarry) rfl
  | and | or | xor => exact writes_of_sets (corrected ▸ sets_logical) rfl
  | cmp => exact writes_of_sets sets_compare rfl
  | test => exact writes_of_sets sets_test rfl
  | inc | dec => exact writes_of_sets (table ▸ sets_count) rfl
  | neg => exact writes_of_sets (corrected ▸ sets_negate) rfl
  | not => exact writes_of_sets sets_complement rfl
  | mul => exact writes_of_sets sets_wideMultiply rfl
  | imul => exact writes_of_sets (sets_multiplySigned opcode) rfl
  | div | idiv => exact writes_of_sets sets_divide rfl
  | shl | shr | sar => exact writes_of_sets (table ▸ sets_shift) rfl
  | rol | ror | rcl | rcr => exact writes_of_sets (table ▸ sets_rotate) rfl
  | shld | shrd => exact writes_of_sets sets_doubleShift rfl
  | bt => exact writes_of_sets sets_bitTest rfl
  | bsr => exact writes_of_sets sets_bitScan rfl
  | bswap => exact writes_of_sets sets_byteSwap rfl
  | arpl => exact writes_of_sets (table ▸ sets_adjustPrivilege) rfl
  | daa | das | aaa => exact writes_of_sets (table ▸ sets_decimalAdjust) rfl
  | aam => exact writes_of_sets sets_splitDigits rfl
  | mov => exact writes_of_sets sets_move rfl
  | movzx | movsx | movsxd => exact writes_of_sets sets_extend rfl
  | lea => exact writes_of_sets sets_loadAddress rfl
  | xchg => exact writes_of_sets sets_exchange rfl
  | lds | les | lfs | lgs | lss => exact writes_of_sets sets_loadFarPointer rfl
  | xlat | cbw | cwde | cdqe | cwd | cdq | cqo | lahf | clc | stc | cmc | cld | std =>
      exact writes_of_sets (sets_assign _ rfl) rfl
  | push => exact writes_of_sets sets_push rfl
  | pop => exact writes_of_sets sets_pop rfl
  | pushf => exact writes_of_sets (sets_pushValue _ _) rfl
  | pusha => exact writes_of_sets sets_pushGeneral rfl
  | popa => exact writes_of_sets sets_popGeneral rfl
  | enter => exact writes_of_sets sets_enterFrame rfl
  | leave => exact writes_of_sets sets_leaveFrame rfl
  | call => exact writes_of_sets sets_call rfl
  | jmp => exact writes_of_sets sets_jump rfl
  | ret => exact writes_of_sets (collects_ret rfl) rfl
  | jumpIf c => exact writes_of_sets sets_jumpIf none_
  | jumpIfNoCount width => exact writes_of_sets sets_jumpIfNoCount none_
  | loop | loopEqual | loopNotEqual => exact writes_of_sets sets_loop rfl
  | setIf c => exact writes_of_sets sets_setIf none_
  | moveIf c => exact writes_of_sets sets_moveIf none_
  | cli | sti => exact writes_of_sets (sets_effect _ _) rfl
  | int => exact writes_of_sets sets_interrupt rfl
  | hlt => exact writes_of_sets sets_halt rfl
  | portIn => exact writes_of_sets sets_portIn rfl
  | portOut => exact writes_of_sets sets_portOut rfl
  | string op => exact writes_of_sets (sets_string op) (by cases op <;> rfl)
  | real op => exact writes_of_sets (sets_real op) none_
  | nop | wait => exact writes_of_sets (collects_nop rfl) rfl
  | illegal => exact ⟨[], yields_invalid rfl, rfl⟩
  | cpuid | rdtsc | unrecognized => exact writes_of_sets (sets_fail _) none_
  | iret | popf | sahf | rep | repne => exact absurd (by decide) computes

end Lower

/-! ## Clusters -/

/-- The opcodes whose table misses a flag that their clusters assign. -/
def underDeclared : List Opcode :=
  [.and, .or, .xor, .test, .mul, .clc, .stc, .cmc, .cld, .std]

theorem declares_iff (op : Opcode) :
    op.definedFlags ||| op.undeclaredFlags = op.definedFlags ↔ op ∉ underDeclared := by
  cases op with
  | string op => cases op <;> decide
  | jumpIf c | setIf c | moveIf c => simp [underDeclared, Opcode.undeclaredFlags]
  | jumpIfNoCount width | real op => simp [underDeclared, Opcode.undeclaredFlags]
  | _ => decide

/-- A cluster of an instruction that computes its flags assigns those which the table has for the opcode,
and the undeclared ones.  The two are the same just for the opcodes that are not under-declared. -/
theorem flags_written {m : Mode} {i : Instruction} (computes : i.opcode ∉ Lower.flagLoads)
    {next : Option Instruction} {t t' : IntrinsicTable} {l : Backend.Lowered}
    (lowered : (backend m).lowerWith i next t = (.ok l, t')) :
    writtenFlags l.statements = i.opcode.definedFlags ||| i.opcode.undeclaredFlags ∧
      (writtenFlags l.statements = i.opcode.definedFlags ↔ i.opcode ∉ underDeclared) := by
  obtain ⟨masks, yields, all⟩ := Lower.writes_instruction m i computes
  have lower : (backend m).lower i next = (do
      Lower.instruction m i
      return false) := by
    simp only [backend]
    split
    · rename_i opcode
      exact absurd (opcode ▸ by decide) computes
    · rename_i opcode
      exact absurd (opcode ▸ by decide) computes
    · rfl
  have collected : l.statements.flatMap flagMasks = masks :=
    Backend.flatMap_of_lowered (lower ▸ Lowering.yields_return false yields)
      flagMasks_mapIntrinsics lowered
  have written : writtenFlags l.statements =
      i.opcode.definedFlags ||| i.opcode.undeclaredFlags := by rw [writtenFlags, collected, all]
  exact ⟨written, written ▸ declares_iff i.opcode⟩

/-- `sub ebx, eax` -/
def subEbx : Instruction := .of 0x1000 2 .sub [.register .ebx, .register .eax] .word32

/-- A subtraction assigns the four flags of arithmetic. -/
theorem flags_written_sub :
    ∃ l t', (backend .protectedMode).lowerWith subEbx none .empty = (.ok l, t') ∧
      writtenFlags l.statements = Flag.sczo := by
  obtain ⟨l, t', lowered⟩ :
      ∃ l t', (backend .protectedMode).lowerWith subEbx none .empty = (.ok l, t') := ⟨_, _, rfl⟩
  exact ⟨l, t', lowered, (flags_written (by decide) lowered).1⟩

/-- `and ebx, eax` -/
def andEbx : Instruction := .of 0x1000 2 .and [.register .ebx, .register .eax] .word32

/-- A logical operation clears the carry, which the table does not have for it. -/
theorem and_undeclared :
    ∃ l t', (backend .protectedMode).lowerWith andEbx none .empty = (.ok l, t') ∧
      writtenFlags l.statements = 0x8C1 ∧ andEbx.opcode.definedFlags = 0x8C0 :=
  ⟨_, _, rfl, by decide, rfl⟩

end RegisterTransfer.X86
