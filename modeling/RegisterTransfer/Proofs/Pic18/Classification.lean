/-
# RegisterTransfer.Proofs.Pic18.Classification -- the classes of PIC18 clusters

Every instruction of every device, with any operands and anything behind it, is refused with a fault of
its own or gets a class that agrees with its statements (`Lower.classifies_instruction`).  A family of
lowerings that moves no control has one lemma `straight_..`; a family that ends in a branch, a jump, a
call or a return has one lemma `classifies_..`.
-/
import RegisterTransfer.Pic18.Lowering
import RegisterTransfer.Proofs.Draft.Classification

namespace RegisterTransfer.Pic18

set_option autoImplicit false

open Lowering

/-! ## Operands -/

namespace Instruction

theorem reads_operand (i : Instruction) (n : Nat) : Reads (i.operand n) := by
  unfold operand
  split
  · exact reads_ok _
  · exact reads_error rfl

theorem reads_expect {α : Type} (i : Instruction) (n : Nat) (what : String)
    (read : Operand → Option α) : Reads (i.expect n what read) := by
  refine reads_bind (i.reads_operand n) fun o => ?_
  cases read o with
  | some a => exact reads_ok a
  | none => exact reads_error rfl

end Instruction

/-! ## Cells -/

namespace Cell

theorem straight_enter (cell : Cell) : Straight cell.enter := by
  unfold enter
  cases cell.before with
  | none => exact straight_pure _
  | some fsr => exact straight_bind (straight_assign _ _) fun _ => straight_pure _

theorem straight_exit (cell : Cell) : Straight cell.exit := by
  unfold exit
  cases cell.after with
  | none => exact straight_pure _
  | some move => exact straight_assign _ _

theorem straight_access {α : Type} (cell : Cell) {body : Expr → Lowering α}
    (inside : ∀ place, Straight (body place)) : Straight (cell.access body) := by
  refine straight_bind cell.straight_enter fun place => ?_
  refine straight_bind (inside place) fun result => ?_
  exact straight_bind cell.straight_exit fun _ => straight_pure result

end Cell

namespace Lower

variable {c : Catalog} {i : Instruction} {next : Option Instruction} {start stop : Nat}

/-! ## Statements that move no control -/

theorem straight_store (flags : Nat) (dst src : Expr) : Straight (store flags dst src) :=
  straight_copy _ _ _ _

theorem straight_adjust (id : Identifier) (delta : Int) : Straight (adjust id delta) :=
  straight_assign _ _

theorem straight_intrinsic {name : String} {arguments : List Expr}
    (fits : IntrinsicName.arity? name = some arguments.length) :
    Straight (effect name arguments) :=
  straight_bind (straight_apply fits) fun _ => straight_effect _

theorem straight_fileResult {flags : Nat} {compute : Expr → Lowering Expr}
    (inside : ∀ f, Straight (compute f)) : Straight (fileResult c i flags compute) := by
  refine straight_operand (i.reads_expect _ _ _) fun (operand, dest) => ?_
  refine (operand.cell c).straight_access fun place => ?_
  refine straight_bind (inside place) fun value => ?_
  exact straight_bind (straight_store _ _ _) fun _ => straight_pure ()

theorem straight_arithmetic {flags : Nat} {compute : Expr → Expr} :
    Straight (arithmetic c i flags compute) :=
  straight_fileResult fun _ => straight_pure _

theorem straight_viaIntrinsic {flags : Nat} {name : String} {more : List Expr}
    (fits : IntrinsicName.arity? name = some (more.length + 1)) :
    Straight (viaIntrinsic c i flags name more) :=
  straight_fileResult fun _ => straight_apply fits

theorem straight_onFile {α : Type} {body : Expr → Lowering α}
    (inside : ∀ f, Straight (body f)) : Straight (onFile c i body) :=
  straight_operand (i.reads_expect _ _ _) fun operand => (operand.cell c).straight_access inside

theorem straight_negate : Straight (negate c i) :=
  straight_onFile fun _ => straight_bind (straight_copy _ _ _ _) fun _ => straight_pure ()

theorem straight_clear : Straight (clear c i) :=
  straight_onFile fun _ => straight_bind (straight_assign _ _) fun _ => straight_assign _ _

theorem straight_storeFile {value : Expr} : Straight (storeFile c i value) :=
  straight_onFile fun _ => straight_assign _ _

theorem straight_multiply (f : Expr) : Straight (multiply c f) := straight_assign _ _

theorem straight_decimalAdjust : Straight (decimalAdjust c) := by
  refine straight_bind (straight_apply rfl) fun value => ?_
  exact straight_bind (straight_store _ _ _) fun _ => straight_pure ()

theorem straight_changeBit {op : BinaryOp} : Straight (changeBit c i op) := by
  refine straight_operand (i.reads_expect _ _ _) fun (operand, bit) => ?_
  refine (operand.cell c).straight_access fun place => ?_
  exact straight_bind (straight_store _ _ _) fun _ => straight_pure ()

theorem straight_saveShadows : Straight (saveShadows c) :=
  straight_forM (fun _ => straight_assign _ _) _

theorem straight_restoreShadows : Straight (restoreShadows c) :=
  straight_forM (fun _ => straight_assign _ _) _

theorem straight_adjustPointer {sign : Int} : Straight (adjustPointer c i sign) := by
  refine straight_operand (i.reads_expect _ _ _) fun n => ?_
  exact straight_operand (i.reads_expect _ _ _) fun k => straight_adjust _ _

theorem straight_loadPointer : Straight (loadPointer c i) := by
  refine straight_operand (i.reads_expect _ _ _) fun n => ?_
  exact straight_operand (i.reads_expect _ _ _) fun k => straight_assign _ _

theorem straight_selectBank : Straight (selectBank c i) :=
  straight_operand (i.reads_expect _ _ _) fun _ => straight_assign _ _

theorem straight_literalResult {flags : Nat} {compute : Expr → Expr → Expr} :
    Straight (literalResult c i flags compute) := by
  refine straight_operand (i.reads_expect _ _ _) fun k => ?_
  exact straight_bind (straight_store _ _ _) fun _ => straight_pure ()

theorem straight_multiplyLiteral : Straight (do multiply c (.byte (← i.literal 0))) :=
  straight_operand (i.reads_expect _ _ _) fun _ => straight_multiply _

theorem straight_pushLiteral : Straight (pushLiteral c i) := by
  refine straight_operand (i.reads_expect _ _ _) fun k => ?_
  exact straight_bind (straight_assign _ _) fun _ => straight_adjust _ _

theorem straight_push : Straight (push c i) :=
  straight_bind (straight_adjust _ _) fun _ => straight_assign _ _

theorem straight_withTablePointer {body : Lowering Unit} (inside : Straight body) :
    Straight (withTablePointer c i body) := by
  refine straight_operand (i.reads_expect _ _ _) fun mode => ?_
  refine straight_when (straight_adjust _ _) fun _ => straight_bind inside fun _ => ?_
  cases mode with
  | plain | preIncrement => exact straight_pure ()
  | postIncrement | postDecrement => exact straight_adjust _ _

theorem straight_tableRead : Straight (tableRead c i) :=
  straight_withTablePointer (straight_bind (straight_apply rfl) fun _ => straight_assign _ _)

theorem straight_tableWrite : Straight (tableWrite c i) :=
  straight_withTablePointer (straight_intrinsic rfl)

theorem straight_indexedMove : Straight (indexedMove c i) := by
  refine straight_operand (i.reads_operand 0) fun o => ?_
  refine straight_operand (i.reads_operand 1) fun o' => ?_
  split
  · exact straight_assign _ _
  · exact straight_fail rfl

/-! ## Skips and branches -/

theorem classifies_countAndSkip {delta : Int} {onZero : Bool} :
    Classifies start stop (countAndSkip c i next delta onZero) := by
  refine classifies_operand (i.reads_expect _ _ _) fun (operand, dest) => ?_
  refine classifies_bind ((operand.cell c).straight_access fun place => ?_) fun _ =>
    classifies_branch _ _
  exact straight_bind (straight_store _ _ _) fun _ => straight_pure _

theorem classifies_testAndSkip {test : Expr → Expr} :
    Classifies start stop (testAndSkip c i next test) :=
  classifies_bind (straight_onFile fun _ => straight_pure _) fun _ => classifies_branch _ _

theorem classifies_bitTestAndSkip {ifSet : Bool} :
    Classifies start stop (bitTestAndSkip c i next ifSet) := by
  refine classifies_operand (i.reads_expect _ _ _) fun (operand, bit) => ?_
  exact classifies_bind ((operand.cell c).straight_access fun _ => straight_pure _) fun _ =>
    classifies_branch _ _

theorem classifies_branchOn {condition : Condition} {flag : Nat} :
    Classifies start stop (branchOn i condition flag) :=
  classifies_operand (i.reads_expect _ _ _) fun _ => classifies_branch _ _

theorem classifies_jump : Classifies start stop (jump i) :=
  classifies_operand (i.reads_expect _ _ _) fun _ => classifies_goto _

/-! ## Calls and returns -/

theorem classifies_call : Classifies start stop (call c i) := by
  refine classifies_operand (i.reads_expect _ _ _) fun target => ?_
  exact classifies_when straight_saveShadows fun _ => Lowering.classifies_call _ _

theorem classifies_returnFromCall : Classifies start stop (returnFromCall c i) :=
  classifies_when straight_restoreShadows fun _ => classifies_ret _ _

theorem classifies_returnFromInterrupt : Classifies start stop (returnFromInterrupt c i) := by
  unfold returnFromInterrupt
  cases interruptEnable? c with
  | none => exact classifies_when straight_restoreShadows fun _ => classifies_ret _ _
  | some found =>
      exact classifies_when straight_restoreShadows fun _ =>
        classifies_bind (straight_assign _ _) fun _ => classifies_ret _ _

theorem classifies_returnWithLiteral : Classifies start stop (returnWithLiteral c i) := by
  refine classifies_operand (i.reads_expect _ _ _) fun k => ?_
  exact classifies_bind (straight_assign _ _) fun _ => classifies_ret _ _

theorem classifies_unlink {sign : Int} : Classifies start stop (unlink c i sign) := by
  refine classifies_operand (i.reads_expect _ _ _) fun k => ?_
  exact classifies_bind (straight_adjust _ _) fun _ => classifies_ret _ _

/-! ## Far moves -/

/-- A far move is refused before any pointer has moved, so its marker stands alone. -/
theorem classifies_farMove : Classifies start stop (farMove c i) := by
  refine classifies_operand (i.reads_expect _ _ _) fun address => ?_
  split
  · exact classifies_invalid
  · refine classifies_operand (i.reads_expect _ _ _) fun source => classifies_of_straight ?_
    refine straight_bind source.straight_enter fun _ => ?_
    refine straight_bind (Cell.straight_enter _) fun _ => ?_
    refine straight_bind (straight_assign _ _) fun _ => ?_
    exact straight_bind source.straight_exit fun _ => Cell.straight_exit _

/-! ## Every opcode -/

theorem classifies_instruction (c : Catalog) (i : Instruction) (next : Option Instruction) :
    Classifies start stop (instruction c i next) := by
  unfold instruction
  generalize i.opcode = opcode
  cases opcode with
  | addwf | addwfc | subwf | subwfb | subfwb | incf | decf | andwf | iorwf | xorwf | comf | movf =>
      exact classifies_of_straight straight_arithmetic
  | rlncf | rrncf | rlcf | rrcf | swapf => exact classifies_of_straight (straight_viaIntrinsic rfl)
  | negf => exact classifies_of_straight straight_negate
  | clrf => exact classifies_of_straight straight_clear
  | setf | movwf => exact classifies_of_straight straight_storeFile
  | mulwf => exact classifies_of_straight (straight_onFile straight_multiply)
  | daw => exact classifies_of_straight straight_decimalAdjust
  | bcf | bsf | btg => exact classifies_of_straight straight_changeBit
  | decfsz | dcfsnz | incfsz | infsnz => exact classifies_countAndSkip
  | cpfseq | cpfsgt | cpfslt | tstfsz => exact classifies_testAndSkip
  | btfsc | btfss => exact classifies_bitTestAndSkip
  | bz | bnz | bc | bnc | bov | bnov | bn | bnn => exact classifies_branchOn
  | bra | goto => exact classifies_jump
  | call | rcall => exact classifies_call
  | callw => exact Lowering.classifies_call _ _
  | ret => exact classifies_returnFromCall
  | retfie => exact classifies_returnFromInterrupt
  | retlw => exact classifies_returnWithLiteral
  | addulnk | subulnk => exact classifies_unlink
  | addfsr | subfsr => exact classifies_of_straight straight_adjustPointer
  | lfsr => exact classifies_of_straight straight_loadPointer
  | movlb => exact classifies_of_straight straight_selectBank
  | movlw | addlw | sublw | andlw | iorlw | xorlw =>
      exact classifies_of_straight straight_literalResult
  | mullw => exact classifies_of_straight straight_multiplyLiteral
  | pushl => exact classifies_of_straight straight_pushLiteral
  | push => exact classifies_of_straight straight_push
  | pop => exact classifies_of_straight (straight_adjust _ _)
  | tblrd => exact classifies_of_straight straight_tableRead
  | tblwt => exact classifies_of_straight straight_tableWrite
  | movff | movffl | movsf | movsfl => exact classifies_farMove
  | movss => exact classifies_of_straight straight_indexedMove
  | sleep | clrwdt => exact classifies_of_straight (straight_intrinsic rfl)
  | reset => exact classifies_bind (straight_intrinsic rfl) fun _ => classifies_halt
  | nop => exact classifies_of_straight straight_nop
  | db | dw | de | ascii | idlocs | config | invalid => exact classifies_invalid

end Lower

theorem classifiesCluster_backend (c : Catalog) (i : Instruction) (next : Option Instruction) :
    ClassifiesCluster i next ((backend c).lower i next) :=
  classifiesCluster_alone (Lower.classifies_instruction c i next)

/-- A draft of the back-end is what the lowering wrote, and absorbs nothing. -/
theorem lowered_of_draft {c : Catalog} {i : Instruction} {next : Option Instruction} {absorbed : Bool}
    {d : Draft} (drafted : (backend c).draft i next = .ok (absorbed, d)) :
    absorbed = false ∧ (Lower.instruction c i next).run .empty = .ok ((), d) := by
  unfold Backend.draft backend at drafted
  simp only [StateT.run_bind] at drafted
  cases ran : (Lower.instruction c i next).run .empty with
  | error refusal =>
      rw [ran] at drafted
      cases drafted
  | ok out =>
      rw [ran] at drafted
      cases drafted
      exact ⟨rfl, rfl⟩

end RegisterTransfer.Pic18
