/-
# RegisterTransfer.Proofs.Pic18.Totality -- every decoded instruction is lowered

An instruction whose operands have the signature of its opcode is lowered without a fault on every
device, whatever comes after it, and asks only for intrinsics with the right number of arguments
(`Lower.regular_instruction`).  There is one lemma for each family of lowerings; it says which kinds of
operands the family needs.
-/
import RegisterTransfer.Proofs.Draft.Triple
import RegisterTransfer.Proofs.Pic18.Signature

namespace RegisterTransfer.Pic18

set_option autoImplicit false

/-! ## Operands of the right kind are found -/

theorem Operand.fit_one {operands : List Operand} {k : OperandKind}
    (fits : fit operands [k] = true) : ∃ o, operands = [o] ∧ o.isOf k = true := by
  match operands with
  | [] => cases fits
  | [o] => exact ⟨o, rfl, by simpa [fit] using fits⟩
  | _ :: _ :: _ => simp [fit] at fits

theorem Operand.fit_two {operands : List Operand} {k k' : OperandKind}
    (fits : fit operands [k, k'] = true) :
    ∃ o o', operands = [o, o'] ∧ o.isOf k = true ∧ o'.isOf k' = true := by
  match operands with
  | [] => cases fits
  | [_] => simp [fit] at fits
  | [o, o'] => exact ⟨o, o', rfl, by simpa [fit] using fits⟩
  | _ :: _ :: _ :: _ => simp [fit] at fits

namespace Instruction

variable {i : Instruction} {n : Nat} {o : Operand}

theorem operand_of_getElem? (found : i.operands[n]? = some o) : i.operand n = .ok o := by
  simp [operand, found]

theorem expect_of_read {α : Type} {what : String} {read : Operand → Option α} {a : α}
    (found : i.operands[n]? = some o) (is : read o = some a) : i.expect n what read = .ok a := by
  unfold expect
  simp only [operand_of_getElem? found, bind, Except.bind, is]
  rfl

theorem getElem?_of_operand (found : i.operand n = .ok o) : i.operands[n]? = some o := by
  unfold operand at found
  cases listed : i.operands[n]? with
  | none =>
      rw [listed] at found
      cases found
  | some o' =>
      rw [listed] at found
      cases found
      rfl

/-- What a reader finds it reads from the operand at the position. -/
theorem getElem?_of_expect {α : Type} {what : String} {read : Operand → Option α} {a : α}
    (found : i.expect n what read = .ok a) : ∃ o, i.operands[n]? = some o ∧ read o = some a := by
  unfold expect at found
  cases first : i.operand n with
  | error fault =>
      rw [first] at found
      cases found
  | ok o =>
      simp only [first, bind, Except.bind] at found
      cases is : read o with
      | none =>
          rw [is] at found
          cases found
      | some b =>
          rw [is] at found
          cases found
          exact ⟨o, getElem?_of_operand first, is⟩

theorem literal_of_isOf (found : i.operands[n]? = some o) (kind : o.isOf .literal = true) :
    ∃ k, i.literal n = .ok k := by
  cases o <;> first
    | exact ⟨_, expect_of_read found rfl⟩
    | cases kind

theorem codeTarget_of_isOf (found : i.operands[n]? = some o) (kind : o.isOf .target = true) :
    ∃ target, i.codeTarget n = .ok target := by
  cases o <;> first
    | exact ⟨_, expect_of_read found rfl⟩
    | cases kind

theorem longLiteral_of_isOf (found : i.operands[n]? = some o)
    (kind : o.isOf .longLiteral = true) : ∃ k, i.longLiteral n = .ok k := by
  cases o <;> first
    | exact ⟨_, expect_of_read found rfl⟩
    | cases kind

theorem pointer_of_isOf (found : i.operands[n]? = some o) (kind : o.isOf .pointer = true) :
    ∃ k, i.pointer n = .ok k := by
  cases o with
  | pointer k =>
      have less : k < 3 := by simpa [Operand.isOf] using kind
      exact ⟨⟨k, less⟩, expect_of_read found (by simp [less])⟩
  | _ => cases kind

theorem file_of_isOf (found : i.operands[0]? = some o) (kind : o.isOf .file = true) :
    ∃ f, o = .file f ∧ i.file = .ok f := by
  cases o with
  | file f => exact ⟨f, rfl, expect_of_read found rfl⟩
  | _ => cases kind

theorem fileDest_of_isOf (found : i.operands[0]? = some o) (kind : o.isOf .fileDest = true) :
    ∃ f dest, o = .fileDest f dest ∧ i.fileDest = .ok (f, dest) := by
  cases o with
  | fileDest f dest => exact ⟨f, dest, rfl, expect_of_read found rfl⟩
  | _ => cases kind

theorem fileBit_of_isOf (found : i.operands[0]? = some o) (kind : o.isOf .fileBit = true) :
    ∃ f bit, o = .fileBit f bit ∧ i.fileBit = .ok (f, bit) := by
  cases o with
  | fileBit f bit => exact ⟨f, bit, rfl, expect_of_read found rfl⟩
  | _ => cases kind

theorem tableMode_of_isOf (found : i.operands[0]? = some o) (kind : o.isOf .table = true) :
    ∃ mode, i.tableMode = .ok mode := by
  cases o with
  | table mode => exact ⟨mode, expect_of_read found rfl⟩
  | _ => cases kind

theorem farDestination_of_isOf (found : i.operands[1]? = some o)
    (kind : o.isOf .address = true) : ∃ a, i.farDestination = .ok a := by
  cases o <;> first
    | exact ⟨_, expect_of_read found rfl⟩
    | cases kind

end Instruction

namespace Cell

open Lowering

theorem regular_enter (cell : Cell) : Regular cell.enter := by
  unfold enter
  cases cell.before with
  | none => exact regular_pure _
  | some fsr => exact regular_bind (regular_assign _ _) fun _ => regular_pure _

theorem regular_exit (cell : Cell) : Regular cell.exit := by
  unfold exit
  cases cell.after with
  | none => exact regular_pure _
  | some update => exact regular_assign _ _

theorem regular_access {α : Type} (cell : Cell) {body : Expr → Lowering α}
    (inside : ∀ place, Regular (body place)) : Regular (cell.access body) := by
  refine regular_bind cell.regular_enter fun place => ?_
  refine regular_bind (inside place) fun result => ?_
  exact regular_bind cell.regular_exit fun _ => regular_pure result

end Cell

namespace Lower

open Lowering

variable {c : Catalog} {i : Instruction} {next : Option Instruction}

/-! ## File registers -/

theorem regular_store (flags : Nat) (dst src : Expr) : Regular (store flags dst src) :=
  regular_copy _ _ _ _

theorem regular_adjust (id : Identifier) (delta : Int) : Regular (adjust id delta) :=
  regular_assign _ _

theorem regular_effect {name : String} {arguments : List Expr}
    (fits : IntrinsicName.arity? name = some arguments.length) :
    Regular (effect name arguments) :=
  regular_bind (regular_apply name .void arguments fits) fun _ => Lowering.regular_effect _

theorem regular_fileResult {flags : Nat} {compute : Expr → Lowering Expr}
    (fits : Operand.fit i.operands [.fileDest] = true) (inside : ∀ f, Regular (compute f)) :
    Regular (fileResult c i flags compute) := by
  obtain ⟨o, operands, kind⟩ := Operand.fit_one fits
  obtain ⟨f, dest, _, found⟩ := Instruction.fileDest_of_isOf (by rw [operands]; rfl) kind
  refine regular_operand found ((f.cell c).regular_access fun place => ?_)
  refine regular_bind (inside place) fun value => ?_
  exact regular_bind (regular_store _ _ _) fun _ => regular_pure ()

theorem regular_arithmetic {flags : Nat} {compute : Expr → Expr}
    (fits : Operand.fit i.operands [.fileDest] = true) :
    Regular (arithmetic c i flags compute) :=
  regular_fileResult fits fun _ => regular_pure _

theorem regular_viaIntrinsic {flags : Nat} {name : String} {more : List Expr}
    (fits : Operand.fit i.operands [.fileDest] = true)
    (arity : IntrinsicName.arity? name = some (more.length + 1)) :
    Regular (viaIntrinsic c i flags name more) :=
  regular_fileResult fits fun _ => regular_apply _ _ _ arity

theorem regular_onFile {α : Type} {body : Expr → Lowering α}
    (fits : Operand.fit i.operands [.file] = true) (inside : ∀ f, Regular (body f)) :
    Regular (onFile c i body) := by
  obtain ⟨o, operands, kind⟩ := Operand.fit_one fits
  obtain ⟨f, _, found⟩ := Instruction.file_of_isOf (by rw [operands]; rfl) kind
  exact regular_operand found ((f.cell c).regular_access inside)

theorem regular_negate (fits : Operand.fit i.operands [.file] = true) : Regular (negate c i) :=
  regular_onFile fits fun _ => regular_bind (regular_copy _ _ _ _) fun _ => regular_pure ()

theorem regular_clear (fits : Operand.fit i.operands [.file] = true) : Regular (clear c i) :=
  regular_onFile fits fun _ => regular_bind (regular_assign _ _) fun _ => regular_assign _ _

theorem regular_storeFile {value : Expr} (fits : Operand.fit i.operands [.file] = true) :
    Regular (storeFile c i value) :=
  regular_onFile fits fun _ => regular_assign _ _

theorem regular_multiply (f : Expr) : Regular (multiply c f) := regular_assign _ _

theorem regular_decimalAdjust : Regular (decimalAdjust c) := by
  refine regular_bind (regular_apply _ _ _ rfl) fun value => ?_
  exact regular_bind (regular_store _ _ _) fun _ => regular_pure ()

theorem regular_changeBit {op : BinaryOp} (fits : Operand.fit i.operands [.fileBit] = true) :
    Regular (changeBit c i op) := by
  obtain ⟨o, operands, kind⟩ := Operand.fit_one fits
  obtain ⟨f, bit, _, found⟩ := Instruction.fileBit_of_isOf (by rw [operands]; rfl) kind
  refine regular_operand found ((f.cell c).regular_access fun place => ?_)
  exact regular_bind (regular_store _ _ _) fun _ => regular_pure ()

/-! ## Skips, branches, calls and returns -/

theorem regular_countAndSkip {delta : Int} {onZero : Bool}
    (fits : Operand.fit i.operands [.fileDest] = true) :
    Regular (countAndSkip c i next delta onZero) := by
  obtain ⟨o, operands, kind⟩ := Operand.fit_one fits
  obtain ⟨f, dest, _, found⟩ := Instruction.fileDest_of_isOf (by rw [operands]; rfl) kind
  refine regular_operand found (regular_bind ((f.cell c).regular_access fun place => ?_) ?_)
  · exact regular_bind (regular_store _ _ _) fun _ => regular_pure _
  · exact fun _ => regular_branch _ _

theorem regular_testAndSkip {test : Expr → Expr}
    (fits : Operand.fit i.operands [.file] = true) : Regular (testAndSkip c i next test) :=
  regular_bind (regular_onFile fits fun _ => regular_pure _) fun _ => regular_branch _ _

theorem regular_bitTestAndSkip {ifSet : Bool}
    (fits : Operand.fit i.operands [.fileBit] = true) :
    Regular (bitTestAndSkip c i next ifSet) := by
  obtain ⟨o, operands, kind⟩ := Operand.fit_one fits
  obtain ⟨f, bit, _, found⟩ := Instruction.fileBit_of_isOf (by rw [operands]; rfl) kind
  refine regular_operand found (regular_bind ((f.cell c).regular_access fun place => ?_) ?_)
  · exact regular_pure _
  · exact fun _ => regular_branch _ _

theorem regular_branchOn {condition : Condition} {flag : Nat}
    (fits : Operand.fit i.operands [.target] = true) : Regular (branchOn i condition flag) := by
  obtain ⟨o, operands, kind⟩ := Operand.fit_one fits
  obtain ⟨target, found⟩ := Instruction.codeTarget_of_isOf (n := 0) (by rw [operands]; rfl) kind
  exact regular_operand found (regular_branch _ _)

theorem regular_jump (fits : Operand.fit i.operands [.target] = true) : Regular (jump i) := by
  obtain ⟨o, operands, kind⟩ := Operand.fit_one fits
  obtain ⟨target, found⟩ := Instruction.codeTarget_of_isOf (n := 0) (by rw [operands]; rfl) kind
  exact regular_operand found (regular_goto _)

theorem regular_saveShadows : Regular (saveShadows c) :=
  regular_forM (fun _ => regular_assign _ _) _

theorem regular_restoreShadows : Regular (restoreShadows c) :=
  regular_forM (fun _ => regular_assign _ _) _

/-- A step that is taken only under a condition, and what comes after it in either case. -/
theorem regular_when {condition : Bool} {x : Lowering Unit} {after : Unit → Lowering Unit}
    (inside : Regular x) (rest : ∀ u, Regular (after u)) :
    Regular (if condition then x >>= after else after ()) := by
  split
  · exact regular_bind inside rest
  · exact rest ()

theorem regular_call {target : Nat} (found : i.codeTarget 0 = .ok target) :
    Regular (call c i) :=
  regular_operand found (regular_when regular_saveShadows fun _ => Lowering.regular_call _ _)

theorem regular_farCall (fits : Operand.fit i.operands [.target, .fast] = true) :
    Regular (call c i) := by
  obtain ⟨o, o', operands, kind, _⟩ := Operand.fit_two fits
  obtain ⟨target, found⟩ := Instruction.codeTarget_of_isOf (n := 0) (by rw [operands]; rfl) kind
  exact regular_call found

theorem regular_nearCall (fits : Operand.fit i.operands [.target] = true) :
    Regular (call c i) := by
  obtain ⟨o, operands, kind⟩ := Operand.fit_one fits
  obtain ⟨target, found⟩ := Instruction.codeTarget_of_isOf (n := 0) (by rw [operands]; rfl) kind
  exact regular_call found

theorem regular_returnFromCall : Regular (returnFromCall c i) :=
  regular_when regular_restoreShadows fun _ => regular_ret _ _

theorem regular_returnFromInterrupt : Regular (returnFromInterrupt c i) := by
  unfold returnFromInterrupt
  cases interruptEnable? c with
  | none => exact regular_when regular_restoreShadows fun _ => regular_ret _ _
  | some found =>
      exact regular_when regular_restoreShadows fun _ =>
        regular_bind (regular_assign _ _) fun _ => regular_ret _ _

/-! ## Literals, pointers and tables -/

/-- A literal, whatever is done with it. -/
theorem regular_literal {α : Type} {body : UInt8 → Lowering α}
    (fits : Operand.fit i.operands [.literal] = true) (inside : ∀ k, Regular (body k)) :
    Regular (liftM (i.literal 0) >>= body) := by
  obtain ⟨o, operands, kind⟩ := Operand.fit_one fits
  obtain ⟨k, found⟩ := Instruction.literal_of_isOf (n := 0) (by rw [operands]; rfl) kind
  exact regular_operand found (inside k)

theorem regular_returnWithLiteral (fits : Operand.fit i.operands [.literal] = true) :
    Regular (returnWithLiteral c i) :=
  regular_literal fits fun _ => regular_bind (regular_assign _ _) fun _ => regular_ret _ _

theorem regular_unlink {sign : Int} (fits : Operand.fit i.operands [.literal] = true) :
    Regular (unlink c i sign) :=
  regular_literal fits fun _ => regular_bind (regular_adjust _ _) fun _ => regular_ret _ _

theorem regular_selectBank (fits : Operand.fit i.operands [.literal] = true) :
    Regular (selectBank c i) :=
  regular_literal fits fun _ => regular_assign _ _

theorem regular_literalResult {flags : Nat} {compute : Expr → Expr → Expr}
    (fits : Operand.fit i.operands [.literal] = true) :
    Regular (literalResult c i flags compute) :=
  regular_literal fits fun _ => regular_bind (regular_store _ _ _) fun _ => regular_pure ()

theorem regular_multiplyLiteral (fits : Operand.fit i.operands [.literal] = true) :
    Regular (do multiply c (.byte (← i.literal 0))) :=
  regular_literal fits fun _ => regular_multiply _

theorem regular_pushLiteral (fits : Operand.fit i.operands [.literal] = true) :
    Regular (pushLiteral c i) :=
  regular_literal fits fun _ => regular_bind (regular_assign _ _) fun _ => regular_adjust _ _

theorem regular_adjustPointer {sign : Int}
    (fits : Operand.fit i.operands [.pointer, .literal] = true) :
    Regular (adjustPointer c i sign) := by
  obtain ⟨o, o', operands, kind, kind'⟩ := Operand.fit_two fits
  obtain ⟨n, found⟩ := Instruction.pointer_of_isOf (n := 0) (by rw [operands]; rfl) kind
  obtain ⟨k, found'⟩ := Instruction.literal_of_isOf (n := 1) (by rw [operands]; rfl) kind'
  exact regular_operand found (regular_operand found' (regular_adjust _ _))

theorem regular_loadPointer (fits : Operand.fit i.operands [.pointer, .longLiteral] = true) :
    Regular (loadPointer c i) := by
  obtain ⟨o, o', operands, kind, kind'⟩ := Operand.fit_two fits
  obtain ⟨n, found⟩ := Instruction.pointer_of_isOf (n := 0) (by rw [operands]; rfl) kind
  obtain ⟨k, found'⟩ := Instruction.longLiteral_of_isOf (n := 1) (by rw [operands]; rfl) kind'
  exact regular_operand found (regular_operand found' (regular_assign _ _))

theorem regular_push : Regular (push c i) :=
  regular_bind (regular_adjust _ _) fun _ => regular_assign _ _

theorem regular_withTablePointer {body : Lowering Unit}
    (fits : Operand.fit i.operands [.table] = true) (inside : Regular body) :
    Regular (withTablePointer c i body) := by
  obtain ⟨o, operands, kind⟩ := Operand.fit_one fits
  obtain ⟨mode, found⟩ := Instruction.tableMode_of_isOf (by rw [operands]; rfl) kind
  refine regular_operand found ?_
  cases mode with
  | plain => exact regular_bind inside fun _ => regular_pure ()
  | postIncrement => exact regular_bind inside fun _ => regular_adjust _ _
  | postDecrement => exact regular_bind inside fun _ => regular_adjust _ _
  | preIncrement =>
      exact regular_bind (regular_adjust _ _) fun _ => regular_bind inside fun _ => regular_pure ()

theorem regular_tableRead (fits : Operand.fit i.operands [.table] = true) :
    Regular (tableRead c i) :=
  regular_withTablePointer fits <|
    regular_bind (regular_apply _ _ _ rfl) fun _ => regular_assign _ _

theorem regular_tableWrite (fits : Operand.fit i.operands [.table] = true) :
    Regular (tableWrite c i) :=
  regular_withTablePointer fits (regular_effect rfl)

/-! ## Moves -/

theorem regular_farMove {source : Cell} {address : Nat} (from_ : farSource c i = .ok source)
    (far : i.farDestination = .ok address) : Regular (farMove c i) := by
  refine regular_operand far ?_
  split
  · exact regular_invalid
  · refine regular_operand from_ ?_
    refine regular_bind source.regular_enter fun _ => ?_
    refine regular_bind (Cell.regular_enter _) fun _ => ?_
    refine regular_bind (regular_assign _ _) fun _ => ?_
    exact regular_bind source.regular_exit fun _ => Cell.regular_exit _

theorem regular_addressMove (fits : Operand.fit i.operands [.address, .address] = true) :
    Regular (farMove c i) := by
  obtain ⟨o, o', operands, kind, kind'⟩ := Operand.fit_two fits
  obtain ⟨address, far⟩ := Instruction.farDestination_of_isOf (by rw [operands]; rfl) kind'
  cases o <;> first
    | exact regular_farMove (Instruction.expect_of_read (by rw [operands]; rfl) rfl) far
    | cases kind

theorem regular_indexMove (fits : Operand.fit i.operands [.index, .address] = true) :
    Regular (farMove c i) := by
  obtain ⟨o, o', operands, kind, kind'⟩ := Operand.fit_two fits
  obtain ⟨address, far⟩ := Instruction.farDestination_of_isOf (by rw [operands]; rfl) kind'
  cases o with
  | index k => exact regular_farMove (Instruction.expect_of_read (by rw [operands]; rfl) rfl) far
  | _ => cases kind

theorem regular_indexedMove (fits : Operand.fit i.operands [.index, .index] = true) :
    Regular (indexedMove c i) := by
  obtain ⟨o, o', operands, kind, kind'⟩ := Operand.fit_two fits
  have found : i.operand 0 = .ok o := Instruction.operand_of_getElem? (by rw [operands]; rfl)
  have found' : i.operand 1 = .ok o' := Instruction.operand_of_getElem? (by rw [operands]; rfl)
  refine regular_operand found (regular_operand found' ?_)
  cases o with
  | index k =>
      cases o' with
      | index k' => exact regular_assign _ _
      | _ => cases kind'
  | _ => cases kind

/-! ## Every opcode -/

/-- An instruction with the operands that its opcode takes is lowered without a fault. -/
theorem regular_instruction (c : Catalog) (i : Instruction) (next : Option Instruction)
    (fits : i.Fits) : Regular (instruction c i next) := by
  unfold Instruction.Fits at fits
  unfold instruction
  generalize i.opcode = opcode at fits ⊢
  cases opcode with
  | addwf | addwfc | subwf | subwfb | subfwb | incf | decf | andwf | iorwf | xorwf | comf | movf =>
      exact regular_arithmetic fits
  | rlncf | rrncf | rlcf | rrcf | swapf => exact regular_viaIntrinsic fits rfl
  | negf => exact regular_negate fits
  | clrf => exact regular_clear fits
  | setf | movwf => exact regular_storeFile fits
  | mulwf => exact regular_onFile fits regular_multiply
  | daw => exact regular_decimalAdjust
  | bcf | bsf | btg => exact regular_changeBit fits
  | decfsz | dcfsnz | incfsz | infsnz => exact regular_countAndSkip fits
  | cpfseq | cpfsgt | cpfslt | tstfsz => exact regular_testAndSkip fits
  | btfsc | btfss => exact regular_bitTestAndSkip fits
  | bz | bnz | bc | bnc | bov | bnov | bn | bnn => exact regular_branchOn fits
  | bra | goto => exact regular_jump fits
  | call => exact regular_farCall fits
  | rcall => exact regular_nearCall fits
  | callw => exact Lowering.regular_call _ _
  | ret => exact regular_returnFromCall
  | retfie => exact regular_returnFromInterrupt
  | retlw => exact regular_returnWithLiteral fits
  | addulnk | subulnk => exact regular_unlink fits
  | addfsr | subfsr => exact regular_adjustPointer fits
  | lfsr => exact regular_loadPointer fits
  | movlb => exact regular_selectBank fits
  | movlw | addlw | sublw | andlw | iorlw | xorlw => exact regular_literalResult fits
  | mullw => exact regular_multiplyLiteral fits
  | pushl => exact regular_pushLiteral fits
  | push => exact regular_push
  | pop => exact regular_adjust _ _
  | tblrd => exact regular_tableRead fits
  | tblwt => exact regular_tableWrite fits
  | movff | movffl => exact regular_addressMove fits
  | movsf | movsfl => exact regular_indexMove fits
  | movss => exact regular_indexedMove fits
  | sleep | clrwdt => exact regular_effect rfl
  | reset => exact regular_bind (regular_effect rfl) fun _ => regular_setFlow _
  | nop => exact regular_nop
  | db | dw | de | ascii | idlocs | config | invalid => exact regular_invalid

end Lower

/-- On a regular table an instruction with the operands that its opcode takes gets its cluster, and
absorbs nothing. -/
theorem lowerWith_of_fits (c : Catalog) {i : Instruction} (next : Option Instruction)
    (fits : i.Fits) {t : IntrinsicTable} (regular : t.Regular) :
    ∃ lowered t', (backend c).lowerWith i next t = (.ok lowered, t') ∧ lowered.absorbed = false ∧
      t'.Regular := by
  refine Backend.lowerWith_of_regular ?_ regular
  exact Lowering.ensures_bind (Lower.regular_instruction c i next fits) fun _ =>
    Lowering.ensures_pure false fun _ asks => ⟨rfl, asks⟩

end RegisterTransfer.Pic18
