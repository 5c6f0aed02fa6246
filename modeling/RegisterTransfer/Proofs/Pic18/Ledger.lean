/-
# RegisterTransfer.Proofs.Pic18.Ledger -- PIC18 lowerings apply what they ask for

Every instruction of every device, with any operands and anything behind it, is refused before it asks for
an intrinsic, or its statements apply just the intrinsics that it asked for (`settles_backend`).  The
lowerings read their operands first; an intrinsic they apply to these operands is stored at once.
-/
import RegisterTransfer.Pic18.Lowering
import RegisterTransfer.Proofs.Draft.Ledger

namespace RegisterTransfer.Pic18

set_option autoImplicit false

open Lowering

/-! ## Cells -/

namespace Catalog

variable (c : Catalog)

theorem plain_windowCell (kind : Indirect) (n : Fin 3) :
    (c.windowCell kind n).place.uses = [] := by
  cases kind <;> simp [windowCell, Expr.add]

theorem plain_absoluteCell (address : Nat) : (c.absoluteCell address).place.uses = [] := by
  unfold absoluteCell
  split
  · exact c.plain_windowCell _ _
  · split <;> simp

theorem plain_indexedPlace (k : UInt8) : (c.indexedPlace k).uses = [] := by
  simp [indexedPlace]

theorem plain_cellAt (location : DataLocation) : (c.cellAt location).place.uses = [] := by
  cases location with
  | indexed k => exact c.plain_indexedPlace k
  | banked k => simp [cellAt, bankedPlace]
  | absolute a => exact c.plain_absoluteCell a

end Catalog

namespace Cell

variable {α : Type} {V : α → Prop} {cell : Cell}

theorem pays_enter (plain : cell.place.uses = []) :
    Pays [] cell.enter [] fun place => place.uses = [] := by
  unfold enter
  cases cell.before with
  | none => exact pays_pure plain
  | some fsr => exact pays_bind (pays_assign rfl (by simp)) fun _ _ => pays_pure plain

theorem pays_exit (cell : Cell) : Pays [] cell.exit [] Anything := by
  unfold exit
  cases cell.after with
  | none => exact pays_pure trivial
  | some move => exact pays_assign rfl (by simp)

theorem pays_access {body : Expr → Lowering α} (plain : cell.place.uses = [])
    (inside : ∀ place : Expr, place.uses = [] → Pays [] (body place) [] V) :
    Pays [] (cell.access body) [] V := by
  refine pays_bind (pays_enter plain) fun place free => ?_
  refine pays_bind (inside place free) fun result holds => ?_
  exact pays_bind cell.pays_exit fun _ _ => pays_pure holds

end Cell

namespace Lower

variable {c : Catalog} {i : Instruction} {next : Option Instruction}
variable {held : List IntrinsicUse}

/-! ## Statements that lowerings share -/

theorem pays_store (flags : Nat) {dst src : Expr} (plain : dst.uses = [])
    (pays : src.uses = held) :
    Pays held (store flags dst src) [] fun e => e.uses = [] :=
  pays_copy _ _ plain pays

/-- A result that is stored and not looked at again. -/
theorem pays_stored (flags : Nat) {dst src : Expr} (plain : dst.uses = [])
    (pays : src.uses = held) :
    Pays held (store flags dst src >>= fun _ => pure ()) [] Anything :=
  pays_bind (pays_store flags plain pays) fun _ _ => pays_pure trivial

theorem pays_adjust (id : Identifier) (delta : Int) : Pays [] (adjust id delta) [] Anything :=
  pays_assign rfl (by simp)

theorem pays_intrinsic {name : String} {arguments : List Expr}
    (plain : ∀ e ∈ arguments, e.uses = []) : Pays [] (effect name arguments) [] Anything :=
  pays_apply plain fun _ => pays_effect rfl

theorem plain_placeFor {place : Expr} (plain : place.uses = []) (dest : Destination) :
    (placeFor c place dest).uses = [] := by
  cases dest with
  | w => rfl
  | f => exact plain

/-- A result that is computed from the byte of the file register and stored. -/
theorem settles_fileResult {flags : Nat} {compute : Expr → Lowering Expr}
    (inside : ∀ f dst : Expr, f.uses = [] → dst.uses = [] →
      Pays [] (compute f >>= fun value => store flags dst value >>= fun _ => pure ()) [] Anything) :
    Settles (fileResult c i flags compute) Anything := by
  refine settles_operand fun (operand, dest) _ => settles_of_pays ?_
  refine Cell.pays_access (c.plain_cellAt _) fun place plain => ?_
  exact inside place _ plain (plain_placeFor plain dest)

theorem settles_arithmetic {flags : Nat} {compute : Expr → Expr}
    (plain : ∀ f : Expr, f.uses = [] → (compute f).uses = []) :
    Settles (arithmetic c i flags compute) Anything :=
  settles_fileResult fun f _ free free' => pays_stored flags free' (plain f free)

theorem settles_viaIntrinsic {flags : Nat} {name : String} {more : List Expr}
    (plain : ∀ e ∈ more, e.uses = []) :
    Settles (viaIntrinsic c i flags name more) Anything := by
  refine settles_fileResult fun f _ free free' => pays_apply ?_ fun _ => pays_stored flags free' rfl
  rintro e (_ | ⟨_, listed⟩)
  · exact free
  · exact plain e listed

theorem settles_onFile {α : Type} {V : α → Prop} {body : Expr → Lowering α}
    (inside : ∀ f : Expr, f.uses = [] → Pays [] (body f) [] V) :
    Settles (onFile c i body) V :=
  settles_operand fun _ _ => settles_of_pays (Cell.pays_access (c.plain_cellAt _) inside)

theorem settles_negate : Settles (negate c i) Anything :=
  settles_onFile fun _ free =>
    pays_bind (pays_copy _ _ free free) fun _ _ => pays_pure trivial

theorem settles_clear : Settles (clear c i) Anything :=
  settles_onFile fun _ free =>
    pays_bind (pays_assign free rfl) fun _ _ => pays_assign rfl rfl

theorem settles_storeFile {value : Expr} (plain : value.uses = []) :
    Settles (storeFile c i value) Anything :=
  settles_onFile fun _ free => pays_assign free plain

theorem pays_multiply {f : Expr} (plain : f.uses = []) :
    Pays [] (multiply c f) [] Anything :=
  pays_assign rfl (by simp [plain])

theorem pays_decimalAdjust : Pays [] (decimalAdjust c) [] Anything :=
  pays_apply (by simp [Status.carry]) fun _ => pays_stored _ rfl rfl

theorem settles_changeBit {op : BinaryOp} : Settles (changeBit c i op) Anything := by
  refine settles_operand fun (operand, bit) _ => settles_of_pays ?_
  exact Cell.pays_access (c.plain_cellAt _) fun place free => pays_stored 0 free (by simp [free])

/-! ## Skips and branches -/

theorem plain_zeroTest (onZero : Bool) {value : Expr} (plain : value.uses = []) :
    (zeroTest onZero value).uses = [] := by
  cases onZero <;> simp [zeroTest, plain]

theorem settles_countAndSkip {delta : Int} {onZero : Bool} :
    Settles (countAndSkip c i next delta onZero) Anything := by
  refine settles_operand fun (operand, dest) _ => settles_of_pays ?_
  refine pays_bind (V := fun e => e.uses = []) ?_ fun condition plain =>
    pays_branch plain _
  refine Cell.pays_access (c.plain_cellAt _) fun place free => ?_
  refine pays_bind (pays_store 0 (plain_placeFor free dest) ?_) fun value plain =>
    pays_pure (plain_zeroTest onZero plain)
  rw [Expr.uses_addInt, free]

theorem settles_testAndSkip {test : Expr → Expr}
    (plain : ∀ f : Expr, f.uses = [] → (test f).uses = []) :
    Settles (testAndSkip c i next test) Anything :=
  settles_bind (settles_onFile fun f free => pays_pure (plain f free)) fun _ free =>
    pays_branch free _

theorem settles_compareAndSkip {op : BinaryOp} : Settles (compareAndSkip c i next op) Anything :=
  settles_testAndSkip fun f free => by simp [free]

theorem settles_bitTestAndSkip {ifSet : Bool} :
    Settles (bitTestAndSkip c i next ifSet) Anything := by
  refine settles_operand fun (operand, bit) _ => settles_of_pays ?_
  refine pays_bind (Cell.pays_access (c.plain_cellAt _) fun place free =>
    pays_pure (plain_zeroTest (!ifSet) ?_)) fun condition plain => pays_branch plain _
  simp [Expr.and, free]

theorem settles_branchOn {condition : Condition} {flag : Nat} :
    Settles (branchOn i condition flag) Anything :=
  settles_operand fun _ _ => settles_of_pays (pays_branch (by simp) _)

theorem settles_jump : Settles (jump i) Anything :=
  settles_operand fun _ _ => settles_of_pays (pays_goto rfl)

/-! ## Calls and returns -/

theorem pays_saveShadows : Pays [] (saveShadows c) [] Anything :=
  pays_forM (fun _ => pays_assign rfl rfl) _

theorem pays_restoreShadows : Pays [] (restoreShadows c) [] Anything :=
  pays_forM (fun _ => pays_assign rfl rfl) _

theorem settles_call : Settles (call c i) Anything :=
  settles_operand fun _ _ =>
    settles_of_pays (pays_when pays_saveShadows fun _ => pays_call (by simp) 0)

theorem pays_callComputed : Pays [] (callComputed c) [] Anything := pays_call (by simp) 0

theorem pays_returnFromCall : Pays [] (returnFromCall c i) [] Anything :=
  pays_when pays_restoreShadows fun _ => pays_ret 0 0

theorem pays_returnFromInterrupt : Pays [] (returnFromInterrupt c i) [] Anything := by
  unfold returnFromInterrupt
  cases interruptEnable? c with
  | none => exact pays_when pays_restoreShadows fun _ => pays_ret 0 0
  | some found =>
      exact pays_when pays_restoreShadows fun _ =>
        pays_bind (pays_assign rfl (by simp)) fun _ _ => pays_ret 0 0

theorem settles_returnWithLiteral : Settles (returnWithLiteral c i) Anything :=
  settles_operand fun _ _ =>
    settles_of_pays (pays_bind (pays_assign rfl rfl) fun _ _ => pays_ret 0 0)

theorem settles_unlink {sign : Int} : Settles (unlink c i sign) Anything :=
  settles_operand fun _ _ =>
    settles_of_pays (pays_bind (pays_adjust _ _) fun _ _ => pays_ret 0 0)

/-! ## Pointers, literals and tables -/

theorem settles_adjustPointer {sign : Int} : Settles (adjustPointer c i sign) Anything :=
  settles_operand fun _ _ => settles_operand fun _ _ => settles_of_pays (pays_adjust _ _)

theorem settles_loadPointer : Settles (loadPointer c i) Anything :=
  settles_operand fun _ _ => settles_operand fun _ _ => settles_of_pays (pays_assign rfl rfl)

theorem settles_selectBank : Settles (selectBank c i) Anything :=
  settles_operand fun _ _ => settles_of_pays (pays_assign rfl rfl)

theorem settles_literalResult {flags : Nat} {compute : Expr → Expr → Expr}
    (plain : ∀ w k : Expr, w.uses = [] → k.uses = [] →
      (compute w k).uses = []) :
    Settles (literalResult c i flags compute) Anything :=
  settles_operand fun _ _ => settles_of_pays (pays_stored flags rfl (plain _ _ rfl rfl))

theorem settles_multiplyLiteral : Settles (do multiply c (.byte (← i.literal 0))) Anything :=
  settles_operand fun _ _ => settles_of_pays (pays_multiply rfl)

theorem settles_pushLiteral : Settles (pushLiteral c i) Anything :=
  settles_operand fun _ _ =>
    settles_of_pays (pays_bind (pays_assign (by simp) rfl) fun _ _ => pays_adjust _ _)

theorem pays_push : Pays [] (push c i) [] Anything :=
  pays_bind (pays_adjust _ _) fun _ _ => pays_assign rfl rfl

theorem settles_withTablePointer {body : Lowering Unit} (inside : Pays [] body [] Anything) :
    Settles (withTablePointer c i body) Anything := by
  refine settles_operand fun mode _ => settles_of_pays ?_
  refine pays_when (pays_adjust _ _) fun _ => pays_bind inside fun _ _ => ?_
  cases mode with
  | plain | preIncrement => exact pays_pure trivial
  | postIncrement | postDecrement => exact pays_adjust _ _

theorem settles_tableRead : Settles (tableRead c i) Anything :=
  settles_withTablePointer (pays_apply (by simp) fun _ => pays_assign rfl rfl)

theorem settles_tableWrite : Settles (tableWrite c i) Anything :=
  settles_withTablePointer (pays_intrinsic (by simp))

/-! ## Far moves -/

theorem plain_farSource {source : Cell} (found : farSource c i = .ok source) :
    source.place.uses = [] := by
  unfold farSource Instruction.expect at found
  cases read : i.operand 0 with
  | error fault => rw [read] at found; cases found
  | ok o =>
      rw [read] at found
      cases o with
      | data12 a | data14 a => cases found; exact c.plain_absoluteCell a
      | index k => cases found; exact c.plain_cellAt _
      | _ => cases found

theorem settles_farMove : Settles (farMove c i) Anything := by
  refine settles_operand fun address _ => ?_
  split
  · exact settles_invalid
  · refine settles_operand fun source found => settles_of_pays ?_
    refine pays_bind (Cell.pays_enter (plain_farSource found)) fun src free => ?_
    refine pays_bind (Cell.pays_enter (c.plain_absoluteCell address)) fun dst free' => ?_
    refine pays_bind (pays_assign free' free) fun _ _ => ?_
    exact pays_bind source.pays_exit fun _ _ => Cell.pays_exit _

theorem settles_indexedMove : Settles (indexedMove c i) Anything := by
  refine settles_operand fun o _ => settles_operand fun o' _ => ?_
  split
  · exact settles_of_pays (pays_assign (c.plain_indexedPlace _) (c.plain_indexedPlace _))
  · exact settles_fail _

/-! ## Every opcode -/

theorem settles_instruction (c : Catalog) (i : Instruction) (next : Option Instruction) :
    Settles (instruction c i next) Anything := by
  have carry : Status.carry.uses = [] := rfl
  unfold instruction
  generalize i.opcode = opcode
  cases opcode with
  | addwf | addwfc | subwf | subwfb | subfwb | incf | decf | andwf | iorwf | xorwf | comf | movf =>
      exact settles_arithmetic fun f free => by
        simp [free, carry, Expr.add, Expr.sub, Expr.and, Expr.or, Expr.xor, Expr.not,
          Expr.complement]
  | rlncf | rrncf | rlcf | rrcf | swapf => exact settles_viaIntrinsic (by simp [carry])
  | negf => exact settles_negate
  | clrf => exact settles_clear
  | setf | movwf => exact settles_storeFile rfl
  | mulwf => exact settles_onFile fun _ => pays_multiply
  | daw => exact settles_of_pays pays_decimalAdjust
  | bcf | bsf | btg => exact settles_changeBit
  | decfsz | dcfsnz | incfsz | infsnz => exact settles_countAndSkip
  | cpfseq | cpfsgt | cpfslt => exact settles_compareAndSkip
  | tstfsz => exact settles_testAndSkip fun f free => by rw [Expr.uses_isZero, free]
  | btfsc | btfss => exact settles_bitTestAndSkip
  | bz | bnz | bc | bnc | bov | bnov | bn | bnn => exact settles_branchOn
  | bra | goto => exact settles_jump
  | call | rcall => exact settles_call
  | callw => exact settles_of_pays pays_callComputed
  | ret => exact settles_of_pays pays_returnFromCall
  | retfie => exact settles_of_pays pays_returnFromInterrupt
  | retlw => exact settles_returnWithLiteral
  | addulnk | subulnk => exact settles_unlink
  | addfsr | subfsr => exact settles_adjustPointer
  | lfsr => exact settles_loadPointer
  | movlb => exact settles_selectBank
  | movlw | addlw | sublw | andlw | iorlw | xorlw =>
      exact settles_literalResult fun w k free free' => by
        simp [free, free', Expr.add, Expr.sub, Expr.and, Expr.or, Expr.xor]
  | mullw => exact settles_multiplyLiteral
  | pushl => exact settles_pushLiteral
  | push => exact settles_of_pays pays_push
  | pop => exact settles_of_pays (pays_adjust _ _)
  | tblrd => exact settles_tableRead
  | tblwt => exact settles_tableWrite
  | movff | movffl | movsf | movsfl => exact settles_farMove
  | movss => exact settles_indexedMove
  | sleep | clrwdt => exact settles_of_pays (pays_intrinsic (by simp))
  | reset =>
      exact settles_of_pays (pays_bind (pays_intrinsic (by simp)) fun _ _ => pays_setFlow _)
  | nop => exact settles_of_pays pays_nop
  | db | dw | de | ascii | idlocs | config | invalid => exact settles_invalid

end Lower

theorem settles_backend (c : Catalog) (i : Instruction) (next : Option Instruction) :
    Settles ((backend c).lower i next) fun _ => True :=
  settles_bind (Lower.settles_instruction c i next) fun _ _ => pays_pure trivial

end RegisterTransfer.Pic18
