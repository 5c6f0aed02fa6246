/-
# RegisterTransfer.Proofs.Pic18.Scope -- temporaries of PIC18 lowerings

The lowerings of a device name its registers and flags, which are no temporaries once its catalog was
accepted; the only temporaries are those that a copy to memory keeps its value in.  So every lowering that
ends, ends in a draft with a scope (`delimits_backend`).
-/
import RegisterTransfer.Pic18.Lowering
import RegisterTransfer.Proofs.Draft.Scope
import RegisterTransfer.Proofs.Pic18.Accepted
import RegisterTransfer.Proofs.Pic18.Totality

namespace RegisterTransfer.Pic18

set_option autoImplicit false

open Lowering

variable {Γ : List DataType} {c : Catalog}

theorem Catalog.Accepted.free (accepted : c.Accepted) {id : Identifier}
    (listed : id ∈ c.core.toList) : (Expr.identifier id).Free :=
  fun _ => Expr.within_identifier.mpr (.of_isRegister (accepted.registers id listed))

theorem free_group (mask : Nat) : (Expr.identifier (Status.group mask)).Free :=
  fun _ => Expr.within_identifier.mpr (Identifier.inScope_flags _ _ _)

theorem free_carry : Status.carry.Free := free_group _

/-! ## Cells -/

/-- Neither the place of a cell nor the pointers that it moves are temporaries. -/
structure Cell.Free (cell : Cell) : Prop where
  place : cell.place.Free
  before : ∀ fsr ∈ cell.before, (Expr.identifier fsr).Free
  after : ∀ move ∈ cell.after, (Expr.identifier move.1).Free

/-- A place that moves no pointer. -/
theorem Cell.free_of_place {place : Expr} (free : place.Free) : Cell.Free { place } :=
  ⟨free, by simp, by simp⟩

namespace Catalog

variable (accepted : c.Accepted)

include accepted

theorem free_windowCell (kind : Indirect) (n : Fin 3) : (c.windowCell kind n).Free := by
  have fsr := accepted.free (fsr_mem n)
  have through : (Expr.memory .byte (.identifier (c.core.fsr n))).Free :=
    fun Γ => (Expr.within_memory ..).mpr (fsr Γ)
  cases kind with
  | indf => exact Cell.free_of_place through
  | postInc | postDec => exact ⟨through, by simp [windowCell], by simpa [windowCell] using fsr⟩
  | preInc => exact ⟨through, by simpa [windowCell] using fsr, by simp [windowCell]⟩
  | plusW =>
      have wreg : (Expr.identifier c.core.wreg).Free :=
        accepted.free (by simp [CoreRegisters.toList])
      exact Cell.free_of_place fun Γ => by simp [Expr.add, fsr Γ, wreg Γ]

theorem free_absoluteCell (address : Nat) : (c.absoluteCell address).Free := by
  unfold absoluteCell
  split
  · exact free_windowCell accepted _ _
  · split
    · exact Cell.free_of_place fun Γ =>
        Expr.within_identifier.mpr (.of_isRegister ⟨_, _, _, rfl⟩)
    · exact Cell.free_of_place fun Γ => by simp

theorem free_indexedPlace (k : UInt8) : (c.indexedPlace k).Free := fun Γ => by
  have fsr2 : (Expr.identifier c.core.fsr2).Free := accepted.free (by simp [CoreRegisters.toList])
  simpa [indexedPlace] using fsr2 Γ

theorem free_cellAt (location : DataLocation) : (c.cellAt location).Free := by
  cases location with
  | indexed k => exact Cell.free_of_place (free_indexedPlace accepted k)
  | banked k =>
      have bsr : (Expr.identifier c.core.bsr).Free :=
        accepted.free (by simp [CoreRegisters.toList])
      exact Cell.free_of_place fun Γ => by simpa [bankedPlace] using bsr Γ
  | absolute a => exact free_absoluteCell accepted a

end Catalog

namespace Cell

variable {α : Type} {P : List DataType → α → Prop} {cell : Cell}

theorem keeps_enter (free : cell.Free) : Keeps Γ cell.enter Expr.Free := by
  unfold enter
  cases before : cell.before with
  | none => exact keeps_pure free.place
  | some fsr =>
      have pointer := free.before fsr before
      refine keeps_bind (keeps_assign pointer ?_) fun _ _ => keeps_pure free.place
      exact (Expr.within_addInt ..).mpr (pointer Γ)

theorem keeps_exit (free : cell.Free) : Keeps Γ cell.exit Anything := by
  unfold exit
  cases after : cell.after with
  | none => exact keeps_pure trivial
  | some move =>
      have pointer := free.after move after
      exact keeps_assign pointer ((Expr.within_addInt ..).mpr (pointer Γ))

theorem grows_access {body : Expr → Lowering α} (free : cell.Free)
    (inside : ∀ place : Expr, place.Free → Grows Γ (body place) P) :
    Grows Γ (cell.access body) P := by
  refine grows_then (keeps_enter free) fun place there => ?_
  refine grows_bind (inside place there) fun Δ result holds => ?_
  exact grows_then (keeps_exit free) fun _ _ => (keeps_pure rfl).grows fun _ same => same ▸ holds

end Cell

namespace Lower

variable {i : Instruction} {next : Option Instruction}

/-! ## Statements that lowerings share -/

theorem grows_store {flags : Nat} {dst src : Expr} (free : dst.Free) (within : src.Within Γ) :
    Grows Γ (store flags dst src) fun Δ e => e.Within Δ :=
  grows_copy (free_group _) (free_group _) free within

/-- A result that is stored and not looked at again. -/
theorem grows_stored {flags : Nat} {dst src : Expr} (free : dst.Free) (within : src.Within Γ) :
    Grows Γ (store flags dst src >>= fun _ => pure ()) fun _ _ => True :=
  grows_bind (grows_store free within) fun _ _ _ => (keeps_pure trivial).grows (V := Anything)
    fun _ _ => trivial

theorem keeps_adjust {id : Identifier} (free : (Expr.identifier id).Free) (delta : Int) :
    Keeps Γ (adjust id delta) Anything :=
  keeps_assign free ((Expr.within_addInt ..).mpr (free Γ))

theorem keeps_intrinsic {name : String} {arguments : List Expr}
    (within : ∀ e ∈ arguments, e.Within Γ) : Keeps Γ (effect name arguments) Anything :=
  keeps_bind (keeps_apply within) fun _ inside => keeps_effect inside

variable (accepted : c.Accepted)

section

include accepted

theorem free_wreg : (Expr.identifier c.core.wreg).Free :=
  accepted.free (by simp [CoreRegisters.toList])

theorem free_placeFor {place : Expr} (free : place.Free) (dest : Destination) :
    (placeFor c place dest).Free := by
  cases dest with
  | w => exact free_wreg accepted
  | f => exact free

/-- A result that is computed from the byte of the file register and stored. -/
theorem grows_fileResult {flags : Nat} {compute : Expr → Lowering Expr}
    (inside : ∀ f : Expr, f.Free → Keeps Γ (compute f) fun e => e.Within Γ) :
    Grows Γ (fileResult c i flags compute) fun _ _ => True := by
  refine grows_operand fun (operand, dest) _ => ?_
  refine Cell.grows_access (Catalog.free_cellAt accepted _) fun place free => ?_
  exact grows_then (inside place free) fun value within =>
    grows_stored (free_placeFor accepted free dest) within

theorem grows_arithmetic {flags : Nat} {compute : Expr → Expr}
    (within : ∀ f : Expr, f.Free → (compute f).Within Γ) :
    Grows Γ (arithmetic c i flags compute) fun _ _ => True :=
  grows_fileResult accepted fun f free => keeps_pure (within f free)

theorem grows_viaIntrinsic {flags : Nat} {name : String} {more : List Expr}
    (within : ∀ e ∈ more, e.Within Γ) :
    Grows Γ (viaIntrinsic c i flags name more) fun _ _ => True :=
  grows_fileResult accepted fun f free => keeps_apply (by simpa [free Γ] using within)

theorem grows_onFile {α : Type} {P : List DataType → α → Prop} {body : Expr → Lowering α}
    (inside : ∀ f : Expr, f.Free → Grows Γ (body f) P) : Grows Γ (onFile c i body) P :=
  grows_operand fun _ _ => Cell.grows_access (Catalog.free_cellAt accepted _) inside

theorem grows_negate : Grows Γ (negate c i) fun _ _ => True := by
  refine grows_onFile accepted fun f free => ?_
  refine grows_bind (grows_copy (free_group _) (free_group _) free ?_) fun _ _ _ => ?_
  · exact (Expr.within_unaryOf ..).mpr (free Γ)
  · exact (keeps_pure trivial).grows (V := Anything) fun _ _ => trivial

theorem grows_clear : Grows Γ (clear c i) fun _ _ => True :=
  grows_onFile accepted fun _ free => grows_then (keeps_assign free (by simp)) fun _ _ =>
    (keeps_assign (free_group _) (by simp)).grows fun _ _ => trivial

theorem grows_storeFile {value : Expr} (within : value.Within Γ) :
    Grows Γ (storeFile c i value) fun _ _ => True :=
  grows_onFile accepted fun _ free => (keeps_assign free within).grows fun _ _ => trivial

theorem keeps_multiply {f : Expr} (free : f.Free) : Keeps Γ (multiply c f) Anything :=
  keeps_assign (accepted.free (by simp [CoreRegisters.toList]))
    ((Expr.within_binary ..).mpr ⟨free_wreg accepted Γ, free Γ⟩)

theorem grows_decimalAdjust : Grows Γ (decimalAdjust c) fun _ _ => True := by
  refine grows_then (keeps_apply ?_) fun _ within => grows_stored (free_wreg accepted) within
  simp only [List.forall_mem_cons, List.not_mem_nil, false_implies, implies_true, and_true]
  exact ⟨free_wreg accepted Γ, free_carry Γ, free_group _ Γ⟩

theorem grows_changeBit {op : BinaryOp} : Grows Γ (changeBit c i op) fun _ _ => True := by
  refine grows_operand fun (operand, bit) _ => ?_
  refine Cell.grows_access (Catalog.free_cellAt accepted _) fun place free => ?_
  exact grows_stored free (by simp [free Γ])

/-! ## Skips and branches -/

omit accepted in
theorem within_zeroTest (onZero : Bool) {value : Expr} (within : value.Within Γ) :
    (zeroTest onZero value).Within Γ := by
  cases onZero <;> simp [zeroTest, within]

theorem grows_countAndSkip {delta : Int} {onZero : Bool} :
    Grows Γ (countAndSkip c i next delta onZero) fun _ _ => True := by
  refine grows_operand fun (operand, dest) _ => ?_
  refine grows_bind (P := fun Δ e => e.Within Δ) ?_ fun Δ condition within =>
    (keeps_branch within _).grows fun _ _ => trivial
  refine Cell.grows_access (Catalog.free_cellAt accepted _) fun place free => ?_
  refine grows_bind (grows_store (free_placeFor accepted free dest) ?_) fun Δ value within => ?_
  · exact (Expr.within_addInt ..).mpr (free Γ)
  · exact (keeps_pure (within_zeroTest onZero within)).grows fun _ holds => holds

theorem grows_testAndSkip {test : Expr → Expr}
    (within : ∀ Δ, ∀ f : Expr, f.Free → (test f).Within Δ) :
    Grows Γ (testAndSkip c i next test) fun _ _ => True := by
  refine grows_bind (P := fun Δ e => e.Within Δ) ?_ fun Δ condition inside =>
    (keeps_branch inside _).grows fun _ _ => trivial
  exact grows_onFile accepted fun f free =>
    (keeps_pure (within Γ f free)).grows fun _ holds => holds

theorem grows_bitTestAndSkip {ifSet : Bool} :
    Grows Γ (bitTestAndSkip c i next ifSet) fun _ _ => True := by
  refine grows_operand fun (operand, bit) _ => ?_
  refine grows_bind (P := fun Δ e => e.Within Δ) ?_ fun Δ condition inside =>
    (keeps_branch inside _).grows fun _ _ => trivial
  refine Cell.grows_access (Catalog.free_cellAt accepted _) fun place free => ?_
  have within : (zeroTest (!ifSet) (place.and (.byte (bitMask bit.val)))).Within Γ :=
    within_zeroTest _ (by simp [Expr.and, free Γ])
  exact (keeps_pure within).grows fun _ holds => holds

omit accepted in
theorem keeps_branchOn {condition : Condition} {flag : Nat} :
    Keeps Γ (branchOn i condition flag) Anything :=
  keeps_operand fun _ _ => keeps_branch ((Expr.within_test ..).mpr (free_group _ Γ)) _

omit accepted in
theorem keeps_jump : Keeps Γ (jump i) Anything :=
  keeps_operand fun _ _ => keeps_goto (by simp)

/-! ## Calls and returns -/

/-- The shadows are registers. -/
theorem free_shadowed : ∀ pair ∈ shadowed c,
    (Expr.identifier pair.1).Free ∧ (Expr.identifier pair.2).Free := by
  have shadow : ∀ {id : Identifier}, id.IsRegister → (Expr.identifier id).Free :=
    fun register Γ => Expr.within_identifier.mpr (.of_isRegister register)
  simp only [shadowed, List.forall_mem_cons, List.not_mem_nil, false_implies, implies_true, and_true]
  exact ⟨⟨free_wreg accepted, shadow ⟨_, _, _, rfl⟩⟩,
    ⟨accepted.free (by simp [CoreRegisters.toList]), shadow ⟨_, _, _, rfl⟩⟩,
    ⟨accepted.free (by simp [CoreRegisters.toList]), shadow ⟨_, _, _, rfl⟩⟩⟩

theorem keeps_saveShadows : Keeps Γ (saveShadows c) Anything :=
  keeps_forM fun pair listed =>
    keeps_assign (free_shadowed accepted pair listed).2 ((free_shadowed accepted pair listed).1 Γ)

theorem keeps_restoreShadows : Keeps Γ (restoreShadows c) Anything :=
  keeps_forM fun pair listed =>
    keeps_assign (free_shadowed accepted pair listed).1 ((free_shadowed accepted pair listed).2 Γ)

theorem keeps_call : Keeps Γ (call c i) Anything :=
  keeps_operand fun _ _ =>
    keeps_when (keeps_saveShadows accepted) fun _ => Lowering.keeps_call (by simp) 0

theorem keeps_callComputed : Keeps Γ (callComputed c) Anything := by
  refine Lowering.keeps_call ?_ 0
  simp only [Expr.within_concat]
  exact ⟨accepted.free (by simp [CoreRegisters.toList]) Γ,
    accepted.free (by simp [CoreRegisters.toList]) Γ, free_wreg accepted Γ⟩

theorem keeps_returnFromCall : Keeps Γ (returnFromCall c i) Anything :=
  keeps_when (keeps_restoreShadows accepted) fun _ => keeps_ret 0 0

theorem keeps_returnFromInterrupt : Keeps Γ (returnFromInterrupt c i) Anything := by
  unfold returnFromInterrupt
  cases interruptEnable? c with
  | none => exact keeps_when (keeps_restoreShadows accepted) fun _ => keeps_ret 0 0
  | some found =>
      have enable : (Expr.identifier found.1.identifier).Free :=
        fun Γ => Expr.within_identifier.mpr (.of_isRegister ⟨_, _, _, rfl⟩)
      exact keeps_when (keeps_restoreShadows accepted) fun _ =>
        keeps_bind (keeps_assign enable (by simpa using enable Γ)) fun _ _ => keeps_ret 0 0

theorem keeps_returnWithLiteral : Keeps Γ (returnWithLiteral c i) Anything :=
  keeps_operand fun _ _ =>
    keeps_bind (keeps_assign (free_wreg accepted) (by simp)) fun _ _ => keeps_ret 0 0

theorem keeps_unlink {sign : Int} : Keeps Γ (unlink c i sign) Anything :=
  keeps_operand fun _ _ =>
    keeps_bind (keeps_adjust (accepted.free (by simp [CoreRegisters.toList])) _) fun _ _ =>
      keeps_ret 0 0

/-! ## Pointers, literals and tables -/

theorem keeps_adjustPointer {sign : Int} : Keeps Γ (adjustPointer c i sign) Anything :=
  keeps_operand fun n _ => keeps_operand fun _ _ => keeps_adjust (accepted.free (Catalog.fsr_mem n)) _

theorem keeps_loadPointer : Keeps Γ (loadPointer c i) Anything :=
  keeps_operand fun n _ => keeps_operand fun _ _ =>
    keeps_assign (accepted.free (Catalog.fsr_mem n)) (by simp)

theorem keeps_selectBank : Keeps Γ (selectBank c i) Anything :=
  keeps_operand fun _ _ => keeps_assign (accepted.free (by simp [CoreRegisters.toList])) (by simp)

theorem grows_literalResult {flags : Nat} {compute : Expr → Expr → Expr}
    (within : ∀ w k : Expr, w.Free → k.Free → (compute w k).Within Γ) :
    Grows Γ (literalResult c i flags compute) fun _ _ => True :=
  grows_operand fun _ _ =>
    grows_stored (free_wreg accepted) (within _ _ (free_wreg accepted) fun Γ => by simp)

theorem keeps_multiplyLiteral : Keeps Γ (do multiply c (.byte (← i.literal 0))) Anything :=
  keeps_operand fun _ _ => keeps_multiply accepted fun Γ => by simp

theorem keeps_pushLiteral : Keeps Γ (pushLiteral c i) Anything := by
  have fsr2 : (Expr.identifier c.core.fsr2).Free := accepted.free (by simp [CoreRegisters.toList])
  exact keeps_operand fun _ _ => keeps_bind
    (keeps_assign (fun Γ => (Expr.within_memory ..).mpr (fsr2 Γ)) (by simp)) fun _ _ =>
      keeps_adjust fsr2 _

theorem keeps_push : Keeps Γ (push c i) Anything :=
  keeps_bind (keeps_adjust (accepted.free (by simp [CoreRegisters.toList])) _) fun _ _ =>
    keeps_assign (accepted.free (by simp [CoreRegisters.toList])) (by simp)

theorem keeps_withTablePointer {body : Lowering Unit} (inside : Keeps Γ body Anything) :
    Keeps Γ (withTablePointer c i body) Anything := by
  have tblptr : (Expr.identifier c.core.tblptr).Free :=
    accepted.free (by simp [CoreRegisters.toList])
  refine keeps_operand fun mode _ => ?_
  refine keeps_when (keeps_adjust tblptr _) fun _ => keeps_bind inside fun _ _ => ?_
  cases mode with
  | plain | preIncrement => exact keeps_pure trivial
  | postIncrement | postDecrement => exact keeps_adjust tblptr _

theorem keeps_tableRead : Keeps Γ (tableRead c i) Anything := by
  have tblptr : (Expr.identifier c.core.tblptr).Free :=
    accepted.free (by simp [CoreRegisters.toList])
  refine keeps_withTablePointer accepted (keeps_bind (keeps_apply ?_) fun _ within => ?_)
  · simpa using tblptr Γ
  · exact keeps_assign (accepted.free (by simp [CoreRegisters.toList])) within

theorem keeps_tableWrite : Keeps Γ (tableWrite c i) Anything := by
  refine keeps_withTablePointer accepted (keeps_intrinsic ?_)
  simp only [List.forall_mem_cons, List.not_mem_nil, false_implies, implies_true, and_true]
  exact ⟨accepted.free (by simp [CoreRegisters.toList]) Γ,
    accepted.free (by simp [CoreRegisters.toList]) Γ⟩

/-! ## Far moves -/

theorem free_farSource {source : Cell} (found : farSource c i = .ok source) : source.Free := by
  obtain ⟨o, -, read⟩ := Instruction.getElem?_of_expect found
  cases o with
  | data12 a | data14 a =>
      cases read
      exact Catalog.free_absoluteCell accepted a
  | index k =>
      cases read
      exact Catalog.free_cellAt accepted _
  | _ => cases read

/-- A far move that is refused as invalid throws nothing away, since it comes first. -/
theorem delimits_farMove : Delimits (farMove c i) := by
  refine delimits_operand fun address _ => ?_
  split
  · exact delimits_invalid
  · refine delimits_operand fun source found => Keeps.delimits (V := Anything) ?_
    have sourceFree := free_farSource accepted found
    have targetFree := Catalog.free_absoluteCell accepted address
    refine keeps_bind (Cell.keeps_enter sourceFree) fun src free => ?_
    refine keeps_bind (Cell.keeps_enter targetFree) fun dst free' => ?_
    refine keeps_bind (keeps_assign free' (free _)) fun _ _ => ?_
    exact keeps_bind (Cell.keeps_exit sourceFree) fun _ _ => Cell.keeps_exit targetFree

theorem keeps_indexedMove : Keeps Γ (indexedMove c i) Anything := by
  refine keeps_operand fun o _ => keeps_operand fun o' _ => ?_
  split
  · exact keeps_assign (Catalog.free_indexedPlace accepted _) (Catalog.free_indexedPlace accepted _ Γ)
  · exact keeps_fail _

end

/-! ## Every opcode -/

theorem delimits_instruction (accepted : c.Accepted) (i : Instruction) (next : Option Instruction) :
    Delimits (instruction c i next) := by
  have wreg : ∀ Γ, c.core.wreg.InScope Γ := fun Γ => Expr.within_identifier.mp (free_wreg accepted Γ)
  have carry : ∀ Γ, Status.carry.Within Γ := free_carry
  unfold instruction
  generalize i.opcode = opcode
  cases opcode with
  | addwf | addwfc | subwf | subwfb | subfwb | incf | decf | andwf | iorwf | xorwf | comf | movf =>
      exact (grows_arithmetic accepted fun f free => by
        simp [free [], wreg, carry, Expr.add, Expr.sub, Expr.and, Expr.or, Expr.xor, Expr.not,
          Expr.complement]).delimits
  | rlncf | rrncf | rlcf | rrcf | swapf => exact (grows_viaIntrinsic accepted (by simp [carry])).delimits
  | negf => exact (grows_negate accepted).delimits
  | clrf => exact (grows_clear accepted).delimits
  | setf | movwf => exact (grows_storeFile accepted (by simp [wreg])).delimits
  | mulwf =>
      exact (grows_onFile accepted (P := fun _ _ => True) fun _ free =>
        (keeps_multiply accepted free).grows fun _ _ => trivial).delimits
  | daw => exact (grows_decimalAdjust accepted).delimits
  | bcf | bsf | btg => exact (grows_changeBit accepted).delimits
  | decfsz | dcfsnz | incfsz | infsnz => exact (grows_countAndSkip accepted).delimits
  | cpfseq | cpfsgt | cpfslt | tstfsz =>
      exact (grows_testAndSkip accepted fun Δ f free => by simp [free Δ, wreg]).delimits
  | btfsc | btfss => exact (grows_bitTestAndSkip accepted).delimits
  | bz | bnz | bc | bnc | bov | bnov | bn | bnn => exact keeps_branchOn.delimits
  | bra | goto => exact keeps_jump.delimits
  | call | rcall => exact (keeps_call accepted).delimits
  | callw => exact (keeps_callComputed accepted).delimits
  | ret => exact (keeps_returnFromCall accepted).delimits
  | retfie => exact (keeps_returnFromInterrupt accepted).delimits
  | retlw => exact (keeps_returnWithLiteral accepted).delimits
  | addulnk | subulnk => exact (keeps_unlink accepted).delimits
  | addfsr | subfsr => exact (keeps_adjustPointer accepted).delimits
  | lfsr => exact (keeps_loadPointer accepted).delimits
  | movlb => exact (keeps_selectBank accepted).delimits
  | movlw | addlw | sublw | andlw | iorlw | xorlw =>
      exact (grows_literalResult accepted fun w k free free' => by
        simp [free [], free' [], Expr.add, Expr.sub, Expr.and, Expr.or, Expr.xor]).delimits
  | mullw => exact (keeps_multiplyLiteral accepted).delimits
  | pushl => exact (keeps_pushLiteral accepted).delimits
  | push => exact (keeps_push accepted).delimits
  | pop => exact (keeps_adjust (accepted.free (by simp [CoreRegisters.toList])) _).delimits
  | tblrd => exact (keeps_tableRead accepted).delimits
  | tblwt => exact (keeps_tableWrite accepted).delimits
  | movff | movffl | movsf | movsfl => exact delimits_farMove accepted
  | movss => exact (keeps_indexedMove accepted).delimits
  | sleep | clrwdt => exact (keeps_intrinsic (by simp)).delimits
  | reset => exact (keeps_bind (keeps_intrinsic (by simp)) fun _ _ => keeps_setFlow _).delimits
  | nop => exact keeps_nop.delimits
  | db | dw | de | ascii | idlocs | config | invalid => exact delimits_invalid

end Lower

theorem delimits_backend (accepted : c.Accepted) (i : Instruction) (next : Option Instruction) :
    Delimits ((backend c).lower i next) :=
  delimits_return false (Lower.delimits_instruction accepted i next)

end RegisterTransfer.Pic18
