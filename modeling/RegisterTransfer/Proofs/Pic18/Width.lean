/-
# RegisterTransfer.Proofs.Pic18.Width -- PIC18 register transfers are width correct

The type of a register is the word that holds as many bits as the device description says, and everything
else takes its type from there or says it on the spot.  On a device whose registers have the usual widths
(`Catalog.UsualWidths`) it all fits together: `Catalog.Typed` lists the types that follow, and from it there
is one lemma for each family of lowerings, up to `adds_instruction`.

* `lowerWith_sized`: every cluster of every instruction, also of one that no code decodes to.
-/
import RegisterTransfer.Proofs.Draft.Additions
import RegisterTransfer.Proofs.Expr.Width
import RegisterTransfer.Proofs.Pic18.Classification
import RegisterTransfer.Proofs.Pic18.Skip
import RegisterTransfer.Proofs.Stream.Eager

namespace RegisterTransfer.Pic18

set_option autoImplicit false

open Lowering
open Statement (Sized sized_assign)

/-! ## Registers of the usual widths -/

/-- The registers that lowerings use have as many bits as on the devices there are. -/
structure Catalog.UsualWidths (c : Catalog) : Prop where
  bytes : ∀ name ∈ ["WREG", "STATUS", "BSR", "TABLAT", "STKPTR", "PCLATH", "PCLATU"],
    ∀ r ∈ c.named? name, r.width = 8
  words : ∀ name ∈ ["FSR0", "FSR1", "FSR2", "PROD"], ∀ r ∈ c.named? name, r.width = 16
  addresses : ∀ name ∈ ["TBLPTR", "TOS"], ∀ r ∈ c.named? name, 17 ≤ r.width ∧ r.width ≤ 32
  /-- The register with the interrupt-enable bit. -/
  interrupts : ∀ enable ∈ Lower.interruptEnable? c, enable.1.width = 8

/-- The types of the registers that lowerings take values from and store values to. -/
structure Catalog.Typed (c : Catalog) : Prop where
  wreg : c.core.wreg.type = .byte
  status : c.core.status.type = .byte
  bsr : c.core.bsr.type = .byte
  fsr : ∀ n, (c.core.fsr n).type = .word16
  prod : c.core.prod.type = .word16
  tablat : c.core.tablat.type = .byte
  tos : c.core.tos.type = .word32
  interrupts : ∀ enable ∈ Lower.interruptEnable? c, enable.1.type = .byte

namespace Catalog

theorem named_of_coreRegister {registers : List Register} {name : String} {id : Identifier}
    (found : coreRegister registers name = .ok id) :
    ∃ r, findRegister? registers name = some r ∧ id = r.identifier := by
  unfold coreRegister at found
  split at found
  case h_1 r named =>
    cases found
    exact ⟨r, named, rfl⟩
  case h_2 => cases found

variable {device : Option Device} {c : Catalog}

theorem typed_of_load (loaded : load device = .ok c) (usual : c.UsualWidths) : c.Typed := by
  obtain ⟨d, -, checked⟩ := checked_of_load loaded
  have found := coreRegisters_ok checked.core
  rw [← checked.registers] at found
  have type : ∀ {name id}, coreRegister c.registers name = .ok id →
      ∃ r ∈ c.named? name, id.type = .word r.width := by
    intro name id listed
    obtain ⟨r, named, rfl⟩ := named_of_coreRegister listed
    exact ⟨r, named, rfl⟩
  have byte : ∀ {name id}, coreRegister c.registers name = .ok id →
      name ∈ ["WREG", "STATUS", "BSR", "TABLAT", "STKPTR", "PCLATH", "PCLATU"] →
      id.type = .byte := by
    intro name id listed known
    obtain ⟨r, named, is⟩ := type listed
    rw [is, usual.bytes name known r named]
    rfl
  have word : ∀ {name id}, coreRegister c.registers name = .ok id →
      name ∈ ["FSR0", "FSR1", "FSR2", "PROD"] → id.type = .word16 := by
    intro name id listed known
    obtain ⟨r, named, is⟩ := type listed
    rw [is, usual.words name known r named]
    rfl
  simp only [coreNames, CoreRegisters.toList, List.map_cons, List.cons.injEq] at found
  obtain ⟨wreg, status, bsr, fsr0, fsr1, fsr2, prod, -, tablat, -, tos, -⟩ := found
  refine ⟨byte wreg (by decide), byte status (by decide), byte bsr (by decide), fun n => ?_,
    word prod (by decide), byte tablat (by decide), ?_, fun enable found' => ?_⟩
  · obtain rfl | rfl | rfl := pointer_cases n
    · exact word fsr0 (by decide)
    · exact word fsr1 (by decide)
    · exact word fsr2 (by decide)
  · obtain ⟨r, named, is⟩ := type tos
    obtain ⟨low, high⟩ := usual.addresses "TOS" (by decide) r named
    rw [is, DataType.word, if_neg (by omega), if_neg (by omega), if_neg (by omega), if_pos high]
  · rw [Register.type, usual.interrupts enable found']
    rfl

end Catalog

/-! ## Bytes -/

/-- An expression of a byte, clean in what it accesses. -/
structure IsByte (e : Expr) : Prop where
  type : e.type = .byte
  bytewise : e.Bytewise

namespace IsByte

variable {a b : Expr}

theorem literal (k : UInt8) : IsByte (.byte k) := ⟨rfl, by simp⟩

theorem sameType (left : IsByte a) (right : b.Bytewise) (op : BinaryOp) :
    IsByte (.sameType op a b) := ⟨left.type, by simp [left.bytewise, right]⟩

theorem unaryOf (operand : IsByte a) (op : UnaryOp) : IsByte (.unaryOf op a) :=
  ⟨operand.type, by simp [operand.bytewise]⟩

theorem addInt (operand : IsByte a) (n : Int) : IsByte (a.addInt n) :=
  ⟨(a.type_addInt n).trans operand.type, by simp [operand.bytewise]⟩

theorem sized_assign (into : IsByte a) (value : IsByte b) : (Statement.assign a b).Sized :=
  Statement.sized_assign into.bytewise value.bytewise fun _ => by rw [into.type, value.type]

end IsByte

section Cells

variable {c : Catalog} (typed : c.Typed)

include typed

theorem isByte_wreg : IsByte (.identifier c.core.wreg) := ⟨typed.wreg, by simp⟩

namespace Catalog

theorem isByte_indexedPlace (k : UInt8) : IsByte (c.indexedPlace k) := by
  have wide : ((Expr.identifier c.core.fsr2).addInt k.toNat).type.bits = 16 := by
    rw [Expr.type_addInt]
    exact congrArg DataType.bits (typed.fsr 2)
  exact ⟨rfl, by simp [indexedPlace, wide]⟩

theorem isByte_windowCell (kind : Indirect) (n : Fin 3) : IsByte (c.windowCell kind n).place := by
  have wide : (c.core.fsr n).type.bits = 16 := by rw [typed.fsr n]; rfl
  cases kind <;>
    exact ⟨rfl, by simp [windowCell, Expr.add, Expr.sameType, Expr.type, wide]⟩

theorem isByte_absoluteCell (address : Nat) : IsByte (c.absoluteCell address).place := by
  unfold absoluteCell
  split
  · exact isByte_windowCell typed _ _
  · split
    · rename_i r found
      have wide : r.width = 8 := by
        have same := List.find?_some found
        simp only [Bool.and_eq_true, decide_eq_true_eq] at same
        exact same.2
      refine ⟨?_, by simp⟩
      show DataType.word r.width = .byte
      rw [wide]
      rfl
    · exact ⟨rfl, by simp [Expr.type, Expr.word, Constant.of, DataType.bits]⟩

theorem isByte_cellAt (location : DataLocation) : IsByte (c.cellAt location).place := by
  cases location with
  | indexed k => exact isByte_indexedPlace typed k
  | banked k => exact ⟨rfl, by simp [cellAt, bankedPlace, Expr.type, DataType.bits]⟩
  | absolute a => exact isByte_absoluteCell typed a

end Catalog

end Cells

/-! ## Moves of pointers -/

theorem sized_adjust (id : Identifier) (n : Int) :
    (Statement.assign (.identifier id) ((Expr.identifier id).addInt n)).Sized :=
  sized_assign (by simp) (by simp) fun _ => by rw [Expr.type_addInt]

namespace Cell

variable {α : Type} {V : α → Prop} {cell : Cell}

theorem adds_enter (byte : IsByte cell.place) : Adds Sized cell.enter IsByte := by
  unfold enter
  cases cell.before with
  | none => exact adds_pure byte
  | some fsr => exact adds_bind (adds_assign (sized_adjust fsr 1)) fun _ _ => adds_pure byte

theorem adds_exit (cell : Cell) : Adds Sized cell.exit Anything := by
  unfold exit
  cases cell.after with
  | none => exact adds_pure trivial
  | some move => exact adds_assign (sized_adjust move.1 move.2)

theorem adds_access {body : Expr → Lowering α} (byte : IsByte cell.place)
    (inside : ∀ place, IsByte place → Adds Sized (body place) V) :
    Adds Sized (cell.access body) V := by
  refine adds_bind (adds_enter byte) fun place byte' => ?_
  refine adds_bind (inside place byte') fun result holds => ?_
  exact adds_bind cell.adds_exit fun _ _ => adds_pure holds

end Cell

namespace Lower

variable {c : Catalog} {i : Instruction} {next : Option Instruction}

theorem adds_adjust (id : Identifier) (delta : Int) : Adds Sized (adjust id delta) Anything :=
  adds_assign (sized_adjust id delta)

theorem adds_intrinsic {name : String} {arguments : List Expr}
    (clean : ∀ e ∈ arguments, e.Bytewise) : Adds Sized (effect name arguments) Anything :=
  adds_bind (adds_apply (V := Expr.Bytewise) (by simpa using clean)) fun _ clean =>
    adds_effect (Statement.sized_effect clean)

/-- Flags may be derived from any value. -/
theorem sized_flags (flags : Nat) {value : Expr} (clean : value.Bytewise) :
    (Statement.assign (.identifier (Status.model flags).group) (.conditionCodes value)).Sized ∧
      (Statement.assign (.identifier (Status.model flags).carry) value.isZero).Sized :=
  ⟨sized_assign (by simp) (by simpa using clean) nofun,
    sized_assign (by simp) (by simpa using clean) nofun⟩

theorem adds_copied (flags : Nat) (mode : CopyMode) {dst src : Expr} (into : IsByte dst)
    (value : IsByte src) : Adds Sized (.copy (Status.model flags) mode dst src) IsByte := by
  have kept : ∀ n, IsByte (.identifier (.temporary n src.type)) := fun n => ⟨value.type, by simp⟩
  refine adds_copy _ _ (into.sized_assign value) (fun n => ?_) into kept
    fun value' byte => sized_flags flags byte.bytewise
  exact ⟨(kept n).sized_assign value, into.sized_assign (kept n)⟩

/-- A result that is stored and not looked at again. -/
theorem adds_stored (flags : Nat) {dst src : Expr} (into : IsByte dst) (value : IsByte src) :
    Adds Sized (store flags dst src >>= fun _ => pure ()) Anything :=
  adds_bind (adds_copied flags _ into value) fun _ _ => adds_pure trivial

/-- A condition that a branch may decide on. -/
structure IsTest (e : Expr) : Prop where
  type : e.type = .bool
  bytewise : e.Bytewise

theorem isTest_zeroTest (onZero : Bool) {value : Expr} (clean : value.Bytewise) :
    IsTest (zeroTest onZero value) := by
  cases onZero <;> exact ⟨rfl, by simpa [zeroTest] using clean⟩

theorem adds_branchIf {condition : Expr} (test : IsTest condition) (target : Nat) :
    Adds Sized (.branch condition target) Anything :=
  adds_branch (Statement.sized_branch test.bytewise test.type target)

section Families

variable (typed : c.Typed)

include typed

/-! ## Bytes of a file register -/

theorem isByte_placeFor {place : Expr} (byte : IsByte place) (dest : Destination) :
    IsByte (placeFor c place dest) := by
  cases dest with
  | w => exact isByte_wreg typed
  | f => exact byte

theorem adds_fileResult {flags : Nat} {compute : Expr → Lowering Expr}
    (inside : ∀ f, IsByte f → Adds Sized (compute f) IsByte) :
    Adds Sized (fileResult c i flags compute) Anything := by
  refine adds_operand (i.reads_expect _ _ _) fun (operand, dest) _ => ?_
  refine Cell.adds_access (Catalog.isByte_cellAt typed _) fun place byte => ?_
  exact adds_bind (inside place byte) fun value byte' =>
    adds_stored flags (isByte_placeFor typed byte dest) byte'

theorem adds_arithmetic {flags : Nat} {compute : Expr → Expr}
    (byte : ∀ f, IsByte f → IsByte (compute f)) :
    Adds Sized (arithmetic c i flags compute) Anything :=
  adds_fileResult typed fun f byte' => adds_pure (byte f byte')

theorem adds_viaIntrinsic {flags : Nat} {name : String} {more : List Expr}
    (clean : ∀ e ∈ more, e.Bytewise) : Adds Sized (viaIntrinsic c i flags name more) Anything :=
  adds_fileResult typed fun _ byte =>
    adds_apply ⟨rfl, by simpa using ⟨byte.bytewise, clean⟩⟩

theorem adds_onFile {α : Type} {V : α → Prop} {body : Expr → Lowering α}
    (inside : ∀ f, IsByte f → Adds Sized (body f) V) : Adds Sized (onFile c i body) V :=
  adds_operand (i.reads_expect _ _ _) fun _ _ =>
    Cell.adds_access (Catalog.isByte_cellAt typed _) inside

theorem adds_negate : Adds Sized (negate c i) Anything :=
  adds_onFile typed fun _ byte =>
    adds_bind (adds_copied _ _ byte (byte.unaryOf .negate)) fun _ _ => adds_pure trivial

theorem adds_clear : Adds Sized (clear c i) Anything :=
  adds_onFile typed fun _ byte =>
    adds_bind (adds_assign (byte.sized_assign (.literal 0))) fun _ _ =>
      adds_assign (sized_assign (by simp) (by simp) nofun)

theorem adds_storeFile {value : Expr} (byte : IsByte value) :
    Adds Sized (storeFile c i value) Anything :=
  adds_onFile typed fun _ byte' => adds_assign (byte'.sized_assign byte)

theorem adds_multiply {f : Expr} (byte : IsByte f) : Adds Sized (multiply c f) Anything := by
  refine adds_assign (sized_assign (by simp) (by simpa using byte.bytewise) fun _ => ?_)
  show DataType.uint16.bits = c.core.prod.type.bits
  rw [typed.prod]
  rfl

theorem adds_decimalAdjust : Adds Sized (decimalAdjust c) Anything :=
  adds_bind (adds_apply (V := IsByte) ⟨rfl, by simp [Status.carry]⟩) fun _ byte =>
    adds_stored _ (isByte_wreg typed) byte

theorem adds_changeBit {op : BinaryOp} : Adds Sized (changeBit c i op) Anything := by
  refine adds_operand (i.reads_expect _ _ _) fun (operand, bit) _ => ?_
  refine Cell.adds_access (Catalog.isByte_cellAt typed _) fun place byte => ?_
  exact adds_stored 0 byte ⟨rfl, by simpa using byte.bytewise⟩

/-! ## Skips and branches -/

theorem adds_countAndSkip {delta : Int} {onZero : Bool} :
    Adds Sized (countAndSkip c i next delta onZero) Anything := by
  refine adds_operand (i.reads_expect _ _ _) fun (operand, dest) _ => ?_
  refine adds_bind (V := IsTest) ?_ fun _ test => adds_branchIf test _
  refine Cell.adds_access (Catalog.isByte_cellAt typed _) fun place byte => ?_
  exact adds_bind (adds_copied 0 _ (isByte_placeFor typed byte dest) (byte.addInt delta))
    fun _ byte' => adds_pure (isTest_zeroTest onZero byte'.bytewise)

theorem adds_testAndSkip {test : Expr → Expr} (tests : ∀ f, IsByte f → IsTest (test f)) :
    Adds Sized (testAndSkip c i next test) Anything :=
  adds_bind (adds_onFile typed fun f byte => adds_pure (tests f byte)) fun _ test =>
    adds_branchIf test _

theorem adds_compareAndSkip {op : BinaryOp} :
    Adds Sized (compareAndSkip c i next op) Anything :=
  adds_testAndSkip typed fun _ byte => ⟨rfl, by simpa using byte.bytewise⟩

theorem adds_bitTestAndSkip {ifSet : Bool} : Adds Sized (bitTestAndSkip c i next ifSet) Anything := by
  refine adds_operand (i.reads_expect _ _ _) fun (operand, bit) _ => ?_
  refine adds_bind (V := IsTest) ?_ fun _ test => adds_branchIf test _
  exact Cell.adds_access (Catalog.isByte_cellAt typed _) fun place byte => adds_pure <|
    isTest_zeroTest _ (byte.sameType (Expr.bytewise_byte _) .and).bytewise

omit typed in
theorem adds_branchOn {condition : Condition} {flag : Nat} :
    Adds Sized (branchOn i condition flag) Anything :=
  adds_operand (i.reads_expect _ _ _) fun _ _ => adds_branchIf ⟨rfl, by simp⟩ _

omit typed in
theorem adds_jump : Adds Sized (jump i) Anything :=
  adds_operand (i.reads_expect _ _ _) fun _ _ => adds_goto (Statement.sized_goto (by simp))

/-! ## Calls and returns -/

/-- A register that a fast call saves is as wide as its shadow. -/
theorem bits_shadowed {pair : Identifier × Identifier} (listed : pair ∈ shadowed c) :
    pair.1.type = .byte ∧ pair.2.type = .byte := by
  simp only [shadowed, List.mem_cons, List.not_mem_nil, or_false] at listed
  rcases listed with rfl | rfl | rfl
  · exact ⟨typed.wreg, rfl⟩
  · exact ⟨typed.status, rfl⟩
  · exact ⟨typed.bsr, rfl⟩

theorem adds_saveShadows : Adds Sized (saveShadows c) Anything :=
  adds_forM fun _ listed =>
    have ⟨live, saved⟩ := bits_shadowed typed listed
    adds_assign (IsByte.sized_assign ⟨saved, by simp⟩ ⟨live, by simp⟩)

theorem adds_restoreShadows : Adds Sized (restoreShadows c) Anything :=
  adds_forM fun _ listed =>
    have ⟨live, saved⟩ := bits_shadowed typed listed
    adds_assign (IsByte.sized_assign ⟨live, by simp⟩ ⟨saved, by simp⟩)

theorem adds_callTo : Adds Sized (call c i) Anything :=
  adds_operand (i.reads_expect _ _ _) fun _ _ =>
    adds_when (adds_saveShadows typed) fun _ => adds_call (Statement.sized_call (by simp) 0)

omit typed in
theorem adds_callComputed : Adds Sized (callComputed c) Anything :=
  adds_call (Statement.sized_call (by simp) 0)

theorem adds_returnFromCall : Adds Sized (returnFromCall c i) Anything :=
  adds_when (adds_restoreShadows typed) fun _ => adds_ret (Statement.sized_ret 0 0)

theorem adds_returnFromInterrupt : Adds Sized (returnFromInterrupt c i) Anything := by
  unfold returnFromInterrupt
  cases enabled : interruptEnable? c with
  | none =>
      exact adds_when (adds_restoreShadows typed) fun _ => adds_ret (Statement.sized_ret 0 0)
  | some found =>
      refine adds_when (adds_restoreShadows typed) fun _ => adds_bind (adds_assign ?_) fun _ _ =>
        adds_ret (Statement.sized_ret 0 0)
      have byte : IsByte (.identifier found.1.identifier) :=
        ⟨typed.interrupts found enabled, by simp⟩
      exact byte.sized_assign ⟨rfl, by simp⟩

theorem adds_returnWithLiteral : Adds Sized (returnWithLiteral c i) Anything :=
  adds_operand (i.reads_expect _ _ _) fun k _ =>
    adds_bind (adds_assign ((isByte_wreg typed).sized_assign (.literal k))) fun _ _ =>
      adds_ret (Statement.sized_ret 0 0)

omit typed in
theorem adds_unlink {sign : Int} : Adds Sized (unlink c i sign) Anything :=
  adds_operand (i.reads_expect _ _ _) fun _ _ =>
    adds_bind (adds_adjust _ _) fun _ _ => adds_ret (Statement.sized_ret 0 0)

/-! ## Pointers, literals and tables -/

omit typed in
theorem adds_adjustPointer {sign : Int} : Adds Sized (adjustPointer c i sign) Anything :=
  adds_operand (i.reads_expect _ _ _) fun _ _ =>
    adds_operand (i.reads_expect _ _ _) fun _ _ => adds_adjust _ _

theorem adds_loadPointer : Adds Sized (loadPointer c i) Anything := by
  refine adds_operand (i.reads_expect _ _ _) fun n _ => ?_
  refine adds_operand (i.reads_expect _ _ _) fun k _ => ?_
  refine adds_assign (sized_assign (by simp) (by simp) fun _ => ?_)
  show DataType.word16.bits = (c.core.fsr n).type.bits
  rw [typed.fsr n]

theorem adds_selectBank : Adds Sized (selectBank c i) Anything :=
  adds_operand (i.reads_expect _ _ _) fun k _ =>
    adds_assign (IsByte.sized_assign ⟨typed.bsr, by simp⟩ (.literal k))

theorem adds_literalResult {flags : Nat} {compute : Expr → Expr → Expr}
    (byte : ∀ w k, IsByte w → IsByte k → IsByte (compute w k)) :
    Adds Sized (literalResult c i flags compute) Anything :=
  adds_operand (i.reads_expect _ _ _) fun k _ =>
    adds_stored flags (isByte_wreg typed) (byte _ _ (isByte_wreg typed) (.literal k))

theorem adds_multiplyLiteral : Adds Sized (do multiply c (.byte (← i.literal 0))) Anything :=
  adds_operand (i.reads_expect _ _ _) fun k _ => adds_multiply typed (.literal k)

theorem adds_pushLiteral : Adds Sized (pushLiteral c i) Anything := by
  refine adds_operand (i.reads_expect _ _ _) fun k _ =>
    adds_bind (adds_assign (IsByte.sized_assign ⟨rfl, ?_⟩ (.literal k))) fun _ _ => adds_adjust _ _
  have wide : (Expr.identifier c.core.fsr2).type.bits = 16 := congrArg DataType.bits (typed.fsr 2)
  simp [wide]

theorem adds_push : Adds Sized (push c i) Anything := by
  refine adds_bind (adds_adjust _ _) fun _ _ =>
    adds_assign (sized_assign (by simp) (by simp) fun _ => ?_)
  show DataType.ptr32.bits = c.core.tos.type.bits
  rw [typed.tos]
  rfl

omit typed in
theorem adds_withTablePointer {body : Lowering Unit} (inside : Adds Sized body Anything) :
    Adds Sized (withTablePointer c i body) Anything := by
  refine adds_operand (i.reads_expect _ _ _) fun mode _ => ?_
  refine adds_when (adds_adjust _ _) fun _ => adds_bind inside fun _ _ => ?_
  cases mode with
  | plain | preIncrement => exact adds_pure trivial
  | postIncrement | postDecrement => exact adds_adjust _ _

theorem adds_tableRead : Adds Sized (tableRead c i) Anything :=
  adds_withTablePointer <|
    adds_bind (adds_apply (V := IsByte) ⟨rfl, by simp⟩) fun _ byte =>
      adds_assign (IsByte.sized_assign ⟨typed.tablat, by simp⟩ byte)

omit typed in
theorem adds_tableWrite : Adds Sized (tableWrite c i) Anything :=
  adds_withTablePointer (adds_intrinsic (by simp))

/-! ## Far moves -/

theorem isByte_farSource {source : Cell} (found : farSource c i = .ok source) :
    IsByte source.place := by
  unfold farSource Instruction.expect at found
  cases read : i.operand 0 with
  | error fault => rw [read] at found; cases found
  | ok o =>
      rw [read] at found
      cases o with
      | data12 a | data14 a => cases found; exact Catalog.isByte_absoluteCell typed a
      | index k => cases found; exact Catalog.isByte_cellAt typed _
      | _ => cases found

theorem adds_farMove : Adds Sized (farMove c i) Anything := by
  refine adds_operand (i.reads_expect _ _ _) fun address _ => ?_
  split
  · exact adds_invalid Statement.sized_invalid
  · refine adds_operand (i.reads_expect _ _ _) fun source found => ?_
    refine adds_bind (Cell.adds_enter (isByte_farSource typed found)) fun src byte => ?_
    refine adds_bind (Cell.adds_enter (Catalog.isByte_absoluteCell typed address)) fun dst byte' => ?_
    refine adds_bind (adds_assign (byte'.sized_assign byte)) fun _ _ => ?_
    exact adds_bind source.adds_exit fun _ _ => Cell.adds_exit _

theorem adds_indexedMove : Adds Sized (indexedMove c i) Anything := by
  refine adds_operand (i.reads_operand 0) fun o _ => adds_operand (i.reads_operand 1) fun o' _ => ?_
  split
  · exact adds_assign ((Catalog.isByte_indexedPlace typed _).sized_assign
      (Catalog.isByte_indexedPlace typed _))
  · exact adds_fail rfl

/-! ## Every opcode -/

theorem adds_instruction (i : Instruction) (next : Option Instruction) :
    Adds Sized (instruction c i next) Anything := by
  have w := isByte_wreg typed
  have carry : Status.carry.Bytewise := by simp [Status.carry]
  have borrow : Status.carry.not.Bytewise := by simp [Status.carry, Expr.not]
  unfold instruction
  generalize i.opcode = opcode
  cases opcode with
  | addwf => exact adds_arithmetic typed fun _ f => w.sameType f.bytewise .add
  | addwfc => exact adds_arithmetic typed fun _ f => (w.sameType f.bytewise .add).sameType carry .add
  | subwf => exact adds_arithmetic typed fun _ f => f.sameType w.bytewise .sub
  | subwfb => exact adds_arithmetic typed fun _ f => (f.sameType w.bytewise .sub).sameType borrow .sub
  | subfwb => exact adds_arithmetic typed fun _ f => (w.sameType f.bytewise .sub).sameType borrow .sub
  | incf => exact adds_arithmetic typed fun _ f => f.addInt 1
  | decf => exact adds_arithmetic typed fun _ f => f.addInt (-1)
  | andwf => exact adds_arithmetic typed fun _ f => w.sameType f.bytewise .and
  | iorwf => exact adds_arithmetic typed fun _ f => w.sameType f.bytewise .or
  | xorwf => exact adds_arithmetic typed fun _ f => w.sameType f.bytewise .xor
  | comf => exact adds_arithmetic typed fun _ f => f.unaryOf .complement
  | movf => exact adds_arithmetic typed fun _ f => f
  | rlncf | rrncf | rlcf | rrcf | swapf => exact adds_viaIntrinsic typed (by simp [carry])
  | negf => exact adds_negate typed
  | clrf => exact adds_clear typed
  | setf => exact adds_storeFile typed (.literal 0xFF)
  | movwf => exact adds_storeFile typed w
  | mulwf => exact adds_onFile typed fun _ => adds_multiply typed
  | daw => exact adds_decimalAdjust typed
  | bcf | bsf | btg => exact adds_changeBit typed
  | decfsz | dcfsnz | incfsz | infsnz => exact adds_countAndSkip typed
  | cpfseq | cpfsgt | cpfslt => exact adds_compareAndSkip typed
  | tstfsz => exact adds_testAndSkip typed fun _ f => ⟨rfl, by simpa using f.bytewise⟩
  | btfsc | btfss => exact adds_bitTestAndSkip typed
  | bz | bnz | bc | bnc | bov | bnov | bn | bnn => exact adds_branchOn
  | bra | goto => exact adds_jump
  | call | rcall => exact adds_callTo typed
  | callw => exact adds_callComputed
  | ret => exact adds_returnFromCall typed
  | retfie => exact adds_returnFromInterrupt typed
  | retlw => exact adds_returnWithLiteral typed
  | addulnk | subulnk => exact adds_unlink
  | addfsr | subfsr => exact adds_adjustPointer
  | lfsr => exact adds_loadPointer typed
  | movlb => exact adds_selectBank typed
  | movlw => exact adds_literalResult typed fun _ _ _ k => k
  | addlw => exact adds_literalResult typed fun _ _ w k => w.sameType k.bytewise .add
  | sublw => exact adds_literalResult typed fun _ _ w k => k.sameType w.bytewise .sub
  | andlw => exact adds_literalResult typed fun _ _ w k => w.sameType k.bytewise .and
  | iorlw => exact adds_literalResult typed fun _ _ w k => w.sameType k.bytewise .or
  | xorlw => exact adds_literalResult typed fun _ _ w k => w.sameType k.bytewise .xor
  | mullw => exact adds_multiplyLiteral typed
  | pushl => exact adds_pushLiteral typed
  | push => exact adds_push typed
  | pop => exact adds_adjust _ _
  | tblrd => exact adds_tableRead typed
  | tblwt => exact adds_tableWrite
  | movff | movffl | movsf | movsfl => exact adds_farMove typed
  | movss => exact adds_indexedMove typed
  | sleep | clrwdt => exact adds_intrinsic (by simp)
  | reset => exact adds_bind (adds_intrinsic (by simp)) fun _ _ => adds_setFlow _
  | nop => exact adds_nop Statement.sized_nop
  | db | dw | de | ascii | idlocs | config | invalid => exact adds_invalid Statement.sized_invalid

end Families

end Lower

/-! ## Clusters -/

theorem sized_of_lowered {c : Catalog} (typed : c.Typed) {i : Instruction} {next : Option Instruction}
    {t t' : IntrinsicTable} {l : Backend.Lowered}
    (lowered : (backend c).lowerWith i next t = (.ok l, t')) : ∀ s ∈ l.statements, s.Sized := by
  obtain ⟨d, drafted, -, -, same⟩ := Backend.drafted_of_lowered lowered
  have all : d.All Sized :=
    ((Lower.adds_instruction typed i next).holds .empty (lowered_of_draft drafted).2).2
  rw [same]
  exact List.forall_mem_map.mpr fun s listed => (all s listed).mapIntrinsics _

/-- On a loaded device with registers of the usual widths, whatever instruction is lowered, with any
operands, before any other and against any table: if it gets a cluster, every assignment in it that does
not set a group of flags has a source of as many bits as its destination; every access to memory, however
deep in an expression, is to a byte at an address of 16 bits and in no segment; and every branch decides on
a truth value. -/
theorem lowerWith_sized {device : Option Device} {c : Catalog} (loaded : Catalog.load device = .ok c)
    (usual : c.UsualWidths) {i : Instruction} {next : Option Instruction} {t t' : IntrinsicTable}
    {l : Backend.Lowered} (lowered : (backend c).lowerWith i next t = (.ok l, t')) :
    ∀ s ∈ l.statements,
      (∀ dst src, (dst, src) ∈ s.assignments → dst.isFlagGroup = false →
        src.type.bits = dst.type.bits) ∧
      (∀ type ea, .memory type ea ∈ s.parts → type = .byte ∧ ea.type.bits = 16) ∧
      (∀ type segment ea, .segmented type segment ea ∉ s.parts) ∧
      ∀ condition ∈ s.decisions, condition.type = .bool := by
  intro s listed
  have sized := sized_of_lowered (Catalog.typed_of_load loaded usual) lowered s listed
  refine ⟨fun dst src => sized.assigned (dst, src), fun type ea within => ?_,
    fun type segment ea within => ?_, sized.decided⟩
  · simpa [Expr.accessesByte] using sized.bytewise _ within
  · simpa [Expr.accessesByte] using sized.bytewise _ within

/-- The built-in devices have registers of the usual widths. -/
theorem usualWidths_builtin {entry : String × Device} (listed : entry ∈ Devices.builtin) :
    ∃ c, Catalog.load (some entry.2) = .ok c ∧ c.UsualWidths := by
  simp only [Devices.builtin, List.mem_cons, List.not_mem_nil, or_false] at listed
  rcases listed with rfl | rfl <;>
    exact ⟨_, rfl, by decide +kernel, by decide +kernel, by decide +kernel, by decide +kernel⟩

/-- A counting skip through a window of a built-in device. -/
theorem lowerWith_sized_decfsz :
    ∃ c, Catalog.load (some Devices.Pic18f4620.device) = .ok c ∧ c.UsualWidths ∧
      ∃ l t', (backend c).lowerWith decfszPostInc0 none .empty = (.ok l, t') ∧
        ∀ s ∈ l.statements,
          (∀ type ea, .memory type ea ∈ s.parts → type = .byte ∧ ea.type.bits = 16) ∧
          ∀ condition ∈ s.decisions, condition.type = .bool := by
  obtain ⟨c, loaded, usual⟩ := usualWidths_builtin List.mem_cons_self
  obtain ⟨l, t', lowered, -⟩ :=
    lowerWith_of_fits c (i := decfszPostInc0) none rfl IntrinsicTable.regular_empty
  refine ⟨c, loaded, usual, l, t', lowered, fun s listed => ?_⟩
  obtain ⟨-, memory, -, decided⟩ := lowerWith_sized loaded usual lowered s listed
  exact ⟨memory, decided⟩

end RegisterTransfer.Pic18
