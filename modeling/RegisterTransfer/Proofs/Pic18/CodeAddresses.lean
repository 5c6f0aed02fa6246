/-
# RegisterTransfer.Proofs.Pic18.CodeAddresses -- the code addresses that a cluster names

Program memory ends at `programSize`.  Code operands wrap there when they are made (`relativeTarget`,
`absoluteTarget`); the other code addresses of a cluster are sums that lowering takes of addresses and
lengths, and these do not wrap.

* `Lower.yields_instruction`: the code addresses of any instruction are those of its class, at most one;
* `addresses_inside_iff`: a cluster stays within program memory just if its instruction does not overrun
  it;
* `overruns_iff_of_decode`: of what was decoded, skips and PUSH at the end of program memory overrun it.
-/
import RegisterTransfer.Pic18.Devices
import RegisterTransfer.Proofs.Draft.Collection
import RegisterTransfer.Proofs.Pic18.RoundTrip
import RegisterTransfer.Proofs.Pic18.Totality

namespace RegisterTransfer

set_option autoImplicit false

/-! ## Code addresses -/

namespace Expr

/-- The code address that an expression is, if it is one. -/
def codeAddress? : Expr → Option Nat
  | address a => some a
  | _ => none

/-- The code addresses in an expression. -/
def codeAddresses (e : Expr) : List Nat := e.parts.filterMap codeAddress?

theorem codeAddresses_mapIntrinsics (f : Intrinsic → Intrinsic) (e : Expr) :
    (e.mapIntrinsics f).codeAddresses = e.codeAddresses := by
  have same : codeAddress? ∘ mapIntrinsics f = codeAddress? := by
    funext e
    cases e <;> rfl
  rw [codeAddresses, parts_mapIntrinsics, List.filterMap_map, same, codeAddresses]

/-- An expression without a code address. -/
def Aimless (e : Expr) : Prop := e.codeAddresses = []

section Constructors

variable (t : DataType) (a b : Expr)

@[simp]
theorem aimless_identifier (id : Identifier) : Aimless (identifier id) := rfl

@[simp]
theorem aimless_word (n : Nat) : Aimless (word n t) := rfl

@[simp]
theorem aimless_byte (k : UInt8) : Aimless (byte k) := rfl

@[simp]
theorem aimless_binary (op : BinaryOp) : Aimless (binary op t a b) ↔ Aimless a ∧ Aimless b := by
  have apart : (binary op t a b).codeAddresses = a.codeAddresses ++ b.codeAddresses :=
    List.filterMap_append ..
  rw [Aimless, apart, List.append_eq_nil_iff, Aimless, Aimless]

@[simp]
theorem aimless_concat : Aimless (concat t a b) ↔ Aimless a ∧ Aimless b := aimless_binary t a b .add

@[simp]
theorem aimless_memory : Aimless (memory t a) ↔ Aimless a := .rfl

@[simp]
theorem aimless_cast : Aimless (cast t a) ↔ Aimless a := .rfl

@[simp]
theorem aimless_conditionCodes : Aimless (conditionCodes a) ↔ Aimless a := .rfl

@[simp]
theorem aimless_test (c : Condition) : Aimless (test c a) ↔ Aimless a := .rfl

@[simp]
theorem aimless_apply (p : Intrinsic) (es : List Expr) :
    Aimless (apply p t es) ↔ ∀ e ∈ es, Aimless e := by
  show (partsList es).filterMap codeAddress? = [] ↔ _
  induction es with
  | nil => simp [partsList]
  | cons e rest ih => simp [partsList, ih, Aimless, codeAddresses]

@[simp]
theorem aimless_sameType (op : BinaryOp) : Aimless (sameType op a b) ↔ Aimless a ∧ Aimless b :=
  aimless_binary ..

@[simp]
theorem aimless_unaryOf (op : UnaryOp) : Aimless (unaryOf op a) ↔ Aimless a := .rfl

@[simp]
theorem aimless_addInt (n : Int) : Aimless (a.addInt n) ↔ Aimless a := by
  unfold addInt
  split <;> simp [sub, add]

@[simp]
theorem aimless_isZero : Aimless a.isZero ↔ Aimless a := by simp [isZero, eq, compare]

@[simp]
theorem aimless_isNonzero : Aimless a.isNonzero ↔ Aimless a := by simp [isNonzero, ne, compare]

end Constructors

end Expr

namespace Statement

/-- The code addresses that a statement goes to or holds. -/
def codeAddresses : Statement → List Nat
  | assign dst src => dst.codeAddresses ++ src.codeAddresses
  | branch condition target => target :: condition.codeAddresses
  | goto target | call target _ => target.codeAddresses
  | effect e => e.codeAddresses
  | guarded condition body => condition.codeAddresses ++ body.codeAddresses
  | ret .. | nop | invalid => []

theorem codeAddresses_mapIntrinsics (f : Intrinsic → Intrinsic) (s : Statement) :
    (s.mapIntrinsics f).codeAddresses = s.codeAddresses := by
  induction s <;> simp_all [mapIntrinsics, codeAddresses, Expr.codeAddresses_mapIntrinsics]

end Statement

namespace Pic18

open Lowering
open RegisterTransfer.Expr (Aimless)

/-! ## Lowerings without a code address -/

/-- The lowering adds no code address, and its value satisfies `V`. -/
abbrev Stays {α : Type} (x : Lowering α) (V : α → Prop) : Prop :=
  Collects Statement.codeAddresses x [] V

theorem stays_assign {dst src : Expr} (free : Aimless dst) (free' : Aimless src) :
    Stays (assign dst src) Anything :=
  collects_assign (List.append_eq_nil_iff.mpr ⟨free, free'⟩)

theorem stays_apply {name : String} {type : DataType} {arguments : List Expr}
    (free : ∀ e ∈ arguments, Aimless e) : Stays (apply name type arguments) Aimless :=
  collects_apply ((Expr.aimless_apply ..).mpr free)

theorem stays_copy {model : FlagModel} {mode : CopyMode} {dst src : Expr} (free : Aimless dst)
    (free' : Aimless src) : Stays (copy model mode dst src) Aimless := by
  have none_ : ∀ {a b : Expr}, Aimless a → Aimless b →
      (Statement.assign a b).codeAddresses = [] :=
    fun plain plain' => List.append_eq_nil_iff.mpr ⟨plain, plain'⟩
  refine collects_copy (none_ free free') (fun n => ⟨none_ rfl free', none_ free rfl⟩) free
    (fun _ => rfl) fun value plain => ?_
  have flags := none_ (a := .identifier model.group) rfl ((Expr.aimless_conditionCodes _).mpr plain)
  have carry := none_ (a := .identifier model.carry) rfl ((Expr.aimless_isZero _).mpr plain)
  unfold flagging
  split <;> split <;> simp [flags, carry]

/-! ## Cells -/

namespace Catalog

variable (c : Catalog)

theorem aimless_windowCell (kind : Indirect) (n : Fin 3) : Aimless (c.windowCell kind n).place := by
  cases kind <;> simp [windowCell, Expr.add]

theorem aimless_absoluteCell (address : Nat) : Aimless (c.absoluteCell address).place := by
  unfold absoluteCell
  split
  · exact c.aimless_windowCell _ _
  · split <;> simp

theorem aimless_indexedPlace (k : UInt8) : Aimless (c.indexedPlace k) := by
  simp [indexedPlace]

theorem aimless_cellAt (location : DataLocation) : Aimless (c.cellAt location).place := by
  cases location with
  | indexed k => exact c.aimless_indexedPlace k
  | banked k => simp [cellAt, bankedPlace]
  | absolute a => exact c.aimless_absoluteCell a

end Catalog

namespace Cell

variable {α : Type} {V : α → Prop} {cell : Cell}

theorem stays_enter (free : Aimless cell.place) : Stays cell.enter Aimless := by
  unfold enter
  cases cell.before with
  | none => exact collects_pure free
  | some fsr =>
      exact collects_then (stays_assign rfl (by simp)) fun _ _ => collects_pure free

theorem stays_exit (cell : Cell) : Stays cell.exit Anything := by
  unfold exit
  cases cell.after with
  | none => exact collects_pure trivial
  | some move => exact stays_assign rfl (by simp)

theorem stays_access {body : Expr → Lowering α} (free : Aimless cell.place)
    (inside : ∀ place, Aimless place → Stays (body place) V) : Stays (cell.access body) V := by
  refine collects_then (stays_enter free) fun place free => ?_
  refine collects_then (inside place free) fun result holds => ?_
  exact collects_then cell.stays_exit fun _ _ => collects_pure holds

end Cell

/-- The code address that an instruction has for its first operand, if it has one. -/
def Instruction.codeTargets (i : Instruction) : List Nat := (i.codeTarget 0).toOption.toList

namespace Lower

variable {c : Catalog} {i : Instruction} {next : Option Instruction}

/-! ## Statements that lowerings share -/

theorem stays_store (flags : Nat) {dst src : Expr} (free : Aimless dst) (free' : Aimless src) :
    Stays (store flags dst src) Aimless :=
  stays_copy free free'

/-- A result that is stored and not looked at again. -/
theorem stays_stored (flags : Nat) {dst src : Expr} (free : Aimless dst) (free' : Aimless src) :
    Stays (store flags dst src >>= fun _ => pure ()) Anything :=
  collects_then (stays_store flags free free') fun _ _ => collects_pure trivial

theorem stays_adjust (id : Identifier) (delta : Int) : Stays (adjust id delta) Anything :=
  stays_assign rfl (by simp)

theorem stays_effect {name : String} {arguments : List Expr}
    (free : ∀ e ∈ arguments, Aimless e) : Stays (effect name arguments) Anything :=
  collects_then (stays_apply free) fun _ plain => collects_effect plain

theorem aimless_placeFor {place : Expr} (free : Aimless place) (dest : Destination) :
    Aimless (placeFor c place dest) := by
  cases dest with
  | w => rfl
  | f => exact free

/-- A result that is computed from the byte of the file register and stored. -/
theorem stays_fileResult {flags : Nat} {compute : Expr → Lowering Expr}
    (inside : ∀ f, Aimless f → Stays (compute f) Aimless) :
    Stays (fileResult c i flags compute) Anything := by
  refine collects_operand fun (operand, dest) _ => ?_
  refine Cell.stays_access (c.aimless_cellAt _) fun place free => ?_
  exact collects_then (inside place free) fun _ plain =>
    stays_stored flags (aimless_placeFor free dest) plain

theorem stays_arithmetic {flags : Nat} {compute : Expr → Expr}
    (free : ∀ f, Aimless f → Aimless (compute f)) :
    Stays (arithmetic c i flags compute) Anything :=
  stays_fileResult fun f free' => collects_pure (free f free')

theorem stays_viaIntrinsic {flags : Nat} {name : String} {more : List Expr}
    (free : ∀ e ∈ more, Aimless e) : Stays (viaIntrinsic c i flags name more) Anything :=
  stays_fileResult fun _ free' => stays_apply (List.forall_mem_cons.mpr ⟨free', free⟩)

theorem stays_onFile {α : Type} {V : α → Prop} {body : Expr → Lowering α}
    (inside : ∀ f, Aimless f → Stays (body f) V) : Stays (onFile c i body) V :=
  collects_operand fun _ _ => Cell.stays_access (c.aimless_cellAt _) inside

theorem stays_negate : Stays (negate c i) Anything :=
  stays_onFile fun _ free => collects_then (stays_copy free free) fun _ _ => collects_pure trivial

theorem stays_clear : Stays (clear c i) Anything :=
  stays_onFile fun _ free =>
    collects_then (stays_assign free rfl) fun _ _ => stays_assign rfl rfl

theorem stays_storeFile {value : Expr} (free : Aimless value) :
    Stays (storeFile c i value) Anything :=
  stays_onFile fun _ free' => stays_assign free' free

theorem stays_multiply {f : Expr} (free : Aimless f) : Stays (multiply c f) Anything :=
  stays_assign rfl (by simp [free])

theorem stays_decimalAdjust : Stays (decimalAdjust c) Anything :=
  collects_then (stays_apply (by simp [Status.carry])) fun _ free => stays_stored _ rfl free

theorem stays_changeBit {op : BinaryOp} : Stays (changeBit c i op) Anything :=
  collects_operand fun (_, _) _ =>
    Cell.stays_access (c.aimless_cellAt _) fun _ free => stays_stored 0 free (by simp [free])

/-! ## Skips and branches -/

theorem aimless_zeroTest (onZero : Bool) {value : Expr} (free : Aimless value) :
    Aimless (zeroTest onZero value) := by
  cases onZero <;> simp [zeroTest, free]

/-- A branch has its target for its one address. -/
theorem collects_branchTo {condition : Expr} (free : Aimless condition) (target : Nat) :
    Collects Statement.codeAddresses (branch condition target) [target] Anything :=
  collects_branch (congrArg (target :: ·) free)

/-- A skip has the address past the instruction that it jumps over. -/
theorem collects_countAndSkip {delta : Int} {onZero : Bool} :
    Collects Statement.codeAddresses (countAndSkip c i next delta onZero) [skipTarget i next]
      Anything := by
  refine collects_operand fun (operand, dest) _ => ?_
  refine collects_then (V := Aimless) ?_ fun _ free => collects_branchTo free _
  refine Cell.stays_access (c.aimless_cellAt _) fun place free => ?_
  refine collects_then (stays_store 0 (aimless_placeFor free dest) ?_) fun _ plain =>
    collects_pure (aimless_zeroTest onZero plain)
  exact (Expr.aimless_addInt _ _).mpr free

theorem collects_testAndSkip {test : Expr → Expr} (free : ∀ f, Aimless f → Aimless (test f)) :
    Collects Statement.codeAddresses (testAndSkip c i next test) [skipTarget i next] Anything :=
  collects_then (stays_onFile fun f free' => collects_pure (free f free')) fun _ plain =>
    collects_branchTo plain _

theorem collects_bitTestAndSkip {ifSet : Bool} :
    Collects Statement.codeAddresses (bitTestAndSkip c i next ifSet) [skipTarget i next]
      Anything := by
  refine collects_operand fun (operand, bit) _ => ?_
  refine collects_then (V := Aimless) ?_ fun _ free => collects_branchTo free _
  refine Cell.stays_access (c.aimless_cellAt _) fun place free =>
    collects_pure (aimless_zeroTest _ ?_)
  simp [Expr.and, free]

theorem collects_target {g : Nat → Lowering Unit}
    (goes : ∀ target, Collects Statement.codeAddresses (g target) [target] Anything) :
    Collects Statement.codeAddresses (liftM (i.codeTarget 0) >>= g) i.codeTargets Anything := by
  refine collects_operand fun target found => ?_
  rw [Instruction.codeTargets, found]
  exact goes target

theorem collects_branchOn {condition : Condition} {flag : Nat} :
    Collects Statement.codeAddresses (branchOn i condition flag) i.codeTargets Anything :=
  collects_target fun target =>
    collects_branchTo ((Expr.aimless_test _ _).mpr (Expr.aimless_identifier _)) target

theorem collects_jump : Collects Statement.codeAddresses (jump i) i.codeTargets Anything :=
  collects_target fun _ => collects_goto rfl

/-! ## Calls and returns -/

theorem stays_saveShadows : Stays (saveShadows c) Anything :=
  collects_forM (fun _ => stays_assign (Expr.aimless_identifier _) (Expr.aimless_identifier _)) _

theorem stays_restoreShadows : Stays (restoreShadows c) Anything :=
  collects_forM (fun _ => stays_assign (Expr.aimless_identifier _) (Expr.aimless_identifier _)) _

theorem collects_callTarget : Collects Statement.codeAddresses (call c i) i.codeTargets Anything :=
  collects_target fun _ => collects_when stays_saveShadows fun _ => collects_call rfl

theorem stays_callComputed : Stays (callComputed c) Anything := collects_call rfl

theorem stays_returnFromCall : Stays (returnFromCall c i) Anything :=
  collects_when stays_restoreShadows fun _ => collects_ret rfl

theorem stays_returnFromInterrupt : Stays (returnFromInterrupt c i) Anything := by
  unfold returnFromInterrupt
  cases interruptEnable? c with
  | none => exact collects_when stays_restoreShadows fun _ => collects_ret rfl
  | some enable =>
      exact collects_when stays_restoreShadows fun _ =>
        collects_then (stays_assign rfl (by simp)) fun _ _ => collects_ret rfl

theorem stays_returnWithLiteral : Stays (returnWithLiteral c i) Anything :=
  collects_operand fun _ _ => collects_then (stays_assign rfl rfl) fun _ _ => collects_ret rfl

theorem stays_unlink {sign : Int} : Stays (unlink c i sign) Anything :=
  collects_operand fun _ _ => collects_then (stays_adjust _ _) fun _ _ => collects_ret rfl

/-! ## Pointers, literals and tables -/

theorem stays_adjustPointer {sign : Int} : Stays (adjustPointer c i sign) Anything :=
  collects_operand fun _ _ => collects_operand fun _ _ => stays_adjust _ _

theorem stays_loadPointer : Stays (loadPointer c i) Anything :=
  collects_operand fun _ _ => collects_operand fun _ _ => stays_assign rfl rfl

theorem stays_selectBank : Stays (selectBank c i) Anything :=
  collects_operand fun _ _ => stays_assign rfl rfl

theorem stays_literalResult {flags : Nat} {compute : Expr → Expr → Expr}
    (free : ∀ w k, Aimless w → Aimless k → Aimless (compute w k)) :
    Stays (literalResult c i flags compute) Anything :=
  collects_operand fun _ _ => stays_stored flags rfl (free _ _ rfl rfl)

theorem stays_multiplyLiteral : Stays (do multiply c (.byte (← i.literal 0))) Anything :=
  collects_operand fun _ _ => stays_multiply rfl

theorem stays_pushLiteral : Stays (pushLiteral c i) Anything :=
  collects_operand fun _ _ =>
    collects_then (stays_assign (by simp) rfl) fun _ _ => stays_adjust _ _

/-- PUSH has the address behind it. -/
theorem collects_pushAddress :
    Collects Statement.codeAddresses (push c i) [i.nextAddress] Anything :=
  collects_then (stays_adjust _ _) fun _ _ => collects_assign rfl

theorem stays_withTablePointer {body : Lowering Unit} (inside : Stays body Anything) :
    Stays (withTablePointer c i body) Anything := by
  refine collects_operand fun mode _ => ?_
  refine collects_when (stays_adjust _ _) fun _ => collects_then inside fun _ _ => ?_
  cases mode with
  | plain | preIncrement => exact collects_pure trivial
  | postIncrement | postDecrement => exact stays_adjust _ _

theorem stays_tableRead : Stays (tableRead c i) Anything :=
  stays_withTablePointer <|
    collects_then (stays_apply (by simp)) fun _ free => stays_assign rfl free

theorem stays_tableWrite : Stays (tableWrite c i) Anything :=
  stays_withTablePointer (stays_effect (by simp))

/-! ## Far moves -/

theorem aimless_farSource {source : Cell} (found : farSource c i = .ok source) :
    Aimless source.place := by
  obtain ⟨o, -, read⟩ := Instruction.getElem?_of_expect found
  cases o with
  | data12 a | data14 a =>
      cases read
      exact c.aimless_absoluteCell a
  | index k =>
      cases read
      exact c.aimless_cellAt _
  | _ => cases read

/-- A far move that is refused as invalid throws nothing away, since it comes first. -/
theorem yields_farMove : Yields Statement.codeAddresses (farMove c i) [] := by
  refine yields_operand fun address _ => ?_
  split
  · exact yields_invalid rfl
  · refine yields_operand fun source found => Collects.yields (V := Anything) ?_
    refine collects_then (Cell.stays_enter (aimless_farSource found)) fun src free => ?_
    refine collects_then (Cell.stays_enter (c.aimless_absoluteCell address)) fun dst free' => ?_
    refine collects_then (stays_assign free' free) fun _ _ => ?_
    exact collects_then source.stays_exit fun _ _ => Cell.stays_exit _

theorem stays_indexedMove : Stays (indexedMove c i) Anything := by
  refine collects_operand fun o _ => collects_operand fun o' _ => ?_
  split
  · exact stays_assign (c.aimless_indexedPlace _) (c.aimless_indexedPlace _)
  · exact collects_fail _

end Lower

/-! ## Every opcode -/

/-- Whether an instruction goes to the code address of its first operand. -/
def Opcode.hasTarget : Opcode → Bool
  | bz | bnz | bc | bnc | bov | bnov | bn | bnn | bra | goto | call | rcall => true
  | _ => false

/-- The code addresses of an instruction, which shows `next` behind it. -/
def Instruction.codeAddresses (i : Instruction) (next : Option Instruction) : List Nat :=
  if i.opcode.isSkip then [Lower.skipTarget i next]
  else if i.opcode.hasTarget then i.codeTargets
  else if i.opcode = .push then [i.nextAddress]
  else []

theorem Lower.yields_instruction (c : Catalog) (i : Instruction) (next : Option Instruction) :
    Yields Statement.codeAddresses (instruction c i next) (i.codeAddresses next) := by
  have carry : Aimless Status.carry := rfl
  unfold instruction Instruction.codeAddresses
  generalize i.opcode = opcode
  cases opcode with
  | addwf | addwfc | subwf | subwfb | subfwb | incf | decf | andwf | iorwf | xorwf | comf | movf =>
      exact (stays_arithmetic fun f free => by
        simp [free, carry, Expr.add, Expr.sub, Expr.and, Expr.or, Expr.xor, Expr.not,
          Expr.complement]).yields
  | rlncf | rrncf | rlcf | rrcf | swapf => exact (stays_viaIntrinsic (by simp [carry])).yields
  | negf => exact stays_negate.yields
  | clrf => exact stays_clear.yields
  | setf | movwf => exact (stays_storeFile (by simp)).yields
  | mulwf => exact (stays_onFile fun _ => stays_multiply).yields
  | daw => exact stays_decimalAdjust.yields
  | bcf | bsf | btg => exact stays_changeBit.yields
  | decfsz | dcfsnz | incfsz | infsnz => exact collects_countAndSkip.yields
  | cpfseq | cpfsgt | cpfslt | tstfsz =>
      exact (collects_testAndSkip fun f free => by simp [free]).yields
  | btfsc | btfss => exact collects_bitTestAndSkip.yields
  | bz | bnz | bc | bnc | bov | bnov | bn | bnn => exact collects_branchOn.yields
  | bra | goto => exact collects_jump.yields
  | call | rcall => exact collects_callTarget.yields
  | callw => exact stays_callComputed.yields
  | ret => exact stays_returnFromCall.yields
  | retfie => exact stays_returnFromInterrupt.yields
  | retlw => exact stays_returnWithLiteral.yields
  | addulnk | subulnk => exact stays_unlink.yields
  | addfsr | subfsr => exact stays_adjustPointer.yields
  | lfsr => exact stays_loadPointer.yields
  | movlb => exact stays_selectBank.yields
  | movlw | addlw | sublw | andlw | iorlw | xorlw =>
      exact (stays_literalResult fun w k free free' => by
        simp [free, free', Expr.add, Expr.sub, Expr.and, Expr.or, Expr.xor]).yields
  | mullw => exact stays_multiplyLiteral.yields
  | pushl => exact stays_pushLiteral.yields
  | push => exact collects_pushAddress.yields
  | pop => exact (stays_adjust _ _).yields
  | tblrd => exact stays_tableRead.yields
  | tblwt => exact stays_tableWrite.yields
  | movff | movffl | movsf | movsfl => exact yields_farMove
  | movss => exact stays_indexedMove.yields
  | sleep | clrwdt => exact (stays_effect (by simp)).yields
  | reset =>
      exact (collects_then (stays_effect (by simp)) fun _ _ => collects_setFlow _).yields
  | nop => exact (collects_nop rfl).yields
  | db | dw | de | ascii | idlocs | config | invalid => exact yields_invalid rfl

/-! ## Clusters -/

/-- The code addresses of a cluster are those of its instruction. -/
theorem codeAddresses_of_lowered {c : Catalog} {i : Instruction} {next : Option Instruction}
    {t t' : IntrinsicTable} {l : Backend.Lowered}
    (lowered : (backend c).lowerWith i next t = (.ok l, t')) :
    l.statements.flatMap Statement.codeAddresses = i.codeAddresses next :=
  Backend.flatMap_of_lowered (yields_return false (Lower.yields_instruction c i next))
    Statement.codeAddresses_mapIntrinsics lowered

/-! ## The end of program memory -/

/-- Bytes that a skip jumps over. -/
def skippedLength : Option Instruction → Nat
  | some next => next.length
  | none => 2

/-- The instruction names a code address past the end of program memory. -/
inductive Instruction.Overruns (i : Instruction) (next : Option Instruction) : Prop
  /-- What it skips reaches to the end. -/
  | skip (skips : i.opcode.isSkip = true) (end_ : programSize ≤ i.nextAddress + skippedLength next)
  /-- It stores the address of its own end. -/
  | push (pushes : i.opcode = .push) (end_ : i.nextAddress = programSize)
  /-- It was made with a target past the end. -/
  | jump {target : Nat} (jumps : i.opcode.hasTarget = true) (found : i.codeTarget 0 = .ok target)
      (end_ : programSize ≤ target)

/-- Code operands that can be encoded are within program memory: relative ones have wrapped there. -/
theorem codeTargets_lt_of_encodable {family : Family} {mode : Mode} {address : Nat} {body : Body}
    (encodable : body.Encodable family mode address) :
    ∀ target ∈ body.2.filterMap Operand.codeTarget?, target < programSize := by
  intro target listed
  cases encodable with
  | branch | longBranch =>
      rw [List.mem_singleton.mp listed]
      exact relativeTarget_lt _ _
  | goto _ inside | call _ inside =>
      rw [List.mem_singleton.mp listed]
      exact inside
  | _ => cases listed

/-- So are those that an instruction was decoded with. -/
theorem codeTarget_lt_of_decode {family : Family} {mode : Mode} {bytes : List UInt8} {address n : Nat}
    {i : Instruction} (decoded : decode family mode bytes address = .ok (some i)) {target : Nat}
    (found : i.codeTarget n = .ok target) : target < programSize := by
  obtain ⟨o, there, named⟩ := Instruction.getElem?_of_expect found
  have listed : target ∈ i.operands.filterMap Operand.codeTarget? :=
    List.mem_filterMap.mpr ⟨o, List.mem_of_getElem? there, named⟩
  rcases invalid_or_reads decoded with rfl | ⟨w, payloads, rest, reads, -⟩
  · cases listed
  · exact codeTargets_lt_of_encodable (writtenAs_of_reads reads).1 target listed

/-- Nothing that was decoded overruns by its operand. -/
theorem overruns_iff_of_decode {family : Family} {mode : Mode} {bytes : List UInt8} {address : Nat}
    {i : Instruction} (decoded : decode family mode bytes address = .ok (some i))
    {next : Option Instruction} :
    i.Overruns next ↔
      (i.opcode.isSkip = true ∧ programSize ≤ i.nextAddress + skippedLength next) ∨
        (i.opcode = .push ∧ i.nextAddress = programSize) := by
  constructor
  · rintro (⟨skips, end_⟩ | ⟨pushes, end_⟩ | ⟨-, found, end_⟩)
    · exact .inl ⟨skips, end_⟩
    · exact .inr ⟨pushes, end_⟩
    · exact absurd (codeTarget_lt_of_decode decoded found) (Nat.not_lt.mpr end_)
  · rintro (⟨skips, end_⟩ | ⟨pushes, end_⟩)
    · exact .skip skips end_
    · exact .push pushes end_

/-- A skip goes past what it skips. -/
theorem skipTarget_of_follows {i : Instruction} {next : Option Instruction}
    (follows : ∀ n, next = some n → n.address = i.nextAddress) :
    Lower.skipTarget i next = i.nextAddress + skippedLength next := by
  cases next with
  | none => rfl
  | some n =>
      rw [← follows n rfl]
      rfl

theorem mem_codeTargets {i : Instruction} {a : Nat} : a ∈ i.codeTargets ↔ i.codeTarget 0 = .ok a := by
  unfold Instruction.codeTargets
  cases i.codeTarget 0 <;> simp [Except.toOption, eq_comm]

/-- An address comes from a skip, from a code operand or from PUSH. -/
theorem mem_codeAddresses {i : Instruction} {next : Option Instruction} {a : Nat} :
    a ∈ i.codeAddresses next ↔
      (i.opcode.isSkip = true ∧ a = Lower.skipTarget i next) ∨
        (i.opcode.hasTarget = true ∧ i.codeTarget 0 = .ok a) ∨
          (i.opcode = .push ∧ a = i.nextAddress) := by
  rw [← mem_codeTargets, Instruction.codeAddresses]
  generalize i.opcode = op
  cases op <;> simp [Opcode.isSkip, Opcode.hasTarget]

/-- The code addresses of an instruction are within program memory unless it overruns. -/
theorem codeAddresses_lt_iff {i : Instruction} {next : Option Instruction}
    (inside : i.nextAddress ≤ programSize)
    (follows : ∀ n, next = some n → n.address = i.nextAddress) :
    (∀ a ∈ i.codeAddresses next, a < programSize) ↔ ¬i.Overruns next := by
  have past := skipTarget_of_follows follows
  constructor
  · rintro all (⟨skips, end_⟩ | ⟨pushes, end_⟩ | ⟨jumps, found, end_⟩)
    · have below := all _ (mem_codeAddresses.mpr (.inl ⟨skips, rfl⟩))
      omega
    · have below := all _ (mem_codeAddresses.mpr (.inr (.inr ⟨pushes, rfl⟩)))
      omega
    · have below := all _ (mem_codeAddresses.mpr (.inr (.inl ⟨jumps, found⟩)))
      omega
  · intro within a listed
    by_contra beyond
    rcases mem_codeAddresses.mp listed with ⟨skips, rfl⟩ | ⟨jumps, found⟩ | ⟨pushes, rfl⟩
    · exact within (.skip skips (by omega))
    · exact within (.jump jumps found (by omega))
    · exact within (.push pushes (by omega))

/-- Every code address in the cluster of an instruction within program memory is within program memory,
just if the instruction does not overrun it. -/
theorem addresses_inside_iff {c : Catalog} {i : Instruction} {next : Option Instruction}
    (inside : i.nextAddress ≤ programSize)
    (follows : ∀ n, next = some n → n.address = i.nextAddress) {t t' : IntrinsicTable}
    {l : Backend.Lowered} (lowered : (backend c).lowerWith i next t = (.ok l, t')) :
    (∀ a ∈ l.statements.flatMap Statement.codeAddresses, a < programSize) ↔ ¬i.Overruns next := by
  rw [codeAddresses_of_lowered lowered]
  exact codeAddresses_lt_iff inside follows

/-- `TSTFSZ 0x20` at an address. -/
def tstfsz (address : Nat) : Instruction := ⟨address, 2, .tstfsz, [.file ⟨0x20, true, .traditional⟩]⟩

theorem lowers_tstfsz : ∃ c, Catalog.load (some Devices.Pic18f4620.device) = .ok c ∧
    ∀ address next, ∃ l t', (backend c).lowerWith (tstfsz address) next .empty = (.ok l, t') := by
  refine ⟨_, rfl, fun address next => ?_⟩
  obtain ⟨l, t', lowered, -⟩ :=
    lowerWith_of_fits _ (i := tstfsz address) next rfl IntrinsicTable.regular_empty
  exact ⟨l, t', lowered⟩

/-- A skip branches to the last word of program memory. -/
theorem addresses_inside_iff_tstfsz :
    ∃ c, Catalog.load (some Devices.Pic18f4620.device) = .ok c ∧
      ∃ l t', (backend c).lowerWith (tstfsz 0x1FFFFA) (some (tstfsz 0x1FFFFC)) .empty = (.ok l, t') ∧
        ∀ a ∈ l.statements.flatMap Statement.codeAddresses, a < programSize := by
  obtain ⟨c, loaded, lowers⟩ := lowers_tstfsz
  obtain ⟨l, t', lowered⟩ := lowers 0x1FFFFA (some (tstfsz 0x1FFFFC))
  refine ⟨c, loaded, l, t', lowered, (addresses_inside_iff (by decide) ?_ lowered).mpr ?_⟩
  · rintro n ⟨⟩
    rfl
  · rintro (⟨-, end_⟩ | ⟨pushes, -⟩ | ⟨jumps, -, -⟩)
    · exact absurd end_ (by decide)
    · cases pushes
    · cases jumps

/-- In the last word a skip branches past the end of program memory, where a relative branch wraps. -/
theorem tstfsz_overruns :
    ∃ c, Catalog.load (some Devices.Pic18f4620.device) = .ok c ∧
      (tstfsz 0x1FFFFE).nextAddress ≤ programSize ∧
        ∃ l t', (backend c).lowerWith (tstfsz 0x1FFFFE) none .empty = (.ok l, t') ∧
          l.statements.flatMap Statement.codeAddresses = [0x200002] ∧ programSize < 0x200002 ∧
            relativeTarget 0x1FFFFE 1 = 2 := by
  obtain ⟨c, loaded, lowers⟩ := lowers_tstfsz
  obtain ⟨l, t', lowered⟩ := lowers 0x1FFFFE none
  exact ⟨c, loaded, by decide, l, t', lowered, codeAddresses_of_lowered lowered, by decide, by decide⟩

end Pic18

end RegisterTransfer
