/-
# RegisterTransfer.Proofs.Pic18.FileResult -- file-register instructions as the data sheet has them

`Instruction.fileRule?` says of an instruction on a file register which byte it works on, what it
stores and which flags follow; `FileRule.apply` is the state afterwards, and names all that changes.
`lowerWith_fileRule` shows that the cluster of the instruction leads there from every state, but for
the temporaries that it uses on the way.
-/
import RegisterTransfer.Pic18.Devices
import RegisterTransfer.Proofs.Pic18.Formula
import RegisterTransfer.Proofs.Pic18.Store
import RegisterTransfer.Proofs.Pic18.Totality

namespace RegisterTransfer.Pic18

set_option autoImplicit false

/-- What an instruction does to a file register and its flags. -/
structure FileRule where
  file : FileOperand
  dest : Destination
  formula : Formula
  /-- The flags that follow the result. -/
  codes : Nat := 0
  /-- The flags that the instruction sets on its own. -/
  own : Nat := 0
  ownValue : Nat → Bool := fun _ => false

/-- A negated byte sets the carry only if it is zero. -/
def FileRule.negated (file : FileOperand) : FileRule where
  file
  dest := .f
  formula := fun _ f _ => -f
  codes := Status.dc ||| Status.z ||| Status.ov ||| Status.n
  own := Status.c
  ownValue := fun value => value == 0

def FileRule.cleared (file : FileOperand) : FileRule where
  file
  dest := .f
  formula := fun _ _ _ => 0
  own := Status.z
  ownValue := fun _ => true

/-- The rule of an instruction that stores a byte made of the working register, a file register and
the carry. -/
def Instruction.fileRule? (i : Instruction) : Option FileRule :=
  match i.operands.head? with
  | some (.fileDest file dest) =>
      i.opcode.formula?.map fun (formula, codes) => { file, dest, formula, codes }
  | some (.file file) =>
      match i.opcode with
      | .negf => some (.negated file)
      | .clrf => some (.cleared file)
      | .setf => some { file, dest := .f, formula := fun _ _ _ => 255 }
      | .movwf => some { file, dest := .f, formula := fun w _ _ => w }
      | _ => none
  | some (.fileBit file bit) =>
      match i.opcode with
      | .bcf => some {
          file
          dest := .f
          formula := fun _ f _ => (f &&& (255 - 2 ^ bit.val) : Nat) }
      | .bsf => some { file, dest := .f, formula := fun _ f _ => (f ||| 2 ^ bit.val : Nat) }
      | .btg => some { file, dest := .f, formula := fun _ f _ => (f ^^^ 2 ^ bit.val : Nat) }
      | _ => none
  | _ => none

namespace Destination

/-- Where a result goes. -/
def place (c : Catalog) (p : Place) : Destination → Place
  | w => .register c.core.wreg
  | f => p

end Destination

/-- Store a byte in a place and set flags: some that follow it, and some on their own. -/
def deposit (I : Interpretation) (codes own : Nat) (ownValue : Bool) (target : Place) (value : Nat)
    (σ : State Cells) : State Cells :=
  (flagged I codes 8 value (target.write value σ)).setFlags "STATUS" own fun _ => ownValue

namespace FileRule

variable (rule : FileRule) (c : Catalog) (σ : State Cells)

def location : DataLocation := rule.file.location c

/-- The byte that is stored. -/
def value : Nat := rule.formula.value c σ ((c.denotes σ (rule.location c)).read σ)

/-- The state after an instruction. -/
def apply (I : Interpretation) : State Cells :=
  let value := rule.value c σ
  let target := rule.dest.place c (c.denotes σ (rule.location c))
  c.move (rule.location c) (deposit I rule.codes rule.own (rule.ownValue value) target value σ)

end FileRule

/-! ## Apart from temporaries -/

/-- A state with other temporaries. -/
def borrowing (σ : State Cells) (temporaries : Nat → Nat) : State Cells := { σ with temporaries }

theorem scratch_eq_borrowing (p : Place) (k value : Nat) (σ : State Cells) :
    p.scratch k value σ = borrowing σ (p.scratch k value σ).temporaries := by
  cases p <;> rfl

theorem forget_deposit (I : Interpretation) (codes own : Nat) (ownValue : Bool) (target : Place)
    (value : Nat) (σ : State Cells) :
    (deposit I codes own ownValue target value σ).forget =
      deposit I codes own ownValue target value σ.forget := by
  cases target <;> rfl

/-- A lowering whose statements lead from every state to the one that an update gives, apart from
temporaries. -/
def Performs (x : Lowering Unit) (update : Interpretation → State Cells → State Cells) : Prop :=
  Lowering.Writes x fun statements =>
    ∀ I σ, ∃ τ, σ.run I statements = (τ, none) ∧ τ.forget = (update I σ).forget

/-! ## A byte stored between the moves -/

namespace Catalog

variable {c : Catalog} {location : DataLocation}

/-- Writing a place leaves a register aside that is not the place. -/
theorem aside_write {target : Place} (value : Nat) (t : Nat → Nat) {id : Identifier}
    (apart : ∀ other, target = .register other → other ≠ id) :
    Aside id fun σ => target.write value (borrowing σ t) := by
  intro σ v
  cases target with
  | data address => rfl
  | register other =>
      exact congrArg (fun registers => { borrowing σ t with registers })
        (Cells.write_comm_of_ne σ.registers v value (apart other rfl))

theorem aside_deposit (I : Interpretation) (codes own : Nat) (ownValue : Bool) {target : Place}
    (value : Nat) (t : Nat → Nat) {id : Identifier}
    (apart : ∀ other, target = .register other → other ≠ id) :
    Aside id fun σ => deposit I codes own ownValue target value (borrowing σ t) := by
  intro σ v
  have written : target.write value (borrowing (σ.setRegister id v) t) =
      (target.write value (borrowing σ t)).setRegister id v := aside_write value t apart σ v
  simp only [deposit, written]
  rfl

/-- A register that is not the pointer of a window stays when the pointer moves. -/
theorem get_move {id : Identifier} (register : id.IsRegister) (σ : State Cells)
    (apart : ∀ kind n, c.window? location = some (kind, n) → id ≠ c.core.fsr n) :
    (c.move location σ).get id = σ.get id := by
  unfold move
  cases window : c.window? location with
  | none => rfl
  | some found =>
      rw [State.get_of_isRegister _ register, State.get_of_isRegister σ register]
      exact Cells.read_write_of_ne _ _ (apart _ _ window)

theorem read_entered (σ : State Cells) :
    (c.denotes σ location).read (c.entered location σ) = (c.denotes σ location).read σ := by
  unfold denotes entered move
  cases c.window? location with
  | none => rfl
  | some found =>
      obtain ⟨kind, n⟩ := found
      cases kind <;> rfl

theorem carryOf_entered (σ : State Cells) : carryOf (c.entered location σ) = carryOf σ := by
  unfold entered move
  cases c.window? location with
  | none => rfl
  | some found =>
      obtain ⟨kind, n⟩ := found
      cases kind <;> rfl

section Access

variable (accepted : c.Accepted)

include accepted

theorem forget_move (location : DataLocation) (σ : State Cells) :
    (c.move location σ).forget = c.move location σ.forget := by
  unfold move
  cases c.window? location with
  | none => rfl
  | some found =>
      have pointer : σ.forget.get (c.core.fsr found.2) = σ.get (c.core.fsr found.2) :=
        State.get_of_registers (accepted.isRegister_fsr found.2) rfl
      simp only [pointer]
      rfl

/-- A window is a byte of memory, and its pointer is not the working register. -/
theorem apart_of_window (dest : Destination) (σ : State Cells) {kind : Indirect} {n : Fin 3}
    (window : c.window? location = some (kind, n)) (other : Identifier)
    (same : dest.place c (c.denotes σ location) = .register other) : other ≠ c.core.fsr n := by
  cases dest with
  | w =>
      cases same
      exact accepted.wreg_ne_fsr n
  | f =>
      unfold Destination.place denotes at same
      rw [window] at same
      cases same

theorem get_wreg_entered (σ : State Cells) :
    (c.entered location σ).get c.core.wreg = σ.get c.core.wreg := by
  have moved : (c.move location σ).get c.core.wreg = σ.get c.core.wreg :=
    get_move accepted.isRegister_wreg σ fun _ n _ => accepted.wreg_ne_fsr n
  unfold entered
  split
  · exact moved
  · rfl

/-- A formula has the same value once the pointer has moved. -/
theorem value_entered (formula : Formula) (σ : State Cells) (byte : Nat) :
    formula.value c (c.entered location σ) byte = formula.value c σ byte := by
  rw [Formula.value, Formula.value, get_wreg_entered accepted, carryOf_entered]

/-- An access whose statements deposit the byte of a rule performs the rule. -/
theorem performs_access (rule : FileRule) {body : Expr → Lowering Unit}
    {statements : List Statement} {k : Nat}
    (emits : Lowering.Emits 0 (body (c.cellAt (rule.location c)).place) () statements k)
    (inside : ∀ I σ p (value : Nat), Denotes I σ.registers (c.cellAt (rule.location c)).place p →
      p.bits = 8 → value = rule.formula.value c σ (p.read σ) →
      ∃ t, σ.run I statements = (deposit I rule.codes rule.own (rule.ownValue value)
        (rule.dest.place c p) value (borrowing σ t), none))
    (bounded : ∀ a, rule.location c = .absolute a → a < 2 ^ 16) :
    Performs ((c.cellAt (rule.location c)).access body) fun I σ => rule.apply c σ I := by
  refine ⟨_, _, (c.cellAt (rule.location c)).emits_access emits, fun I σ => ?_⟩
  have place := denotes_place accepted (I := I) (rule.location c) bounded σ
  have value : ∀ byte, rule.formula.value c (c.entered (rule.location c) σ) byte =
      rule.formula.value c σ byte := value_entered accepted rule.formula σ
  obtain ⟨t, ran⟩ := inside I _ _ (rule.value c σ) place (c.bits_denotes σ _)
    (by rw [value, read_entered]; rfl)
  refine ⟨_, run_access accepted _ σ (fun kind n window => aside_deposit I _ _ _ _ _
    (apart_of_window accepted rule.dest σ window)) ran, ?_⟩
  rw [forget_move accepted, forget_deposit]
  refine Eq.symm ((forget_move accepted _ _).trans ?_)
  rw [forget_deposit]
  rfl

end Access

end Catalog

/-! ## Every kind of instruction -/

section Kinds

variable {c : Catalog} {I : Interpretation} {σ : State Cells} {e : Expr} {p : Place}

theorem denotes_placeFor (accepted : c.Accepted) (place : Denotes I σ.registers e p)
    (dest : Destination) :
    Denotes I σ.registers (Lower.placeFor c e dest) (dest.place c p) := by
  cases dest with
  | w => exact .register accepted.isRegister_wreg
  | f => exact place

/-- Copying what computes a formula leaves its value in the destination. -/
theorem run_stored (accepted : c.Accepted) (wide : c.core.wreg.bits = 8) {compute : Expr → Expr}
    {formula : Formula} (computes : Computes c compute formula) (flags : Nat) {mode : CopyMode}
    (split : mode.split = true) (dest : Destination) (place : Denotes I σ.registers e p)
    (eight : p.bits = 8) {value : Nat} (is : value = formula.value c σ (p.read σ)) :
    ∃ t, σ.run I (Lowering.copied (Status.model flags) mode 0 (Lower.placeFor c e dest)
        (compute e)).statements =
      (copyFlags I flags mode 8 value ((dest.place c p).write value (borrowing σ t)), none) := by
  have byte : e.type.bits = 8 := place.bits.trans eight
  have read : e.eval I σ = p.read σ := place.eval rfl
  have small : e.eval I σ < 256 := by
    have inside := place.read_lt σ
    rw [eight] at inside
    rw [read]
    exact inside
  have given : (compute e).eval I σ = value := by
    rw [is, computes.eval I σ e byte small, read]
  have inside : value < 256 := by
    rw [is]
    exact Bits.ofInt_lt 8 _
  have wideTarget : (dest.place c p).bits = 8 := by
    cases dest with
    | w => exact wide
    | f => exact eight
  have ran := run_copied flags split 0 (denotes_placeFor accepted place dest)
    (computes.silent I σ e (place.silent σ)) (computes.byte e byte) (lt_of_eq_of_lt given inside)
  have whole : value % 2 ^ 8 = value := Nat.mod_eq_of_lt inside
  simp only [given, wideTarget, whole] at ran
  rw [scratch_eq_borrowing] at ran
  exact ⟨_, ran⟩

/-- Storing with a mask of flags sets these. -/
theorem copyFlags_store (flags value : Nat) (b : Bool) (target : Place) :
    copyFlags I flags (if flags = 0 then .viaTemporary else .withFlags) 8 value
        (target.write value σ) =
      deposit I flags 0 b target value σ := by
  unfold deposit
  rw [State.setFlags_zero]
  by_cases none_ : flags = 0
  · rw [if_pos none_, none_]
    exact (State.setFlags_zero _ _ _).symm
  · rw [if_neg none_]
    rfl

theorem split_store (flags : Nat) :
    (if flags = 0 then CopyMode.viaTemporary else CopyMode.withFlags).split = true := by
  split <;> rfl

variable {i : Instruction} {file : FileOperand}

theorem performs_arithmetic (accepted : c.Accepted) (wide : c.core.wreg.bits = 8)
    {dest : Destination} {formula : Formula} {compute : Expr → Expr}
    (operand : i.fileDest = .ok (file, dest)) (computes : Computes c compute formula)
    (codes : Nat) (bounded : ∀ a, file.location c = .absolute a → a < 2 ^ 16) :
    Performs (Lower.arithmetic c i codes compute) fun I σ =>
      FileRule.apply { file, dest, formula, codes } c σ I := by
  refine Lowering.Writes.operand operand ?_
  refine Catalog.performs_access accepted { file, dest, formula, codes }
    (Lowering.emits_bind (Lowering.emits_pure _)
      (Lowering.emits_return () (Lowering.emits_copy _ _ _ _))) ?_ bounded
  intro I σ p value place eight is
  simp only [← copyFlags_store]
  exact run_stored accepted wide computes codes (split_store codes) dest place eight is

/-- An operation on one bit stores what it computes and sets no flag. -/
theorem performs_changeBit (accepted : c.Accepted) (wide : c.core.wreg.bits = 8) {bit : Fin 8}
    {formula : Formula} {op : BinaryOp} (operand : i.fileBit = .ok (file, bit))
    (computes : Computes c (fun f => .binary op .byte f
      (.byte (if op = .and then ~~~bitMask bit.val else bitMask bit.val))) formula)
    (bounded : ∀ a, file.location c = .absolute a → a < 2 ^ 16) :
    Performs (Lower.changeBit c i op) fun I σ =>
      FileRule.apply { file, dest := .f, formula } c σ I := by
  refine Lowering.Writes.operand operand ?_
  refine Catalog.performs_access accepted { file, dest := .f, formula }
    (Lowering.emits_return () (Lowering.emits_copy _ _ _ _)) ?_ bounded
  intro I σ p value place eight is
  simp only [← copyFlags_store]
  exact run_stored accepted wide computes 0 (split_store 0) .f place eight is

theorem performs_negate (accepted : c.Accepted) (wide : c.core.wreg.bits = 8)
    (operand : i.file = .ok file) (bounded : ∀ a, file.location c = .absolute a → a < 2 ^ 16) :
    Performs (Lower.negate c i) fun I σ => (FileRule.negated file).apply c σ I := by
  refine Lowering.Writes.operand operand ?_
  refine Catalog.performs_access accepted (.negated file)
    (Lowering.emits_return () (Lowering.emits_copy _ _ _ _)) ?_ bounded
  intro I σ p value place eight is
  exact run_stored accepted wide .negate _ rfl .f place eight is

theorem performs_clear (accepted : c.Accepted) (operand : i.file = .ok file)
    (bounded : ∀ a, file.location c = .absolute a → a < 2 ^ 16) :
    Performs (Lower.clear c i) fun I σ => (FileRule.cleared file).apply c σ I := by
  refine Lowering.Writes.operand operand ?_
  refine Catalog.performs_access accepted (.cleared file)
    (Lowering.emits_bind (Lowering.emits_assign _ _) (Lowering.emits_assign _ _)) ?_ bounded
  intro I σ p value place _ is
  have zero : value = 0 := is
  have silent : (Expr.byte 0).applications I σ = [] := rfl
  have store := exec_place place silent
  have flag := exec_flag (I := I) (σ := p.write 0 σ) 2 (Expr.eval_ofBool true) rfl rfl
  refine ⟨σ.temporaries, (State.run_cons_of_falls _ store).trans ?_⟩
  rw [Expr.eval_byte, zero]
  refine (State.run_cons_of_falls [] flag).trans ?_
  unfold deposit flagged
  rw [show (FileRule.cleared file).codes = 0 from rfl, State.setFlags_zero]
  rfl

theorem performs_storeFile (accepted : c.Accepted) {formula : Formula} {src : Expr}
    (operand : i.file = .ok file) (computes : Computes c (fun _ => src) formula)
    (bounded : ∀ a, file.location c = .absolute a → a < 2 ^ 16) :
    Performs (Lower.storeFile c i src) fun I σ =>
      FileRule.apply { file, dest := .f, formula } c σ I := by
  refine Lowering.Writes.operand operand ?_
  refine Catalog.performs_access accepted { file, dest := .f, formula }
    (Lowering.emits_assign _ _) ?_ bounded
  intro I σ p value place eight is
  have silent := computes.silent I σ _ (place.silent σ)
  have inside := place.read_lt σ
  rw [eight] at inside
  have given : src.eval I σ = value := by
    rw [is, ← place.eval rfl]
    exact computes.eval I σ _ (place.bits.trans eight) (lt_of_eq_of_lt (place.eval rfl) inside)
  refine ⟨σ.temporaries, (State.run_cons_of_falls [] (exec_place place silent)).trans ?_⟩
  unfold deposit flagged
  rw [given, State.setFlags_zero, State.setFlags_zero]
  rfl

end Kinds

/-! ## Clusters -/

/-- A file operand that stands for an address stands for one of 16 bits. -/
theorem location_bounded {c : Catalog} (accepted : c.Accepted) (file : FileOperand) {address : Nat}
    (absolute : file.location c = .absolute address) : address < 2 ^ 16 := by
  unfold FileOperand.location DataMemory.resolve at absolute
  split at absolute
  · cases absolute
  · split at absolute
    · cases absolute
      exact accepted.remapAccess_lt _
    · cases absolute

/-- The mask of a bit, and its complement. -/
theorem toNat_bitMask (bit : Fin 8) :
    (bitMask bit.val).toNat = 2 ^ bit.val ∧ (~~~bitMask bit.val).toNat = 255 - 2 ^ bit.val := by
  revert bit
  decide

theorem Instruction.getElem?_of_head? {i : Instruction} {o : Operand}
    (shown : i.operands.head? = some o) : i.operands[0]? = some o := by
  rw [← List.head?_eq_getElem?, shown]

/-- The lowering of an instruction with a rule performs the rule. -/
theorem performs_fileRule {c : Catalog} (accepted : c.Accepted) (wide : c.core.wreg.bits = 8)
    {i : Instruction} {rule : FileRule} (found : i.fileRule? = some rule)
    (next : Option Instruction) :
    Performs (Lower.instruction c i next) fun I σ => rule.apply c σ I := by
  have bounded : ∀ a, rule.location c = .absolute a → a < 2 ^ 16 :=
    fun _ => location_bounded accepted rule.file
  unfold Instruction.fileRule? at found
  cases shown : i.operands.head? with
  | none =>
      rw [shown] at found
      cases found
  | some o =>
      rw [shown] at found
      have listed := Instruction.getElem?_of_head? shown
      cases o with
      | fileDest file dest =>
          obtain ⟨⟨formula, codes⟩, has, rfl⟩ := Option.map_eq_some_iff.mp found
          have given : i.fileDest = .ok (file, dest) := Instruction.expect_of_read listed rfl
          obtain ⟨compute, lowers, computes⟩ := instruction_of_formula? accepted wide has next
          rw [lowers]
          exact performs_arithmetic accepted wide given computes codes bounded
      | file file =>
          have given : i.file = .ok file := Instruction.expect_of_read listed rfl
          unfold Lower.instruction
          cases opcode : i.opcode <;>
            simp only [opcode, reduceCtorEq, Option.some.injEq] at found <;> subst found
          case negf => exact performs_negate accepted wide given bounded
          case clrf => exact performs_clear accepted given bounded
          case setf => exact performs_storeFile accepted given (computes_literal 0xFF) bounded
          case movwf =>
            exact performs_storeFile accepted given (computes_wreg accepted wide) bounded
      | fileBit file bit =>
          have given : i.fileBit = .ok (file, bit) := Instruction.expect_of_read listed rfl
          obtain ⟨mask, complement⟩ := toNat_bitMask bit
          unfold Lower.instruction
          cases opcode : i.opcode <;>
            simp only [opcode, reduceCtorEq, Option.some.injEq] at found <;> subst found
          case bcf =>
            exact performs_changeBit accepted wide given
              (computes_logical_literal (fun _ _ _ _ _ _ => rfl) complement) bounded
          case bsf =>
            exact performs_changeBit accepted wide given
              (computes_logical_literal (fun _ _ _ _ _ _ => rfl) mask) bounded
          case btg =>
            exact performs_changeBit accepted wide given
              (computes_logical_literal (fun _ _ _ _ _ _ => rfl) mask) bounded
      | _ => cases found

/-- On a regular table an instruction that can be lowered has a cluster, which runs as its lowering
was written. -/
theorem lowerWith_of_writes {c : Catalog} {i : Instruction} {next : Option Instruction}
    {property : List Statement → Prop}
    (writes : Lowering.Writes (Lower.instruction c i next) property) {t : IntrinsicTable}
    (regular : t.Regular) :
    ∃ flow settled t' statements,
      (backend c).lowerWith i next t = (.ok ⟨false, flow, settled⟩, t') ∧ property statements ∧
        ∀ I (σ : State Cells), σ.run I settled = σ.run I statements := by
  obtain ⟨statements, k, emits, holds⟩ := writes
  obtain ⟨flow, t', lowered, _⟩ :=
    (backend c).lowerWith_of_emits (Lowering.emits_return false emits) regular
  exact ⟨flow, _, t', statements, lowered, holds, fun I σ => σ.run_settled t' statements⟩

/-- On a loaded device whose working register is a byte, the cluster of an instruction with a rule
applies the rule in every state: the byte that its operand denoted is used, the result is stored
modulo 256, the flags are set, the pointer of a window moves, and nothing else changes but
temporaries. -/
theorem lowerWith_fileRule {device : Option Device} {c : Catalog}
    (loaded : Catalog.load device = .ok c) (wide : c.core.wreg.bits = 8) {i : Instruction}
    {rule : FileRule} (found : i.fileRule? = some rule) (next : Option Instruction)
    {t : IntrinsicTable} (regular : t.Regular) :
    ∃ flow statements t',
      (backend c).lowerWith i next t = (.ok ⟨false, flow, statements⟩, t') ∧
        ∀ I σ, ∃ τ, σ.run I statements = (τ, none) ∧ τ.forget = (rule.apply c σ I).forget := by
  obtain ⟨flow, settled, t', statements, lowered, performs, same⟩ :=
    lowerWith_of_writes (performs_fileRule (Catalog.accepted_of_load loaded) wide found next)
      regular
  refine ⟨flow, settled, t', lowered, fun I σ => ?_⟩
  rw [same]
  exact performs I σ

/-- A built-in device is loaded, and has a window on its first pointer. -/
theorem load_pic18f4620 : ∃ c, Catalog.load (some Devices.Pic18f4620.device) = .ok c ∧
    c.core.wreg.bits = 8 ∧ c.core.fsr0.bits = 16 ∧
    FileOperand.location ⟨0xEE, true, .traditional⟩ c = .absolute 0xFEE ∧
    c.window? (.absolute 0xFEE) = some (.postInc, 0) :=
  ⟨_, rfl, rfl, rfl, rfl, rfl⟩

/-- Add the working register to the byte behind the first pointer, and move the pointer up. -/
def addwfPostInc0 : Instruction :=
  ⟨0x200, 2, .addwf, [.fileDest ⟨0xEE, true, .traditional⟩ .f]⟩

/-- The byte that the pointer pointed to has the sum, and the pointer has moved. -/
theorem lowerWith_fileRule_addwf :
    ∃ c, Catalog.load (some Devices.Pic18f4620.device) = .ok c ∧
      ∃ flow statements t',
        (backend c).lowerWith addwfPostInc0 none .empty = (.ok ⟨false, flow, statements⟩, t') ∧
          ∀ I (σ : State Cells), ∃ τ, σ.run I statements = (τ, none) ∧
            (Place.data (σ.get c.core.fsr0)).read τ =
              (σ.get c.core.wreg + (Place.data (σ.get c.core.fsr0)).read σ) % 256 ∧
            τ.get c.core.fsr0 = (σ.get c.core.fsr0 + 1) % 2 ^ 16 := by
  obtain ⟨c, loaded, wide, pointer, located, window⟩ := load_pic18f4620
  obtain ⟨flow, statements, t', lowered, runs⟩ :=
    lowerWith_fileRule loaded wide (i := addwfPostInc0) rfl none IntrinsicTable.regular_empty
  refine ⟨c, loaded, flow, statements, t', lowered, fun I σ => ?_⟩
  obtain ⟨τ, ran, same⟩ := runs I σ
  have place : c.denotes σ (.absolute 0xFEE) = .data (σ.get c.core.fsr0) := by
    unfold Catalog.denotes
    rw [window]
    rfl
  simp only [FileRule.apply, FileRule.value, FileRule.location, located, Destination.place, place,
    Catalog.move, window] at same
  have isRegister := (Catalog.accepted_of_load loaded).isRegister_fsr 0
  generalize is : deposit I _ _ _ _ _ σ = d at same
  have memory := congrArg State.memory same
  have registers := congrArg State.registers same
  refine ⟨τ, ran, ?_, ?_⟩
  · have stored : τ.memory none (σ.get c.core.fsr0) = UInt8.ofNat (Bits.ofInt 8
        (σ.get c.core.wreg + (Place.data (σ.get c.core.fsr0)).read σ : Nat)) := by
      refine (congrFun (congrFun memory none) _).trans ?_
      rw [← is]
      exact if_pos ⟨rfl, rfl⟩
    show (τ.memory none (σ.get c.core.fsr0)).toNat = _
    rw [stored, Bits.ofInt_natCast, UInt8.toNat_ofNat']
    exact Nat.mod_mod _ _
  · have kept : d.get (c.core.fsr 0) = σ.get c.core.fsr0 := by
      rw [← is]
      exact State.get_of_registers isRegister rfl
    have moved : τ.get (c.core.fsr 0) = Bits.ofInt c.core.fsr0.bits (d.get (c.core.fsr 0) + 1) %
        2 ^ c.core.fsr0.bits :=
      (State.get_of_registers (σ := τ) isRegister registers).trans
        (State.get_setRegister d.forget _ isRegister)
    rw [kept, pointer] at moved
    exact moved.trans (Nat.mod_mod _ _)

end RegisterTransfer.Pic18
