/-
# RegisterTransfer.Proofs.Pic18.FileCell -- the byte that an operand denotes

A location in data memory denotes a `Place` in every state: a register, or a byte at an address.  This
module says which one (`Catalog.denotes`), without the expressions that lowering builds, and how the
pointer of an indirect-addressing register moves (`Catalog.move`).

* `Catalog.denotes_place`: once the pointer that moves first has moved, the expression of a cell reads
  and writes the place that its location denoted before;
* `Catalog.run_access`: statements around which a cell is accessed have their effect, and the pointer
  has moved.

Registers are separate cells here.
-/
import RegisterTransfer.Pic18.Lowering
import RegisterTransfer.Proofs.Draft.Emission
import RegisterTransfer.Proofs.Meaning.Arithmetic
import RegisterTransfer.Proofs.Pic18.Accepted

namespace RegisterTransfer.Pic18

set_option autoImplicit false

/-! ## Places -/

/-- A byte that instructions work on. -/
inductive Place where
  | register (id : Identifier)
  /-- The byte at an address of data memory. -/
  | data (address : Nat)

namespace Place

def read (p : Place) (σ : State Cells) : Nat :=
  match p with
  | register id => σ.get id
  | data address => (σ.memory none address).toNat

/-- Number of bits of what a place holds. -/
def bits : Place → Nat
  | register id => id.bits
  | data _ => 8

def write (p : Place) (value : Nat) (σ : State Cells) : State Cells :=
  match p with
  | register id => σ.setRegister id value
  | data address => σ.setByte address value

end Place

/-- An expression stands for a place whenever the registers are as given. -/
inductive Denotes (I : Interpretation) (r : Cells) : Expr → Place → Prop
  | register {id : Identifier} (isRegister : id.IsRegister) :
      Denotes I r (.identifier id) (.register id)
  | data {ea : Expr} {address : Nat}
      (value : ∀ σ : State Cells, σ.registers = r → ea.eval I σ % 2 ^ ea.type.bits = address)
      (silent : ∀ σ : State Cells, ea.applications I σ = []) :
      Denotes I r (.memory .byte ea) (.data address)

namespace Denotes

variable {I : Interpretation} {r : Cells} {e : Expr} {p : Place}

theorem bits (denotes : Denotes I r e p) : e.type.bits = p.bits := by
  cases denotes <;> rfl

theorem eval (denotes : Denotes I r e p) {σ : State Cells} (registers : σ.registers = r) :
    e.eval I σ = p.read σ := by
  cases denotes with
  | register _ => rfl
  | data value _ => rw [Expr.eval_memory_byte, value σ registers, Place.read]

theorem read_lt (denotes : Denotes I r e p) (σ : State Cells) : p.read σ < 2 ^ p.bits := by
  cases denotes with
  | register isRegister => exact σ.get_lt isRegister
  | data _ _ => exact UInt8.toNat_lt _

theorem put (denotes : Denotes I r e p) {before : State Cells} (registers : before.registers = r)
    (value : Nat) (σ : State Cells) : State.put I before e value σ = p.write value σ := by
  cases denotes with
  | register isRegister => exact σ.set_of_isRegister value isRegister
  | data address _ =>
      show σ.store none _ _ 1 value = σ.setByte _ value
      rw [State.store_one, address before registers]

theorem silent (denotes : Denotes I r e p) (σ : State Cells) : e.applications I σ = [] := by
  cases denotes with
  | register _ => rfl
  | data _ silent => exact silent σ

/-- No group of flags is a place. -/
theorem flags? (denotes : Denotes I r e p) : e.flags? = none := by
  cases denotes with
  | @register id isRegister =>
      obtain ⟨name, type, storage⟩ := id
      obtain ⟨family, lowest, width, rfl⟩ := isRegister
      rfl
  | data _ _ => rfl

end Denotes

/-- By how much an access through a window moves the pointer. -/
def Indirect.movement : Indirect → Int
  | .postInc | .preInc => 1
  | .postDec => -1
  | .indf | .plusW => 0

namespace Catalog

variable (c : Catalog)

/-! ## What locations denote -/

/-- The indirect-addressing register at a location. -/
def window? : DataLocation → Option (Indirect × Fin 3)
  | .absolute address => c.indirect? address
  | _ => none

/-- The address behind an indirect-addressing register. -/
def windowAddress (σ : State Cells) (kind : Indirect) (n : Fin 3) : Nat :=
  let fsr := c.core.fsr n
  match kind with
  | .indf | .postInc | .postDec => σ.get fsr
  | .preInc => (σ.get fsr + 1) % 2 ^ fsr.bits
  | .plusW =>
      let offset := Bits.signed c.core.wreg.bits (σ.get c.core.wreg)
      (σ.get fsr + Bits.ofInt 16 offset) % 2 ^ fsr.bits

/-- The place at a location outside the windows. -/
def plainPlace (σ : State Cells) : DataLocation → Place
  | .indexed k => .data ((σ.get c.core.fsr2 + k.toNat) % 2 ^ c.core.fsr2.bits)
  | .banked k => .data ((σ.get c.core.bsr * 2 ^ 8 + k.toNat) % 2 ^ 16)
  | .absolute address =>
      match c.lookup? address 8 with
      | some r => .register r.identifier
      | none => .data address

/-- The place that a location denotes in a state. -/
def denotes (σ : State Cells) (location : DataLocation) : Place :=
  match c.window? location with
  | some (kind, n) => .data (c.windowAddress σ kind n)
  | none => c.plainPlace σ location

/-- A register that is found at an address as one of 8 bits has 8 bits. -/
theorem bits_of_lookup {address : Nat} {r : Register} (found : c.lookup? address 8 = some r) :
    r.identifier.bits = 8 := by
  have listed := List.find?_some found
  simp only [Bool.and_eq_true, decide_eq_true_eq] at listed
  show (DataType.word r.width).bits = 8
  rw [listed.2]
  rfl

/-- Every location denotes a byte. -/
theorem bits_denotes (σ : State Cells) (location : DataLocation) :
    (c.denotes σ location).bits = 8 := by
  unfold denotes
  cases c.window? location with
  | some found => rfl
  | none =>
      cases location with
      | indexed k => rfl
      | banked k => rfl
      | absolute address =>
          unfold plainPlace
          cases found : c.lookup? address 8 with
          | none => simp only [found, Place.bits]
          | some r =>
              simp only [found]
              exact c.bits_of_lookup found

/-- Move the pointer by as much as an access to a location does. -/
def move (location : DataLocation) (σ : State Cells) : State Cells :=
  match c.window? location with
  | some (kind, n) =>
      let fsr := c.core.fsr n
      σ.setRegister fsr (Bits.ofInt fsr.bits (σ.get fsr + kind.movement))
  | none => σ

end Catalog

/-! ## Accesses -/

namespace Cell

/-- What an access writes before the statements that use the byte. -/
def entering (cell : Cell) : List Statement :=
  cell.before.toList.map fun fsr => .assign (.identifier fsr) ((Expr.identifier fsr).addInt 1)

/-- What an access writes after them. -/
def leaving (cell : Cell) : List Statement :=
  cell.after.toList.map fun (fsr, delta) =>
    .assign (.identifier fsr) ((Expr.identifier fsr).addInt delta)

theorem emits_enter (cell : Cell) (k : Nat) :
    Lowering.Emits k cell.enter cell.place cell.entering k := by
  unfold Cell.enter entering
  cases cell.before with
  | none => exact Lowering.emits_pure _
  | some fsr => exact Lowering.emits_return _ (Lowering.emits_assign _ _)

theorem emits_exit (cell : Cell) (k : Nat) : Lowering.Emits k cell.exit () cell.leaving k := by
  unfold Cell.exit leaving
  cases cell.after with
  | none => exact Lowering.emits_pure _
  | some update => exact Lowering.emits_assign _ _

theorem emits_access {α : Type} {k k' : Nat} (cell : Cell) {body : Expr → Lowering α} {a : α}
    {statements : List Statement}
    (inside : Lowering.Emits k (body cell.place) a statements k') :
    Lowering.Emits k (cell.access body) a (cell.entering ++ (statements ++ cell.leaving)) k' := by
  refine Lowering.emits_bind (cell.emits_enter k) (Lowering.emits_bind inside ?_)
  exact Lowering.emits_return a (cell.emits_exit k')

end Cell

namespace Catalog

variable {c : Catalog} {location : DataLocation} {kind : Indirect} {n : Fin 3}

theorem cellAt_of_window (window : c.window? location = some (kind, n)) :
    c.cellAt location = c.windowCell kind n := by
  cases location with
  | indexed k => cases window
  | banked k => cases window
  | absolute address =>
      have found : c.indirect? address = some (kind, n) := window
      rw [cellAt, absoluteCell, found]

/-- Outside the windows no pointer moves. -/
theorem still_of_plain (plain : c.window? location = none) :
    (c.cellAt location).before = none ∧ (c.cellAt location).after = none := by
  cases location with
  | indexed k => exact ⟨rfl, rfl⟩
  | banked k => exact ⟨rfl, rfl⟩
  | absolute address =>
      have none_ : c.indirect? address = none := plain
      rw [cellAt, absoluteCell, none_]
      cases c.lookup? address 8 with
      | none => exact ⟨rfl, rfl⟩
      | some r => exact ⟨rfl, rfl⟩

/-- The state after the pointer that moves before the access has moved. -/
def entered (c : Catalog) (location : DataLocation) (σ : State Cells) : State Cells :=
  match c.window? location with
  | some (.preInc, _) => c.move location σ
  | _ => σ

/-- The state after the pointer that moves after the access has moved. -/
def left (c : Catalog) (location : DataLocation) (σ : State Cells) : State Cells :=
  match c.window? location with
  | some (.preInc, _) => σ
  | _ => c.move location σ

/-- A change of the state that a register takes no part in. -/
def Aside (id : Identifier) (update : State Cells → State Cells) : Prop :=
  ∀ (σ : State Cells) (v : Nat), update (σ.setRegister id v) = (update σ).setRegister id v

theorem get_of_aside {id : Identifier} (register : id.IsRegister)
    {update : State Cells → State Cells} (aside : Aside id update) (σ : State Cells) :
    (update σ).get id = σ.get id := by
  have kept := aside σ (σ.get id)
  rw [σ.setRegister_get register] at kept
  rw [kept, State.get_setRegister _ _ register]
  exact Nat.mod_eq_of_lt (σ.get_lt register)

section Run

variable (accepted : c.Accepted) {I : Interpretation}

include accepted

/-- A pointer that does not move stays. -/
theorem move_of_still (window : c.window? location = some (kind, n))
    (still : kind.movement = 0) (σ : State Cells) : c.move location σ = σ := by
  have inside := σ.get_lt (accepted.isRegister_fsr n)
  have same : Bits.ofInt (c.core.fsr n).bits (σ.get (c.core.fsr n) + kind.movement) =
      σ.get (c.core.fsr n) := by
    rw [still, Int.add_zero]
    exact Bits.ofInt_of_lt inside
  unfold move
  simp only [window]
  rw [same]
  exact σ.setRegister_get (accepted.isRegister_fsr n)

theorem run_entering (location : DataLocation) (σ : State Cells) :
    σ.run I (c.cellAt location).entering = (c.entered location σ, none) := by
  cases window : c.window? location with
  | none =>
      rw [Cell.entering, (still_of_plain window).1]
      simp only [entered, window]
      rfl
  | some found =>
      obtain ⟨kind, n⟩ := found
      rw [cellAt_of_window window]
      simp only [entered, window]
      cases kind with
      | preInc =>
          have step := σ.exec_addInt (I := I) (accepted.isRegister_fsr n) (n := 1) (by decide)
          refine (State.run_cons_of_falls [] step).trans ?_
          simp only [move, window]
          rfl
      | indf => rfl
      | postInc => rfl
      | postDec => rfl
      | plusW => rfl

theorem run_leaving (location : DataLocation) (σ : State Cells) :
    σ.run I (c.cellAt location).leaving = (c.left location σ, none) := by
  cases window : c.window? location with
  | none =>
      rw [Cell.leaving, (still_of_plain window).2]
      simp only [left, move, window]
      rfl
  | some found =>
      obtain ⟨kind, n⟩ := found
      have still := fun zero => move_of_still accepted window zero σ
      rw [cellAt_of_window window]
      cases kind with
      | preInc =>
          simp only [left, window]
          rfl
      | indf =>
          simp only [left, window, still rfl]
          rfl
      | plusW =>
          simp only [left, window, still rfl]
          rfl
      | postInc =>
          have step := σ.exec_addInt (I := I) (accepted.isRegister_fsr n) (n := 1) (by decide)
          refine (State.run_cons_of_falls [] step).trans ?_
          simp only [left, move, window]
          rfl
      | postDec =>
          have step := σ.exec_addInt (I := I) (accepted.isRegister_fsr n) (n := -1) (by decide)
          refine (State.run_cons_of_falls [] step).trans ?_
          simp only [left, move, window]
          rfl

/-- Where a pointer points, whatever else a state holds. -/
theorem denotes_through {r : Cells} {address : Nat} (n : Fin 3)
    (points : ∀ τ : State Cells, τ.registers = r → τ.get (c.core.fsr n) = address) :
    Denotes I r (.memory .byte (.identifier (c.core.fsr n))) (.data address) := by
  refine .data (fun τ registers => ?_) fun _ => rfl
  show τ.get (c.core.fsr n) % 2 ^ (c.core.fsr n).bits = address
  rw [Nat.mod_eq_of_lt (τ.get_lt (accepted.isRegister_fsr n)), points τ registers]

theorem denotes_window (window : c.window? location = some (kind, n)) (σ : State Cells) :
    Denotes I (c.entered location σ).registers (c.windowCell kind n).place
      (.data (c.windowAddress σ kind n)) := by
  have register := accepted.isRegister_fsr n
  simp only [entered, window]
  cases kind with
  | indf | postInc | postDec =>
      exact denotes_through accepted n fun τ same => State.get_of_registers register same
  | preInc =>
      refine denotes_through accepted n fun τ same => ?_
      rw [State.get_of_registers register same]
      simp only [move, window]
      rw [State.get_setRegister _ _ register, Nat.mod_eq_of_lt (Bits.ofInt_lt _ _)]
      exact Bits.ofInt_natCast _ (σ.get (c.core.fsr n) + 1)
  | plusW =>
      refine .data (fun τ same => ?_) fun _ => rfl
      have pointer := State.get_of_registers register same
      have working := State.get_of_registers accepted.isRegister_wreg same
      have integral := accepted.isReal_wreg
      have cast : (Expr.cast .int16 (.identifier c.core.wreg)).eval I τ =
          Bits.ofInt 16 (Bits.signed c.core.wreg.bits (σ.get c.core.wreg)) := by
        rw [← working]
        show c.core.wreg.type.castValue I .int16 (τ.get c.core.wreg) = _
        rw [DataType.castValue, integral]
        rfl
      rw [Expr.eval_add, cast]
      show (τ.get (c.core.fsr n) + _) % 2 ^ (c.core.fsr n).bits % 2 ^ (c.core.fsr n).bits = _
      rw [Nat.mod_mod, pointer]
      rfl

theorem denotes_plain (plain : c.window? location = none)
    (bounded : ∀ address, location = .absolute address → address < 2 ^ 16) (σ : State Cells) :
    Denotes I (c.entered location σ).registers (c.cellAt location).place
      (c.plainPlace σ location) := by
  simp only [entered, plain]
  cases location with
  | indexed k =>
      refine .data (fun τ same => ?_) fun τ => Expr.applications_addInt _ _
      have pointer := State.get_of_registers (accepted.isRegister_fsr 2) same
      have short : (k.toNat : Int).natAbs < 2 ^ 64 := by
        have := k.toNat_lt
        omega
      rw [Expr.eval_addInt _ short, Expr.type_addInt]
      show Bits.ofInt c.core.fsr2.bits (τ.get c.core.fsr2 + k.toNat) % 2 ^ c.core.fsr2.bits = _
      rw [Nat.mod_eq_of_lt (Bits.ofInt_lt _ _), ← Bits.ofInt_natCast, Int.natCast_add]
      exact congrArg (fun v : Nat => Bits.ofInt c.core.fsr2.bits (v + k.toNat)) pointer
  | banked k =>
      refine .data (fun τ same => ?_) fun τ => rfl
      have bank := State.get_of_registers accepted.isRegister_bsr same
      show (τ.get c.core.bsr * 2 ^ 8 + (Expr.byte k).eval I τ) % 2 ^ 16 % 2 ^ 16 = _
      rw [Expr.eval_byte, Nat.mod_mod, bank]
  | absolute address =>
      have none_ : c.indirect? address = none := plain
      rw [cellAt, absoluteCell, none_]
      show Denotes I σ.registers _ (match c.lookup? address 8 with
        | some r => Place.register r.identifier
        | none => .data address)
      cases c.lookup? address 8 with
      | some r => exact .register ⟨_, _, _, rfl⟩
      | none =>
          have small := bounded address rfl
          refine .data (fun τ _ => ?_) fun τ => rfl
          rw [Expr.eval_word _ (by omega)]
          show address % 2 ^ 16 % 2 ^ 16 = address
          rw [Nat.mod_mod, Nat.mod_eq_of_lt small]

/-- Once the pointer that moves first has moved, the expression of a cell stands for the place that
its location denoted before. -/
theorem denotes_place (location : DataLocation)
    (bounded : ∀ address, location = .absolute address → address < 2 ^ 16) (σ : State Cells) :
    Denotes I (c.entered location σ).registers (c.cellAt location).place
      (c.denotes σ location) := by
  unfold denotes
  cases window : c.window? location with
  | none => exact denotes_plain accepted window bounded σ
  | some found =>
      obtain ⟨kind, n⟩ := found
      rw [cellAt_of_window window]
      exact denotes_window accepted window σ

/-! ## Statements between the moves -/

/-- The two moves around a change that leaves the pointer aside are one move after it. -/
theorem left_entered (location : DataLocation) {update : State Cells → State Cells}
    (aside : ∀ kind n, c.window? location = some (kind, n) → Aside (c.core.fsr n) update)
    (σ : State Cells) :
    c.left location (update (c.entered location σ)) = c.move location (update σ) := by
  cases window : c.window? location with
  | none => simp only [left, entered, window]
  | some found =>
      obtain ⟨kind, n⟩ := found
      cases kind with
      | preInc =>
          have kept := get_of_aside (accepted.isRegister_fsr n) (aside _ n window) σ
          simp only [left, entered, move, window]
          rw [aside _ n window, kept]
      | indf | postInc | postDec | plusW => simp only [left, entered, window]

/-- Statements around which a cell is accessed have their effect, and the pointer has moved. -/
theorem run_access (location : DataLocation) {statements : List Statement} (σ : State Cells)
    {update : State Cells → State Cells}
    (aside : ∀ kind n, c.window? location = some (kind, n) → Aside (c.core.fsr n) update)
    (inside : (c.entered location σ).run I statements =
      (update (c.entered location σ), none)) :
    σ.run I ((c.cellAt location).entering ++ (statements ++ (c.cellAt location).leaving)) =
      (c.move location (update σ), none) := by
  rw [State.run_append_of_falls _ (run_entering accepted location σ),
    State.run_append_of_falls _ inside, run_leaving accepted location,
    left_entered accepted location aside]

end Run

end Catalog

end RegisterTransfer.Pic18
