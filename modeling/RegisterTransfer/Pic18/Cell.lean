/-
# RegisterTransfer.Pic18.Cell -- data memory as lowering sees it

The indirect-addressing registers are windows: an access to one is an access to memory through a
pointer register, which some of them move before or after the access.  A `Cell` says which
expression stands for the byte and how the pointer moves, so that a lowering can move it around the
statements that use the byte.
-/
import RegisterTransfer.Draft
import RegisterTransfer.Pic18.Operand

namespace RegisterTransfer.Pic18

set_option autoImplicit false

/-- A byte of data memory as an instruction accesses it. -/
structure Cell where
  place : Expr
  /-- The pointer to increment before the access. -/
  before : Option Identifier := none
  /-- The pointer to move after the access, and by how much. -/
  after : Option (Identifier × Int) := none

namespace Catalog

/-- The byte at an offset from FSR2. -/
def indexedPlace (c : Catalog) (k : UInt8) : Expr :=
  .memory .byte ((Expr.identifier c.core.fsr2).addInt k.toNat)

/-- The byte at an offset in the bank that BSR selects. -/
def bankedPlace (c : Catalog) (k : UInt8) : Expr :=
  .memory .byte (.concat .ptr16 (.identifier c.core.bsr) (.byte k))

/-- The byte behind an indirect-addressing register. -/
def windowCell (c : Catalog) (kind : Indirect) (n : Fin 3) : Cell :=
  let fsr := c.core.fsr n
  let through : Expr := .memory .byte (.identifier fsr)
  match kind with
  | .indf => ⟨through, none, none⟩
  | .postInc => ⟨through, none, some (fsr, 1)⟩
  | .postDec => ⟨through, none, some (fsr, -1)⟩
  | .preInc => ⟨through, some fsr, none⟩
  | .plusW =>
      ⟨.memory .byte ((Expr.identifier fsr).add (.cast .int16 (.identifier c.core.wreg))), none,
        none⟩

/-- The byte at a full data address: behind a window, in a register, or in plain memory. -/
def absoluteCell (c : Catalog) (address : Nat) : Cell :=
  match c.indirect? address with
  | some (kind, n) => c.windowCell kind n
  | none =>
      match c.lookup? address 8 with
      | some r => ⟨.identifier r.identifier, none, none⟩
      | none => ⟨.memory .byte (.word address .ptr16), none, none⟩

/-- The byte at a location. -/
def cellAt (c : Catalog) : DataLocation → Cell
  | .indexed k => ⟨c.indexedPlace k, none, none⟩
  | .banked k => ⟨c.bankedPlace k, none, none⟩
  | .absolute a => c.absoluteCell a

end Catalog

/-- The byte a file operand names. -/
def FileOperand.cell (f : FileOperand) (c : Catalog) : Cell := c.cellAt (f.location c)

namespace Cell

/-- Move the pointer that moves before the access, and give the expression for the byte. -/
def enter (cell : Cell) : Lowering Expr := do
  match cell.before with
  | some fsr => .assign (.identifier fsr) ((Expr.identifier fsr).addInt 1)
  | none => pure ()
  return cell.place

/-- Move the pointer that moves after the access. -/
def exit (cell : Cell) : Lowering Unit :=
  match cell.after with
  | some (fsr, delta) => .assign (.identifier fsr) ((Expr.identifier fsr).addInt delta)
  | none => pure ()

/-- Statements that use the byte, between the two moves of its pointer. -/
def access {α : Type} (cell : Cell) (body : Expr → Lowering α) : Lowering α := do
  let place ← cell.enter
  let result ← body place
  cell.exit
  return result

end Cell

end RegisterTransfer.Pic18
