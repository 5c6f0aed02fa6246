/-
# RegisterTransfer.Draft.Copy -- storing a result and its flags

Most instructions end by storing a value and deriving flags from it.  `Draft.copy` does both: a
destination that is not an identifier can be computed into a temporary first, so that the flags are
derived from the value itself and not from a second read of memory.
-/
import RegisterTransfer.Draft

namespace RegisterTransfer

set_option autoImplicit false

/-- How a value is stored.  The three choices are independent. -/
structure CopyMode where
  /-- Compute into a temporary before storing to anything but an identifier. -/
  split : Bool := false
  /-- Derive condition codes from the stored value. -/
  conditionCodes : Bool := false
  /-- Set the carry exactly when the stored value is zero. -/
  carryIfZero : Bool := false

namespace CopyMode

def plain : CopyMode := {}

def viaTemporary : CopyMode := { split := true }

def withFlags : CopyMode := { split := true, conditionCodes := true }

end CopyMode

/-- The flags an instruction updates: its group of condition codes and the carry. -/
structure FlagModel where
  group : Identifier
  carry : Identifier

namespace Draft

/-- Store `src` to `dst` and update flags as the mode says.  The value is the expression that holds
what was stored: the destination, or the temporary. -/
def copy (d : Draft) (model : FlagModel) (mode : CopyMode) (dst src : Expr) : Expr × Draft :=
  let (value, d) :=
    if dst.isIdentifier || !mode.split then (dst, d.assign dst src)
    else
      let (t, d) := d.temporary src.type
      (.identifier t, (d.assign (.identifier t) src).assign dst (.identifier t))
  let d :=
    if mode.conditionCodes then d.assign (.identifier model.group) (.conditionCodes value) else d
  let d := if mode.carryIfZero then d.assign (.identifier model.carry) value.isZero else d
  (value, d)

end Draft

/-- `Draft.copy` as a step of a lowering. -/
def Lowering.copy (model : FlagModel) (mode : CopyMode) (dst src : Expr) : Lowering Expr :=
  modifyGet fun d => d.copy model mode dst src

end RegisterTransfer
