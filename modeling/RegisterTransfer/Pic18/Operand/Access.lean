/-
# RegisterTransfer.Pic18.Operand.Access -- what a PIC18 operand touches

A banked operand reads BSR and an index from FSR2 reads FSR2.  An operand with a destination reads
its file register and writes either that or the working register.
-/
import RegisterTransfer.Architecture
import RegisterTransfer.Pic18.Operand

namespace RegisterTransfer.Pic18

set_option autoImplicit false

/-- Storage that a PIC18 operand can touch. -/
inductive OperandStorage where
  | register (id : Identifier)
  /-- Data memory that has no register name on the device. -/
  | data (location : DataLocation)
deriving DecidableEq

/-- The storage at a location: a register if the device names one there. -/
def Catalog.storageAt (c : Catalog) (location : DataLocation) : OperandStorage :=
  match location with
  | .absolute a =>
      match c.lookup? a 8 with
      | some r => .register r.identifier
      | none => .data location
  | _ => .data location

namespace FileOperand

/-- The registers that select the location of a file operand. -/
def selectors (f : FileOperand) (c : Catalog) : List OperandStorage :=
  match f.location c with
  | .indexed _ => [.register c.core.fsr2]
  | .banked _ => [.register c.core.bsr]
  | .absolute _ => []

def storage (f : FileOperand) (c : Catalog) : OperandStorage := c.storageAt (f.location c)

end FileOperand

/-- What an operand touches on a device. -/
def Operand.access (c : Catalog) : Operand → Access OperandStorage
  | .fast true => { target := shadow.toList.map .register }
  | .index k => { reads := [.register c.core.fsr2], target := [.data (.indexed k)] }
  | .pointer n => { target := (c.core.fsr? n).toList.map .register }
  | .table mode =>
      { reads := [.register c.core.tblptr]
        target := [.register c.core.tablat]
        writes := if mode = .plain then [] else [.register c.core.tblptr] }
  | .data12 a | .data14 a => { target := [c.storageAt (.absolute a)] }
  | .file f | .fileBit f _ => { reads := f.selectors c, target := [f.storage c] }
  | .fileDest f dest =>
      { reads := f.selectors c ++ [f.storage c]
        target := [f.storage c]
        writes :=
          match dest with
          | .w => [.register c.core.wreg]
          | .f => [f.storage c] }
  | .imm4 _ | .imm6 _ | .imm8 _ | .imm12 _ | .imm14 _ | .fast false | .relative8 ..
  | .relative11 .. | .absolute _ | .payload _ => {}

end RegisterTransfer.Pic18
