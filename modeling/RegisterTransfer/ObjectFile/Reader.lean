/-
# RegisterTransfer.ObjectFile.Reader -- object files of every format

The first bytes of a file say which format it has.  A file of fewer than sixteen bytes is malformed
whatever they are.
-/
import RegisterTransfer.Fault
import RegisterTransfer.ObjectFile.Elf
import RegisterTransfer.ObjectFile.MachO
import RegisterTransfer.ObjectFile.Pe

namespace RegisterTransfer

set_option autoImplicit false

/-- The fewest bytes that show a format. -/
def ObjectFile.leastSize : Nat := 16

/-- The object file that bytes hold. -/
def ObjectFile.ofBytes (data : List UInt8) : Except ObjectProblem ObjectFile :=
  let parsed (file : Option ObjectFile) : Except ObjectProblem ObjectFile :=
    match file with
    | some f => .ok f
    | none => .error .malformed
  if data.length < leastSize then .error .malformed
  else if Elf.magic.isPrefixOf data then parsed (Elf.parse? data)
  else if Pe.magic.isPrefixOf data then parsed (Pe.parse? data)
  else if MachO.fatMagic.isPrefixOf data then .error .fat
  else if (MachO.form? data).isSome then parsed (MachO.parse? data)
  else .error .unsupportedFormat

end RegisterTransfer
