/-
# RegisterTransfer.ObjectFile -- where an object file keeps its code

Of an object file only the architecture, the entry point and the sections matter here.  The code is
the section that is named for it, or else the first executable section that is not empty.
-/
import RegisterTransfer.Architecture
import RegisterTransfer.Bytes

namespace RegisterTransfer

set_option autoImplicit false

/-- A section or segment of an object file. -/
structure Section where
  name : String
  /-- Address of the first byte in memory. -/
  address : Nat
  /-- Place of the first byte in the file. -/
  offset : Nat
  size : Nat
  executable : Bool
deriving DecidableEq

namespace Section

/-- Address just past the section in memory. -/
def endAddress (s : Section) : Nat := s.address + s.size

/-- The bytes of the section, if they lie within the file. -/
def bytes? (s : Section) (file : List UInt8) : Option (List UInt8) :=
  Bytes.slice? file s.offset s.size

end Section

/-- What is known of an object file. -/
structure ObjectFile where
  architecture : Architecture
  entry? : Option Nat := none
  sections : List Section := []
  /-- Position of the section that is named for code. -/
  codeIndex? : Option Nat := none
deriving DecidableEq

namespace ObjectFile

/-- The section that holds the code. -/
def code? (o : ObjectFile) : Option Section :=
  (o.codeIndex?.bind (o.sections[·]?)).or
    (o.sections.find? fun s => s.executable && 0 < s.size)

/-- Address and bytes of the code. -/
def codeRegion? (o : ObjectFile) (file : List UInt8) : Option (Nat × List UInt8) := do
  let s ← o.code?
  return (s.address, ← s.bytes? file)

end ObjectFile

end RegisterTransfer
