/-
# RegisterTransfer.ObjectFile.Pe -- PE files

A PE file starts with a header for an older system, which points to its own.  All numbers have
their least significant byte first.  Addresses in the file count from the image base, which stands
in the optional header.
-/
import RegisterTransfer.ObjectFile

namespace RegisterTransfer.Pe

set_option autoImplicit false

/-- The first two bytes of every file. -/
def magic : List UInt8 := [0x4D, 0x5A]

def field? (data : List UInt8) (offset width : Nat) : Option Nat :=
  ByteOrder.little.field? data offset width

/-- Size of the header for the older system. -/
def oldHeaderSize : Nat := 64

/-- The signature of the file's own header, its bytes as a number. -/
def signature : Nat := 0x4550

/-- Size of the signature and of the header after it. -/
def headerSize : Nat := 24

/-- What the optional header says. -/
structure Optional where
  entry : Nat
  imageBase : Nat

/-- The optional header, in either of its two forms. -/
def optional? (data : List UInt8) (at_ : Nat) : Option Optional := do
  let entry ← field? data (at_ + 16) 4
  match ← field? data at_ 2 with
  | 0x10B => return ⟨entry, ← field? data (at_ + 28) 4⟩
  | 0x20B => return ⟨entry, ← field? data (at_ + 24) 8⟩
  | _ => none

/-- Size of an entry of the section table. -/
def sectionSize : Nat := 40

/-- The flag of executable sections. -/
def executableFlag : Nat := 0x20000000

/-- The section of a table entry. -/
def sectionAt? (data : List UInt8) (imageBase at_ : Nat) : Option Section := do
  let name ← Bytes.slice? data at_ 8
  let flags ← field? data (at_ + 36) 4
  return {
    name := (String.fromUTF8? ⟨(name.takeWhile (· ≠ 0)).toArray⟩).getD ""
    address := imageBase + (← field? data (at_ + 12) 4)
    offset := ← field? data (at_ + 20) 4
    size := ← field? data (at_ + 16) 4
    executable := flags &&& executableFlag ≠ 0 }

/-- The architecture of a machine number. -/
def architecture (machine : Nat) : Architecture :=
  if machine = 0x14C then .x86protected else if machine = 0x8664 then .x86long else .unknown

/-- Whether some text occurs within another. -/
def contains (part : List Char) : List Char → Bool
  | [] => part.isEmpty
  | c :: rest => part.isPrefixOf (c :: rest) || contains part rest

/-- Whether the name of a section says that it is code, in either case. -/
def isCodeName (name : String) : Bool :=
  contains ".text".toList (name.toList.map Char.toLower)

/-- What is known of a PE file. -/
def parse? (data : List UInt8) : Option ObjectFile := do
  let _ ← Bytes.slice? data 0 oldHeaderSize
  let header ← field? data 0x3C 4
  if (← field? data header 4) ≠ signature then none
  else
    let machine ← field? data (header + 4) 2
    let count ← field? data (header + 6) 2
    let optionalSize ← field? data (header + 20) 2
    let _ ← field? data (header + 22) 2
    let optional ←
      if optionalSize = 0 then some ⟨0, 0⟩ else optional? data (header + headerSize)
    let sections ← (List.range count).mapM fun n =>
      sectionAt? data optional.imageBase (header + headerSize + optionalSize + n * sectionSize)
    return {
      architecture := architecture machine
      entry? := some (optional.imageBase + optional.entry)
      sections
      codeIndex? := sections.findIdx? fun s => isCodeName s.name }

end RegisterTransfer.Pe
