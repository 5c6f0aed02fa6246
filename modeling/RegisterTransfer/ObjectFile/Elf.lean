/-
# RegisterTransfer.ObjectFile.Elf -- ELF files

The header says how wide words are and in which order their bytes stand; the section headers lie
where it points.  A section whose name is not in the table of names is passed over.  A header, a
section header or a table of names that does not fit into the file makes the whole file malformed.
-/
import RegisterTransfer.ObjectFile

namespace RegisterTransfer.Elf

set_option autoImplicit false

/-- The first four bytes of every file. -/
def magic : List UInt8 := [0x7F, 0x45, 0x4C, 0x46]

/-- Where the fields that this library reads stand in files of one word width. -/
structure Layout where
  /-- Bytes of a word. -/
  word : Nat
  headerSize : Nat
  entry : Nat
  programTable : Nat
  sectionTable : Nat
  programCount : Nat
  sectionCount : Nat
  namesIndex : Nat
  programSize : Nat
  sectionSize : Nat
  /-- Offsets within a section header. -/
  flags : Nat
  address : Nat
  offset : Nat
  size : Nat
  link : Nat

def layout32 : Layout where
  word := 4
  headerSize := 52
  entry := 24
  programTable := 28
  sectionTable := 32
  programCount := 44
  sectionCount := 48
  namesIndex := 50
  programSize := 32
  sectionSize := 40
  flags := 8
  address := 12
  offset := 16
  size := 20
  link := 24

def layout64 : Layout where
  word := 8
  headerSize := 64
  entry := 24
  programTable := 32
  sectionTable := 40
  programCount := 56
  sectionCount := 60
  namesIndex := 62
  programSize := 56
  sectionSize := 64
  flags := 8
  address := 16
  offset := 24
  size := 32
  link := 40

/-- A file with what its first bytes say of it. -/
structure File where
  layout : Layout
  order : ByteOrder
  data : List UInt8

namespace File

def half? (f : File) (offset : Nat) : Option Nat := f.order.field? f.data offset 2

def long? (f : File) (offset : Nat) : Option Nat := f.order.field? f.data offset 4

def word? (f : File) (offset : Nat) : Option Nat := f.order.field? f.data offset f.layout.word

end File

/-- The layout of a class of files. -/
def layout? : UInt8 → Option Layout
  | 1 => some layout32
  | 2 => some layout64
  | _ => none

/-- The byte order of an encoding. -/
def order? : UInt8 → Option ByteOrder
  | 1 => some .little
  | 2 => some .big
  | _ => none

/-- The file that bytes hold, if its class and byte order are known and its header is complete. -/
def file? (data : List UInt8) : Option File := do
  let layout ← layout? (← data[4]?)
  let order ← order? (← data[5]?)
  let _ ← Bytes.slice? data 0 layout.headerSize
  return { layout, order, data }

/-- The fields of a section header. -/
structure Header where
  /-- Offset of the name in the table of names. -/
  name : Nat
  kind : Nat
  flags : Nat
  address : Nat
  offset : Nat
  size : Nat
  link : Nat

/-- The section header at an offset. -/
def header? (f : File) (at_ : Nat) : Option Header := do
  let _ ← Bytes.slice? f.data at_ f.layout.sectionSize
  return {
    name := ← f.long? at_
    kind := ← f.long? (at_ + 4)
    flags := ← f.word? (at_ + f.layout.flags)
    address := ← f.word? (at_ + f.layout.address)
    offset := ← f.word? (at_ + f.layout.offset)
    size := ← f.word? (at_ + f.layout.size)
    link := ← f.long? (at_ + f.layout.link) }

/-- All section headers.  A count of zero stands in the size of the first one. -/
def headers? (f : File) : Option (List Header) := do
  let table ← f.word? f.layout.sectionTable
  if table = 0 then return []
  let first ← header? f table
  let written ← f.half? f.layout.sectionCount
  let count := if written = 0 then first.size else written
  if f.data.length / f.layout.sectionSize < count then none
  else
    let rest ← (List.range (count - 1)).mapM fun n =>
      header? f (table + (n + 1) * f.layout.sectionSize)
    return first :: rest

/-- Whether the program headers lie within the file. -/
def hasProgramHeaders? (f : File) : Option Unit := do
  let table ← f.word? f.layout.programTable
  let count ← f.half? f.layout.programCount
  if count = 0 then return ()
  let _ ← Bytes.slice? f.data table (count * f.layout.programSize)

/-- The number that says the index of the table of names is kept elsewhere. -/
def indexElsewhere : Nat := 0xFFFF

/-- The table of names, which is text. -/
def names? (f : File) (headers : List Header) : Option (List UInt8) := do
  let written ← f.half? f.layout.namesIndex
  let index := if written = indexElsewhere then (headers.head?.map (·.link)).getD 0 else written
  match headers[index]? with
  | none => return []
  | some h =>
      let table ← Bytes.slice? f.data h.offset h.size
      let _ ← String.fromUTF8? ⟨table.toArray⟩
      return table

/-- The name at an offset in the table of names. -/
def nameAt? (names : List UInt8) (offset : Nat) : Option String :=
  if offset < names.length then
    String.fromUTF8? ⟨((names.drop offset).takeWhile (· ≠ 0)).toArray⟩
  else none

/-- The flag of executable sections. -/
def executableFlag : Nat := 4

def sectionOf? (names : List UInt8) (h : Header) : Option Section := do
  let name ← nameAt? names h.name
  return ⟨name, h.address, h.offset, h.size, h.flags &&& executableFlag ≠ 0⟩

/-- The architecture of a machine number. -/
def architecture (machine : Nat) : Architecture :=
  if machine = 3 then .x86protected else if machine = 62 then .x86long else .unknown

/-- What is known of an ELF file. -/
def parse? (data : List UInt8) : Option ObjectFile := do
  let f ← file? data
  hasProgramHeaders? f
  let headers ← headers? f
  let names ← names? f headers
  let sections := headers.filterMap (sectionOf? names)
  return {
    architecture := architecture (← f.half? 18)
    entry? := some (← f.word? f.layout.entry)
    sections
    codeIndex? := sections.findIdx? (·.name == ".text") }

end RegisterTransfer.Elf
