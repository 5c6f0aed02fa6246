/-
# RegisterTransfer.ObjectFile.MachO -- Mach-O files

The segments of a Mach-O file stand in for its sections.  They are described by load commands, which
follow the header; the other load commands are passed over, so the entry point is always zero.
-/
import RegisterTransfer.ObjectFile

namespace RegisterTransfer.MachO

set_option autoImplicit false

/-- Where the fields that this library reads stand in files of one word width. -/
structure Layout where
  /-- Bytes of a word. -/
  word : Nat
  headerSize : Nat
  /-- The load command that describes a segment. -/
  segment : Nat
  segmentSize : Nat
  /-- Offsets within a segment command. -/
  address : Nat
  offset : Nat
  size : Nat
  protection : Nat

def layout32 : Layout where
  word := 4
  headerSize := 28
  segment := 1
  segmentSize := 56
  address := 24
  offset := 32
  size := 36
  protection := 40

def layout64 : Layout where
  word := 8
  headerSize := 32
  segment := 0x19
  segmentSize := 72
  address := 24
  offset := 40
  size := 48
  protection := 56

/-- The forms of a file, each with its first four bytes. -/
def forms : List (List UInt8 × Layout × ByteOrder) :=
  [([0xCE, 0xFA, 0xED, 0xFE], layout32, .little), ([0xCF, 0xFA, 0xED, 0xFE], layout64, .little),
    ([0xFE, 0xED, 0xFA, 0xCE], layout32, .big), ([0xFE, 0xED, 0xFA, 0xCF], layout64, .big)]

/-- The first four bytes of an archive of several architectures. -/
def fatMagic : List UInt8 := [0xCA, 0xFE, 0xBA, 0xBE]

/-- The form of a file, if it is one. -/
def form? (data : List UInt8) : Option (Layout × ByteOrder) :=
  (forms.find? (·.1 == data.take 4)).map (·.2)

/-- The protection flag of executable segments. -/
def executableFlag : Nat := 4

/-- The segment that a load command describes.  Its bytes must lie within the file. -/
def segment? (l : Layout) (order : ByteOrder) (data : List UInt8) (at_ : Nat) :
    Option Section := do
  let _ ← Bytes.slice? data at_ l.segmentSize
  let name ← Bytes.slice? data (at_ + 8) 16
  let protection ← order.field? data (at_ + l.protection) 4
  let s : Section := {
    name := (String.fromUTF8? ⟨(name.takeWhile (· ≠ 0)).toArray⟩).getD ""
    address := ← order.field? data (at_ + l.address) l.word
    offset := ← order.field? data (at_ + l.offset) l.word
    size := ← order.field? data (at_ + l.size) l.word
    executable := protection &&& executableFlag ≠ 0 }
  if s.size = 0 || (s.bytes? data).isSome then return s else none

/-- The segments that some load commands describe. -/
def segments? (l : Layout) (order : ByteOrder) (data : List UInt8) :
    Nat → Nat → Option (List Section)
  | 0, _ => some []
  | n + 1, at_ => do
      let command ← order.field? data at_ 4
      let size ← order.field? data (at_ + 4) 4
      let rest ← segments? l order data n (at_ + size)
      if command = l.segment then return (← segment? l order data at_) :: rest else return rest

/-- The fewest bytes of a load command. -/
def leastCommandSize : Nat := 8

/-- The architecture of a processor number. -/
def architecture (processor : Nat) : Architecture :=
  if processor = 7 then .x86protected else if processor = 0x01000007 then .x86long else .unknown

/-- What is known of a Mach-O file. -/
def parse? (data : List UInt8) : Option ObjectFile := do
  let (l, order) ← form? data
  let processor ← order.field? data 4 4
  let count ← order.field? data 16 4
  let commandBytes ← order.field? data 20 4
  if commandBytes / leastCommandSize < count || data.length < commandBytes then none
  else
    let sections ← segments? l order data count l.headerSize
    return {
      architecture := architecture processor
      entry? := some 0
      sections
      codeIndex? := sections.findIdx? (·.name == "__TEXT") }

end RegisterTransfer.MachO
