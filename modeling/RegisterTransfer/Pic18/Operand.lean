/-
# RegisterTransfer.Pic18.Operand -- operands of PIC18 instructions

Operands keep the fields as encoded; code targets are computed when an operand is made.  A file
operand is resolved against the device's data memory whenever it is used: `FileOperand.location`
is the only place that does so, for printing, for the report of what an operand touches, and for
lowering.
-/
import RegisterTransfer.Pic18.Catalog

namespace RegisterTransfer.Pic18

set_option autoImplicit false

/-- The file-register field that byte, bit and destination forms share. -/
structure FileOperand where
  offset : UInt8
  /-- The access bank, and not the bank that BSR selects. -/
  access : Bool
  mode : Mode
deriving DecidableEq

namespace FileOperand

/-- The operand of the encoded offset and access bit; a clear bit means the access bank. -/
def ofFields (mode : Mode) (offset : UInt8) (a : Nat) : FileOperand := ⟨offset, a = 0, mode⟩

/-- The location the operand names on a device. -/
def location (f : FileOperand) (c : Catalog) : DataLocation :=
  c.memory.resolve f.offset f.access f.mode

/-- Whether the operand is an index from FSR2. -/
def isIndexed (f : FileOperand) (c : Catalog) : Bool :=
  match f.location c with
  | .indexed _ => true
  | _ => false

end FileOperand

/-- Where a byte operation stores its result. -/
inductive Destination where
  | w
  | f
deriving DecidableEq

namespace Destination

def ofBit (d : Nat) : Destination := if d = 0 then w else f

def name : Destination → String
  | w => "W"
  | f => "F"

end Destination

/-- How a table access moves the table pointer. -/
inductive TableMode where
  | plain
  | postIncrement
  | postDecrement
  | preIncrement
deriving DecidableEq

namespace TableMode

/-- The mode of the two bits that encode it. -/
def ofBits (bits : Nat) : TableMode :=
  match bits % 4 with
  | 0 => plain
  | 1 => postIncrement
  | 2 => postDecrement
  | _ => preIncrement

def name : TableMode → String
  | plain => "*"
  | postIncrement => "*+"
  | postDecrement => "*-"
  | preIncrement => "+*"

end TableMode

/-- The payload of a data directive. -/
inductive Payload where
  | bytes (data : List UInt8)
  | words (data : List UInt16)
  | eeprom (data : List UInt8)
  | ascii (data : List UInt8)
  | idLocation (address : Nat) (value : UInt16)
  /-- One configuration byte. -/
  | config (address : Nat) (value : UInt8)
deriving DecidableEq

/-- An operand. -/
inductive Operand where
  | imm4 (k : UInt8)
  | imm6 (k : UInt8)
  | imm8 (k : UInt8)
  /-- Literal of a pointer load on traditional devices. -/
  | imm12 (k : Nat)
  /-- Literal of a pointer load on enhanced devices. -/
  | imm14 (k : Nat)
  /-- An offset from FSR2. -/
  | index (k : UInt8)
  /-- Whether a call or return saves or restores the shadow registers. -/
  | fast (on : Bool)
  | relative8 (offset : Int) (target : Nat)
  | relative11 (offset : Int) (target : Nat)
  | absolute (target : Nat)
  /-- The number of a pointer register. -/
  | pointer (n : Nat)
  | table (mode : TableMode)
  | data12 (address : Nat)
  | data14 (address : Nat)
  | file (f : FileOperand)
  | fileBit (f : FileOperand) (bit : Fin 8)
  | fileDest (f : FileOperand) (dest : Destination)
  | payload (p : Payload)
deriving DecidableEq

namespace Operand

/-- A short branch operand of the instruction at an address. -/
def ofOffset8 (offset : Int) (address : Nat) : Operand :=
  relative8 offset (relativeTarget address offset)

/-- A long branch operand of the instruction at an address. -/
def ofOffset11 (offset : Int) (address : Nat) : Operand :=
  relative11 offset (relativeTarget address offset)

/-- An absolute code operand that counts words. -/
def ofWordAddress (wordAddress : Nat) : Operand := absolute (absoluteTarget wordAddress)

/-- A 12-bit data address; higher bits are dropped. -/
def ofAddress12 (address : Nat) : Operand := data12 (address % 2 ^ 12)

/-- A 14-bit data address; higher bits are dropped. -/
def ofAddress14 (address : Nat) : Operand := data14 (address % 2 ^ 14)

/-- The type of the value an operand stands for. -/
def type : Operand → DataType
  | imm4 _ | imm6 _ | imm8 _ => .byte
  | imm12 _ | imm14 _ => .uint16
  | index _ | pointer _ | table _ => .byte
  | fast _ => .bool
  | relative8 .. | relative11 .. | absolute _ => .ptr32
  | data12 _ | data14 _ => .ptr16
  | file _ | fileBit .. | fileDest .. => .byte
  | payload (.words _) | payload (.idLocation ..) => .word16
  | payload _ => .byte

/-- The code address of a branch, call or jump operand. -/
def codeTarget? : Operand → Option Nat
  | relative8 _ target | relative11 _ target | absolute target => some target
  | _ => none

/-- The file-register field of an operand that has one. -/
def file? : Operand → Option FileOperand
  | file f | fileBit f _ | fileDest f _ => some f
  | _ => none

end Operand

end RegisterTransfer.Pic18
