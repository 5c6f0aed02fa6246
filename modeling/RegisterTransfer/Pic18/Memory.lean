/-
# RegisterTransfer.Pic18.Memory -- program and data addressing

Program memory is addressed in bytes over 21 bits.  Branch offsets and absolute targets count
words.  An instruction names a byte of data memory by an 8-bit offset, an access bit and the
execution mode; `DataMemory.resolve` says which of three kinds of location that is.  Printing,
access reports and lowering all go through it.
-/
import RegisterTransfer.DataType

namespace RegisterTransfer.Pic18

set_option autoImplicit false

/-- Instruction-set family. -/
inductive Family where
  /-- 12-bit data addresses and a 4-bit bank select. -/
  | traditional
  /-- 14-bit data addresses, a 6-bit bank select and the long far moves. -/
  | enhanced
deriving DecidableEq

def Family.name : Family → String
  | traditional => "traditional"
  | enhanced => "enhanced"

/-- Execution mode, which a configuration bit selects. -/
inductive Mode where
  | traditional
  /-- More instructions, and small access-bank offsets that index from FSR2. -/
  | extended
deriving DecidableEq

namespace Mode

/-- The modes, each with the name it is asked for by. -/
def options : List (String × Mode) := [("traditional", traditional), ("extended", extended)]

def description : Mode → String
  | traditional => "Traditional"
  | extended => "Extended"

end Mode

/-! ## Program memory -/

/-- Program addresses have 21 bits. -/
def programSize : Nat := 2 ^ 21

/-- Target of a relative branch: the offset counts words from the next instruction, and the sum
wraps within program memory. -/
def relativeTarget (address : Nat) (wordOffset : Int) : Nat :=
  ((address + 2 + wordOffset * 2) % programSize).toNat

/-- Byte address of an absolute word address. -/
def absoluteTarget (wordAddress : Nat) : Nat := wordAddress * 2 % programSize

theorem relativeTarget_lt (address : Nat) (wordOffset : Int) :
    relativeTarget address wordOffset < programSize := by
  unfold relativeTarget programSize
  omega

theorem absoluteTarget_lt (wordAddress : Nat) : absoluteTarget wordAddress < programSize := by
  unfold absoluteTarget programSize
  omega

/-! ## Data memory -/

/-- The highest access-bank offset that extended mode takes as an index from FSR2. -/
def indexLimit : Nat := 0x5F

/-- Whether an access-bank offset indexes from FSR2 in extended mode. -/
def isIndex (offset : UInt8) : Bool := offset.toNat ≤ indexLimit

/-- A byte of data memory named by an 8-bit offset. -/
inductive DataLocation where
  /-- The byte `offset` past FSR2. -/
  | indexed (offset : UInt8)
  /-- The byte at `offset` in the bank that BSR selects. -/
  | banked (offset : UInt8)
  /-- The byte at a full data address. -/
  | absolute (address : Nat)
deriving DecidableEq

/-- Layout of a device's data memory. -/
structure DataMemory where
  family : Family
  /-- The first access-bank offset that lies in the window of special function registers. -/
  accessSplit : Nat
  /-- Address of that window. -/
  sfrWindow : Nat
deriving DecidableEq

namespace DataMemory

/-- The layout that most devices of a family have. -/
def ofFamily : Family → DataMemory
  | .traditional => ⟨.traditional, 0x80, 0xF00⟩
  | .enhanced => ⟨.enhanced, 0x60, 0x3F00⟩

/-- The largest data address. -/
def addressMask (m : DataMemory) : Nat :=
  match m.family with
  | .traditional => 0x0FFF
  | .enhanced => 0x3FFF

/-- Data address of an access-bank offset: general-purpose memory below the split, and the window
of special function registers from the split on. -/
def remapAccess (m : DataMemory) (offset : UInt8) : Nat :=
  if offset.toNat < m.accessSplit then offset.toNat else m.sfrWindow ||| offset.toNat

/-- The location that an offset, the choice of the access bank and the mode name. -/
def resolve (m : DataMemory) (offset : UInt8) (access : Bool) (mode : Mode) : DataLocation :=
  if mode = .extended ∧ access ∧ isIndex offset then .indexed offset
  else if access then .absolute (m.remapAccess offset)
  else .banked offset

end DataMemory

end RegisterTransfer.Pic18
