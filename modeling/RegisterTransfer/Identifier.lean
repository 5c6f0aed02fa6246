/-
# RegisterTransfer.Identifier -- named storage

An identifier names a machine register, a group of flag bits, or a temporary that lives only
within one cluster.  Two identifiers of one register family share bits: a register's storage gives
the family, the lowest bit and the width.
-/
import RegisterTransfer.DataType
import RegisterTransfer.Numeral

namespace RegisterTransfer

set_option autoImplicit false

/-- Where an identifier lives in the machine. -/
inductive Storage where
  /-- Bits of a register family.  The family is the data address of a memory-mapped register and
  an index into the register file otherwise. -/
  | register (family lowestBit width : Nat)
  /-- The bits in `mask` of a flag register. -/
  | flags (register : String) (mask : Nat)
  /-- A cluster-local temporary. -/
  | temporary (index : Nat)
deriving DecidableEq

/-- A named storage location with the type of what it holds. -/
structure Identifier where
  name : String
  type : DataType
  storage : Storage
deriving DecidableEq

namespace Identifier

/-- The part of register family `family` that starts at `lowestBit` and is as wide as its type. -/
def subRegister (name : String) (type : DataType) (family lowestBit : Nat) : Identifier :=
  ⟨name, type, .register family lowestBit type.bits⟩

/-- A register that starts at bit 0 of its family. -/
def register (name : String) (type : DataType) (family : Nat) : Identifier :=
  subRegister name type family 0

/-- Whether exactly one bit is set. -/
def isSingleBit (mask : Nat) : Bool := mask ≠ 0 && mask &&& (mask - 1) = 0

/-- The bits in `mask` of a flag register: a single bit is a truth value, a wider group a byte. -/
def flags (name register : String) (mask : Nat) : Identifier :=
  ⟨name, if isSingleBit mask then .bool else .byte, .flags register mask⟩

/-- The name of a temporary is `v` and its index. -/
def temporary (index : Nat) (type : DataType) : Identifier :=
  ⟨"v" ++ Numeral.decimal index, type, .temporary index⟩

/-- The group made of the bits of `mask` that `letters` names, in the order of `letters`. -/
def flagGroup (letters : List (Nat × String)) (register : String) (mask : Nat) : Identifier :=
  flags (String.join ((letters.filter fun l => mask &&& l.1 ≠ 0).map (·.2))) register mask

end Identifier

end RegisterTransfer
