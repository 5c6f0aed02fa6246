/-
# RegisterTransfer.DataType -- the primitive types of values

Every value of the intermediate language carries one of these types.  A type fixes the width of
the value in bits, the low-order mask a literal of the type is cut to, and how a literal is
written.  `word`, `int`, `uint` and `real` choose the type of a family for a width.
-/
import RegisterTransfer.Numeral

namespace RegisterTransfer

set_option autoImplicit false

/-- Primitive type of a value. -/
inductive DataType where
  | bool
  | byte
  | word16 | word32 | word64 | word128
  | int8 | int16 | int32 | int64 | int128
  | uint8 | uint16 | uint32 | uint64 | uint128
  /-- A 16-bit pointer into data memory. -/
  | ptr16
  /-- A 32-bit code or data pointer. -/
  | ptr32
  | ptr64
  | real32 | real64 | real80
  | void
deriving DecidableEq, Inhabited

namespace DataType

/-- Every type, in declaration order. -/
def all : List DataType :=
  [.bool, .byte, .word16, .word32, .word64, .word128, .int8, .int16, .int32, .int64, .int128,
    .uint8, .uint16, .uint32, .uint64, .uint128, .ptr16, .ptr32, .ptr64, .real32, .real64,
    .real80, .void]

theorem mem_all (t : DataType) : t ∈ all := by
  cases t <;> decide

/-- Width in bits. -/
def bits : DataType → Nat
  | bool => 1
  | byte | int8 | uint8 => 8
  | word16 | int16 | uint16 | ptr16 => 16
  | word32 | int32 | uint32 | ptr32 => 32
  | word64 | int64 | uint64 | ptr64 => 64
  | word128 | int128 | uint128 => 128
  | real32 => 32
  | real64 => 64
  | real80 => 80
  | void => 0

/-- Width in bytes, rounded up. -/
def bytes (t : DataType) : Nat := (t.bits + 7) / 8

/-- The untyped word that holds `bits` bits. -/
def word (bits : Nat) : DataType :=
  if bits ≤ 1 then bool
  else if bits ≤ 8 then byte
  else if bits ≤ 16 then word16
  else if bits ≤ 32 then word32
  else if bits ≤ 64 then word64
  else word128

/-- The signed integer that holds `bits` bits. -/
def int (bits : Nat) : DataType :=
  if bits ≤ 8 then int8
  else if bits ≤ 16 then int16
  else if bits ≤ 32 then int32
  else if bits ≤ 64 then int64
  else int128

/-- The unsigned integer that holds `bits` bits. -/
def uint (bits : Nat) : DataType :=
  if bits ≤ 8 then uint8
  else if bits ≤ 16 then uint16
  else if bits ≤ 32 then uint32
  else if bits ≤ 64 then uint64
  else uint128

/-- The real that holds `bits` bits; anything wider than 64 is extended precision. -/
def real (bits : Nat) : DataType :=
  if bits ≤ 32 then real32
  else if bits ≤ 64 then real64
  else real80

/-- The number of bits a literal of the type keeps: literals never exceed 64 bits. -/
def literalBits (t : DataType) : Nat := min t.bits 64

/-- The largest literal of the type, with all its bits set. -/
def mask (t : DataType) : Nat := 2 ^ t.literalBits - 1

/-- How many hexadecimal digits a literal of the type is written with. -/
def hexDigits (t : DataType) : Nat := max ((t.literalBits + 3) / 4) 1

/-- Whether values of the type are real numbers. -/
def isReal : DataType → Bool
  | real32 | real64 | real80 => true
  | _ => false

/-- Whether literals of the type are written as signed decimal numbers. -/
def isSigned : DataType → Bool
  | int8 | int16 | int32 | int64 | int128 => true
  | _ => false

/-- The name of the type in rendered text. -/
def name : DataType → String
  | bool => "bool"
  | byte => "byte"
  | word16 => "word16"
  | word32 => "word32"
  | word64 => "word64"
  | word128 => "word128"
  | int8 => "int8"
  | int16 => "int16"
  | int32 => "int32"
  | int64 => "int64"
  | int128 => "int128"
  | uint8 => "uint8"
  | uint16 => "uint16"
  | uint32 => "uint32"
  | uint64 => "uint64"
  | uint128 => "uint128"
  | ptr16 => "ptr16"
  | ptr32 => "ptr32"
  | ptr64 => "ptr64"
  | real32 => "real32"
  | real64 => "real64"
  | real80 => "real80"
  | void => "void"

/-- The type of a name, the inverse of `name`. -/
def ofName? (s : String) : Option DataType := all.find? (·.name == s)

theorem ofName?_name (t : DataType) : ofName? t.name = some t := by
  cases t <;> decide

end DataType

end RegisterTransfer
