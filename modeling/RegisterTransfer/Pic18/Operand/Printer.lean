/-
# RegisterTransfer.Pic18.Operand.Printer -- operands as assembly text

An operand shows the names of registers and bits where the device has some, and numbers elsewhere.
A file operand shows how it is resolved: `[0xKK]` is an index from FSR2, `,BANKED` a byte of the
selected bank, `,ACCESS` a byte of the access bank.
-/
import RegisterTransfer.Pic18.Operand

namespace RegisterTransfer.Pic18

set_option autoImplicit false

/-- The name of the byte register at a data address, or the address with so many digits. -/
def Catalog.addressText (c : Catalog) (digits address : Nat) : String :=
  match c.lookup? address 8 with
  | some r => r.name
  | none => "0x" ++ Numeral.hexUpper digits address

/-- A file operand with what follows it: `tail` after a number, `namedTail` of the register's
address after a name. -/
def FileOperand.text (c : Catalog) (f : FileOperand) (tail : String) (namedTail : Nat → String) :
    String :=
  match f.location c with
  | .indexed k => "[" ++ Numeral.byte0x k ++ "]" ++ tail
  | .banked k => Numeral.byte0x k ++ tail ++ ",BANKED"
  | .absolute a =>
      match c.lookup? a 8 with
      | some r => r.name ++ namedTail a ++ ",ACCESS"
      | none => Numeral.byte0x f.offset ++ tail ++ ",ACCESS"

/-- The name of a one-bit field, or the number of the bit. -/
def Catalog.bitText (c : Catalog) (address bit : Nat) : String :=
  match c.field? address bit 1 with
  | some f => f.name
  | none => Numeral.decimal bit

/-- The payload of a directive. -/
def Payload.text (c : Catalog) : Payload → String
  | bytes data | eeprom data | ascii data => ",".intercalate (data.map Numeral.byte0x)
  | words data => ",".intercalate (data.map fun w => "0x" ++ Numeral.hexUpper 4 w.toNat)
  | idLocation address value =>
      "0x" ++ Numeral.hexUpper 6 address ++ ", 0x" ++ Numeral.hexUpper 3 value.toNat
  | config address value => c.configText address value

namespace Operand

/-- The assembly text of an operand. -/
def text (c : Catalog) : Operand → String
  | imm4 k | imm6 k | imm8 k => Numeral.byte0x k
  | imm12 k | imm14 k => c.addressText 4 k
  | index k => "[" ++ Numeral.byte0x k ++ "]"
  | fast true => "FAST"
  | fast false => ""
  | relative8 _ target | relative11 _ target | absolute target =>
      "0x" ++ Numeral.hexUpper 6 target
  | pointer n => "FSR" ++ Numeral.decimal n
  | table mode => mode.name
  | data12 a => c.addressText 3 a
  | data14 a => c.addressText 4 a
  | file f => f.text c "" fun _ => ""
  | fileBit f bit => f.text c ("," ++ Numeral.decimal bit.val) fun a => "," ++ c.bitText a bit.val
  | fileDest f dest => f.text c ("," ++ dest.name) fun _ => "," ++ dest.name
  | payload p => p.text c

end Operand

end RegisterTransfer.Pic18
