/-
# RegisterTransfer.Pic18.Device.Document -- device descriptions as JSON

A description is an object whose members have the names below; unknown members are passed over, a
known member may not repeat, and the members with a default may be left out.  Each object may also
be written as a list of its members' values in the order given here.

Addresses are numbers or texts.  `addressOfText?` accepts white space around an optional `0x` or
`0X`, an optional plus sign and digits, for values below `2 ^ 32`.  White space is every character with
the Unicode property White_Space.
-/
import RegisterTransfer.Fault
import RegisterTransfer.Json.Reader
import RegisterTransfer.Numeral.Reader
import RegisterTransfer.Pic18.Device

namespace RegisterTransfer.Text

set_option autoImplicit false

/-! ## White space -/

/-- Whether a character has the property White_Space. -/
def isBlank (c : Char) : Bool :=
  let n := c.toNat
  (9 ≤ n && n ≤ 13) || n = 0x20 || n = 0x85 || n = 0xA0 || n = 0x1680
    || (0x2000 ≤ n && n ≤ 0x200A) || n = 0x2028 || n = 0x2029 || n = 0x202F || n = 0x205F
    || n = 0x3000

/-- The characters between the white space at both ends. -/
def trim (cs : List Char) : List Char :=
  ((cs.dropWhile isBlank).reverse.dropWhile isBlank).reverse

end RegisterTransfer.Text

namespace RegisterTransfer.Pic18.Document

/-! ## Addresses -/

/-- Addresses in a description lie below this bound. -/
def addressBound : Nat := 2 ^ 32

/-- The radix a text announces, and the characters after the announcement. -/
def radixAndRest : List Char → Nat × List Char
  | '0' :: 'x' :: rest => (16, rest)
  | '0' :: 'X' :: rest => (16, rest)
  | cs => (10, cs)

/-- The address a text writes. -/
def addressOfText? (cs : List Char) : Option Nat :=
  let (radix, rest) := radixAndRest (Text.trim cs)
  Numeral.unsigned? radix addressBound rest

/-! ## Values -/

/-- A natural number below a bound. -/
def natural? (bound : Nat) : Json → Option Nat
  | .integer n => if 0 ≤ n ∧ n < bound then some n.toNat else none
  | _ => none

def byte? : Json → Option Nat := natural? (2 ^ 8)

def word32? : Json → Option Nat := natural? (2 ^ 32)

def text? : Json → Option String
  | .text s => some s
  | _ => none

def list? {α : Type} (item : Json → Option α) : Json → Option (List α)
  | .list items => items.mapM item
  | _ => none

/-- An address as a number or as a text. -/
def address? : Json → Option Nat
  | .text s => addressOfText? s.toList
  | v => natural? addressBound v

def familyOfName? : String → Option Family
  | "traditional" => some .traditional
  | "enhanced" => some .enhanced
  | _ => none

/-- A family by its name; the name may also be the only key of an object, with no value. -/
def family? : Json → Option Family
  | .text s => familyOfName? s
  | .object [(key, .null)] => familyOfName? key
  | _ => none

/-! ## Objects -/

/-- Whether a key occurs more than once. -/
def repeats (members : List (String × Json)) (key : String) : Bool :=
  1 < (members.filter (·.1 == key)).length

/-- The members of an object with the given names, or of a list in their order. -/
def members? (names : List String) : Json → Option (String → Option Json)
  | .object members =>
      if names.any (repeats members) then none
      else some fun key => (members.find? (·.1 == key)).map (·.2)
  | .list items =>
      if names.length < items.length then none
      else some fun key => items[names.idxOf key]?
  | _ => none

/-- A member that must be there. -/
def required {α : Type} (read : Json → Option α) (v : Option Json) : Option α := v.bind read

/-- A member that may be left out. -/
def withDefault {α : Type} (default : α) (read : Json → Option α) : Option Json → Option α
  | none => some default
  | some v => read v

def bitField? (v : Json) : Option BitField := do
  let m ← members? ["name", "bit", "width"] v
  let name ← required text? (m "name")
  let bit ← required byte? (m "bit")
  let width ← withDefault 1 byte? (m "width")
  return { name, bit, width }

def register? (v : Json) : Option Register := do
  let m ← members? ["name", "address", "width", "bit_fields"] v
  let name ← required text? (m "name")
  let address ← required address? (m "address")
  let width ← withDefault 8 word32? (m "width")
  let fields ← withDefault [] (list? bitField?) (m "bit_fields")
  return { name, address, width, fields }

def setting? (v : Json) : Option Setting := do
  let m ← members? ["name", "value"] v
  let name ← required text? (m "name")
  let value ← required byte? (m "value")
  return { name, value }

def configField? (v : Json) : Option ConfigField := do
  let m ← members? ["name", "bit", "width", "settings"] v
  let name ← required text? (m "name")
  let bit ← required byte? (m "bit")
  let width ← withDefault 1 byte? (m "width")
  let settings ← withDefault [] (list? setting?) (m "settings")
  return { name, bit, width, settings }

def configWord? (v : Json) : Option ConfigWord := do
  let m ← members? ["name", "address", "fields"] v
  let name ← required text? (m "name")
  let address ← required address? (m "address")
  let fields ← withDefault [] (list? configField?) (m "fields")
  return { name, address, fields }

/-- The description a JSON value holds. -/
def device? (v : Json) : Option Device := do
  let m ← members?
    ["name", "family", "access_split", "sfr_window", "data_address_bits", "registers",
      "forbidden_far_destinations", "config_words"] v
  let name ← required text? (m "name")
  let family ← required family? (m "family")
  let accessSplit ← required address? (m "access_split")
  let sfrWindow ← required address? (m "sfr_window")
  let dataAddressBits ← required word32? (m "data_address_bits")
  let registers ← required (list? register?) (m "registers")
  let forbidden ← withDefault defaultForbidden (list? text?) (m "forbidden_far_destinations")
  let configWords ← withDefault [] (list? configWord?) (m "config_words")
  return { name, family, accessSplit, sfrWindow, dataAddressBits, registers, forbidden, configWords }

end RegisterTransfer.Pic18.Document

namespace RegisterTransfer.Pic18

/-- The device description a text holds. -/
def Device.ofText (s : String) : Except Fault Device :=
  match (Json.parse? s).bind Document.device? with
  | some d => .ok d
  | none => .error .document

end RegisterTransfer.Pic18
