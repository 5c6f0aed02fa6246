/-
# RegisterTransfer.Pic18.Device -- device descriptions

What a back-end has to know of a device: how its data memory is laid out, which special function
registers it has with which bit-fields, which of them far moves may not write, and what the bits of
its configuration bytes mean.  A description is plain data; `Catalog.load` checks it.
-/
import RegisterTransfer.Pic18.Memory

namespace RegisterTransfer.Pic18

set_option autoImplicit false

/-- Neighbouring bits of a register with a name of their own. -/
structure BitField where
  name : String
  bit : Nat
  width : Nat := 1
deriving DecidableEq

/-- A special function register.  Joint registers such as FSR0 are wider than a byte. -/
structure Register where
  name : String
  address : Nat
  width : Nat := 8
  fields : List BitField := []
deriving DecidableEq

/-- A named value of a configuration field. -/
structure Setting where
  name : String
  value : Nat
deriving DecidableEq

/-- Neighbouring bits of a configuration byte. -/
structure ConfigField where
  name : String
  bit : Nat
  width : Nat := 1
  settings : List Setting := []
deriving DecidableEq

/-- A configuration byte in program memory. -/
structure ConfigWord where
  name : String
  address : Nat
  fields : List ConfigField := []
deriving DecidableEq

/-- A register of one byte. -/
def Register.byte (name : String) (address : Nat) (fields : List BitField) : Register :=
  { name, address, fields }

/-- A register made of several bytes. -/
def Register.joint (name : String) (address width : Nat) : Register := { name, address, width }

/-- A field of one bit. -/
def BitField.single (name : String) (bit : Nat) : BitField := { name, bit }

/-- A field of one bit that is named `ON` when it has the value `on`, and `OFF` otherwise. -/
def ConfigField.switch (name : String) (bit on : Nat) : ConfigField where
  name := name
  bit := bit
  settings := if on = 0 then [⟨"ON", 0⟩, ⟨"OFF", 1⟩] else [⟨"OFF", 0⟩, ⟨"ON", 1⟩]

/-- The registers that far moves may not write unless a description says otherwise. -/
def defaultForbidden : List String := ["PCL", "TOSL", "TOSH", "TOSU"]

/-- A device description. -/
structure Device where
  name : String
  family : Family
  accessSplit : Nat
  sfrWindow : Nat
  dataAddressBits : Nat
  registers : List Register
  forbidden : List String := defaultForbidden
  configWords : List ConfigWord := []
deriving DecidableEq

end RegisterTransfer.Pic18
