/-
# RegisterTransfer.Pic18.DeviceProblem -- what can be wrong with a device description

A device description that is well formed as a document can still contradict itself.  Each way is a
constructor, and `message` words it.
-/
import RegisterTransfer.Numeral

namespace RegisterTransfer.Pic18

set_option autoImplicit false

/-- Why a device description is refused. -/
inductive DeviceProblem where
  /-- A layout address does not fit in 16 bits. -/
  | outOfRange (what : String) (value : Nat)
  | registerOutsideMemory (register : String) (address : Nat)
  /-- A bit-field is empty or reaches past its register. -/
  | fieldMisfit (register field : String) (width : Nat)
  | duplicateRegister (register : String)
  | missingCoreRegister (register : String)
  | unknownForbidden (register : String)
  /-- A field of a configuration byte is empty or reaches past the byte. -/
  | configFieldMisfit (word field : String)
  | unknownDevice (name : String)
deriving DecidableEq

/-- The wording of a problem. -/
def DeviceProblem.message : DeviceProblem → String
  | outOfRange what value => what ++ " " ++ Numeral.hex0x value ++ " is out of range"
  | registerOutsideMemory r a =>
      "register " ++ r ++ " at " ++ Numeral.hex0x a ++ " is outside data memory"
  | fieldMisfit r f width =>
      "bit-field " ++ r ++ "." ++ f ++ " does not fit in " ++ Numeral.decimal width ++ " bits"
  | duplicateRegister r => "register " ++ r ++ " is defined twice"
  | missingCoreRegister r => "core register " ++ r ++ " is missing"
  | unknownForbidden r => "forbidden destination " ++ r ++ " is not a register"
  | configFieldMisfit w f => "config field " ++ w ++ "." ++ f ++ " does not fit in a byte"
  | unknownDevice name => "no built-in device named '" ++ name ++ "'"

end RegisterTransfer.Pic18
