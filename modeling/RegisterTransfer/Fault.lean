/-
# RegisterTransfer.Fault -- what can go wrong

`DecodeFault` says why bytes are no instruction; `Fault` says why machine code has no register
transfers.  The causes are constructors, and `message` is the only place that words them.
-/
import RegisterTransfer.Architecture
import RegisterTransfer.Pic18.DeviceProblem

namespace RegisterTransfer

set_option autoImplicit false

/-- Why bytes do not decode. -/
inductive DecodeFault where
  /-- The input ends in the middle of an instruction. -/
  | truncated (address needed available : Nat)
  /-- The bytes form no instruction. -/
  | invalidEncoding (address : Nat) (reason : String)
deriving DecidableEq

namespace DecodeFault

/-- Where the bytes stand. -/
def address : DecodeFault → Nat
  | truncated a _ _ => a
  | invalidEncoding a _ => a

def message : DecodeFault → String
  | truncated a needed available =>
      "Truncated instruction at " ++ Numeral.hex0x a ++ ": needs " ++ Numeral.decimal needed
        ++ " bytes, " ++ Numeral.decimal available ++ " available"
  | invalidEncoding a reason => "Invalid encoding at " ++ Numeral.hex0x a ++ ": " ++ reason

end DecodeFault

/-- Why an object file is refused. -/
inductive ObjectProblem where
  | unsupportedFormat
  /-- An archive of several architectures. -/
  | fat
  /-- The headers contradict themselves or end early. -/
  | malformed
deriving DecidableEq

def ObjectProblem.message : ObjectProblem → String
  | unsupportedFormat => "Unsupported file format"
  | fat => "Fat Mach-O archives are not supported; extract one architecture first"
  | malformed => "malformed object file"

/-- Why machine code is not lowered to register transfers. -/
inductive Fault where
  /-- The back-end has no register transfers for the opcode. -/
  | unsupportedOpcode (address : Nat) (architecture : Architecture) (opcode : String)
  /-- An intrinsic is already known with another number of arguments. -/
  | arityMismatch (name : String) (expected actual : Nat)
  /-- An instruction lacks an operand its lowering needs. -/
  | malformed (address : Nat) (reason : String)
  /-- PIC18 code was to be lowered without a device description. -/
  | missingDevice
  | device (problem : Pic18.DeviceProblem)
  /-- A device description is no well-formed document of its kind. -/
  | document
  | decode (fault : DecodeFault)
  | unsupportedArchitecture (architecture : Architecture)
  | object (problem : ObjectProblem)
  | unknownFormat (name : String)
deriving DecidableEq

def Fault.message : Fault → String
  | unsupportedOpcode a architecture opcode =>
      "Rewriting " ++ architecture.name ++ " opcode '" ++ opcode ++ "' is not supported yet (at "
        ++ Numeral.hex0x a ++ ")."
  | arityMismatch name expected actual =>
      "Pseudoprocedure " ++ name ++ " expected " ++ Numeral.decimal expected
        ++ " arguments, but was passed " ++ Numeral.decimal actual ++ "."
  | malformed a reason => "Malformed instruction at " ++ Numeral.hex0x a ++ ": " ++ reason
  | missingDevice =>
      "No device configuration supplied; PIC18 rewriting needs a register catalog"
  | device problem => "Invalid device configuration: " ++ problem.message
  | document => "JSON error"
  | decode fault => "Decoder error: " ++ fault.message
  | unsupportedArchitecture architecture => "Unsupported architecture: " ++ architecture.name
  | object problem => "Failed to parse binary format: " ++ problem.message
  | unknownFormat name => "Unknown output format: " ++ name

end RegisterTransfer
