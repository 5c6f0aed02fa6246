/-
# RegisterTransfer.CommandLine.Options -- what the command line asks for

Options have a long name after two dashes, some also a letter after one dash.  The value of an
option follows an equals sign, directly the letter, or as the next argument, which then must not
look like an option.  Two dashes alone end the options.  Every option but the entry points may be
given once.
-/
import RegisterTransfer.Architecture
import RegisterTransfer.Format
import RegisterTransfer.Numeral.Reader
import RegisterTransfer.Pic18.Memory
import RegisterTransfer.Sweep

namespace RegisterTransfer.CommandLine

set_option autoImplicit false

/-- An option. -/
inductive Key where
  | architecture
  | raw
  | base
  | device
  | deviceFile
  | mode
  | format
  | sweep
  | entry
  | listDevices
deriving DecidableEq

namespace Key

def all : List Key :=
  [.architecture, .raw, .base, .device, .deviceFile, .mode, .format, .sweep, .entry, .listDevices]

def name : Key → String
  | architecture => "arch"
  | raw => "raw"
  | base => "base"
  | device => "device"
  | deviceFile => "device-config"
  | mode => "mode"
  | format => "format"
  | sweep => "sweep"
  | entry => "entry"
  | listDevices => "list-devices"

def letter? : Key → Option Char
  | architecture => some 'a'
  | base => some 'b'
  | device => some 'd'
  | mode => some 'm'
  | format => some 'f'
  | sweep => some 's'
  | entry => some 'e'
  | raw | deviceFile | listDevices => none

/-- Whether the option has a value. -/
def takesValue : Key → Bool
  | raw | listDevices => false
  | _ => true

/-- Whether the option may be given more than once. -/
def mayRepeat (k : Key) : Bool := k = .entry

end Key

/-- Why arguments are refused. -/
inductive UsageProblem where
  | unknownOption (argument : String)
  | missingValue (key : Key)
  | unexpectedValue (key : Key)
  | badValue (key : Key) (value : String)
  | repeated (key : Key)
  | extraArgument (argument : String)
  | emptyPath
  | missingFile
  /-- A built-in device and a device description at once. -/
  | twoDevices

def UsageProblem.message : UsageProblem → String
  | unknownOption argument => "unexpected argument '" ++ argument ++ "' found"
  | missingValue key => "a value is required for '--" ++ key.name ++ "' but none was supplied"
  | unexpectedValue key => "unexpected value for '--" ++ key.name ++ "' found"
  | badValue key value => "invalid value '" ++ value ++ "' for '--" ++ key.name ++ "'"
  | repeated key => "the argument '--" ++ key.name ++ "' cannot be used multiple times"
  | extraArgument argument => "unexpected argument '" ++ argument ++ "' found"
  | emptyPath => "a path must not be empty"
  | missingFile => "the path of an object file or raw code image is required"
  | twoDevices => "the argument '--device' cannot be used with '--device-config'"

/-! ## Arguments -/

/-- What one argument is on its own. -/
inductive Token where
  | positional (s : String)
  /-- An option, perhaps with its value. -/
  | option (key : Key) (value : Option String)

/-- The text of an option up to the equals sign, and the value after it. -/
def splitAtEquals (cs : List Char) : List Char × Option String :=
  match cs.dropWhile (· ≠ '=') with
  | [] => (cs, none)
  | _ :: value => (cs.takeWhile (· ≠ '='), some (String.ofList value))

/-- The value that follows the letter of an option directly. -/
def valueAfterLetter : List Char → Option String
  | [] => none
  | '=' :: value => some (String.ofList value)
  | value => some (String.ofList value)

/-- Read one argument.  A single dash is no option. -/
def Token.ofText (s : String) : Except UsageProblem Token :=
  match s.toList with
  | '-' :: '-' :: rest =>
      let (name, value) := splitAtEquals rest
      match Key.all.find? (·.name.toList == name) with
      | some key => .ok (.option key value)
      | none => .error (.unknownOption s)
  | '-' :: letter :: rest =>
      match Key.all.find? (·.letter? == some letter) with
      | some key => .ok (.option key (valueAfterLetter rest))
      | none => .error (.unknownOption s)
  | _ => .ok (.positional s)

/-- Whether an argument cannot be the value of the option before it. -/
def looksLikeOption (s : String) : Bool := s ≠ "-" && s.startsWith "-"

/-- An argument together with its value. -/
inductive Item where
  | positional (s : String)
  | flag (key : Key)
  | valued (key : Key) (value : String)

/-- The items that arguments make up. -/
def items : List String → Except UsageProblem (List Item)
  | [] => .ok []
  | argument :: rest =>
      if argument = "--" then .ok (rest.map .positional)
      else
        match Token.ofText argument with
        | .error problem => .error problem
        | .ok (.positional s) => (items rest).map (.positional s :: ·)
        | .ok (.option key (some value)) =>
            if key.takesValue then (items rest).map (.valued key value :: ·)
            else .error (.unexpectedValue key)
        | .ok (.option key none) =>
            if !key.takesValue then (items rest).map (.flag key :: ·)
            else
              match rest with
              | [] => .error (.missingValue key)
              | value :: rest' =>
                  if looksLikeOption value then .error (.missingValue key)
                  else (items rest').map (.valued key value :: ·)

/-! ## Values -/

/-- A number in hexadecimal digits, perhaps after `0x`, of at most 64 bits. -/
def address? (s : String) : Option Nat :=
  match s.toList with
  | '0' :: 'x' :: rest => Numeral.unsigned? 16 (2 ^ 64) rest
  | cs => Numeral.unsigned? 16 (2 ^ 64) cs

/-- The first of some named options with a name, whose case may be ignored. -/
def chosen? {α : Type} (options : List (String × α)) (ignoreCase : Bool) (name : String) :
    Option (String × α) :=
  options.find? fun o => o.1 == name || ignoreCase && o.1.toLower == name.toLower

/-- What the command line asks for. -/
structure Options where
  file : Option String := none
  architecture : Option Architecture := none
  raw : Bool := false
  base : Nat := 0
  device : String := "pic18f4620"
  deviceFile : Option String := none
  mode : Pic18.Mode := .traditional
  format : Format := .text
  sweep : Sweep.Kind := .linear
  entries : List Nat := []
  listDevices : Bool := false

namespace Options

/-- Read a value that must be one that `read` knows. -/
def value {α : Type} (read : String → Option α) (key : Key) (s : String) :
    Except UsageProblem α :=
  match read s with
  | some a => .ok a
  | none => .error (.badValue key s)

/-- Read a value that must be one of a list of names. -/
def choice {α : Type} (options : List (String × α)) (key : Key) (s : String) :
    Except UsageProblem α :=
  value (fun name => (chosen? options false name).map (·.2)) key s

/-- A path, which must not be empty. -/
def path (s : String) : Except UsageProblem String :=
  if s = "" then .error .emptyPath else .ok s

/-- Take one item into account. -/
def add (o : Options) : Item → Except UsageProblem Options
  | .positional s => do
      if o.file.isSome then throw (.extraArgument s)
      return { o with file := some (← path s) }
  | .flag .raw => return { o with raw := true }
  | .flag _ => return { o with listDevices := true }
  | .valued key s => do
      match key with
      | .architecture =>
          return { o with architecture := some (← choice Architecture.options key s) }
      | .base => return { o with base := ← value address? key s }
      | .device => return { o with device := s }
      | .deviceFile => return { o with deviceFile := some (← path s) }
      | .mode => return { o with mode := ← choice Pic18.Mode.options key s }
      | .format => return { o with format := ← choice Format.options key s }
      | .sweep => return { o with sweep := ← choice Sweep.Kind.options key s }
      | .entry => return { o with entries := o.entries ++ [← value address? key s] }
      | .raw | .listDevices => throw (.unexpectedValue key)

/-- The option an item gives. -/
def key? : Item → Option Key
  | .positional _ => none
  | .flag key | .valued key _ => some key

/-- Refuse options that are given too often or do not go together. -/
def check (given : List Key) : Except UsageProblem Unit := do
  match Key.all.find? fun k => !k.mayRepeat && 1 < given.count k with
  | some k => throw (.repeated k)
  | none => pure ()
  if given.contains .device && given.contains .deviceFile then throw .twoDevices

/-- The options that arguments give.  A file is needed unless the devices are to be listed. -/
def ofArguments (arguments : List String) : Except UsageProblem Options := do
  let items ← items arguments
  check (items.filterMap key?)
  let o ← items.foldlM add {}
  if o.file.isNone && !o.listDevices then throw .missingFile
  return o

end Options

end RegisterTransfer.CommandLine
