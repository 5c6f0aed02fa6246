/-
# RegisterTransfer.Pic18.Catalog -- the registers of one device

A catalog is a device description that was checked: every register lies in data memory, every
bit-field in its register, no name occurs twice, the registers every device needs are there, and
the forbidden destinations are registers.  `Catalog.load` reports the first check that fails.

Registers are found by address and width; of several that share both, the first one listed counts.
-/
import RegisterTransfer.Fault
import RegisterTransfer.Identifier
import RegisterTransfer.Pic18.Device

namespace RegisterTransfer.Pic18

set_option autoImplicit false

/-- The type of a register's contents. -/
def Register.type (r : Register) : DataType := .word r.width

def Register.identifier (r : Register) : Identifier := .register r.name r.type r.address

/-- What an access to an indirect-addressing register does with the pointer it goes through. -/
inductive Indirect where
  | indf
  | postInc
  | postDec
  | preInc
  /-- Adds the working register to the pointer. -/
  | plusW
deriving DecidableEq

namespace Indirect

def all : List Indirect := [.indf, .postInc, .postDec, .preInc, .plusW]

/-- The register name of a kind, before the number of the pointer. -/
def stem : Indirect → String
  | indf => "INDF"
  | postInc => "POSTINC"
  | postDec => "POSTDEC"
  | preInc => "PREINC"
  | plusW => "PLUSW"

/-- Every indirect-addressing register: its name, its kind and the number of its pointer. -/
def windows : List (String × Indirect × Fin 3) :=
  all.flatMap fun kind =>
    [(kind.stem ++ "0", kind, 0), (kind.stem ++ "1", kind, 1), (kind.stem ++ "2", kind, 2)]

/-- The kind and pointer number of an indirect-addressing register. -/
def ofName? (name : String) : Option (Indirect × Fin 3) := windows.lookup name

end Indirect

/-- The registers that lowering refers to by itself. -/
structure CoreRegisters where
  wreg : Identifier
  status : Identifier
  bsr : Identifier
  fsr0 : Identifier
  fsr1 : Identifier
  fsr2 : Identifier
  prod : Identifier
  tblptr : Identifier
  tablat : Identifier
  stkptr : Identifier
  tos : Identifier
  pcl : Identifier
  pclath : Identifier
  pclatu : Identifier
deriving DecidableEq

namespace CoreRegisters

/-- The pointer of a number. -/
def fsr (c : CoreRegisters) : Fin 3 → Identifier
  | 0 => c.fsr0
  | 1 => c.fsr1
  | 2 => c.fsr2

/-- The pointer of a number that an instruction encodes. -/
def fsr? (c : CoreRegisters) (n : Nat) : Option Identifier :=
  if h : n < 3 then some (c.fsr ⟨n, h⟩) else none

/-- The registers in the order in which a missing one is reported. -/
def toList (c : CoreRegisters) : List Identifier :=
  [c.wreg, c.status, c.bsr, c.fsr0, c.fsr1, c.fsr2, c.prod, c.tblptr, c.tablat, c.stkptr, c.tos,
    c.pcl, c.pclath, c.pclatu]

end CoreRegisters

/-- A copy of a register that fast calls save and fast returns restore, with no address in data
memory. -/
structure Shadow where
  wreg : Identifier
  status : Identifier
  bsr : Identifier

/-- The shadow registers stand past the end of data memory. -/
def shadow : Shadow where
  wreg := .register "WREG_SHAD" .byte 0x10000
  status := .register "STATUS_SHAD" .byte 0x10001
  bsr := .register "BSR_SHAD" .byte 0x10002

def Shadow.toList (s : Shadow) : List Identifier := [s.wreg, s.status, s.bsr]

/-- The checked description of a device. -/
structure Catalog where
  device : String
  memory : DataMemory
  registers : List Register
  forbidden : List Nat
  core : CoreRegisters
  configWords : List ConfigWord

namespace Catalog

/-! ## Checks -/

/-- The first problem among those of the parts of something. -/
def firstProblem {α : Type} (check : α → Option DeviceProblem) (parts : List α) :
    Option DeviceProblem :=
  parts.findSome? check

/-- Data addresses lie below this bound: a description states how many bits they have, and no more
than 16 count. -/
def addressLimit (d : Device) : Nat := 2 ^ min d.dataAddressBits 16

/-- Whether a field has bits and all of them lie within a width. -/
def fits (bit width available : Nat) : Bool := width ≠ 0 && bit + width ≤ available

def layoutProblem (what : String) (value : Nat) : Option DeviceProblem :=
  if value < 2 ^ 16 then none else some (.outOfRange what value)

/-- The problem of a register, given the names of those before it. -/
def registerProblem (limit : Nat) (earlier : List String) (r : Register) :
    Option DeviceProblem :=
  if limit ≤ r.address then some (.registerOutsideMemory r.name r.address)
  else
    match firstProblem
        (fun f => if fits f.bit f.width r.width then none
          else some (.fieldMisfit r.name f.name r.width)) r.fields with
    | some p => some p
    | none => if earlier.contains r.name then some (.duplicateRegister r.name) else none

/-- The first problem among registers listed after those with the names given. -/
def registersProblem (limit : Nat) : List String → List Register → Option DeviceProblem
  | _, [] => none
  | earlier, r :: rest =>
      match registerProblem limit earlier r with
      | some p => some p
      | none => registersProblem limit (r.name :: earlier) rest

def configProblem (words : List ConfigWord) : Option DeviceProblem :=
  firstProblem
    (fun w => firstProblem
      (fun f => if fits f.bit f.width 8 then none else some (.configFieldMisfit w.name f.name))
      w.fields)
    words

/-- The register of a name among those listed. -/
def findRegister? (registers : List Register) (name : String) : Option Register :=
  registers.find? (·.name == name)

/-- The register of a name that every device needs. -/
def coreRegister (registers : List Register) (name : String) : Except DeviceProblem Identifier :=
  match findRegister? registers name with
  | some r => .ok r.identifier
  | none => .error (.missingCoreRegister name)

/-- The registers that every device needs. -/
def coreRegisters (registers : List Register) : Except DeviceProblem CoreRegisters := do
  let find := coreRegister registers
  return {
    wreg := ← find "WREG"
    status := ← find "STATUS"
    bsr := ← find "BSR"
    fsr0 := ← find "FSR0"
    fsr1 := ← find "FSR1"
    fsr2 := ← find "FSR2"
    prod := ← find "PROD"
    tblptr := ← find "TBLPTR"
    tablat := ← find "TABLAT"
    stkptr := ← find "STKPTR"
    tos := ← find "TOS"
    pcl := ← find "PCL"
    pclath := ← find "PCLATH"
    pclatu := ← find "PCLATU" }

/-- The addresses of the forbidden destinations. -/
def forbiddenAddresses (registers : List Register) (names : List String) :
    Except DeviceProblem (List Nat) :=
  names.mapM fun name =>
    match findRegister? registers name with
    | some r => .ok r.address
    | none => .error (.unknownForbidden name)

/-- Nothing, or the problem there is. -/
def accept : Option DeviceProblem → Except DeviceProblem Unit
  | none => .ok ()
  | some p => .error p

/-- The catalog of a description, or the first problem with it. -/
def check (d : Device) : Except DeviceProblem Catalog := do
  accept (layoutProblem "access_split" d.accessSplit)
  accept (layoutProblem "sfr_window" d.sfrWindow)
  accept (registersProblem (addressLimit d) [] d.registers)
  let core ← coreRegisters d.registers
  let forbidden ← forbiddenAddresses d.registers d.forbidden
  accept (configProblem d.configWords)
  return {
    device := d.name
    memory := ⟨d.family, d.accessSplit, d.sfrWindow⟩
    registers := d.registers
    forbidden
    core
    configWords := d.configWords }

/-- The catalog of a description, if there is a description. -/
def load : Option Device → Except Fault Catalog
  | none => .error .missingDevice
  | some d =>
      match check d with
      | .ok c => .ok c
      | .error p => .error (.device p)

/-! ## Questions -/

def family (c : Catalog) : Family := c.memory.family

def size (c : Catalog) : Nat := c.registers.length

def isEmpty (c : Catalog) : Bool := c.registers.isEmpty

/-- The register of a width at a data address. -/
def lookup? (c : Catalog) (address width : Nat) : Option Register :=
  c.registers.find? fun r => r.address = address && r.width = width

/-- The register of a name. -/
def named? (c : Catalog) (name : String) : Option Register := findRegister? c.registers name

/-- The field of a width that starts at a bit of the byte register at an address. -/
def field? (c : Catalog) (address bit width : Nat) : Option BitField :=
  (c.lookup? address 8).bind fun r => r.fields.find? fun f => f.bit = bit && f.width = width

/-- The first register with a field of the name, and the field. -/
def fieldNamed? (c : Catalog) (name : String) : Option (Register × BitField) :=
  c.registers.findSome? fun r => (r.fields.find? (·.name == name)).map fun f => (r, f)

/-- Whether far moves may not write an address. -/
def isForbidden (c : Catalog) (address : Nat) : Bool := c.forbidden.contains address

/-- The kind and pointer of the indirect-addressing register at an address. -/
def indirect? (c : Catalog) (address : Nat) : Option (Indirect × Fin 3) :=
  (c.lookup? address 8).bind fun r => Indirect.ofName? r.name

/-! ## Configuration bytes -/

/-- What a configuration byte says about a field: the name of the setting, or the bare value. -/
def settingText (value : UInt8) (f : ConfigField) : String :=
  let bits := value.toNat / 2 ^ f.bit % 2 ^ f.width
  let setting :=
    match f.settings.find? (·.value = bits) with
    | some s => s.name
    | none => Numeral.hex0x bits
  f.name ++ "=" ++ setting

/-- The text of a directive that sets a configuration byte: the setting of each field if the byte
is described, and the bare address and value if it is not. -/
def configText (c : Catalog) (address : Nat) (value : UInt8) : String :=
  match c.configWords.find? fun w => w.address = address && !w.fields.isEmpty with
  | some w => ", ".intercalate (w.fields.map (settingText value))
  | none => "0x" ++ Numeral.hexUpper 6 address ++ "=" ++ Numeral.byte0x value

end Catalog

end RegisterTransfer.Pic18
