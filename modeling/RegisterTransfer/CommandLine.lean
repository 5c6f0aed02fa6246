/-
# RegisterTransfer.CommandLine -- the program as a function

What the program prints and returns is a function of its arguments and of the files they name.  It
loads the code of an object file or of a raw image, lowers it with the back-end of its architecture
and prints the clusters in the form asked for.  Wrong usage returns 2 and everything else that goes
wrong returns 1; neither prints to the standard output.
-/
import RegisterTransfer.CommandLine.Options
import RegisterTransfer.ObjectFile.Reader
import RegisterTransfer.Pic18.Decoder
import RegisterTransfer.Pic18.Device.Document
import RegisterTransfer.Pic18.Devices
import RegisterTransfer.Pic18.Lowering
import RegisterTransfer.X86.Lowering

namespace RegisterTransfer.CommandLine

set_option autoImplicit false

/-- The files that can be read, by their paths. -/
abbrev Files := List (String × List UInt8)

/-- Why the program gives up. -/
inductive Failure where
  | unreadable (path : String)
  | noCode (path : String)
  | notAnObject (path : String)
  | deviceFile (path : String)
  | noEntry
  | fault (f : Fault)

def Failure.message : Failure → String
  | unreadable path => "Failed to read " ++ path
  | noCode path => path ++ " has no executable section"
  | notAnObject path => path ++ " is not an object file; pass --arch for raw images"
  | deviceFile path => "Failed to load device config " ++ path
  | noEntry => "The procedure sweep needs at least one --entry"
  | fault f => f.message

/-- The code to lower. -/
structure Image where
  architecture : Architecture
  base : Nat
  bytes : List UInt8
  entry? : Option Nat

/-- The file as it is, for the architecture asked for. -/
def rawImage (o : Options) (path : String) (bytes : List UInt8) : Except Failure Image :=
  match o.architecture with
  | some architecture => .ok ⟨architecture, o.base, bytes, none⟩
  | none => .error (.notAnObject path)

/-- The code in a file.  What is no object file counts as a raw image. -/
def loadImage (o : Options) (files : Files) (path : String) : Except Failure Image :=
  match files.lookup path with
  | none => .error (.unreadable path)
  | some bytes =>
      if o.raw then rawImage o path bytes
      else
        match ObjectFile.ofBytes bytes with
        | .error _ => rawImage o path bytes
        | .ok object =>
            match object.codeRegion? bytes with
            | none => .error (.noCode path)
            | some (base, code) =>
                .ok ⟨o.architecture.getD object.architecture, base, code, object.entry?⟩

/-- The device description in a file. -/
def deviceIn (files : Files) (path : String) : Option Pic18.Device := do
  let bytes ← files.lookup path
  let text ← String.fromUTF8? ⟨bytes.toArray⟩
  (Pic18.Device.ofText text).toOption

/-- The registers of the device asked for. -/
def loadCatalog (o : Options) (files : Files) : Except Failure Pic18.Catalog := do
  let device ←
    match o.deviceFile with
    | some path =>
        match deviceIn files path with
        | some d => pure d
        | none => throw (.deviceFile path)
    | none => (Pic18.Devices.named o.device).mapError .fault
  (Pic18.Catalog.load (some device)).mapError .fault

/-- Lower an image in the way asked for.  Entry points on the command line replace that of the
object file. -/
def clusters {ι : Type} [MachineInstruction ι] (o : Options) (decoder : Decoder ι)
    (b : Backend ι) (image : Image) : Except Failure (List Cluster) :=
  match o.sweep with
  | .linear => (Sweep.linear decoder b .empty image.bytes image.base).1.mapError .fault
  | .procedures =>
      let entries := if o.entries.isEmpty then image.entry?.toList else o.entries
      if entries.isEmpty then .error .noEntry
      else
        match (Sweep.procedures decoder b .empty image.bytes image.base entries).1 with
        | .error f => .error (.fault f)
        | .ok traces => .ok (traces.flatMap (·.clusters))

/-- The program has no decoder for x86 code, so only empty images of it have clusters. -/
def noDecoder : Decoder X86.Instruction where
  decode _ address := .error (.invalidEncoding address "no decoder for this architecture")

/-- The clusters of an image. -/
def lowerImage (o : Options) (files : Files) (image : Image) : Except Failure (List Cluster) :=
  match image.architecture with
  | .pic18 => do
      let catalog ← loadCatalog o files
      clusters o (Pic18.decoder catalog.family o.mode) (Pic18.backend catalog) image
  | other =>
      match X86.Mode.ofArchitecture other with
      | .ok mode => clusters o noDecoder (X86.backend mode) image
      | .error f => .error (.fault f)

/-- What the program prints when its arguments are in order. -/
def output (o : Options) (files : Files) : Except Failure String := do
  if o.listDevices then
    return String.join (Pic18.Devices.names.map (· ++ "\n"))
  let image ← loadImage o files (o.file.getD "")
  let clusters ← lowerImage o files image
  return o.format.render image.base clusters

/-- The end of a run. -/
structure Outcome where
  code : Nat
  out : String := ""
  err : String := ""

/-- A run of the program. -/
def run (files : Files) (arguments : List String) : Outcome :=
  match Options.ofArguments arguments with
  | .error problem => { code := 2, err := "error: " ++ problem.message }
  | .ok o =>
      match output o files with
      | .error failure => { code := 1, err := "Error: " ++ failure.message }
      | .ok out => { code := 0, out }

/-- The paths of the files that the arguments name. -/
def paths (arguments : List String) : List String :=
  match Options.ofArguments arguments with
  | .error _ => []
  | .ok o => o.file.toList ++ o.deviceFile.toList

end RegisterTransfer.CommandLine
