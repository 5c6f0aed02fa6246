/-
# RegisterTransfer.Architecture -- the machines code can be read for

Each machine has instructions and operands of its own.  What is reported of an operand has one form for
all of them (`Access`): what is read to form it, what it stands for, and what its encoding says is
written.  Whether the storage it stands for is read, written or both is up to the opcode.
-/
namespace RegisterTransfer

set_option autoImplicit false

/-- A machine architecture. -/
inductive Architecture where
  /-- Microchip PIC18. -/
  | pic18
  /-- Real-mode x86. -/
  | x86real
  /-- Protected-mode x86. -/
  | x86protected
  /-- Long-mode x86. -/
  | x86long
  /-- Code of a machine this library does not read. -/
  | unknown
deriving DecidableEq

namespace Architecture

/-- The name of the architecture in messages. -/
def name : Architecture → String
  | pic18 => "PIC18"
  | x86real => "x86-16"
  | x86protected => "x86-32"
  | x86long => "x86-64"
  | unknown => "Unknown"

/-- The architectures that can be asked for, each with the name it is asked for by. -/
def options : List (String × Architecture) :=
  [("pic18", pic18), ("x86-16", x86real), ("x86-32", x86protected), ("x86-64", x86long)]

end Architecture

/-- The storage that one operand touches. -/
structure Access (σ : Type) where
  /-- Read to form the operand, or always read by its encoding. -/
  reads : List σ := []
  /-- What the operand stands for. -/
  target : List σ := []
  /-- Written as the encoding says. -/
  writes : List σ := []

/-- Whether an operand touches no storage at all. -/
def Access.isEmpty {σ : Type} (a : Access σ) : Bool :=
  a.reads.isEmpty && a.target.isEmpty && a.writes.isEmpty

end RegisterTransfer
