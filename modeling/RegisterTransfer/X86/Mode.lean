/-
# RegisterTransfer.X86.Mode -- processor modes

The mode of an x86 processor fixes the width of words, addresses and stack slots, and whether
memory is addressed through segments.
-/
import RegisterTransfer.DataType
import RegisterTransfer.Fault

namespace RegisterTransfer.X86

set_option autoImplicit false

/-- A mode of the processor. -/
inductive Mode where
  | realMode
  | protectedMode
  | longMode
deriving DecidableEq

namespace Mode

def all : List Mode := [.realMode, .protectedMode, .longMode]

/-- Width of a word, an address and a stack slot. -/
def bits : Mode → Nat
  | realMode => 16
  | protectedMode => 32
  | longMode => 64

/-- The mode whose words have a width. -/
def ofBits? (n : Nat) : Option Mode := all.find? (·.bits = n)

theorem ofBits?_bits (m : Mode) : ofBits? m.bits = some m := by
  cases m <;> decide

theorem bits_of_ofBits? {n : Nat} {m : Mode} (h : ofBits? n = some m) : m.bits = n := by
  simpa using List.find?_some h

/-- The type of a word. -/
def word (m : Mode) : DataType := .word m.bits

/-- Bytes in an address. -/
def pointerSize (m : Mode) : Nat := m.bits / 8

theorem bits_word (m : Mode) : m.word.bits = m.bits := by
  cases m <;> decide

/-- Only real mode addresses memory through segments; the others are flat. -/
def isSegmented (m : Mode) : Bool := m = .realMode

def architecture : Mode → Architecture
  | realMode => .x86real
  | protectedMode => .x86protected
  | longMode => .x86long

/-- The mode that runs code of an architecture. -/
def ofArchitecture : Architecture → Except Fault Mode
  | .x86real => .ok realMode
  | .x86protected => .ok protectedMode
  | .x86long => .ok longMode
  | other => .error (.unsupportedArchitecture other)

theorem ofArchitecture_architecture (m : Mode) : ofArchitecture m.architecture = .ok m := by
  cases m <;> rfl

end Mode

end RegisterTransfer.X86
