/-
# RegisterTransfer.X86.Register -- the register file

Sixteen general registers are seen at four widths, the first four also at their second byte.
Registers that share bits share a family number; `Register.withWidth?` finds the part of a family
that starts at bit 0 and has a given width, which is unique.
-/
import RegisterTransfer.Identifier
import RegisterTransfer.X86.Mode

namespace RegisterTransfer.X86

set_option autoImplicit false

/-- Width at which a general register is seen. -/
inductive Width where
  | bits8 | bits16 | bits32 | bits64
deriving DecidableEq

namespace Width

def all : List Width := [.bits8, .bits16, .bits32, .bits64]

def bits : Width → Nat
  | bits8 => 8
  | bits16 => 16
  | bits32 => 32
  | bits64 => 64

def ofBits? (n : Nat) : Option Width := all.find? (·.bits = n)

theorem ofBits?_bits (w : Width) : ofBits? w.bits = some w := by
  cases w <;> decide

theorem bits_of_ofBits? {n : Nat} {w : Width} (h : ofBits? n = some w) : w.bits = n := by
  simpa using List.find?_some h

end Width

/-- A segment register. -/
inductive Segment where
  | es | cs | ss | ds | fs | gs
deriving DecidableEq

namespace Segment

def all : List Segment := [.es, .cs, .ss, .ds, .fs, .gs]

def name : Segment → String
  | es => "es"
  | cs => "cs"
  | ss => "ss"
  | ds => "ds"
  | fs => "fs"
  | gs => "gs"

/-- The position of a segment register in its numbering. -/
def index : Segment → Nat
  | es => 0
  | cs => 1
  | ss => 2
  | ds => 3
  | fs => 4
  | gs => 5

end Segment

/-- A register, or a part of one that has a name. -/
inductive Register where
  /-- The low-order part of a general register. -/
  | general (family : Fin 16) (width : Width)
  /-- The second byte of one of the first four general registers. -/
  | highByte (family : Fin 4)
  | segment (s : Segment)
  /-- The instruction pointer as wide as a mode's words. -/
  | instructionPointer (mode : Mode)
  /-- A floating-point register, counted from the top of their stack. -/
  | stack (n : Fin 8)
  /-- The number of the floating-point register at the top. -/
  | top
  | statusWord
  | controlWord
deriving DecidableEq

namespace Register

/-- The names of the first eight general registers at 16 bits. -/
def legacyNames : List String := ["ax", "cx", "dx", "bx", "sp", "bp", "si", "di"]

/-- The name of a general register at a width: the old ones take letters around their 16-bit
name, the others a number and a letter for the width. -/
def generalName (family : Fin 16) (width : Width) : String :=
  match legacyNames[family.val]? with
  | some old =>
      match width with
      | .bits8 => if family.val < 4 then String.ofList (old.toList.take 1) ++ "l" else old ++ "l"
      | .bits16 => old
      | .bits32 => "e" ++ old
      | .bits64 => "r" ++ old
  | none =>
      "r" ++ Numeral.decimal family.val ++
        match width with
        | .bits8 => "b"
        | .bits16 => "w"
        | .bits32 => "d"
        | .bits64 => ""

def name : Register → String
  | general family width => generalName family width
  | highByte family => String.ofList ((legacyNames.getD family.val "").toList.take 1) ++ "h"
  | segment s => s.name
  | instructionPointer .realMode => "ip"
  | instructionPointer .protectedMode => "eip"
  | instructionPointer .longMode => "rip"
  | stack n => "st" ++ Numeral.decimal n.val
  | top => "Top"
  | statusWord => "fpusw"
  | controlWord => "fpucw"

/-- Every register. -/
def all : List Register :=
  Width.all.flatMap (fun w => (List.finRange 16).map (general · w))
    ++ (List.finRange 4).map highByte
    ++ Segment.all.map segment
    ++ Mode.all.map instructionPointer
    ++ (List.finRange 8).map stack
    ++ [top, statusWord, controlWord]

/-- Registers with the same family share bits. -/
def family : Register → Nat
  | general n _ => n.val
  | highByte n => n.val
  | segment s => 16 + s.index
  | instructionPointer _ => 22
  | stack n => 24 + n.val
  | top => 32
  | statusWord => 33
  | controlWord => 34

/-- The lowest bit of the family that the register covers. -/
def lowestBit : Register → Nat
  | highByte _ => 8
  | _ => 0

def bits : Register → Nat
  | general _ w => w.bits
  | highByte _ => 8
  | segment _ => 16
  | instructionPointer m => m.bits
  | stack _ => 80
  | top => 8
  | statusWord => 16
  | controlWord => 16

/-- Floating-point registers hold reals and all others words. -/
def type (r : Register) : DataType :=
  match r with
  | stack _ => .real80
  | _ => .word r.bits

theorem bits_type (r : Register) : r.type.bits = r.bits := by
  cases r with
  | general n w => cases w <;> rfl
  | instructionPointer m => cases m <;> rfl
  | _ => rfl

/-- The storage of the register. -/
def identifier (r : Register) : Identifier := .subRegister r.name r.type r.family r.lowestBit

/-- The numbered spelling of a floating-point register, as in st(0), without its brackets. -/
def withoutBrackets : List Char → List Char
  | 's' :: 't' :: '(' :: rest =>
      if rest.getLast? = some ')' then 's' :: 't' :: rest.dropLast else 's' :: 't' :: '(' :: rest
  | cs => cs

/-- The register of a name in either case.  No spelling names the top of the floating-point stack,
whose own name has a capital letter. -/
def ofName? (s : String) : Option Register :=
  let wanted := String.ofList (withoutBrackets (s.toList.map Char.toLower))
  all.find? (·.name == wanted)

/-- The part of the register's family that starts at bit 0 and has the width given. -/
def withWidth? (r : Register) (width : Nat) : Option Register :=
  match r with
  | general n _ => (Width.ofBits? width).map (general n)
  | highByte n => (Width.ofBits? width).map (general (n.castLE (by decide)))
  | instructionPointer _ => (Mode.ofBits? width).map instructionPointer
  | other => if other.bits = width then some other else none

/-- What `withWidth?` finds is of the same family, has the width asked for and starts at bit 0. -/
theorem part_of_withWidth? {r s : Register} {width : Nat} (h : r.withWidth? width = some s) :
    s.family = r.family ∧ s.bits = width ∧ s.lowestBit = 0 := by
  cases r with
  | general n w =>
      obtain ⟨v, hv, rfl⟩ := Option.map_eq_some_iff.1 h
      exact ⟨rfl, Width.bits_of_ofBits? hv, rfl⟩
  | highByte n =>
      obtain ⟨v, hv, rfl⟩ := Option.map_eq_some_iff.1 h
      exact ⟨rfl, Width.bits_of_ofBits? hv, rfl⟩
  | instructionPointer m =>
      obtain ⟨v, hv, rfl⟩ := Option.map_eq_some_iff.1 h
      exact ⟨rfl, Mode.bits_of_ofBits? hv, rfl⟩
  | segment | stack | top | statusWord | controlWord =>
      simp only [withWidth?] at h
      split at h
      · simp only [Option.some.injEq] at h
        subst h
        exact ⟨rfl, by assumption, rfl⟩
      · cases h

/-- The register at another width, or as it is if its family has no part of that width. -/
def resize (r : Register) (width : Nat) : Register := (r.withWidth? width).getD r

/-- A floating-point register by its distance from the top, which counts modulo eight. -/
def fpu (n : Nat) : Register := stack ⟨n % 8, Nat.mod_lt n (by decide)⟩

/-- The distance of a floating-point register from the top. -/
def fpuIndex? : Register → Option Nat
  | stack n => some n.val
  | _ => none

def isSegment : Register → Bool
  | segment _ => true
  | _ => false

/-! ## Registers with a part in some instructions -/

def al : Register := general 0 .bits8
def ah : Register := highByte 0
def ax : Register := general 0 .bits16
def eax : Register := general 0 .bits32
def rax : Register := general 0 .bits64
def cx : Register := general 1 .bits16
def ecx : Register := general 1 .bits32
def rcx : Register := general 1 .bits64
def dx : Register := general 2 .bits16
def edx : Register := general 2 .bits32
def rdx : Register := general 2 .bits64
def ebx : Register := general 3 .bits32
def sp : Register := general 4 .bits16
def esp : Register := general 4 .bits32
def bp : Register := general 5 .bits16
def ebp : Register := general 5 .bits32
def esi : Register := general 6 .bits32
def edi : Register := general 7 .bits32
def st0 : Register := fpu 0
def st1 : Register := fpu 1

end Register

namespace Mode

/-- A register at the width of the mode's words. -/
def native (m : Mode) (r : Register) : Register := r.resize m.bits

def stackPointer (m : Mode) : Register := m.native .sp

def framePointer (m : Mode) : Register := m.native .bp

end Mode

end RegisterTransfer.X86
