/-
# RegisterTransfer.Proofs.X86.FloatingStack -- the stack of the floating-point unit

The unit has eight slots and a register, Top, that counts them.  The registers st0 to st7 are no cells of
their own: st(n) is the slot at Top plus n modulo eight, at the moment it is read or written.  `Stacked`
is a register file with such slots beside any other registers, Top among them.

Pushing and popping are said on slots (`State.push`, `State.pop`): the lowering moves Top first and then
writes the register that has become the top.  `State.place_turn` relates names before and after a move.
-/
import RegisterTransfer.Proofs.X86.OperandValue

namespace RegisterTransfer.X86

set_option autoImplicit false

/-! ## Slots -/

/-- Eight slots beside other registers. -/
structure Stacked (ρ : Type) where
  slots : Fin 8 → BitVec 80
  /-- All other registers, Top among them. -/
  others : ρ

/-- Whether a register is named by its distance from the top. -/
def isStack (id : Identifier) : Bool := 24 ≤ id.family && id.family < 32

namespace Stacked

variable {ρ : Type} [RegisterFile ρ] (s : Stacked ρ)

/-- The number of the slot on top, which counts modulo eight. -/
def top : Nat := RegisterFile.read s.others Register.top.identifier

/-- The slot that is so far below the top. -/
def slot (n : Nat) : Fin 8 := ⟨(s.top + n) % 8, Nat.mod_lt _ (by decide)⟩

/-- Put a number into the slot that is so far below the top. -/
def place (n value : Nat) : Stacked ρ :=
  { s with slots := Function.update s.slots (s.slot n) (BitVec.ofNat 80 value) }

/-- Move the top. -/
def turn (k : Int) : Stacked ρ :=
  { s with
    others := RegisterFile.write s.others Register.top.identifier (Bits.ofInt 8 (s.top + k)) }

instance : RegisterFile (Stacked ρ) where
  read s id :=
    if isStack id then (s.slots (s.slot (id.family - 24))).toNat
    else RegisterFile.read s.others id
  write s id value :=
    if isStack id then s.place (id.family - 24) value
    else { s with others := RegisterFile.write s.others id value }

theorem isStack_stack (n : Fin 8) : isStack (Register.stack n).identifier = true := by
  have small := n.isLt
  show (decide (24 ≤ 24 + n.val) && decide (24 + n.val < 32)) = true
  rw [decide_eq_true (by omega), decide_eq_true (by omega)]
  rfl

theorem read_stack (n : Fin 8) :
    RegisterFile.read s (Register.stack n).identifier = (s.slots (s.slot n)).toNat := by
  show (if isStack (Register.stack n).identifier = true then
    (s.slots (s.slot (24 + n.val - 24))).toNat else _) = _
  rw [if_pos (isStack_stack n), Nat.add_sub_cancel_left]

theorem write_stack (n : Fin 8) (value : Nat) :
    RegisterFile.write s (Register.stack n).identifier value = s.place n value := by
  show (if isStack (Register.stack n).identifier = true then s.place (24 + n.val - 24) value
    else _) = _
  rw [if_pos (isStack_stack n), Nat.add_sub_cancel_left]

/-- Any other register is one of the others. -/
theorem read_other {id : Identifier} (other : isStack id = false) :
    RegisterFile.read s id = RegisterFile.read s.others id :=
  if_neg (by rw [other]; decide)

theorem isStack_of_outside {r : Register} (outside : r.family < 24) :
    isStack r.identifier = false := by
  show (decide (24 ≤ r.family) && decide (r.family < 32)) = false
  rw [decide_eq_false (by omega)]
  rfl

variable [LawfulRegisterFile ρ] (k l : Int)

theorem top_turn : (s.turn k).top = Bits.ofInt 8 (s.top + k) := by
  have written := LawfulRegisterFile.read_write s.others Register.top.identifier
    (Bits.ofInt 8 (s.top + k))
  exact written.trans (Nat.mod_eq_of_lt (Bits.ofInt_lt 8 _))

/-- Moving the top renames the slots. -/
theorem slot_turn {n j : Nat} (same : ((j : Int) + k) % 8 = n % 8) :
    (s.turn k).slot j = s.slot n := by
  have moved := s.top_turn k
  rw [Bits.ofInt] at moved
  have number : ((s.turn k).top + j) % 8 = (s.top + n) % 8 := by omega
  exact Fin.ext number

/-- What is put into a slot after the top moved could be put there before. -/
theorem place_turn {n j : Nat} (same : ((j : Int) + k) % 8 = n % 8) (value : Nat) :
    (s.turn k).place j value = (s.place n value).turn k := by
  rw [place, slot_turn s k same]
  rfl

theorem turn_turn : (s.turn k).turn l = s.turn (k + l) := by
  have moved := s.top_turn k
  have twice : Bits.ofInt 8 ((s.turn k).top + l) = Bits.ofInt 8 (s.top + (k + l)) := by
    rw [moved, Bits.ofInt, Bits.ofInt, Bits.ofInt]
    omega
  rw [turn, twice]
  show Stacked.mk s.slots (RegisterFile.write (RegisterFile.write s.others _ _) _ _) = _
  rw [LawfulRegisterFile.write_write]
  rfl

/-- Registers of other families than that of Top do not see it move. -/
theorem read_turn {id : Identifier} (other : isStack id = false)
    (apart : id.family ≠ Register.top.identifier.family) :
    RegisterFile.read (s.turn k) id = RegisterFile.read s id := by
  rw [read_other _ other, read_other _ other]
  exact LawfulRegisterFile.read_write_of_family_ne s.others _ apart.symm

end Stacked

end X86

/-! ## States -/

namespace State

open X86

variable {ρ : Type} [RegisterFile ρ] (σ : State (Stacked ρ))

/-- What the register so far below the top of the unit holds. -/
def st (n : Nat) : Nat := (σ.registers.slots (σ.registers.slot n)).toNat

/-- Put a number into the register so far below the top. -/
def place (n value : Nat) : State (Stacked ρ) :=
  { σ with registers := σ.registers.place n value }

/-- Move the top. -/
def turn (k : Int) : State (Stacked ρ) := { σ with registers := σ.registers.turn k }

/-- A number becomes the new top. -/
def push (value : Nat) : State (Stacked ρ) := (σ.turn (-1)).place 0 value

/-- Drop the top some number of times. -/
def pop (σ : State (Stacked ρ)) : Nat → State (Stacked ρ)
  | 0 => σ
  | n + 1 => pop (σ.turn 1) n

theorem get_stack (n : Fin 8) : σ.get (Register.stack n).identifier = σ.st n := by
  rw [σ.get_of_isRegister (Register.isRegister_identifier _)]
  exact σ.registers.read_stack n

theorem setRegister_stack (n : Fin 8) (value : Nat) :
    σ.setRegister (Register.stack n).identifier value = σ.place n value := by
  rw [setRegister, Stacked.write_stack]
  rfl

/-- Putting back what a register holds changes nothing. -/
theorem place_st (n : Nat) : σ.place n (σ.st n) = σ := by
  have same : σ.registers.place n (σ.st n) = σ.registers := by
    rw [Stacked.place, st, BitVec.ofNat_toNat, BitVec.setWidth_eq, Function.update_eq_self]
  rw [place, same]

/-- The stack is no temporary. -/
theorem st_forget (n : Nat) : σ.forget.st n = σ.st n := rfl

theorem st_place_self (n value : Nat) : (σ.place n value).st n = value % 2 ^ 80 := by
  show (Function.update σ.registers.slots (σ.registers.slot n) (BitVec.ofNat 80 value)
    (σ.registers.slot n)).toNat = _
  rw [Function.update_self]
  exact BitVec.toNat_ofNat value 80

theorem st_place_of_ne {n k : Nat} (different : k % 8 ≠ n % 8) (value : Nat) :
    (σ.place n value).st k = σ.st k := by
  have apart : σ.registers.slot k ≠ σ.registers.slot n := by
    intro same
    have number : (σ.registers.top + k) % 8 = (σ.registers.top + n) % 8 := congrArg Fin.val same
    omega
  show (Function.update σ.registers.slots (σ.registers.slot n) _ (σ.registers.slot k)).toNat = _
  rw [Function.update_of_ne apart]
  rfl

/-- What is pushed is on top. -/
theorem st_push_zero (value : Nat) : (σ.push value).st 0 = value % 2 ^ 80 :=
  (σ.turn (-1)).st_place_self 0 value

variable [LawfulRegisterFile ρ]

theorem st_turn {k : Int} {n j : Nat} (same : ((j : Int) + k) % 8 = n % 8) :
    (σ.turn k).st j = σ.st n :=
  congrArg (fun slot => (σ.registers.slots slot).toNat) (σ.registers.slot_turn k same)

theorem place_turn {k : Int} {n j : Nat} (same : ((j : Int) + k) % 8 = n % 8) (value : Nat) :
    (σ.turn k).place j value = (σ.place n value).turn k :=
  congrArg (fun registers => { σ with registers }) (σ.registers.place_turn k same value)

/-- What was there is one deeper, except for what was deepest. -/
theorem st_push_succ {n : Nat} (less : n < 7) (value : Nat) :
    (σ.push value).st (n + 1) = σ.st n := by
  rw [push, st_place_of_ne _ (by omega)]
  exact σ.st_turn (by omega)

theorem pop_eq_turn {n : Nat} (positive : 0 < n) : σ.pop n = σ.turn n := by
  induction n generalizing σ with
  | zero => cases positive
  | succ n ih =>
      cases n with
      | zero => rfl
      | succ n =>
          rw [pop, ih _ (Nat.succ_pos n)]
          have twice := σ.registers.turn_turn 1 (n + 1 : Nat)
          rw [show (1 : Int) + (n + 1 : Nat) = (n + 1 + 1 : Nat) by omega] at twice
          exact congrArg (fun registers => { σ with registers }) twice

/-- Registers outside the unit hold numbers of their width. -/
theorem get_lt_of_outside {r : Register} (outside : r.family < 24) :
    σ.get r.identifier < 2 ^ r.identifier.bits := by
  rw [get_of_isRegister _ r.isRegister_identifier,
    σ.registers.read_other (Stacked.isStack_of_outside outside)]
  exact LawfulRegisterFile.read_lt _ _

/-- Registers outside the unit do not see its top move. -/
theorem get_turn {r : Register} (outside : r.family < 24) (k : Int) :
    (σ.turn k).get r.identifier = σ.get r.identifier := by
  have other := Stacked.isStack_of_outside outside
  have apart : r.identifier.family ≠ Register.top.identifier.family := by
    show r.family ≠ 32
    omega
  rw [get_of_isRegister _ r.isRegister_identifier, get_of_isRegister _ r.isRegister_identifier]
  exact σ.registers.read_turn k other apart

end State

end RegisterTransfer
