/-
# RegisterTransfer.Proofs.Meaning.RegisterFile -- the contents of registers

A register file holds a number for every register, below `2 ^ bits` of its type.  Register transfers
are read on any register file; what theorems need of one is `LawfulRegisterFile`.  There are two:

* `Cells`: every identifier is a cell of its own;
* `Families`: registers of one family share their bits.

In both, registers of different families do not touch each other.
-/
import Mathlib.Logic.Function.Basic
import RegisterTransfer.Identifier
import RegisterTransfer.Proofs.Meaning.Bits

namespace RegisterTransfer

set_option autoImplicit false

namespace Identifier

/-- The family of a register. -/
def family (id : Identifier) : Nat :=
  match id.storage with
  | .register family _ _ => family
  | _ => 0

/-- The lowest bit that a register covers in its family. -/
def lowestBit (id : Identifier) : Nat :=
  match id.storage with
  | .register _ lowest _ => lowest
  | _ => 0

/-- Number of bits of what an identifier holds. -/
def bits (id : Identifier) : Nat := id.type.bits

end Identifier

/-- Contents of registers. -/
class RegisterFile (ρ : Type) where
  read : ρ → Identifier → Nat
  /-- Put a number, cut to the register's width, into a register. -/
  write : ρ → Identifier → Nat → ρ

/-- A register holds what was last written to it, and registers of different families are
independent. -/
class LawfulRegisterFile (ρ : Type) [RegisterFile ρ] : Prop where
  read_lt : ∀ (r : ρ) (id : Identifier), RegisterFile.read r id < 2 ^ id.bits
  read_write : ∀ (r : ρ) (id : Identifier) (v : Nat),
    RegisterFile.read (RegisterFile.write r id v) id = v % 2 ^ id.bits
  write_read : ∀ (r : ρ) (id : Identifier), RegisterFile.write r id (RegisterFile.read r id) = r
  write_write : ∀ (r : ρ) (id : Identifier) (v w : Nat),
    RegisterFile.write (RegisterFile.write r id v) id w = RegisterFile.write r id w
  read_write_of_family_ne : ∀ (r : ρ) {a b : Identifier} (v : Nat), a.family ≠ b.family →
    RegisterFile.read (RegisterFile.write r a v) b = RegisterFile.read r b
  write_comm : ∀ (r : ρ) {a b : Identifier} (v w : Nat), a.family ≠ b.family →
    RegisterFile.write (RegisterFile.write r a v) b w =
      RegisterFile.write (RegisterFile.write r b w) a v

/-! ## A cell for every identifier -/

/-- Registers as separate cells. -/
structure Cells where
  contents : (id : Identifier) → BitVec id.bits

namespace Cells

theorem ext {r s : Cells} (same : ∀ id, r.contents id = s.contents id) : r = s := by
  cases r
  cases s
  rw [mk.injEq]
  funext id
  exact same id

instance : RegisterFile Cells where
  read r id := (r.contents id).toNat
  write r id v := ⟨Function.update r.contents id (BitVec.ofNat id.bits v)⟩

variable (r : Cells)

/-- Two cells are independent whenever their identifiers differ. -/
theorem read_write_of_ne {a b : Identifier} (v : Nat) (different : b ≠ a) :
    RegisterFile.read (RegisterFile.write r a v) b = RegisterFile.read r b := by
  show (Function.update r.contents a _ b).toNat = _
  rw [Function.update_of_ne different]
  rfl

theorem write_comm_of_ne {a b : Identifier} (v w : Nat) (different : b ≠ a) :
    RegisterFile.write (RegisterFile.write r a v) b w =
      RegisterFile.write (RegisterFile.write r b w) a v := by
  refine ext fun id => ?_
  show Function.update (Function.update r.contents a _) b _ id = _
  rw [Function.update_comm different.symm]
  rfl

instance : LawfulRegisterFile Cells where
  read_lt r id := (r.contents id).isLt
  read_write r id v := by
    show (Function.update r.contents id _ id).toNat = _
    rw [Function.update_self, BitVec.toNat_ofNat]
  write_read r id := by
    refine ext fun other => ?_
    show Function.update r.contents id (BitVec.ofNat id.bits (r.contents id).toNat) other = _
    rw [BitVec.ofNat_toNat, BitVec.setWidth_eq, Function.update_eq_self]
  write_write r id v w := by
    refine ext fun other => ?_
    show Function.update (Function.update r.contents id _) id _ other = _
    rw [Function.update_idem]
    rfl
  read_write_of_family_ne r _ _ v apart :=
    read_write_of_ne r v fun same => apart (congrArg Identifier.family same.symm)
  write_comm r _ _ v w apart :=
    write_comm_of_ne r v w fun same => apart (congrArg Identifier.family same.symm)

end Cells

/-! ## Families that share bits -/

/-- The bits of every register family. -/
structure Families where
  bit : Nat → Nat → Bool

namespace Families

theorem ext {r s : Families} (same : ∀ family k, r.bit family k = s.bit family k) : r = s := by
  cases r
  cases s
  rw [mk.injEq]
  funext family k
  exact same family k

/-- Whether a bit of a family belongs to a register. -/
def covers (id : Identifier) (family k : Nat) : Prop :=
  family = id.family ∧ id.lowestBit ≤ k ∧ k < id.lowestBit + id.bits

instance (id : Identifier) (family k : Nat) : Decidable (covers id family k) :=
  inferInstanceAs (Decidable (_ ∧ _ ∧ _))

instance : RegisterFile Families where
  read r id := Bits.window (r.bit id.family) id.lowestBit id.bits
  write r id v :=
    ⟨fun family k => if covers id family k then v.testBit (k - id.lowestBit) else r.bit family k⟩

theorem bit_write (r : Families) (id : Identifier) (v family k : Nat) :
    (RegisterFile.write r id v).bit family k =
      if covers id family k then v.testBit (k - id.lowestBit) else r.bit family k := rfl

theorem not_covers {a b : Identifier} (apart : a.family ≠ b.family) (k : Nat) :
    ¬covers a b.family k :=
  fun inside => apart inside.1.symm

instance : LawfulRegisterFile Families where
  read_lt _ _ := Bits.window_lt _ _ _
  read_write r id v := by
    apply Bits.window_of_testBit
    intro k inside
    have own : covers id id.family (id.lowestBit + k) := ⟨rfl, by omega, by omega⟩
    rw [bit_write, if_pos own, Nat.add_sub_cancel_left]
  write_read r id := by
    refine ext fun family k => ?_
    rw [bit_write]
    split
    · rename_i own
      obtain ⟨rfl, low, high⟩ := own
      show (Bits.window _ _ _).testBit _ = _
      rw [Bits.testBit_window, decide_eq_true (by omega), Bool.true_and,
        Nat.add_sub_cancel' low]
    · rfl
  write_write r id v w := by
    refine ext fun family k => ?_
    rw [bit_write, bit_write, bit_write]
    split <;> rfl
  read_write_of_family_ne r a b v apart := by
    apply Bits.window_congr
    intro k _
    rw [bit_write, if_neg (not_covers apart _)]
  write_comm r a b v w apart := by
    refine ext fun family k => ?_
    rw [bit_write, bit_write, bit_write, bit_write]
    by_cases inA : covers a family k
    · have notB : ¬covers b family k := fun inB => apart (inA.1.symm.trans inB.1)
      rw [if_neg notB, if_pos inA, if_pos inA]
    · rw [if_neg inA, if_neg inA]

/-- Two registers have no bit in common. -/
def Apart (a b : Identifier) : Prop :=
  a.family ≠ b.family ∨ a.lowestBit + a.bits ≤ b.lowestBit ∨ b.lowestBit + b.bits ≤ a.lowestBit

instance (a b : Identifier) : Decidable (Apart a b) :=
  inferInstanceAs (Decidable (_ ∨ _ ∨ _))

theorem Apart.symm {a b : Identifier} (apart : Apart a b) : Apart b a :=
  apart.elim (fun elsewhere => .inl elsewhere.symm) fun order => .inr order.symm

/-- Writing a register leaves alone what has no bit in common with it. -/
theorem read_write_of_apart (r : Families) {a b : Identifier} (v : Nat) (apart : Apart b a) :
    RegisterFile.read (RegisterFile.write r a v) b = RegisterFile.read r b := by
  apply Bits.window_congr
  intro k inside
  rw [bit_write, if_neg]
  rintro ⟨family, low, high⟩
  rcases apart with elsewhere | below | above
  · exact elsewhere family
  · omega
  · omega

end Families

end RegisterTransfer
