/-
# RegisterTransfer.Proofs.Meaning.Arithmetic -- values of the expressions that lowerings build

What the constructors of expressions evaluate to.  Literals keep 64 bits at most, which is all that
any literal of a lowering needs; `eval_addInt` says that adding a number adds it modulo the width of
the expression, whatever its sign.
-/
import RegisterTransfer.Proofs.Meaning.Expression

namespace RegisterTransfer

set_option autoImplicit false

namespace Bits

/-- Subtracting a number subtracts what is left of it modulo the width. -/
theorem ofInt_sub_mod (width : Nat) (n : Int) (m : Nat) :
    ofInt width (n - (m % 2 ^ width : Nat)) = ofInt width (n - m) := by
  rw [ofInt, ofInt, Int.natCast_emod, natCast_two_pow, Int.sub_emod_emod]

/-- The number of an integer that the width holds is the integer itself. -/
theorem ofInt_of_lt {width value : Nat} (inside : value < 2 ^ width) :
    ofInt width value = value := by
  rw [ofInt_natCast, Nat.mod_eq_of_lt inside]

theorem natCast_ofInt (width : Nat) (n : Int) : (ofInt width n : Int) = n % 2 ^ width :=
  Int.toNat_of_nonneg (Int.emod_nonneg n (Int.pow_ne_zero (by decide)))

/-- Adding to the number of an integer adds to the integer. -/
theorem ofInt_ofInt_add (width : Nat) (n m : Int) :
    ofInt width (ofInt width n + m) = ofInt width (n + m) := by
  rw [natCast_ofInt, ofInt, ofInt, Int.emod_add_emod]

/-- What was subtracted from a number of the width is added back. -/
theorem ofInt_sub_add_mod {width value : Nat} (inside : value < 2 ^ width) (n : Nat) :
    (ofInt width (value - n) + n) % 2 ^ width = value := by
  rw [← ofInt_natCast, Int.natCast_add, ofInt_ofInt_add, Int.sub_add_cancel, ofInt_of_lt inside]

/-- The number of an integer, cut to fewer bits. -/
theorem ofInt_mod_of_le {narrow wide : Nat} (le : narrow ≤ wide) (n : Int) :
    ofInt wide n % 2 ^ narrow = ofInt narrow n := by
  have divides : ((2 ^ narrow : Nat) : Int) ∣ (2 ^ wide : Nat) :=
    Int.natCast_dvd_natCast.mpr (Nat.pow_dvd_pow 2 le)
  rw [natCast_two_pow, natCast_two_pow] at divides
  rw [← Int.ofNat_inj, Int.natCast_emod, natCast_ofInt, natCast_ofInt, natCast_two_pow,
    Int.emod_emod_of_dvd n divides]

end Bits

/-! ## Wrapping arithmetic -/

/-- An integer that signed words of 64 bits hold does not wrap. -/
theorem wrap64_of_inside {n : Int} (least : -2 ^ 63 ≤ n) (bound : n < 2 ^ 63) : wrap64 n = n :=
  Int.bmod_eq_of_le (by omega) (by omega)

theorem natAbs_wrap64_lt (n : Int) : (wrap64 n).natAbs < 2 ^ 64 := by
  have least := Int.le_bmod (x := n) (m := 2 ^ 64) (by decide)
  have bound := Int.bmod_lt (x := n) (m := 2 ^ 64) (by decide)
  unfold wrap64
  omega

/-- Wrapping does not count modulo fewer bits. -/
theorem Bits.ofInt_add_wrap64 {width : Nat} (narrow : width ≤ 64) (n m : Int) :
    ofInt width (n + wrap64 m) = ofInt width (n + m) := by
  have whole : wrap64 m % 2 ^ 64 = m % 2 ^ 64 := Int.bmod_emod
  rw [← ofInt_mod_of_le narrow, ← ofInt_mod_of_le narrow (n + m), ofInt, ofInt, ← Int.add_emod_emod,
    whole, Int.add_emod_emod]

/-- A literal of 64 bits is cut to the width of its type. -/
theorem DataType.mod_literalBits (t : DataType) {value : Nat} (short : value < 2 ^ 64) :
    value % 2 ^ t.literalBits % 2 ^ t.bits = value % 2 ^ t.bits := by
  by_cases wide : t.bits ≤ 64
  · rw [literalBits, Nat.min_eq_left wide, Nat.mod_mod]
  · rw [literalBits, Nat.min_eq_right (by omega), Nat.mod_eq_of_lt short]

namespace Expr

variable {ρ : Type} [RegisterFile ρ] {I : Interpretation} {σ : State ρ}

theorem eval_word (t : DataType) {value : Nat} (short : value < 2 ^ 64) :
    (word value t).eval I σ = value % 2 ^ t.bits := by
  show value % 2 ^ t.literalBits % 2 ^ t.bits = _
  exact t.mod_literalBits short

/-- A literal of an integer is its number, if the type is no wider than literals are. -/
theorem eval_ofInt {t : DataType} (narrow : t.bits ≤ 64) (n : Int) :
    (constant (.ofInt n t)).eval I σ = Bits.ofInt t.bits n := by
  show Bits.ofInt 64 n % 2 ^ t.literalBits % 2 ^ t.bits = _
  rw [t.mod_literalBits (Bits.ofInt_lt 64 n), Bits.ofInt_mod_of_le narrow]

theorem eval_byte (b : UInt8) : (byte b).eval I σ = b.toNat := by
  have small := b.toNat_lt
  rw [byte, eval_word .byte (by omega)]
  exact Nat.mod_eq_of_lt small

theorem eval_ofBool (b : Bool) : (ofBool b).eval I σ = b.toNat := by
  cases b <;> rfl

theorem eval_add (a b : Expr) :
    (a.add b).eval I σ = (a.eval I σ + b.eval I σ) % 2 ^ a.type.bits := rfl

theorem eval_sub (a b : Expr) :
    (a.sub b).eval I σ = Bits.ofInt a.type.bits (a.eval I σ - b.eval I σ) := rfl

theorem eval_not (e : Expr) : e.not.eval I σ = (e.eval I σ == 0).toNat := rfl

/-- Adding a number to an expression adds it modulo the width of the expression. -/
theorem eval_addInt (e : Expr) {n : Int} (short : n.natAbs < 2 ^ 64) :
    (e.addInt n).eval I σ = Bits.ofInt e.type.bits (e.eval I σ + n) := by
  unfold addInt
  by_cases negative : n < 0
  · have size : n = -(n.natAbs : Int) := by omega
    rw [if_pos negative, eval_sub, eval_word _ short, Bits.ofInt_sub_mod]
    congr 1
    omega
  · have size : n = (n.toNat : Int) := by omega
    have small : n.toNat < 2 ^ 64 := by omega
    rw [if_neg negative, eval_add, eval_word _ small, Nat.add_mod_mod, ← Bits.ofInt_natCast]
    congr 1
    omega

/-- Adding an immediate of 64 bits keeps the type of the expression and adds modulo its width, whatever the
sign of the immediate and however wide the type.  The immediate stands in the sum as a literal of that
type, within its mask: added, or subtracted without its sign. -/
theorem addInt_exact (I : Interpretation) (σ : State ρ) (e : Expr) {k : Int} (least : -2 ^ 63 ≤ k)
    (bound : k < 2 ^ 63) :
    (e.addInt k).type = e.type ∧
      ((e.addInt k).eval I σ : Int) = (e.eval I σ + k) % 2 ^ e.type.bits ∧
      ∃ c : Constant, e.addInt k = .binary (if k < 0 then .sub else .add) e.type e (.constant c) ∧
        c.type = e.type ∧ c.value ≤ e.type.mask := by
  refine ⟨type_addInt e k, ?_, .of k.natAbs e.type, ?_, rfl, Constant.value_of_le_mask _ _⟩
  · rw [eval_addInt e (by omega), Bits.natCast_ofInt]
  · unfold addInt
    by_cases negative : k < 0
    · rw [if_pos negative, if_pos negative]
      rfl
    · have size : k.toNat = k.natAbs := by omega
      rw [if_neg negative, if_neg negative, size]
      rfl

/-- The most negative immediate leaves a number of 16 bits as it is; from one of 128 bits it is subtracted in
full. -/
theorem addInt_exact_least :
    (-2 ^ 63 : Int) < 2 ^ 63 ∧ ∀ (I : Interpretation) (σ : State Families),
      (((word 5 .int16).addInt (-2 ^ 63)).eval I σ : Int) = 5 ∧
        (((word 5 .word128).addInt (-2 ^ 63)).eval I σ : Int) = 2 ^ 128 - 2 ^ 63 + 5 := by
  refine ⟨by decide, fun I σ => ?_⟩
  have narrow := (addInt_exact I σ (word 5 .int16) (k := -2 ^ 63) (by decide) (by decide)).2.1
  have wide := (addInt_exact I σ (word 5 .word128) (k := -2 ^ 63) (by decide) (by decide)).2.1
  rw [eval_word _ (by decide)] at narrow wide
  exact ⟨narrow.trans (by decide), wide.trans (by decide)⟩

theorem eval_isZero (e : Expr) : e.isZero.eval I σ = (e.eval I σ == 0).toNat := by
  show (e.eval I σ == (word 0 e.type).eval I σ).toNat = _
  rw [eval_word _ (by decide), Nat.zero_mod]

theorem eval_isNonzero (e : Expr) : e.isNonzero.eval I σ = (e.eval I σ != 0).toNat := by
  show (e.eval I σ != (word 0 e.type).eval I σ).toNat = _
  rw [eval_word _ (by decide), Nat.zero_mod]

/-- A byte of memory, at an address that wraps at its width. -/
theorem eval_memory_byte (ea : Expr) : (memory .byte ea).eval I σ =
    (σ.memory none (ea.eval I σ % 2 ^ ea.type.bits)).toNat := by
  show σ.load none _ _ 1 % 2 ^ 8 = _
  rw [State.load_one]
  exact Nat.mod_eq_of_lt (UInt8.toNat_lt _)

theorem applications_add (a b : Expr) :
    (a.add b).applications I σ = a.applications I σ ++ b.applications I σ := rfl

/-- Adding a number applies nothing more. -/
theorem applications_addInt (e : Expr) (n : Int) :
    (e.addInt n).applications I σ = e.applications I σ := by
  unfold addInt
  split
  · exact List.append_nil _
  · exact List.append_nil _

theorem applications_isZero (e : Expr) : e.isZero.applications I σ = e.applications I σ :=
  List.append_nil _

end Expr

end RegisterTransfer
