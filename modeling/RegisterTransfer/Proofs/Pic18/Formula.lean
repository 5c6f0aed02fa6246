/-
# RegisterTransfer.Proofs.Pic18.Formula -- what file-register instructions compute

The data sheet gives the result of a file-register instruction as a formula in the working register,
the byte of the operand and the carry; it is stored modulo 256.  `Opcode.formula?` is that table.
`Computes` says that an expression has the value of a formula, and each operator that lowerings use
has a lemma that builds the formula of a compound from those of its parts, so
`instruction_of_formula?` only has to name the parts.
-/
import RegisterTransfer.Pic18.Lowering
import RegisterTransfer.Proofs.Meaning.Arithmetic
import RegisterTransfer.Proofs.Pic18.Accepted

namespace RegisterTransfer.Pic18

set_option autoImplicit false

/-- A result in terms of the working register, a byte and the carry, to be cut to 8 bits. -/
abbrev Formula := Nat → Nat → Nat → Int

/-- The formula of an instruction with a destination, and the flags that follow its result. -/
def Opcode.formula? : Opcode → Option (Formula × Nat)
  | .addwf => some (fun w f _ => w + f, Status.all)
  | .addwfc => some (fun w f k => w + f + k, Status.all)
  | .subwf => some (fun w f _ => f - w, Status.all)
  | .subwfb => some (fun w f k => f - w - (1 - k), Status.all)
  | .subfwb => some (fun w f k => w - f - (1 - k), Status.all)
  | .incf => some (fun _ f _ => f + 1, Status.all)
  | .decf => some (fun _ f _ => f - 1, Status.all)
  | .andwf => some (fun w f _ => (w &&& f : Nat), Status.zn)
  | .iorwf => some (fun w f _ => (w ||| f : Nat), Status.zn)
  | .xorwf => some (fun w f _ => (w ^^^ f : Nat), Status.zn)
  | .comf => some (fun _ f _ => 255 - f, Status.zn)
  | .movf => some (fun _ f _ => f, Status.zn)
  | _ => none

/-- The carry flag as a number. -/
def carryOf (σ : State Cells) : Nat := (σ.flags "STATUS" 0).toNat

/-- The byte that a formula gives in a state. -/
def Formula.value (formula : Formula) (c : Catalog) (σ : State Cells) (byte : Nat) : Nat :=
  Bits.ofInt 8 (formula (σ.get c.core.wreg) byte (carryOf σ))

/-! ## Expressions about a byte -/

/-- An expression about a byte amounts to a formula, modulo 256. -/
structure Amounts (c : Catalog) (compute : Expr → Expr) (formula : Formula) : Prop where
  silent : ∀ I (σ : State Cells) e, e.applications I σ = [] → (compute e).applications I σ = []
  eval : ∀ I (σ : State Cells) e, e.type.bits = 8 → e.eval I σ < 256 →
    Bits.ofInt 8 ((compute e).eval I σ) = formula.value c σ (e.eval I σ)

/-- An expression about a byte is the byte that a formula gives. -/
structure Computes (c : Catalog) (compute : Expr → Expr) (formula : Formula) : Prop where
  silent : ∀ I (σ : State Cells) e, e.applications I σ = [] → (compute e).applications I σ = []
  eval : ∀ I (σ : State Cells) e, e.type.bits = 8 → e.eval I σ < 256 →
    (compute e).eval I σ = formula.value c σ (e.eval I σ)
  byte : ∀ e : Expr, e.type.bits = 8 → (compute e).type.bits = 8

variable {c : Catalog} {a b : Expr → Expr} {left right : Formula}

theorem Computes.amounts (computes : Computes c a left) : Amounts c a left where
  silent := computes.silent
  eval I σ e byte small := by
    rw [computes.eval I σ e byte small]
    exact Bits.ofInt_of_lt (Bits.ofInt_lt _ _)

theorem eval_carry (I : Interpretation) (σ : State Cells) : Status.carry.eval I σ = carryOf σ := by
  show Bits.gather (2 ^ 0) (σ.flags "STATUS") = _
  rw [Bits.gather_two_pow]
  rfl

theorem amounts_carry : Amounts c (fun _ => Status.carry) fun _ _ k => k where
  silent _ _ _ _ := rfl
  eval I σ _ _ _ := by
    rw [eval_carry]
    rfl

/-- The borrow is what the carry lacks. -/
theorem amounts_borrow : Amounts c (fun _ => Status.carry.not) fun _ _ k => 1 - k where
  silent _ _ _ _ := rfl
  eval I σ _ _ _ := by
    rw [Expr.eval_not, eval_carry]
    unfold Formula.value carryOf
    cases σ.flags "STATUS" 0 <;> rfl

theorem computes_byte : Computes c (fun f => f) fun _ f _ => f where
  silent _ _ _ silent := silent
  eval _ _ _ _ small := (Bits.ofInt_of_lt small).symm
  byte _ byte := byte

theorem computes_wreg (accepted : c.Accepted) (wide : c.core.wreg.bits = 8) :
    Computes c (fun _ => .identifier c.core.wreg) fun w _ _ => w where
  silent _ _ _ _ := rfl
  eval _ σ _ _ _ := by
    have inside := σ.get_lt accepted.isRegister_wreg
    rw [wide] at inside
    exact (Bits.ofInt_of_lt inside).symm
  byte _ _ := wide

theorem computes_literal (k : UInt8) : Computes c (fun _ => .byte k) fun _ _ _ => k.toNat where
  silent _ _ _ _ := rfl
  eval _ _ _ _ _ := by
    rw [Expr.eval_byte]
    exact (Bits.ofInt_of_lt k.toNat_lt).symm
  byte _ _ := rfl

namespace Computes

theorem add (first : Computes c a left) (second : Amounts c b right) :
    Computes c (fun f => (a f).add (b f)) fun w f k => left w f k + right w f k where
  silent I σ e silent := by
    rw [Expr.applications_add, first.silent I σ e silent, second.silent I σ e silent]
    rfl
  eval I σ e byte small := by
    have l := first.eval I σ e byte small
    have r := second.eval I σ e byte small
    rw [Expr.eval_add, first.byte e byte, l]
    simp only [Formula.value, Bits.ofInt] at r ⊢
    omega
  byte := first.byte

theorem sub (first : Computes c a left) (second : Amounts c b right) :
    Computes c (fun f => (a f).sub (b f)) fun w f k => left w f k - right w f k where
  silent I σ e silent := by
    show (a e).applications I σ ++ (b e).applications I σ = []
    rw [first.silent I σ e silent, second.silent I σ e silent]
    rfl
  eval I σ e byte small := by
    have l := first.eval I σ e byte small
    have r := second.eval I σ e byte small
    rw [Expr.eval_sub, first.byte e byte, l]
    simp only [Formula.value, Bits.ofInt] at r ⊢
    omega
  byte := first.byte

theorem addInt (first : Computes c a left) {n : Int} (short : n.natAbs < 2 ^ 64) :
    Computes c (fun f => (a f).addInt n) fun w f k => left w f k + n where
  silent I σ e silent := by
    rw [Expr.applications_addInt]
    exact first.silent I σ e silent
  eval I σ e byte small := by
    have l := first.eval I σ e byte small
    rw [Expr.eval_addInt _ short, first.byte e byte, l]
    simp only [Formula.value, Bits.ofInt]
    omega
  byte e byte := by
    rw [Expr.type_addInt]
    exact first.byte e byte

theorem complement : Computes c Expr.complement fun _ f _ => 255 - f where
  silent _ _ _ silent := silent
  eval I σ e byte small := by
    have value : e.complement.eval I σ = 2 ^ 8 - 1 - e.eval I σ % 2 ^ 8 := by
      show 2 ^ e.type.bits - 1 - e.eval I σ % 2 ^ e.type.bits = _
      rw [byte]
    rw [value]
    simp only [Formula.value, Bits.ofInt]
    omega
  byte _ byte := byte

theorem negate : Computes c Expr.negate fun _ f _ => -f where
  silent _ _ _ silent := silent
  eval I σ e byte _ := by
    have integral : e.type.isReal = false := by
      cases type : e.type <;> first | rfl | (rw [type] at byte; cases byte)
    show (if e.type.isReal then _ else Bits.ofInt e.type.bits _) = _
    rw [integral, byte]
    rfl
  byte _ byte := byte

end Computes

/-- A logical operation acts on the bits of its operands. -/
theorem computes_logical {op : BinaryOp} {g : Nat → Nat → Nat} {t : DataType}
    (logical : ∀ I m n x y, op.value I t m n x y = g x y % 2 ^ t.bits) (byte : t.bits = 8)
    {l r : Nat → Nat → Nat}
    (leftSilent : ∀ I (σ : State Cells) e, e.applications I σ = [] → (a e).applications I σ = [])
    (rightSilent : ∀ I (σ : State Cells) e, e.applications I σ = [] → (b e).applications I σ = [])
    (leftValue : ∀ I (σ : State Cells) e, (a e).eval I σ = l (σ.get c.core.wreg) (e.eval I σ))
    (rightValue : ∀ I (σ : State Cells) e, (b e).eval I σ = r (σ.get c.core.wreg) (e.eval I σ)) :
    Computes c (fun f => .binary op t (a f) (b f)) fun w f _ => (g (l w f) (r w f) : Nat) where
  silent I σ e silent := by
    show (a e).applications I σ ++ (b e).applications I σ = []
    rw [leftSilent I σ e silent, rightSilent I σ e silent]
    rfl
  eval I σ e _ _ := by
    show op.value I t _ _ ((a e).eval I σ) ((b e).eval I σ) = Bits.ofInt 8 _
    rw [logical, byte, leftValue, rightValue, Bits.ofInt_natCast]
  byte _ _ := byte

/-- The working register and the byte under a logical operation. -/
theorem computes_logical_wreg (wide : c.core.wreg.bits = 8) {op : BinaryOp} {g : Nat → Nat → Nat}
    (logical : ∀ I t m n x y, op.value I t m n x y = g x y % 2 ^ t.bits) :
    Computes c (Expr.sameType op (.identifier c.core.wreg)) fun w f _ => (g w f : Nat) :=
  computes_logical (a := fun _ => .identifier c.core.wreg) (b := fun f => f)
    (fun I => logical I _) wide
    (fun _ _ _ _ => rfl) (fun _ _ _ silent => silent) (fun _ _ _ => rfl) fun _ _ _ => rfl

/-- The byte and a literal under a logical operation. -/
theorem computes_logical_literal {op : BinaryOp} {g : Nat → Nat → Nat} {k : UInt8} {mask : Nat}
    (logical : ∀ I t m n x y, op.value I t m n x y = g x y % 2 ^ t.bits) (is : k.toNat = mask) :
    Computes c (fun f => .binary op .byte f (.byte k)) fun _ f _ => (g f mask : Nat) :=
  computes_logical (a := fun f => f) (b := fun _ => .byte k) (fun I => logical I _) rfl
    (fun _ _ _ silent => silent) (fun _ _ _ _ => rfl) (fun _ _ _ => rfl)
    fun _ _ _ => (Expr.eval_byte k).trans is

/-! ## The lowering of a formula -/

/-- An instruction with a formula stores an expression that computes it. -/
theorem instruction_of_formula? {c : Catalog} (accepted : c.Accepted)
    (wide : c.core.wreg.bits = 8) {i : Instruction} {formula : Formula} {flags : Nat}
    (found : i.opcode.formula? = some (formula, flags)) (next : Option Instruction) :
    ∃ compute, Lower.instruction c i next = Lower.arithmetic c i flags compute ∧
      Computes c compute formula := by
  have w : Computes c _ _ := computes_wreg accepted wide
  have f : Computes c _ _ := computes_byte
  unfold Lower.instruction
  cases opcode : i.opcode <;> rw [opcode] at found <;> cases found
  case addwf => exact ⟨_, rfl, w.add f.amounts⟩
  case addwfc => exact ⟨_, rfl, (w.add f.amounts).add amounts_carry⟩
  case subwf => exact ⟨_, rfl, f.sub w.amounts⟩
  case subwfb => exact ⟨_, rfl, (f.sub w.amounts).sub amounts_borrow⟩
  case subfwb => exact ⟨_, rfl, (w.sub f.amounts).sub amounts_borrow⟩
  case incf => exact ⟨_, rfl, f.addInt (by decide)⟩
  case decf => exact ⟨_, rfl, f.addInt (n := -1) (by decide)⟩
  case andwf => exact ⟨_, rfl, computes_logical_wreg wide fun _ _ _ _ _ _ => rfl⟩
  case iorwf => exact ⟨_, rfl, computes_logical_wreg wide fun _ _ _ _ _ _ => rfl⟩
  case xorwf => exact ⟨_, rfl, computes_logical_wreg wide fun _ _ _ _ _ _ => rfl⟩
  case comf => exact ⟨_, rfl, .complement⟩
  case movf => exact ⟨_, rfl, f⟩

end RegisterTransfer.Pic18
