/-
# RegisterTransfer.Proofs.X86.RealOperand -- the numbers that the floating-point unit is given

Instructions of the unit take a register of its stack, a number in memory, or a number of their own.  What
numbers these are is said here apart from the lowering:

* memory holds reals of 32, 64 and 80 bits and integers of 16, 32 and 64 (`NumberType`), at the segment and
  the address that a reference points to (`Instruction.numberPlace`);
* between memory and the stack they are converted to extended precision and back (`extended`, `narrowed`);
* a number of an instruction's own is the pattern in double precision that is nearest to it (`nearestDouble`).

The expressions that the lowering builds have these values (`Lower.eval_realValue`, `nearestDouble_pi`).
-/
import Mathlib.Analysis.Real.Pi.Bounds
import Mathlib.Data.Int.Log
import RegisterTransfer.Proofs.X86.EffectiveAddress

namespace RegisterTransfer.X86

set_option autoImplicit false

/-! ## References -/

namespace MemoryOperand

/-- The segment of a reference.  In real mode it is the one that the reference names, or else the stack
segment if `bp` or `sp` is the base and the data segment otherwise; in the flat modes it is `fs` or `gs`, if
the reference names one of them. -/
def segmentFor (ref : MemoryOperand) : Mode → Option Register
  | .realMode =>
      some (ref.segment.getD
        (if ref.base ∈ [some .bp, some .sp] then .segment .ss else .segment .ds))
  | .protectedMode | .longMode => ref.segment.filter (· ∈ [.segment .fs, .segment .gs])

/-- Whether a reference counts from the next instruction: its base is the instruction pointer. -/
def CountsFromNext (ref : MemoryOperand) : Prop :=
  ref.base ∈ [some (.instructionPointer .protectedMode), some (.instructionPointer .longMode)]

instance (ref : MemoryOperand) : Decidable ref.CountsFromNext := inferInstanceAs (Decidable (_ ∈ _))

/-- A reference of an instruction as it is encoded, whose address the unit has no part in. -/
structure Proper (i : Instruction) (ref : MemoryOperand) : Prop where
  narrow : i.addressType.bits ≤ 64
  least : -2 ^ 63 ≤ ref.displacement
  bound : ref.displacement < 2 ^ 63
  encoded : ¬ref.CountsFromNext → ref.Encoded i.addressType.bits
  ordinary : ∀ r, ref.segment = some r ∨ ref.base = some r ∨ ref.index = some r → r.family < 24

theorem segmentIn_eq_segmentFor (ref : MemoryOperand) (m : Mode) : ref.segmentIn m = ref.segmentFor m := by
  cases m with
  | realMode =>
      unfold segmentIn segmentFor defaultSegment isStackBased
      cases ref.segment <;> simp [honours, Mode.isSegmented]
      split <;> rfl
  | protectedMode | longMode =>
      unfold segmentIn segmentFor defaultSegment honours
      simp [Mode.isSegmented]

/-- A reference goes through the segment that it names, or through a segment register. -/
theorem eq_segment_of_segmentFor {ref : MemoryOperand} {m : Mode} {r : Register}
    (found : r ∈ ref.segmentFor m) : ref.segment = some r ∨ ∃ s, r = .segment s := by
  cases m with
  | realMode =>
      unfold segmentFor at found
      cases named : ref.segment with
      | some s =>
          rw [named] at found
          cases found
          exact .inl rfl
      | none =>
          rw [named] at found
          cases found
          rw [Option.getD_none, ← apply_ite Register.segment]
          exact .inr ⟨_, rfl⟩
  | protectedMode | longMode => exact .inl (Option.mem_filter_iff.mp found).1

theorem isInstructionRelative_iff (ref : MemoryOperand) :
    ref.isInstructionRelative = true ↔ ref.CountsFromNext := by
  simp [isInstructionRelative, CountsFromNext, or_comm]

end MemoryOperand

section Places

variable {ρ : Type} [RegisterFile ρ]

/-- The address that a reference points to, modulo the width of addresses. -/
def Instruction.pointsTo (i : Instruction) (σ : State ρ) (ref : MemoryOperand) : Nat :=
  Bits.ofInt i.addressType.bits
    (if ref.CountsFromNext then i.address + i.length + ref.displacement
      else numberIn σ ref.base + numberIn σ ref.index * ref.scale + ref.displacement)

/-- Where a number of a type stands that a reference points to. -/
def Instruction.numberPlace (i : Instruction) (m : Mode) (σ : State ρ) (ref : MemoryOperand)
    (t : DataType) : Place :=
  .memory ((ref.segmentFor m).map fun r => σ.get r.identifier) i.addressType.bits (i.pointsTo σ ref) t

end Places

/-! ## Numbers -/

/-- The numbers in memory, by whether they are integers and by their width. -/
inductive NumberType : Bool → Nat → DataType → Prop
  | real32 : NumberType false 32 .real32
  | real64 : NumberType false 64 .real64
  | real80 : NumberType false 80 .real80
  | int16 : NumberType true 16 .int16
  | int32 : NumberType true 32 .int32
  | int64 : NumberType true 64 .int64

/-- A number of some type in extended precision. -/
def extended (I : Interpretation) (t : DataType) (value : Nat) : Nat :=
  if t = .real80 then value else I.convert t .real80 value % 2 ^ 80

/-- A number in extended precision as one of some type. -/
def narrowed (I : Interpretation) (t : DataType) (value : Nat) : Nat :=
  if t = .real80 then value else I.convert .real80 t value % 2 ^ t.bits

/-- The pattern in double precision that is nearest to a number: sign, exponent and fraction, for zero and
for positive numbers that are neither too small nor too large. -/
noncomputable def nearestDouble (x : ℝ) : Nat :=
  if x = 0 then 0
  else
    let exponent := Int.log 2 x
    ((1023 + exponent) * 2 ^ 52 + round ((x / 2 ^ exponent - 1) * 2 ^ 52)).toNat

theorem nearestDouble_zero : nearestDouble 0 = 0 := if_pos rfl

theorem nearestDouble_one : nearestDouble 1 = 0x3FF0000000000000 := by
  simp [nearestDouble]

theorem nearestDouble_pi : nearestDouble Real.pi = 0x400921FB54442D18 := by
  have low := Real.pi_gt_d20
  have high := Real.pi_lt_d20
  have exponent : Int.log 2 Real.pi = 1 := by
    have natural : ⌊Real.pi⌋₊ = 3 := by
      rw [Nat.floor_eq_iff Real.pi_pos.le]
      constructor <;> norm_num <;> linarith
    rw [Int.log_of_one_le_right 2 (by linarith), natural]
    rfl
  have fraction : round ((Real.pi / 2 ^ (1 : Int) - 1) * 2 ^ 52) = 0x921FB54442D18 := by
    rw [round_eq, Int.floor_eq_iff]
    constructor <;> norm_num <;> linarith
  rw [nearestDouble, if_neg Real.pi_ne_zero]
  simp only [exponent, fraction]
  rfl

/-! ## What is read and stored -/

section Values

variable {ρ : Type} [RegisterFile ρ] {I : Interpretation} {m : Mode} {i : Instruction}
variable {ref : MemoryOperand} {integer : Bool} {t : DataType}

theorem Lower.numeric_eq (number : NumberType integer ref.type.bits t) :
    numeric ref integer = { ref with type := t } := by
  unfold numeric
  generalize ref.type.bits = bits at number
  cases number <;> rfl

/-- A reference stands for the place that it points to. -/
theorem Instruction.place?_of_proper (proper : ref.Proper i) {σ : State ρ} (inWidth : ref.InWidth σ)
    (t : DataType) :
    i.place? m I σ (.memory { ref with type := t }) = some (i.numberPlace m σ ref t) := by
  have direct : ref.isInstructionRelative = false → ref.Encoded i.addressType.bits := fun direct =>
    proper.encoded fun counts => by
      rw [ref.isInstructionRelative_iff.mpr counts] at direct
      cases direct
  have address : (i.effectiveAddress ref).eval I σ = i.pointsTo σ ref := by
    rw [eval_effectiveAddress_encoded inWidth rfl proper.narrow proper.least proper.bound direct,
      pointsTo]
    simp only [ref.isInstructionRelative_iff]
  rw [place?, numberPlace, ← address, ← bits_effectiveAddress rfl direct, ← ref.segmentIn_eq_segmentFor]
  rfl

/-- A number in memory is loaded in extended precision. -/
theorem Lower.eval_realValue (proper : ref.Proper i) (number : NumberType integer ref.type.bits t)
    {σ : State ρ} (inWidth : ref.InWidth σ) :
    (realValue m i (.memory ref) integer).eval I σ =
      extended I t ((i.numberPlace m σ ref t).read σ) := by
  have reads := i.eval_read_place (i.place?_of_proper (m := m) (I := I) proper inWidth t) t
  rw [Instruction.read] at reads
  unfold realValue extended
  simp only [numeric_eq number, i.type_memory]
  split
  · exact reads
  · rw [Expr.eval, reads, i.type_memory, DataType.castValue, if_pos (by simp [DataType.isReal])]
    rfl

/-- A number is stored where its reference points to, converted to its type. -/
theorem Lower.exec_storeNumber (proper : ref.Proper i) (number : NumberType integer ref.type.bits t)
    {σ : State ρ} (inWidth : ref.InWidth σ) :
    let dst := i.memory m (numeric ref integer)
    σ.exec I (.assign dst (if dst.type = .real80 then st0 else .cast dst.type st0)) =
      ((i.numberPlace m σ ref t).write (narrowed I t (st0.eval I σ)) σ, none) := by
  intro dst
  have type : dst.type = t := (i.type_memory m _).trans (by rw [numeric_eq number])
  have value : (if dst.type = .real80 then st0 else Expr.cast dst.type st0).eval I σ =
      narrowed I t (st0.eval I σ) := by
    rw [type, narrowed]
    split
    · rfl
    · rw [Expr.eval]
      rfl
  have plain : (if dst.type = .real80 then st0 else Expr.cast dst.type st0).uses = [] := by
    split <;> rfl
  have stores := i.exec_assign_place (i.place?_of_proper (m := m) (I := I) proper inWidth t) t plain
  rw [value] at stores
  rw [← stores, Instruction.read, ← numeric_eq number]

end Values

end RegisterTransfer.X86
