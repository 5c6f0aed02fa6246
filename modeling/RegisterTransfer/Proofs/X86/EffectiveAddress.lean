/-
# RegisterTransfer.Proofs.X86.EffectiveAddress -- the number that an effective address is

An effective address is counted from an origin, which is the end of the instruction, the sum of the
registers of the reference, or zero: the displacement is added to it, whatever its sign, modulo the width
of the address (`Instruction.eval_effectiveAddress`).  So of two references that differ in their
displacement the addresses differ by just that (`Instruction.eval_effectiveAddress_displaced`).

If the registers are as wide as the addresses of the instruction, the address is the base, the index times
its scale and the displacement added up modulo that width (`Instruction.effectiveAddress_exact`).
-/
import RegisterTransfer.Proofs.X86.Place

namespace RegisterTransfer.X86

set_option autoImplicit false

/-! ## References as they are encoded -/

/-- A reference of an instruction with addresses of a width: its registers have that width, and its scale
is one that an encoding has room for. -/
structure MemoryOperand.Encoded (ref : MemoryOperand) (width : Nat) : Prop where
  base : ∀ r, ref.base = some r → r.bits = width
  index : ∀ r, ref.index = some r → r.bits = width
  scale : ref.scale ∈ [1, 2, 4, 8]

/-- The number in a register that may be absent, which counts zero then. -/
def numberIn {ρ : Type} [RegisterFile ρ] (σ : State ρ) (r : Option Register) : Nat :=
  (r.map fun r => σ.get r.identifier).getD 0

theorem numberIn_congr {ρ : Type} [RegisterFile ρ] {σ τ : State ρ} {named : Option Register}
    (same : ∀ r, named = some r → τ.get r.identifier = σ.get r.identifier) :
    numberIn τ named = numberIn σ named := by
  cases named with
  | none => rfl
  | some r => exact same r rfl

/-- The registers of a reference hold numbers of their width, as they do in every lawful register file. -/
def MemoryOperand.InWidth {ρ : Type} [RegisterFile ρ] (ref : MemoryOperand) (σ : State ρ) : Prop :=
  ∀ r, ref.base = some r ∨ ref.index = some r → σ.get r.identifier < 2 ^ r.identifier.bits

theorem MemoryOperand.inWidth {ρ : Type} [RegisterFile ρ] [LawfulRegisterFile ρ] (ref : MemoryOperand)
    (σ : State ρ) : ref.InWidth σ := fun r _ => σ.get_lt r.isRegister_identifier

namespace Instruction

/-! ## Shapes of an address -/

section Shapes

variable (i : Instruction) {ref : MemoryOperand}

theorem effectiveAddress_of_sum (direct : ¬ref.isInstructionRelative = true) {sum : Expr}
    (found : registerSum ref = some sum) :
    i.effectiveAddress ref =
      if ref.displacement = 0 then sum else sum.addInt ref.displacement := by
  rw [effectiveAddress, if_neg direct, found]

/-- An address that is counted from registers has the type of their sum, and any other the type of the
instruction's addresses. -/
theorem type_effectiveAddress (ref : MemoryOperand) :
    (i.effectiveAddress ref).type =
      if ref.isInstructionRelative then i.addressType
      else ((registerSum ref).map Expr.type).getD i.addressType := by
  by_cases relative : ref.isInstructionRelative = true
  · rw [effectiveAddress, if_pos relative, if_pos relative]
    rfl
  · rw [if_neg relative]
    cases found : registerSum ref with
    | none =>
        rw [effectiveAddress, if_neg relative, found]
        rfl
    | some sum =>
        rw [effectiveAddress_of_sum i relative found, apply_ite Expr.type, Expr.type_addInt, ite_self]
        rfl

/-- The type of an address does not depend on the displacement. -/
theorem type_effectiveAddress_displaced (ref : MemoryOperand) (type : DataType)
    (displacement : Int) :
    (i.effectiveAddress { ref with type, displacement }).type = (i.effectiveAddress ref).type :=
  (i.type_effectiveAddress { ref with type, displacement }).trans (i.type_effectiveAddress ref).symm

/-- What the displacement of a reference is added to. -/
def origin {ρ : Type} [RegisterFile ρ] (I : Interpretation) (σ : State ρ) (ref : MemoryOperand) :
    Nat :=
  if ref.isInstructionRelative then i.nextAddress
  else ((registerSum ref).map (·.eval I σ)).getD 0

end Shapes

/-! ## From the origin -/

section Values

variable {ρ : Type} [RegisterFile ρ] {I : Interpretation} {σ : State ρ}
variable {i : Instruction} {ref : MemoryOperand}

/-- A sum of registers stays below its width. -/
theorem eval_registerSum_lt (inWidth : ref.InWidth σ) {sum : Expr}
    (found : registerSum ref = some sum) : sum.eval I σ < 2 ^ sum.type.bits := by
  unfold registerSum scaledIndex at found
  cases base : ref.base with
  | some r =>
      cases index : ref.index with
      | none =>
          rw [base, index] at found
          cases found
          exact inWidth r (.inl base)
      | some s =>
          rw [base, index] at found
          cases found
          exact Nat.mod_lt _ (Nat.two_pow_pos _)
  | none =>
      cases index : ref.index with
      | none =>
          rw [base, index] at found
          cases found
      | some s =>
          rw [base, index] at found
          cases found
          split
          · exact Nat.mod_lt _ (Nat.two_pow_pos _)
          · exact inWidth s (.inr index)

/-- An effective address is its origin and its displacement together. -/
theorem eval_effectiveAddress (inWidth : ref.InWidth σ) (narrow : i.addressType.bits ≤ 64)
    (short : ref.displacement.natAbs < 2 ^ 64) :
    (i.effectiveAddress ref).eval I σ =
      Bits.ofInt (i.effectiveAddress ref).type.bits (i.origin I σ ref + ref.displacement) := by
  by_cases relative : ref.isInstructionRelative = true
  · rw [origin, if_pos relative, effectiveAddress, if_pos relative]
    exact Expr.eval_ofInt narrow _
  · rw [origin, if_neg relative]
    cases found : registerSum ref with
    | none =>
        rw [effectiveAddress, if_neg relative, found]
        refine (Expr.eval_ofInt narrow _).trans ?_
        exact congrArg (Bits.ofInt _) (Int.zero_add _).symm
    | some sum =>
        rw [effectiveAddress_of_sum i relative found, Option.map_some, Option.getD_some]
        by_cases nowhere : ref.displacement = 0
        · rw [if_pos nowhere, nowhere, Int.add_zero,
            Bits.ofInt_of_lt (eval_registerSum_lt inWidth found)]
        · rw [if_neg nowhere, Expr.type_addInt, Expr.eval_addInt sum short]

/-- What is added to the displacement of a reference is added to its address. -/
theorem eval_effectiveAddress_displaced [LawfulRegisterFile ρ] (narrow : i.addressType.bits ≤ 64)
    (type : DataType) (n : Nat) (short : ref.displacement.natAbs < 2 ^ 64)
    (short' : (ref.displacement + n).natAbs < 2 ^ 64) :
    (i.effectiveAddress { ref with type, displacement := ref.displacement + n }).eval I σ =
      ((i.effectiveAddress ref).eval I σ + n) % 2 ^ (i.effectiveAddress ref).type.bits := by
  have sameOrigin : i.origin I σ { ref with type, displacement := ref.displacement + n } =
      i.origin I σ ref := rfl
  rw [eval_effectiveAddress (MemoryOperand.inWidth _ σ) narrow short', type_effectiveAddress_displaced,
    sameOrigin, eval_effectiveAddress (MemoryOperand.inWidth _ σ) narrow short, ← Bits.ofInt_natCast,
    Int.natCast_add, Bits.ofInt_ofInt_add]
  exact congrArg (Bits.ofInt _) (Int.add_assoc _ _ _).symm

end Values

/-! ## Parts of the same width -/

section Encoded

variable {ρ : Type} [RegisterFile ρ] {I : Interpretation} {σ : State ρ}
variable {i : Instruction} {ref : MemoryOperand} {width : Nat}

theorem bits_effectiveAddress (addresses : i.addressType.bits = width)
    (encoded : ref.isInstructionRelative = false → ref.Encoded width) :
    (i.effectiveAddress ref).type.bits = width := by
  rw [type_effectiveAddress]
  by_cases relative : ref.isInstructionRelative = true
  · rw [if_pos relative, addresses]
  · obtain ⟨base, index, -⟩ := encoded (eq_false_of_ne_true relative)
    rw [if_neg relative]
    cases found : registerSum ref with
    | none => exact addresses
    | some sum =>
        obtain ⟨r, named, type⟩ := type_registerSum found
        have own : r.bits = width := named.elim (base r) (index r)
        rw [Option.map_some, Option.getD_some, type, r.bits_type, own]

/-- The scaled index is the index times its scale. -/
theorem eval_scaledIndex (encoded : ref.Encoded width) :
    ((scaledIndex ref).map (·.eval I σ)).getD 0 % 2 ^ width =
      numberIn σ ref.index * ref.scale % 2 ^ width := by
  obtain ⟨-, widths, scale⟩ := encoded
  have positive : 0 < ref.scale ∧ ref.scale ≤ 8 := by
    revert scale
    simp
    omega
  unfold scaledIndex numberIn
  cases index : ref.index with
  | none => simp
  | some r =>
      have own : r.type.bits = width := r.bits_type.trans (widths r index)
      simp only [Option.map_some, Option.getD_some]
      by_cases scaled : ref.scale > 1
      · rw [if_pos scaled]
        show σ.get r.identifier * (Expr.word ref.scale r.type).eval I σ % 2 ^ r.type.bits % 2 ^ width = _
        rw [Expr.eval_word _ (by omega), own, Nat.mod_mod, Nat.mul_mod_mod]
      · have one : ref.scale = 1 := by omega
        rw [if_neg scaled, one, Nat.mul_one]
        rfl

/-- The registers of a reference add up to base and scaled index. -/
theorem origin_of_encoded (direct : ref.isInstructionRelative = false)
    (encoded : ref.Encoded width) :
    i.origin I σ ref % 2 ^ width =
      (numberIn σ ref.base + numberIn σ ref.index * ref.scale) % 2 ^ width := by
  have inIndex := eval_scaledIndex (I := I) (σ := σ) encoded
  unfold origin registerSum
  rw [if_neg (by rw [direct]; exact Bool.false_ne_true)]
  cases base : ref.base with
  | none =>
      rw [show numberIn σ none = 0 from rfl, Nat.zero_add, ← inIndex]
      cases scaledIndex ref <;> rfl
  | some r =>
      have own : r.value.type.bits = width := r.bits_type.trans (encoded.base r base)
      have whole : numberIn σ (some r) = r.value.eval I σ := rfl
      rw [whole, Nat.add_mod, ← inIndex, ← Nat.add_mod]
      cases scaledIndex ref with
      | none => rfl
      | some e =>
          show (r.value.add e).eval I σ % 2 ^ width = (r.value.eval I σ + e.eval I σ) % 2 ^ width
          rw [Expr.eval_add, own, Nat.mod_mod]

/-- The address of an encoded reference, counted from the next instruction or from registers. -/
theorem eval_effectiveAddress_encoded (inWidth : ref.InWidth σ)
    (addresses : i.addressType.bits = width) (narrow : width ≤ 64)
    (least : -2 ^ 63 ≤ ref.displacement) (bound : ref.displacement < 2 ^ 63)
    (encoded : ref.isInstructionRelative = false → ref.Encoded width) :
    (i.effectiveAddress ref).eval I σ = Bits.ofInt width
      (if ref.isInstructionRelative then i.address + i.length + ref.displacement
        else numberIn σ ref.base + numberIn σ ref.index * ref.scale + ref.displacement) := by
  rw [eval_effectiveAddress inWidth (addresses ▸ narrow) (by omega),
    bits_effectiveAddress addresses encoded]
  by_cases relative : ref.isInstructionRelative = true
  · rw [if_pos relative, origin, if_pos relative, nextAddress, Int.natCast_add]
  · have direct := eq_false_of_ne_true relative
    have sum := congrArg Int.ofNat
      (origin_of_encoded (i := i) (I := I) (σ := σ) direct (encoded direct))
    simp only [Int.ofNat_eq_natCast, Int.natCast_emod, Bits.natCast_two_pow, Int.natCast_add,
      Int.natCast_mul] at sum
    rw [if_neg relative, Bits.ofInt, Bits.ofInt, ← Int.emod_add_emod, sum, Int.emod_add_emod]

end Encoded

/-- The effective address of a reference that counts from the end of the instruction is that and the
displacement, and of any other reference it is the base, the index times its scale and the displacement,
all added up modulo the width of addresses. -/
theorem effectiveAddress_exact {ρ : Type} [RegisterFile ρ] [LawfulRegisterFile ρ]
    (I : Interpretation) (σ : State ρ) {i : Instruction} {ref : MemoryOperand} {width : Nat}
    (addresses : i.addressType.bits = width) (narrow : width ≤ 64)
    (least : -2 ^ 63 ≤ ref.displacement) (bound : ref.displacement < 2 ^ 63)
    (encoded : ref.isInstructionRelative = false → ref.Encoded width) :
    (i.effectiveAddress ref).type.bits = width ∧
      ((i.effectiveAddress ref).eval I σ : Int) =
        if ref.isInstructionRelative then
          (i.address + i.length + ref.displacement) % 2 ^ width
        else
          (numberIn σ ref.base + numberIn σ ref.index * ref.scale + ref.displacement) % 2 ^ width := by
  refine ⟨bits_effectiveAddress addresses encoded, ?_⟩
  rw [eval_effectiveAddress_encoded (ref.inWidth σ) addresses narrow least bound encoded,
    Bits.natCast_ofInt]
  split <;> rfl

/-- The word that stands two entries before the one of an index. -/
def twoBefore : MemoryOperand :=
  { type := .word32, base := some .ebx, index := some .esi, scale := 4, displacement := -8 }

/-- Entries of a table of words are found from its base, also before the first one. -/
theorem effectiveAddress_exact_table :
    twoBefore.Encoded 32 ∧ ∀ (I : Interpretation) (σ : State Families),
      let i : Instruction := .of 0x1000 4 .lea [.register .eax, .memory twoBefore] .word32
      ((i.effectiveAddress twoBefore).eval I σ : Int) =
        (σ.get Register.ebx.identifier + σ.get Register.esi.identifier * 4 - 8) % 2 ^ 32 := by
  have encoded : twoBefore.Encoded 32 := ⟨by decide, by decide, by decide⟩
  refine ⟨encoded, fun I σ => ?_⟩
  intro i
  exact (effectiveAddress_exact I σ (i := i) rfl (by decide) (by decide) (by decide)
    fun _ => encoded).2

end Instruction

end RegisterTransfer.X86
