/-
# RegisterTransfer.Proofs.X86.Division -- quotient and remainder

A division takes both halves of the dividend into a temporary, writes the remainder to the high half and
then the quotient to the low half.  The divisor is read for each of the two, so the quotient is taken by
what the divisor is once the remainder has been written (`lowerWith_divide`).

That is the divisor from before the instruction if it has no bit in common with the remainder's register
and is not addressed through such a register.  It is so, too, for an unsigned division by any register:
by the remainder's own register the quotient cannot fit.  A reference through that register is read at
another address (`div_by_edx_misses`).
-/
import RegisterTransfer.Proofs.Draft.Emission
import RegisterTransfer.Proofs.Meaning.Quotient
import RegisterTransfer.Proofs.X86.OperandValue

namespace RegisterTransfer.X86

set_option autoImplicit false

open Bits

/-! ## The halves of a dividend -/

/-- The register of the low half, which takes the quotient. -/
def lowHalf (bits : Nat) : Register := if bits = 8 then .al else Register.eax.resize bits

/-- The register of the high half, which takes the remainder. -/
def highHalf (bits : Nat) : Register := if bits = 8 then .ah else Register.edx.resize bits

/-- The widths of a division. -/
def divisionWidths : List Nat := [8, 16, 32, 64]

example : divisionWidths.map lowHalf = [.al, .ax, .eax, .rax] ∧
    divisionWidths.map highHalf = [.ah, .dx, .edx, .rdx] := by decide

/-- The halves have the width asked for and no bit in common. -/
theorem halves_spec {bits : Nat} (width : bits ∈ divisionWidths) :
    (lowHalf bits).bits = bits ∧ (highHalf bits).bits = bits ∧
      Families.Apart (lowHalf bits).identifier (highHalf bits).identifier := by
  revert bits
  decide

theorem positive_of_width {bits : Nat} (width : bits ∈ divisionWidths) : 0 < bits := by
  revert bits
  decide

/-- The integers of a division have the width asked for. -/
theorem bits_integer {bits : Nat} (width : bits ∈ divisionWidths) (isSigned : Bool) :
    (Lower.integer isSigned bits).bits = bits ∧
      (Lower.integer isSigned (2 * bits)).bits = 2 * bits := by
  revert bits
  cases isSigned <;> decide

section Dividend

variable {bits : Nat} (width : bits ∈ divisionWidths) (type : DataType)

theorem low_accumulator : (Lower.accumulator bits type).low = lowHalf bits := by
  unfold Lower.accumulator lowHalf
  split <;> rfl

theorem high_accumulator : (Lower.accumulator bits type).high = highHalf bits := by
  unfold Lower.accumulator highHalf
  split <;> rfl

/-- The number that both halves write. -/
def dividendOf (bits : Nat) (σ : State Families) : Nat :=
  σ.get (highHalf bits).identifier * 2 ^ bits + σ.get (lowHalf bits).identifier

variable (σ : State Families)

include width

theorem get_lowHalf_lt : σ.get (lowHalf bits).identifier < 2 ^ bits := by
  have inside := σ.get_lt (lowHalf bits).isRegister_identifier
  rwa [bits_identifier, (halves_spec width).1] at inside

theorem get_highHalf_lt : σ.get (highHalf bits).identifier < 2 ^ bits := by
  have inside := σ.get_lt (highHalf bits).isRegister_identifier
  rwa [bits_identifier, (halves_spec width).2.1] at inside

theorem dividendOf_lt : dividendOf bits σ < 2 ^ (2 * bits) := by
  have low := get_lowHalf_lt width σ
  have high := get_highHalf_lt width σ
  unfold dividendOf
  rw [Nat.two_mul, Nat.pow_add]
  calc
    σ.get (highHalf bits).identifier * 2 ^ bits + σ.get (lowHalf bits).identifier
        < σ.get (highHalf bits).identifier * 2 ^ bits + 2 ^ bits := Nat.add_lt_add_left low _
    _ = (σ.get (highHalf bits).identifier + 1) * 2 ^ bits := (Nat.succ_mul ..).symm
    _ ≤ 2 ^ bits * 2 ^ bits := Nat.mul_le_mul_right _ high

/-- The accumulator of a division is both halves. -/
theorem eval_whole (I : Interpretation) (isSigned : Bool) :
    (Lower.accumulator bits (Lower.integer isSigned (2 * bits))).whole.eval I σ =
      dividendOf bits σ := by
  have inside := dividendOf_lt width σ
  by_cases byte : bits = 8
  · subst byte
    exact window_add (σ.registers.bit 0) 0 8 8
  · have wide := (bits_integer width isSigned).2
    have halves : Lower.accumulator bits (Lower.integer isSigned (2 * bits)) =
        ⟨lowHalf bits, highHalf bits, .concat (Lower.integer isSigned (2 * bits))
          (highHalf bits).value (lowHalf bits).value⟩ := by
      rw [Lower.accumulator, lowHalf, highHalf, if_neg byte, if_neg byte, if_neg byte]
    rw [halves, Expr.eval, wide]
    show (σ.get (highHalf bits).identifier * 2 ^ (lowHalf bits).identifier.bits +
      σ.get (lowHalf bits).identifier) % 2 ^ (2 * bits) = _
    rw [bits_identifier, (halves_spec width).1]
    exact Nat.mod_eq_of_lt inside

end Dividend

/-! ## The statements of a division -/

namespace Lower

/-- What a division writes: the dividend is kept, and the divisor is read twice. -/
def divided (isSigned : Bool) (bits : Nat) (divisor : Expr) : List Statement :=
  let kept := Expr.identifier (.temporary 0 (integer isSigned (2 * bits)))
  let part := integer isSigned bits
  [.assign kept (accumulator bits (integer isSigned (2 * bits))).whole,
    .assign (highHalf bits).value
      (.binary (if isSigned then .smod else .umod) part kept divisor),
    .assign (lowHalf bits).value
      (.binary (if isSigned then .sdiv else .udiv) part kept divisor)]

theorem emits_divide {m : Mode} {i : Instruction} {o : Operand} (isSigned : Bool)
    (first : i.operands.head? = some o) :
    Lowering.Emits 0 (divide m i isSigned) ()
      (divided isSigned o.type.bits (i.read m o o.type)) 1 := by
  refine Lowering.emits_operand (i.destination_of_head? m first) ?_
  refine Lowering.emits_bind (Lowering.emits_temporary _) ?_
  refine Lowering.emits_bind (Lowering.emits_assign _ _) ?_
  simp only [low_accumulator, high_accumulator]
  exact Lowering.emits_bind (Lowering.emits_assign _ _) (Lowering.emits_assign _ _)

end Lower

section Run

variable {I : Interpretation} {isSigned : Bool} {bits : Nat}

/-- An operator between the number that was kept and a divisor. -/
theorem eval_ofKept (σ : State Families) (op : BinaryOp) (part : DataType) {type : DataType}
    (inside : σ.temporaries 0 < 2 ^ type.bits) (divisor : Expr) :
    (Expr.binary op part (.identifier (.temporary 0 type)) divisor).eval I σ =
      op.value I part type.bits divisor.type.bits (σ.temporaries 0) (divisor.eval I σ) := by
  have read : σ.get (.temporary 0 type) = σ.temporaries 0 := Nat.mod_eq_of_lt inside
  rw [Expr.eval, Expr.eval, read]
  rfl

/-- The remainder is written first, and the divisor is read once more for the quotient.  It has to be
no temporary. -/
theorem run_divided (width : bits ∈ divisionWidths) {divisor : Expr} (plain : divisor.uses = [])
    (same : divisor.type.bits = bits)
    (free : ∀ (τ : State Families) (n value : Nat),
      divisor.eval I (τ.setTemporary n value) = divisor.eval I τ) (σ : State Families) :
    let number := dividendOf bits σ
    let dividend := reading isSigned (2 * bits) number
    let by_ := fun τ : State Families => reading isSigned bits (divisor.eval I τ)
    let rest := σ.setRegister (highHalf bits).identifier (ofInt bits (dividend.tmod (by_ σ)))
    σ.run I (Lower.divided isSigned bits divisor) =
      ((rest.setRegister (lowHalf bits).identifier
        (ofInt bits (dividend.tdiv (by_ rest)))).setTemporary 0 number, none) := by
  intro number dividend by_ rest
  obtain ⟨part, wide⟩ := bits_integer width isSigned
  have inside : number < 2 ^ (Lower.integer isSigned (2 * bits)).bits := by
    rw [wide]
    exact dividendOf_lt width σ
  have keeps : σ.exec I (.assign (.identifier (.temporary 0 (Lower.integer isSigned (2 * bits))))
      (Lower.accumulator bits (Lower.integer isSigned (2 * bits))).whole) =
        (σ.setTemporary 0 number, none) := by
    rw [σ.exec_assign_of_plain rfl (Lower.plain_accumulator _ _)]
    show (σ.setTemporary 0 (Expr.eval I σ _ % 2 ^ (Lower.integer isSigned (2 * bits)).bits), none) = _
    rw [eval_whole width, Nat.mod_eq_of_lt inside]
  have remainder : (σ.setTemporary 0 number).exec I (.assign (highHalf bits).value (.binary
      (if isSigned then .smod else .umod) (Lower.integer isSigned bits)
      (.identifier (.temporary 0 (Lower.integer isSigned (2 * bits)))) divisor)) =
        (rest.setTemporary 0 number, none) := by
    rw [State.exec_assign_of_plain _ rfl (by simp [plain]), Register.value,
      State.assign_register _ (highHalf bits).isRegister_identifier,
      eval_ofKept _ _ _ inside, BinaryOp.value_remainder, part, wide, same, free]
    rfl
  have quotient : (rest.setTemporary 0 number).exec I (.assign (lowHalf bits).value (.binary
      (if isSigned then .sdiv else .udiv) (Lower.integer isSigned bits)
      (.identifier (.temporary 0 (Lower.integer isSigned (2 * bits)))) divisor)) =
        ((rest.setRegister (lowHalf bits).identifier
          (ofInt bits (dividend.tdiv (by_ rest)))).setTemporary 0 number, none) := by
    rw [State.exec_assign_of_plain _ rfl (by simp [plain]), Register.value,
      State.assign_register _ (lowHalf bits).isRegister_identifier,
      eval_ofKept _ _ _ inside, BinaryOp.value_quotient, part, wide, same, free]
    rfl
  rw [Lower.divided, State.run_cons_of_falls _ keeps, State.run_cons_of_falls _ remainder,
    State.run_cons_of_falls _ quotient]
  rfl

end Run

/-! ## Divisors that keep their value -/

/-- Writing the remainder leaves a divisor as it was, or the quotient could not fit: its registers have
no bit in common with the remainder's register, or it is a register and the division is unsigned. -/
def Operand.Undisturbed (m : Mode) (o : Operand) (isSigned : Bool) : Prop :=
  (∀ r, r ∈ o.registers m →
      Families.Apart r.identifier (highHalf o.type.bits).identifier) ∨
    (isSigned = false ∧ ∃ r, o = .register r)

/-- An unsigned quotient by the high half of its dividend does not fit. -/
theorem not_fits_of_high {bits high low : Nat} (nonzero : high ≠ 0) :
    ¬Fits false bits (Int.tdiv (high * 2 ^ bits + low : Nat) high) := by
  rintro ⟨_, bound⟩
  have bound : Int.tdiv (high * 2 ^ bits + low : Nat) high < 2 ^ bits := bound
  rw [← Int.ofNat_tdiv, ← natCast_two_pow, Int.ofNat_lt] at bound
  have large : 2 ^ bits ≤ (high * 2 ^ bits + low) / high := by
    rw [Nat.le_div_iff_mul_le (Nat.pos_of_ne_zero nonzero), Nat.mul_comm]
    exact Nat.le_add_right _ _
  omega

/-! ## Divisions -/

section Divisions

variable {m : Mode} {i : Instruction} {o : Operand} {isSigned : Bool}

/-- The cluster of a division, and the state it leaves. -/
theorem lowered_division (isSigned : Bool) (next : Option Instruction) {t : IntrinsicTable}
    (opcode : i.opcode = if isSigned then .idiv else .div) (first : i.operands.head? = some o)
    (data : o.isData = true) (width : o.type.bits ∈ divisionWidths) (regular : t.Regular) :
    ∃ cluster t', (backend m).lowerWith i next t = (.ok cluster, t') ∧
      ∀ (I : Interpretation) (σ : State Families),
        let bits := o.type.bits
        let number := dividendOf bits σ
        let dividend := reading isSigned (2 * bits) number
        let divisor := fun τ : State Families =>
          reading isSigned bits ((i.read m o o.type).eval I τ)
        let rest := σ.setRegister (highHalf bits).identifier
          (ofInt bits (dividend.tmod (divisor σ)))
        σ.run I cluster.statements = ((rest.setRegister (lowHalf bits).identifier
          (ofInt bits (dividend.tdiv (divisor rest)))).setTemporary 0 number, none) := by
  have emits : Lowering.Emits 0 ((backend m).lower i next) false
      (Lower.divided isSigned o.type.bits (i.read m o o.type)) 1 := by
    have divides := Lowering.emits_return false (Lower.emits_divide (m := m) isSigned first)
    cases isSigned with
    | true =>
        have opcode : i.opcode = .idiv := opcode
        simp only [backend, opcode, Lower.instruction]
        exact divides
    | false =>
        have opcode : i.opcode = .div := opcode
        simp only [backend, opcode, Lower.instruction]
        exact divides
  obtain ⟨cluster, t', ran, settled⟩ := Backend.runs_of_emits emits regular
  refine ⟨cluster, t', ran, fun I σ => ?_⟩
  have type : (i.read m o o.type).type.bits = o.type.bits :=
    congrArg DataType.bits (i.type_read m data)
  have free : ∀ (τ : State Families) (n value : Nat),
      (i.read m o o.type).eval I (τ.setTemporary n value) = (i.read m o o.type).eval I τ :=
    fun τ n value => i.eval_read_of_registers o.type
      (fun r _ => State.get_of_registers r.isRegister_identifier rfl) rfl rfl
  exact (settled I σ).trans (run_divided width (i.plain_read m o o.type) type free σ)

/-- A divisor that is not disturbed is the same once the remainder has been written, if the quotient
fits at all. -/
theorem reading_of_undisturbed {I : Interpretation} (width : o.type.bits ∈ divisionWidths)
    (undisturbed : o.Undisturbed m isSigned) (σ : State Families) (value : Nat) :
    let bits := o.type.bits
    let divisor := fun τ : State Families => reading isSigned bits ((i.read m o o.type).eval I τ)
    divisor σ ≠ 0 →
      Fits isSigned bits ((reading isSigned (2 * bits) (dividendOf bits σ)).tdiv (divisor σ)) →
      divisor (σ.setRegister (highHalf bits).identifier value) = divisor σ := by
  intro bits divisor nonzero fits
  have unchanged : (∀ r, r ∈ o.registers m →
      Families.Apart r.identifier (highHalf bits).identifier) →
      divisor (σ.setRegister (highHalf bits).identifier value) = divisor σ :=
    fun apart => congrArg (reading isSigned bits) (eval_read_of_apart i o.type value σ apart)
  rcases undisturbed with apart | ⟨rfl, r, rfl⟩
  · exact unchanged apart
  · by_cases apart : Families.Apart r.identifier (highHalf bits).identifier
    · refine unchanged fun other named => ?_
      rw [List.mem_singleton.mp named]
      exact apart
    · have high : σ.get r.identifier = σ.get (highHalf bits).identifier := by
        refine get_of_overlap ?_ apart σ
        rw [(halves_spec width).2.1]
        exact r.bits_type.symm
      have divides : divisor σ = σ.get (highHalf bits).identifier := congrArg Nat.cast high
      rw [divides] at fits nonzero
      exact absurd fits (not_fits_of_high (Int.natCast_ne_zero.mp nonzero))

/-- A division leaves the remainder of its dividend and its divisor in the high half, and in the low half
the quotient by what the divisor is once the remainder is there.  If the divisor is not disturbed by that,
the low half holds the quotient. -/
theorem lowerWith_divide (m : Mode) {i : Instruction} {o : Operand} (next : Option Instruction)
    {t : IntrinsicTable} (isSigned : Bool) (opcode : i.opcode = if isSigned then .idiv else .div)
    (first : i.operands.head? = some o) (data : o.isData = true)
    (width : o.type.bits ∈ divisionWidths) (regular : t.Regular) :
    ∃ cluster t', (backend m).lowerWith i next t = (.ok cluster, t') ∧
      ∀ (I : Interpretation) (σ : State Families),
        let bits := o.type.bits
        let high := (highHalf bits).identifier
        let low := (lowHalf bits).identifier
        let dividend := reading isSigned (2 * bits) (σ.get high * 2 ^ bits + σ.get low)
        let divisor := fun τ : State Families =>
          reading isSigned bits ((i.read m o o.type).eval I τ)
        let rest := σ.setRegister high (ofInt bits (dividend.tmod (divisor σ)))
        ∃ τ, σ.run I cluster.statements = (τ, none) ∧
          τ.get low = ofInt bits (dividend.tdiv (divisor rest)) ∧
          (divisor σ ≠ 0 → Fits isSigned bits (dividend.tdiv (divisor σ)) →
            reading isSigned bits (τ.get high) = dividend.tmod (divisor σ) ∧
            (o.Undisturbed m isSigned →
              reading isSigned bits (τ.get low) = dividend.tdiv (divisor σ))) := by
  obtain ⟨cluster, t', ran, runs⟩ :=
    lowered_division (m := m) isSigned next opcode first data width regular
  refine ⟨cluster, t', ran, fun I σ => ?_⟩
  intro bits high low dividend divisor rest
  obtain ⟨lowBits, highBits, apart⟩ := halves_spec width
  let quotient := ofInt bits (dividend.tdiv (divisor rest))
  let τ := (rest.setRegister low quotient).setTemporary 0 (dividendOf bits σ)
  have positive : 0 < bits := positive_of_width width
  have inLow : τ.get low = quotient := by
    have written := rest.get_setRegister quotient (lowHalf bits).isRegister_identifier
    rw [bits_identifier, lowBits] at written
    exact written.trans (Nat.mod_eq_of_lt (ofInt_lt _ _))
  have inHigh : τ.get high = ofInt bits (dividend.tmod (divisor σ)) := by
    have kept := rest.get_setRegister_of_apart quotient (highHalf bits).isRegister_identifier
      apart.symm
    have written := σ.get_setRegister (ofInt bits (dividend.tmod (divisor σ)))
      (highHalf bits).isRegister_identifier
    rw [bits_identifier, highBits] at written
    exact kept.trans (written.trans (Nat.mod_eq_of_lt (ofInt_lt _ _)))
  refine ⟨τ, runs I σ, inLow, fun nonzero fits => ⟨?_, fun undisturbed => ?_⟩⟩
  · have inside := i.eval_read_lt (I := I) (σ := σ) m o.type data
    rw [i.type_read m data] at inside
    have natural : isSigned = false → 0 ≤ dividend := by
      rintro rfl
      exact Int.natCast_nonneg _
    rw [inHigh]
    exact reading_ofInt positive (fits_tmod (fits_reading isSigned positive inside) nonzero natural)
  · have same : divisor rest = divisor σ :=
      reading_of_undisturbed width undisturbed σ _ nonzero fits
    rw [inLow]
    show reading isSigned bits (ofInt bits (dividend.tdiv (divisor rest))) = _
    rw [same]
    exact reading_ofInt positive fits

end Divisions

/-- A division by an operand, at no address in particular. -/
def divideBy (isSigned : Bool) (o : Operand) : Instruction :=
  .of 0x1000 2 (if isSigned then .idiv else .div) [o] .word32

/-- A state with a dividend of 64 bits, where everything else is zero but some bytes of memory. -/
def withDividend (high low : Nat) (bytes : Nat → UInt8) : State Families :=
  let blank : State Families := ⟨⟨fun _ _ => false⟩, fun _ _ => false, fun _ => 0, fun _ => bytes, []⟩
  (blank.setRegister Register.edx.identifier high).setRegister Register.eax.identifier low

/-- A double word at the address that a general register holds. -/
def wordAt (family : Fin 16) : Operand :=
  .memory { type := .word32, base := some (.general family .bits32) }

theorem eval_wordAt (I : Interpretation) (i : Instruction) (family : Fin 16)
    (σ : State Families) :
    (i.read .protectedMode (wordAt family) .word32).eval I σ =
      σ.load none 32 (σ.get (Register.general family .bits32).identifier) 4 % 2 ^ 32 := by
  have read : i.read .protectedMode (wordAt family) .word32 =
      .memory .word32 (Register.general family .bits32).value := rfl
  rw [read]
  rfl

/-- Minus seven, with a two at address zero. -/
def minusSeven : State Families :=
  withDividend (2 ^ 32 - 1) (2 ^ 32 - 7) fun a => if a = 0 then 2 else 0

/-- Minus seven by two is minus three, and minus one remains. -/
theorem lowerWith_divide_ebx :
    ∃ cluster t', (backend .protectedMode).lowerWith (divideBy true (wordAt 3)) none .empty =
        (.ok cluster, t') ∧
      ∀ I : Interpretation, ∃ τ, minusSeven.run I cluster.statements = (τ, none) ∧
        reading true 32 (τ.get Register.eax.identifier) = -3 ∧
        reading true 32 (τ.get Register.edx.identifier) = -1 := by
  let i := divideBy true (wordAt 3)
  obtain ⟨cluster, t', ran, runs⟩ := lowerWith_divide .protectedMode (i := i) (o := wordAt 3)
    none true rfl rfl rfl (by decide) IntrinsicTable.regular_empty
  refine ⟨cluster, t', ran, fun I => ?_⟩
  obtain ⟨τ, run, _, divides⟩ := runs I minusSeven
  have dividend : reading true 64 (dividendOf 32 minusSeven) = -7 := by decide
  have divisor : reading true 32 ((i.read .protectedMode (wordAt 3) .word32).eval I minusSeven) =
      2 := by
    rw [eval_wordAt]
    decide
  have quotient := (congrArg₂ Int.tdiv dividend divisor).trans (show Int.tdiv (-7) 2 = -3 by decide)
  have remainder := (congrArg₂ Int.tmod dividend divisor).trans (show Int.tmod (-7) 2 = -1 by decide)
  have fits : Fits true 32 (-3) := ⟨by decide, by decide⟩
  rw [← quotient] at fits
  obtain ⟨inHigh, inLow⟩ := divides (ne_of_eq_of_ne divisor (by decide)) fits
  have undisturbed : (wordAt 3).Undisturbed .protectedMode true := .inl (by decide)
  have low := (inLow undisturbed).trans quotient
  have high := inHigh.trans remainder
  exact ⟨τ, run, low, high⟩

/-- A hundred, with a seven at address zero and a one at address four. -/
def hundred : State Families :=
  withDividend 0 100 fun a => if a = 0 then 7 else if a = 4 then 1 else 0

/-- A hundred by the seven that edx, which is zero, points to: the remainder of two is written to edx
first, and then the divisor is read at address two. -/
theorem div_by_edx_misses :
    ∃ cluster t', (backend .protectedMode).lowerWith (divideBy false (wordAt 2)) none .empty =
        (.ok cluster, t') ∧
      hundred.get Register.edx.identifier * 2 ^ 32 + hundred.get Register.eax.identifier = 100 ∧
      hundred.load none 32 (hundred.get Register.edx.identifier) 4 = 7 ∧
      ∀ I : Interpretation, ∃ τ, hundred.run I cluster.statements = (τ, none) ∧
        τ.get Register.edx.identifier = 100 % 7 ∧ τ.get Register.eax.identifier = 0 ∧
        τ.get Register.eax.identifier ≠ 100 / 7 := by
  obtain ⟨cluster, t', ran, runs⟩ := lowered_division (m := .protectedMode)
    (i := divideBy false (wordAt 2)) (o := wordAt 2) false none rfl rfl rfl (by decide)
    IntrinsicTable.regular_empty
  refine ⟨cluster, t', ran, by decide, by decide, fun I => ?_⟩
  let divisor : State Families → Int := fun τ => reading false 32
    (((divideBy false (wordAt 2)).read .protectedMode (wordAt 2) .word32).eval I τ)
  let dividend := reading false 64 (dividendOf 32 hundred)
  let rest := hundred.setRegister Register.edx.identifier 2
  have kept : dividendOf 32 hundred = 100 := by decide
  have remainder : ofInt 32 (dividend.tmod (divisor hundred)) = 2 := by
    show ofInt 32 ((reading false 64 (dividendOf 32 hundred)).tmod (reading false 32 _)) = 2
    rw [kept, eval_wordAt]
    decide
  have quotient : ofInt 32 (dividend.tdiv (divisor rest)) = 0 := by
    show ofInt 32 ((reading false 64 (dividendOf 32 hundred)).tdiv (reading false 32 _)) = 0
    rw [kept, eval_wordAt]
    decide
  have ends : hundred.run I cluster.statements =
      ((rest.setRegister Register.eax.identifier 0).setTemporary 0 100, none) := by
    refine (runs I hundred).trans ?_
    show (((hundred.setRegister Register.edx.identifier
        (ofInt 32 (dividend.tmod (divisor hundred)))).setRegister Register.eax.identifier
          (ofInt 32 (dividend.tdiv (divisor (hundred.setRegister Register.edx.identifier
            (ofInt 32 (dividend.tmod (divisor hundred)))))))).setTemporary 0
              (dividendOf 32 hundred), none) = _
    rw [remainder, quotient, kept]
  exact ⟨_, ends, by decide, by decide, by decide⟩

end RegisterTransfer.X86
