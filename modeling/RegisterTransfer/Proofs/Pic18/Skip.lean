/-
# RegisterTransfer.Proofs.Pic18.Skip -- the byte that a skip decides on

A skip jumps over the next instruction if a test holds of the byte of its file register, which a
counting skip first moves up or down by one.  `lowerWith_skipRule` says on which byte the branch of its
cluster decides.  Counting skips decide on what they counted.  The others name the byte in the
branch itself, which comes after the pointer has moved: through a window that moves its pointer
after the access they decide on the neighbour of the byte that was addressed (`SkipRule.Shifted`),
and through every other operand on the byte itself.
-/
import Mathlib.Data.Nat.Bitwise
import RegisterTransfer.Proofs.Pic18.FileResult

namespace RegisterTransfer.Pic18

set_option autoImplicit false

/-- What a skip tests. -/
structure SkipRule where
  file : FileOperand
  /-- By how much the byte is counted first, and where the count goes. -/
  count : Option (Int × Destination) := none
  /-- The test of the working register and the byte. -/
  test : Nat → Nat → Bool

/-- The rule of a skip. -/
def Instruction.skipRule? (i : Instruction) : Option SkipRule :=
  match i.operands.head? with
  | some (.fileDest file dest) =>
      match i.opcode with
      | .decfsz => some { file, count := some (-1, dest), test := fun _ f => f == 0 }
      | .dcfsnz => some { file, count := some (-1, dest), test := fun _ f => f != 0 }
      | .incfsz => some { file, count := some (1, dest), test := fun _ f => f == 0 }
      | .infsnz => some { file, count := some (1, dest), test := fun _ f => f != 0 }
      | _ => none
  | some (.file file) =>
      match i.opcode with
      | .cpfseq => some { file, test := fun w f => f == w }
      | .cpfsgt => some { file, test := fun w f => decide (w < f) }
      | .cpfslt => some { file, test := fun w f => decide (f < w) }
      | .tstfsz => some { file, test := fun _ f => f == 0 }
      | _ => none
  | some (.fileBit file bit) =>
      match i.opcode with
      | .btfsc => some { file, test := fun _ f => !f.testBit bit.val }
      | .btfss => some { file, test := fun _ f => f.testBit bit.val }
      | _ => none
  | _ => none

/-- Whether the pointer of a location moves after an access. -/
def Catalog.MovesAfter (c : Catalog) (location : DataLocation) : Prop :=
  ∃ kind n, c.window? location = some (kind, n) ∧ (kind = .postInc ∨ kind = .postDec)

/-- The place that the expression of a location stands for once the pointer has moved. -/
def Catalog.afterwards (c : Catalog) (σ : State Cells) (location : DataLocation) : Place :=
  match c.window? location with
  | some (.postInc, n) => .data ((σ.get (c.core.fsr n) + 1) % 2 ^ (c.core.fsr n).bits)
  | some (.postDec, n) => .data (Bits.ofInt (c.core.fsr n).bits (σ.get (c.core.fsr n) - 1))
  | _ => c.denotes σ location

namespace SkipRule

variable (rule : SkipRule) (c : Catalog) (σ : State Cells)

def location : DataLocation := rule.file.location c

/-- The byte that the operand denoted, counted if the skip counts. -/
def addressed : Nat :=
  let byte := (c.denotes σ (rule.location c)).read σ
  match rule.count with
  | none => byte
  | some (delta, _) => Bits.ofInt 8 (byte + delta)

/-- The number that the branch decides on. -/
def decided : Nat :=
  match rule.count with
  | none => (c.afterwards σ (rule.location c)).read σ
  | some (_, dest) =>
      rule.addressed c σ % 2 ^ (dest.place c (c.denotes σ (rule.location c))).bits

/-- Whether a skip decides on another byte than it addressed. -/
def Shifted : Prop := rule.count = none ∧ c.MovesAfter (rule.location c)

end SkipRule

/-! ## Branches -/

/-- A lowering whose statements end in a branch that is taken or not. -/
def Branches (x : Lowering Unit) (target : Nat) (taken : State Cells → Bool) : Prop :=
  Lowering.Writes x fun statements =>
    ∀ I σ, (σ.run I statements).2 = if taken σ then some (.jump target) else none

theorem run_branch {I : Interpretation} {σ τ : State Cells} {statements : List Statement}
    (ran : σ.run I statements = (τ, none)) {condition : Expr} {b : Bool}
    (decides : condition.eval I τ = b.toNat) (target : Nat) :
    (σ.run I (statements ++ [.branch condition target])).2 =
      if b then some (.jump target) else none := by
  rw [State.run_append_of_falls _ ran, State.run, State.exec, decides]
  cases b <;> rfl

/-- An expression about a byte tests it. -/
def Tests (c : Catalog) (test : Expr → Expr) (holds : Nat → Nat → Bool) : Prop :=
  ∀ I (σ : State Cells) e, e.type.bits = 8 → e.eval I σ < 256 →
    (test e).eval I σ = (holds (σ.get c.core.wreg) (e.eval I σ)).toNat

theorem eval_zeroTest {I : Interpretation} {σ : State Cells} (onZero : Bool) (e : Expr) :
    (Lower.zeroTest onZero e).eval I σ = ((e.eval I σ == 0) == onZero).toNat := by
  cases onZero with
  | true =>
      show e.isZero.eval I σ = _
      rw [Expr.eval_isZero, beq_true]
  | false =>
      show e.isNonzero.eval I σ = _
      rw [Expr.eval_isNonzero, beq_false]
      rfl

theorem tests_bit (c : Catalog) (bit : Fin 8) {ifSet : Bool} {holds : Bool → Bool}
    (is : ∀ b, holds b = (b == ifSet)) :
    Tests c (fun f => Lower.zeroTest (!ifSet) (f.and (.byte (bitMask bit.val))))
      fun _ f => holds (f.testBit bit.val) := by
  intro I σ e byte small
  have masked : (e.and (.byte (bitMask bit.val))).eval I σ = e.eval I σ &&& 2 ^ bit.val := by
    show (e.eval I σ &&& (Expr.byte (bitMask bit.val)).eval I σ) % 2 ^ e.type.bits = _
    rw [byte, Expr.eval_byte, (toNat_bitMask bit).1]
    exact Nat.mod_eq_of_lt (Nat.lt_of_le_of_lt Nat.and_le_left small)
  show _ = (holds ((e.eval I σ).testBit bit.val)).toNat
  rw [eval_zeroTest, masked, Nat.and_two_pow, is]
  have positive : (2 ^ bit.val == 0) = false := beq_false_of_ne (Nat.two_pow_pos _).ne'
  cases (e.eval I σ).testBit bit.val with
  | true => cases ifSet <;> simp [positive]
  | false => cases ifSet <;> simp

/-! ## Skips that do not count -/

namespace Catalog

variable {c : Catalog} {location : DataLocation} {I : Interpretation}

/-- The expression of a cell once its pointer has moved. -/
theorem denotes_afterwards (accepted : c.Accepted)
    (bounded : ∀ a, location = .absolute a → a < 2 ^ 16) (σ : State Cells) :
    Denotes I (c.move location σ).registers (c.cellAt location).place
      (c.afterwards σ location) := by
  have before := denotes_place accepted (I := I) location bounded σ
  unfold afterwards
  cases window : c.window? location with
  | none =>
      simp only [entered, move, window] at before ⊢
      exact before
  | some found =>
      obtain ⟨kind, n⟩ := found
      have register := accepted.isRegister_fsr n
      have still := fun zero => move_of_still accepted window zero σ
      have moved : ∀ τ : State Cells, τ.registers = (c.move location σ).registers →
          τ.get (c.core.fsr n) =
            Bits.ofInt (c.core.fsr n).bits (σ.get (c.core.fsr n) + kind.movement) := by
        intro τ same
        rw [State.get_of_registers register same]
        simp only [move, window]
        rw [State.get_setRegister _ _ register]
        exact Nat.mod_eq_of_lt (Bits.ofInt_lt _ _)
      cases kind with
      | preInc =>
          simp only [entered, window] at before
          exact before
      | indf | plusW =>
          simp only [entered, window] at before
          rw [still rfl]
          exact before
      | postInc =>
          rw [cellAt_of_window window]
          refine denotes_through accepted n fun τ same => (moved τ same).trans ?_
          exact Bits.ofInt_natCast _ (σ.get (c.core.fsr n) + 1)
      | postDec =>
          rw [cellAt_of_window window]
          exact denotes_through accepted n moved

theorem read_afterwards (σ : State Cells) :
    (c.afterwards σ location).read (c.move location σ) = (c.afterwards σ location).read σ := by
  unfold afterwards denotes move
  cases c.window? location with
  | none => rfl
  | some found =>
      obtain ⟨kind, n⟩ := found
      cases kind <;> rfl

theorem bits_afterwards (σ : State Cells) : (c.afterwards σ location).bits = 8 := by
  unfold afterwards
  split
  · rfl
  · rfl
  · exact c.bits_denotes σ location

end Catalog

section Kinds

variable {c : Catalog} {i : Instruction} {file : FileOperand} {next : Option Instruction}

/-- A branch on a test of a cell, behind the access to it. -/
theorem branches_test (accepted : c.Accepted) {test : Expr → Expr} {holds : Nat → Nat → Bool}
    (tests : Tests c test holds) (bounded : ∀ a, file.location c = .absolute a → a < 2 ^ 16)
    (target : Nat) :
    Branches (do
        let condition ← (file.cell c).access fun f => pure (test f)
        .branch condition target) target
      fun σ => holds (σ.get c.core.wreg) (({ file, test := holds } : SkipRule).decided c σ) := by
  refine ⟨_, _, Lowering.emits_bind ((file.cell c).emits_access (Lowering.emits_pure _))
    (Lowering.emits_branch _ _), fun I σ => ?_⟩
  have ran : σ.run I ((file.cell c).entering ++ ([] ++ (file.cell c).leaving)) =
      (c.move (file.location c) σ, none) :=
    @Catalog.run_access c accepted I (file.location c) [] σ id (fun _ _ _ _ _ => rfl) rfl
  refine run_branch ran ?_ target
  have place := Catalog.denotes_afterwards (I := I) accepted bounded σ
  have byte := place.bits.trans (Catalog.bits_afterwards σ)
  have inside := place.read_lt (c.move (file.location c) σ)
  rw [Catalog.bits_afterwards, ← place.eval rfl] at inside
  have given := tests I _ _ byte inside
  rw [place.eval rfl, Catalog.read_afterwards, Catalog.get_move accepted.isRegister_wreg σ
    fun _ n _ => accepted.wreg_ne_fsr n] at given
  exact given

theorem temporaries_move (location : DataLocation) (σ : State Cells) :
    (c.move location σ).temporaries = σ.temporaries := by
  unfold Catalog.move
  cases c.window? location <;> rfl

/-- After a copy and the move of the pointer, the value of the copy is what its place holds. -/
theorem eval_value_copied {I : Interpretation} {σ τ : State Cells} {location : DataLocation}
    {dst src : Expr} {p : Place} (denotes : Denotes I τ.registers dst p)
    (apart : ∀ other, p = .register other →
      ∀ kind n, c.window? location = some (kind, n) → other ≠ c.core.fsr n)
    (byte : src.type.bits = 8) (model : FlagModel) (value : Nat) :
    (Lowering.copied model .viaTemporary 0 dst src).value.eval I
        (c.move location (p.write value (borrowing σ (p.scratch 0 value τ).temporaries))) =
      value % 2 ^ p.bits := by
  cases denotes with
  | @register id isRegister =>
      show (c.move location _).get id = _
      rw [Catalog.get_move isRegister _ (apart id rfl)]
      exact State.get_setRegister _ _ isRegister
  | data _ _ =>
      show (c.move location _).temporaries 0 % 2 ^ src.type.bits = _
      rw [temporaries_move, byte]
      rfl

/-- A counting skip decides on the count as its destination holds it. -/
theorem branches_count (accepted : c.Accepted) {delta : Int} (short : delta.natAbs < 2 ^ 64)
    {onZero : Bool} {test : Nat → Bool} (is : ∀ f, test f = ((f == 0) == onZero))
    {dest : Destination} (operand : i.fileDest = .ok (file, dest))
    (bounded : ∀ a, file.location c = .absolute a → a < 2 ^ 16) :
    let rule : SkipRule := { file, count := some (delta, dest), test := fun _ f => test f }
    Branches (Lower.countAndSkip c i next delta onZero) (Lower.skipTarget i next)
      fun σ => rule.test (σ.get c.core.wreg) (rule.decided c σ) := by
  intro rule
  refine ⟨_, _, Lowering.emits_operand operand (Lowering.emits_bind
    ((file.cell c).emits_access (Lowering.emits_map _ (Lowering.emits_copy _ _ _ _)))
    (Lowering.emits_branch _ _)), fun I σ => ?_⟩
  have place : Denotes I _ (file.cell c).place _ :=
    Catalog.denotes_place accepted (file.location c) bounded σ
  have byte : (file.cell c).place.type.bits = 8 := place.bits.trans (c.bits_denotes σ _)
  have target := denotes_placeFor accepted place dest
  have counted : ((file.cell c).place.addInt delta).eval I (c.entered (file.location c) σ) =
      rule.addressed c σ := by
    rw [Expr.eval_addInt _ short, byte, place.eval rfl, Catalog.read_entered]
    rfl
  have wide : ((file.cell c).place.addInt delta).type.bits = 8 := by
    rw [Expr.type_addInt, byte]
  have splits : CopyMode.viaTemporary.split = true := rfl
  have stored := run_copied 0 splits 0 target
    (by rw [Expr.applications_addInt, place.silent]) wide
    (lt_of_eq_of_lt counted (Bits.ofInt_lt 8 _))
  simp only [counted] at stored
  rw [scratch_eq_borrowing] at stored
  have apart : ∀ other, dest.place c (c.denotes σ (file.location c)) = .register other →
      ∀ kind n, c.window? (file.location c) = some (kind, n) → other ≠ c.core.fsr n :=
    fun other same _ _ window => Catalog.apart_of_window accepted dest σ window other same
  have ran := Catalog.run_access accepted (file.location c) σ
    (fun kind n window => Catalog.aside_write _ _ fun other same => apart other same kind n window)
    stored
  refine run_branch ran ?_ _
  rw [eval_zeroTest]
  have value := eval_value_copied (σ := σ) target apart wide (Status.model 0) (rule.addressed c σ)
  refine (congrArg (fun v => ((v == 0) == onZero).toNat) value).trans ?_
  rw [← is]
  rfl

theorem branches_testAndSkip (accepted : c.Accepted) {test : Expr → Expr}
    {holds : Nat → Nat → Bool} (tests : Tests c test holds) (operand : i.file = .ok file)
    (bounded : ∀ a, file.location c = .absolute a → a < 2 ^ 16) :
    Branches (Lower.testAndSkip c i next test) (Lower.skipTarget i next)
      fun σ => holds (σ.get c.core.wreg) (({ file, test := holds } : SkipRule).decided c σ) := by
  unfold Lower.testAndSkip Lower.onFile
  rw [bind_assoc]
  exact Lowering.Writes.operand operand (branches_test accepted tests bounded _)

theorem branches_bitTestAndSkip (accepted : c.Accepted) {bit : Fin 8} {ifSet : Bool}
    {holds : Bool → Bool} (is : ∀ b, holds b = (b == ifSet))
    (operand : i.fileBit = .ok (file, bit))
    (bounded : ∀ a, file.location c = .absolute a → a < 2 ^ 16) :
    let rule : SkipRule := { file, test := fun _ f => holds (f.testBit bit.val) }
    Branches (Lower.bitTestAndSkip c i next ifSet) (Lower.skipTarget i next)
      fun σ => rule.test (σ.get c.core.wreg) (rule.decided c σ) :=
  Lowering.Writes.operand operand (branches_test accepted (tests_bit c bit is) bounded _)

end Kinds

/-- The branch of a skip is taken if the test holds of the number that it decides on. -/
theorem branches_skipRule {c : Catalog} (accepted : c.Accepted) {i : Instruction}
    {rule : SkipRule} (found : i.skipRule? = some rule) (next : Option Instruction) :
    Branches (Lower.instruction c i next) (Lower.skipTarget i next)
      fun σ => rule.test (σ.get c.core.wreg) (rule.decided c σ) := by
  have bounded : ∀ a, rule.location c = .absolute a → a < 2 ^ 16 :=
    fun _ => location_bounded accepted rule.file
  have onZero : ∀ f : Nat, (f == 0) = ((f == 0) == true) := fun f => (beq_true _).symm
  have onNonzero : ∀ f : Nat, (f != 0) = ((f == 0) == false) := fun f => (beq_false _).symm
  unfold Instruction.skipRule? at found
  cases shown : i.operands.head? with
  | none =>
      rw [shown] at found
      cases found
  | some o =>
      rw [shown] at found
      have listed := Instruction.getElem?_of_head? shown
      cases o with
      | fileDest file dest =>
          have given : i.fileDest = .ok (file, dest) := Instruction.expect_of_read listed rfl
          unfold Lower.instruction
          cases opcode : i.opcode <;>
            simp only [opcode, reduceCtorEq, Option.some.injEq] at found <;> subst found
          case decfsz => exact branches_count accepted (by decide) onZero given bounded
          case dcfsnz => exact branches_count accepted (by decide) onNonzero given bounded
          case incfsz => exact branches_count accepted (by decide) onZero given bounded
          case infsnz => exact branches_count accepted (by decide) onNonzero given bounded
      | file file =>
          have given : i.file = .ok file := Instruction.expect_of_read listed rfl
          unfold Lower.instruction
          cases opcode : i.opcode <;>
            simp only [opcode, reduceCtorEq, Option.some.injEq] at found <;> subst found
          case cpfseq =>
            exact branches_testAndSkip accepted (fun _ _ _ _ _ => rfl) given bounded
          case cpfsgt =>
            exact branches_testAndSkip accepted (fun _ _ _ _ _ => rfl) given bounded
          case cpfslt =>
            exact branches_testAndSkip accepted (fun _ _ _ _ _ => rfl) given bounded
          case tstfsz =>
            exact branches_testAndSkip accepted (fun _ _ e _ _ => Expr.eval_isZero e) given bounded
      | fileBit file bit =>
          have given : i.fileBit = .ok (file, bit) := Instruction.expect_of_read listed rfl
          unfold Lower.instruction
          cases opcode : i.opcode <;>
            simp only [opcode, reduceCtorEq, Option.some.injEq] at found <;> subst found
          case btfsc =>
            have clear : ∀ b, (!b) = (b == false) := fun b => (beq_false b).symm
            exact branches_bitTestAndSkip accepted clear given bounded
          case btfss =>
            have set : ∀ b, b = (b == true) := fun b => (beq_true b).symm
            exact branches_bitTestAndSkip accepted set given bounded
      | _ => cases found

/-! ## When the byte is the addressed one -/

/-- A skip that is not shifted decides on the byte that it addressed. -/
theorem SkipRule.decided_of_not_shifted {c : Catalog} (wide : 8 ≤ c.core.wreg.bits)
    {rule : SkipRule} (straight : ¬rule.Shifted c) (σ : State Cells) :
    rule.decided c σ = rule.addressed c σ := by
  unfold decided
  cases counts : rule.count with
  | none =>
      have same : c.afterwards σ (rule.location c) = c.denotes σ (rule.location c) := by
        unfold Catalog.afterwards
        split
        · rename_i n window
          exact absurd ⟨counts, _, n, window, .inl rfl⟩ straight
        · rename_i n window
          exact absurd ⟨counts, _, n, window, .inr rfl⟩ straight
        · rfl
      simp only [same, addressed, counts]
  | some count =>
      obtain ⟨delta, dest⟩ := count
      have target : 8 ≤ (dest.place c (c.denotes σ (rule.location c))).bits := by
        cases dest with
        | w => exact wide
        | f => exact (c.bits_denotes σ _).ge
      have small : rule.addressed c σ < 2 ^ 8 := by
        simp only [addressed, counts]
        exact Bits.ofInt_lt _ _
      exact Nat.mod_eq_of_lt (small.trans_le (Nat.pow_le_pow_right (by decide) target))

/-- Two bytes that the test of a skip tells apart, if the skip does not count. -/
theorem Instruction.test_distinguishes {i : Instruction} {rule : SkipRule}
    (found : i.skipRule? = some rule) (plain : rule.count = none) :
    ∃ w x y, w < 2 ∧ x < 256 ∧ y < 256 ∧ rule.test w x ≠ rule.test w y := by
  have every : ∀ bit : Fin 8, (255 : Nat).testBit bit.val = true := by decide
  unfold skipRule? at found
  split at found
  · split at found <;> cases found <;> cases plain
  · split at found
    · cases found
      exact ⟨0, 0, 1, by decide, by decide, by decide, by simp⟩
    · cases found
      exact ⟨0, 0, 1, by decide, by decide, by decide, by simp⟩
    · cases found
      exact ⟨1, 0, 1, by decide, by decide, by decide, by simp⟩
    · cases found
      exact ⟨0, 0, 1, by decide, by decide, by decide, by simp⟩
    · cases found
  · split at found
    · cases found
      exact ⟨0, 0, 255, by decide, by decide, by decide, by simp [every]⟩
    · cases found
      exact ⟨0, 0, 255, by decide, by decide, by decide, by simp [every]⟩
    · cases found
  · cases found

/-- A state in which one byte of memory differs from all others. -/
def oddOneOut (wreg : Identifier) (w first others : Nat) : State Cells where
  registers := RegisterFile.write ⟨fun _ => 0⟩ wreg w
  flags _ _ := false
  temporaries _ := 0
  memory _ address := UInt8.ofNat (if address = 0 then first else others)
  history := []

/-- The byte that a shifted skip addresses and the one that it decides on are independent. -/
theorem SkipRule.exists_of_shifted {c : Catalog} (accepted : c.Accepted) (rule : SkipRule)
    (shifted : rule.Shifted c) {w x y : Nat} (low : w < 2) (inX : x < 256) (inY : y < 256) :
    ∃ σ : State Cells,
      σ.get c.core.wreg = w ∧ rule.addressed c σ = x ∧ rule.decided c σ = y := by
  obtain ⟨plain, kind, n, window, moves⟩ := shifted
  obtain ⟨σ, is⟩ : ∃ σ, σ = oddOneOut c.core.wreg w x y := ⟨_, rfl⟩
  have working : σ.get c.core.wreg = w := by
    have room : 2 ^ 1 ≤ 2 ^ c.core.wreg.bits := Nat.pow_le_pow_right (by decide)
      (accepted.bits_pos (by simp [CoreRegisters.toList]))
    rw [State.get_of_isRegister σ accepted.isRegister_wreg, is]
    refine (LawfulRegisterFile.read_write _ _ _).trans (Nat.mod_eq_of_lt ?_)
    omega
  have pointer : σ.get (c.core.fsr n) = 0 := by
    rw [State.get_of_isRegister σ (accepted.isRegister_fsr n), is]
    exact Cells.read_write_of_ne _ _ (accepted.wreg_ne_fsr n).symm
  have at_ : ∀ address, (Place.data address).read σ = if address = 0 then x else y := by
    intro address
    rw [is]
    show (UInt8.ofNat (if address = 0 then x else y)).toNat = _
    rw [UInt8.toNat_ofNat']
    split <;> omega
  have addressed : rule.addressed c σ = x := by
    simp only [SkipRule.addressed, plain, Catalog.denotes, window]
    rcases moves with rfl | rfl
    · exact (at_ _).trans (if_pos pointer)
    · exact (at_ _).trans (if_pos pointer)
  have room : 2 ^ 1 ≤ 2 ^ (c.core.fsr n).bits :=
    Nat.pow_le_pow_right (by decide) (accepted.bits_pos (Catalog.fsr_mem n))
  have decided : rule.decided c σ = y := by
    simp only [SkipRule.decided, plain, Catalog.afterwards, window]
    rcases moves with rfl | rfl
    · refine (at_ _).trans (if_neg ?_)
      rw [pointer, Nat.mod_eq_of_lt room]
      decide
    · refine (at_ _).trans (if_neg ?_)
      -- one below zero is the highest address
      rw [pointer, Bits.ofInt, ← Bits.natCast_two_pow, ← Int.add_emod_right,
        Int.emod_eq_of_lt (by omega) (by omega)]
      omega
  exact ⟨σ, working, addressed, decided⟩

theorem SkipRule.differs_of_shifted {c : Catalog} (accepted : c.Accepted) {i : Instruction}
    {rule : SkipRule} (found : i.skipRule? = some rule) (shifted : rule.Shifted c) :
    ∃ σ : State Cells, rule.test (σ.get c.core.wreg) (rule.decided c σ) ≠
      rule.test (σ.get c.core.wreg) (rule.addressed c σ) := by
  obtain ⟨w, x, y, low, inX, inY, differ⟩ := i.test_distinguishes found shifted.1
  obtain ⟨σ, working, addressed, decided⟩ :=
    rule.exists_of_shifted accepted shifted low inX inY
  refine ⟨σ, ?_⟩
  rw [working, addressed, decided]
  exact differ.symm

/-! ## Clusters -/

/-- The cluster of a skip ends in its branch. -/
theorem lowerWith_branches {c : Catalog} (accepted : c.Accepted) {i : Instruction}
    {rule : SkipRule} (found : i.skipRule? = some rule) (next : Option Instruction)
    {t : IntrinsicTable} (regular : t.Regular) :
    ∃ flow statements t',
      (backend c).lowerWith i next t = (.ok ⟨false, flow, statements⟩, t') ∧
        ∀ I (σ : State Cells), (σ.run I statements).2 =
          if rule.test (σ.get c.core.wreg) (rule.decided c σ) then
            some (.jump (Lower.skipTarget i next))
          else none := by
  obtain ⟨flow, settled, t', statements, lowered, branches, same⟩ :=
    lowerWith_of_writes (branches_skipRule accepted found next) regular
  refine ⟨flow, settled, t', lowered, fun I σ => ?_⟩
  rw [same]
  exact branches I σ

/-- On a loaded device the cluster of a skip jumps past the next instruction exactly when the test
holds of the number that `SkipRule.decided` names.  That is the byte that the operand addressed,
counted if the skip counts, unless the skip is shifted; a shifted skip goes wrong in some state. -/
theorem lowerWith_skipRule {device : Option Device} {c : Catalog}
    (loaded : Catalog.load device = .ok c) {i : Instruction} {rule : SkipRule}
    (found : i.skipRule? = some rule) (next : Option Instruction) {t : IntrinsicTable}
    (regular : t.Regular) :
    ∃ flow statements t',
      (backend c).lowerWith i next t = (.ok ⟨false, flow, statements⟩, t') ∧
        (∀ I (σ : State Cells), (σ.run I statements).2 =
          if rule.test (σ.get c.core.wreg) (rule.decided c σ) then
            some (.jump (Lower.skipTarget i next))
          else none) ∧
        (8 ≤ c.core.wreg.bits → ¬rule.Shifted c → ∀ σ, rule.decided c σ = rule.addressed c σ) ∧
        (rule.Shifted c → ∃ σ, rule.test (σ.get c.core.wreg) (rule.decided c σ) ≠
          rule.test (σ.get c.core.wreg) (rule.addressed c σ)) := by
  have accepted := Catalog.accepted_of_load loaded
  obtain ⟨flow, statements, t', lowered, exits⟩ := lowerWith_branches accepted found next regular
  exact ⟨flow, statements, t', lowered, exits, fun wide => rule.decided_of_not_shifted wide,
    rule.differs_of_shifted accepted found⟩

/-- Count the byte behind the first pointer down, move the pointer up and skip on zero. -/
def decfszPostInc0 : Instruction :=
  ⟨0x200, 2, .decfsz, [.fileDest ⟨0xEE, true, .traditional⟩ .f]⟩

/-- A counting skip through a window decides on the byte that the pointer pointed to. -/
theorem lowerWith_skipRule_decfsz :
    ∃ c, Catalog.load (some Devices.Pic18f4620.device) = .ok c ∧
      ∃ flow statements t',
        (backend c).lowerWith decfszPostInc0 none .empty = (.ok ⟨false, flow, statements⟩, t') ∧
          ∀ I (σ : State Cells), (σ.run I statements).2 =
            if (Place.data (σ.get c.core.fsr0)).read σ = 1 then some (.jump 0x204) else none := by
  obtain ⟨c, loaded, wide, _, located, window⟩ := load_pic18f4620
  obtain ⟨flow, statements, t', lowered, exits, straight, _⟩ :=
    lowerWith_skipRule loaded (i := decfszPostInc0) rfl none IntrinsicTable.regular_empty
  refine ⟨c, loaded, flow, statements, t', lowered, fun I σ => (exits I σ).trans ?_⟩
  rw [straight wide.ge (fun shifted => by cases shifted.1)]
  simp only [SkipRule.addressed, SkipRule.location, located, Catalog.denotes, window]
  have small : (Place.data (σ.get c.core.fsr0)).read σ < 256 := UInt8.toNat_lt _
  refine if_congr ?_ rfl rfl
  rw [beq_iff_eq]
  show Bits.ofInt 8 ((Place.data (σ.get c.core.fsr0)).read σ + -1) = 0 ↔ _
  rw [Bits.ofInt]
  omega

/-- Test the byte behind the first pointer and move the pointer up. -/
def tstfszPostInc0 : Instruction := ⟨0x200, 2, .tstfsz, [.file ⟨0xEE, true, .traditional⟩]⟩

/-- The byte that the pointer pointed to is zero, and the cluster does not skip. -/
theorem tstfsz_postInc0_misses :
    ∃ c, Catalog.load (some Devices.Pic18f4620.device) = .ok c ∧
      ∃ flow statements t',
        (backend c).lowerWith tstfszPostInc0 none .empty = (.ok ⟨false, flow, statements⟩, t') ∧
          ∃ σ : State Cells, (Place.data (σ.get c.core.fsr0)).read σ = 0 ∧
            ∀ I, (σ.run I statements).2 = none := by
  obtain ⟨c, loaded, _, _, located, window⟩ := load_pic18f4620
  have accepted := Catalog.accepted_of_load loaded
  obtain ⟨flow, statements, t', lowered, exits⟩ :=
    lowerWith_branches accepted (i := tstfszPostInc0) rfl none IntrinsicTable.regular_empty
  refine ⟨c, loaded, flow, statements, t', lowered, ?_⟩
  obtain ⟨σ, _, addressed, decided⟩ := SkipRule.exists_of_shifted accepted
    { file := ⟨0xEE, true, .traditional⟩, test := fun _ f => f == 0 }
    ⟨rfl, .postInc, 0, (congrArg c.window? located).trans window, .inl rfl⟩
    (w := 0) (x := 0) (y := 1) (by decide) (by decide) (by decide)
  simp only [SkipRule.addressed, SkipRule.location, located, Catalog.denotes, window] at addressed
  refine ⟨σ, addressed, fun I => (exits I σ).trans ?_⟩
  rw [decided]
  rfl

end RegisterTransfer.Pic18
