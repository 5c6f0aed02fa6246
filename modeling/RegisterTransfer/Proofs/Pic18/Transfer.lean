/-
# RegisterTransfer.Proofs.Pic18.Transfer -- where words that move control lead

`Transfer` lists the instructions that carry a code address: the long relative jump and call, the eight
branches on a flag, and the absolute call and jump of two words.  `Transfer.code` writes their bytes
around a field, and `Transfer.target` is the architecture's address for it: relative fields count words
from the next instruction in two's complement, absolute fields count words from zero.

`leads_to_target` takes the bytes through the decoder and the lowering: the cluster moves control to
just that address, and no two fields of an instruction lead to the same one.
-/
import RegisterTransfer.Pic18.Devices
import RegisterTransfer.Proofs.Meaning.Execution
import RegisterTransfer.Proofs.Pic18.RoundTrip

namespace RegisterTransfer.Pic18

set_option autoImplicit false

/-- An instruction that carries a code address. -/
inductive Transfer where
  | bra
  | rcall
  /-- The branch whose number is in the bits above its field. -/
  | onFlag (n : Fin 8)
  /-- A call, which may save the shadow registers first. -/
  | call (fast : Bool)
  | goto

/-- A field read as two's complement of its width. -/
def twosComplement (width field : Nat) : Int :=
  if field < 2 ^ (width - 1) then field else field - 2 ^ width

namespace Transfer

/-- Bits of the field. -/
def width : Transfer → Nat
  | bra | rcall => 11
  | onFlag _ => 8
  | call _ | goto => 20

/-- The first word around a field. -/
def word : Transfer → Nat → Nat
  | bra, field => 0xD000 + field
  | rcall, field => 0xD800 + field
  | onFlag n, field => 0xE000 + n * 2 ^ 8 + field
  | call fast, field => 0xEC00 + fast.toNat * 2 ^ 8 + field % 2 ^ 8
  | goto, field => 0xEF00 + field % 2 ^ 8

/-- The twelve bits that the second word holds, if there is one. -/
def payloads : Transfer → Nat → List Nat
  | bra, _ | rcall, _ | onFlag _, _ => []
  | call _, field | goto, field => [field / 2 ^ 8]

def code (x : Transfer) (field : Nat) : List UInt8 := codeBytes (x.word field) (x.payloads field)

/-- The address that a field stands for in the instruction at an address. -/
def target (x : Transfer) (address field : Nat) : Nat :=
  match x with
  | bra | rcall | onFlag _ =>
      ((address + 2 + 2 * twosComplement x.width field) % 2 ^ 21).toNat
  | call _ | goto => 2 * field

/-- The bit of the status register that a branch looks at, and the value on which it is taken. -/
def decides : Fin 8 → Nat × Bool
  | 0 => (2, true)
  | 1 => (2, false)
  | 2 => (0, true)
  | 3 => (0, false)
  | 4 => (3, true)
  | 5 => (3, false)
  | 6 => (4, true)
  | 7 => (4, false)

/-- Whether control is moved in a state. -/
def taken {ρ : Type} (x : Transfer) (σ : State ρ) : Bool :=
  match x with
  | onFlag n => σ.flags "STATUS" (decides n).1 == (decides n).2
  | bra | rcall | call _ | goto => true

/-- How control is moved to an address. -/
def exit (x : Transfer) (target : Nat) : Exit :=
  match x with
  | rcall | call _ => .call target 0
  | bra | onFlag _ | goto => .jump target

/-! ## Fields -/

theorem signedField_eq_twosComplement (width : Nat) {field : Nat} (fits : field < 2 ^ (width + 1)) :
    signedField (width + 1) field = twosComplement (width + 1) field := by
  have twice : (2 : Int) ^ (width + 1) = 2 ^ width * 2 := Int.pow_succ 2 width
  have low : (field : Int) < 2 ^ width ↔ field < 2 ^ width := by norm_cast
  rw [signedField, twosComplement, Int.bmod_def, ← Int.natCast_emod, Nat.mod_eq_of_lt fits,
    Nat.add_sub_cancel, Bits.natCast_two_pow]
  split <;> split <;> omega

theorem relativeTarget_signedField (width address : Nat) {field : Nat}
    (fits : field < 2 ^ (width + 1)) :
    relativeTarget address (signedField (width + 1) field) =
      ((address + 2 + 2 * twosComplement (width + 1) field) % 2 ^ 21).toNat := by
  rw [relativeTarget, signedField_eq_twosComplement width fits, Int.mul_comm]
  rfl

/-- Offsets of less than 2^20 words lead to different targets. -/
theorem relativeTarget_injective {address : Nat} {offset offset' : Int}
    (short : -2 ^ 10 ≤ offset ∧ offset < 2 ^ 10) (short' : -2 ^ 10 ≤ offset' ∧ offset' < 2 ^ 10)
    (same : relativeTarget address offset = relativeTarget address offset') : offset = offset' := by
  unfold relativeTarget programSize at same
  omega

/-- Fields of at most eleven bits have different relative targets. -/
theorem field_eq_of_relativeTarget (address width : Nat) {field field' : Nat} (narrow : width ≤ 10)
    (fits : field < 2 ^ (width + 1)) (fits' : field' < 2 ^ (width + 1))
    (same : relativeTarget address (signedField (width + 1) field) =
      relativeTarget address (signedField (width + 1) field')) : field = field' := by
  have wide : (2 : Int) ^ width ≤ 2 ^ 10 := by exact_mod_cast Nat.pow_le_pow_right (by decide) narrow
  obtain ⟨back, ahead⟩ := signedField_bounds width field
  obtain ⟨back', ahead'⟩ := signedField_bounds width field'
  have offsets := relativeTarget_injective ⟨by omega, by omega⟩ ⟨by omega, by omega⟩ same
  rw [← code_signedField (width + 1) fits, offsets, code_signedField (width + 1) fits']

/-- No two fields of an instruction have the same target. -/
theorem target_injective (x : Transfer) {address field field' : Nat} (fits : field < 2 ^ x.width)
    (fits' : field' < 2 ^ x.width) (same : x.target address field = x.target address field') :
    field = field' := by
  cases x with
  | call | goto => exact Nat.eq_of_mul_eq_mul_left (by decide) same
  | bra | rcall =>
      refine field_eq_of_relativeTarget address 10 (by decide) fits fits' ?_
      rw [relativeTarget_signedField 10 address fits, relativeTarget_signedField 10 address fits']
      exact same
  | onFlag n =>
      refine field_eq_of_relativeTarget address 7 (by decide) fits fits' ?_
      rw [relativeTarget_signedField 7 address fits, relativeTarget_signedField 7 address fits']
      exact same

/-! ## Reading -/

/-- The body that the words around a field are read as. -/
def body (x : Transfer) (address field : Nat) : Body :=
  match x with
  | bra => (.bra, [.relative11 (signedField 11 field) (x.target address field)])
  | rcall => (.rcall, [.relative11 (signedField 11 field) (x.target address field)])
  | onFlag n =>
      (branchOpcode (0xE0 + n), [.relative8 (signedField 8 field) (x.target address field)])
  | call fast => (.call, [.absolute (x.target address field), .fast fast])
  | goto => (.goto, [.absolute (x.target address field)])

variable {family : Family} {mode : Mode} {address field : Nat}

/-- The long branches differ in their pattern only. -/
theorem reads_longField {op : Opcode} (known : op = .bra ∨ op = .rcall) (fits : field < 2 ^ 11) :
    Body.Reads family mode address (op.pattern + field) [] (op, [.relative11 (signedField 11 field)
      ((address + 2 + 2 * twosComplement 11 field) % 2 ^ 21).toNat]) := by
  obtain ⟨back, ahead⟩ := signedField_bounds 10 field
  have reads : Body.Reads family mode address _ [] _ := reads_longBranch known back ahead
  rw [code_signedField 11 fits, relativeTarget_signedField 10 address fits] at reads
  exact reads

theorem reads_body (x : Transfer) (fits : field < 2 ^ x.width) :
    (x.body address field).Reads family mode address (x.word field) (x.payloads field) := by
  cases x with
  | bra => exact reads_longField (.inl rfl) fits
  | rcall => exact reads_longField (.inr rfl) fits
  | onFlag n =>
      obtain ⟨known, pattern⟩ := branchTable.known (0xE0 + n) (by omega) (by omega)
      obtain ⟨back, ahead⟩ := signedField_bounds 7 field
      have reads : Body.Reads family mode address _ [] _ := reads_branch known back ahead
      rw [code_signedField 8 fits, relativeTarget_signedField 7 address fits, pattern,
        Nat.add_mul] at reads
      exact reads
  | call fast =>
      have small : field < 2 ^ 20 := fits
      have reads : Body.Reads family mode address _ _ (.call, [.absolute (2 * field), .fast fast]) :=
        reads_call (by omega) (by unfold programSize; omega)
      have low : 2 * field / 2 % 2 ^ 8 = field % 2 ^ 8 := by omega
      have high : 2 * field / 2 ^ 9 = field / 2 ^ 8 := by omega
      rw [low, high, ← Nat.add_assoc] at reads
      exact reads
  | goto =>
      have small : field < 2 ^ 20 := fits
      have reads : Body.Reads family mode address _ _ (.goto, [.absolute (2 * field)]) :=
        reads_goto (by omega) (by unfold programSize; omega)
      have low : 2 * field / 2 % 2 ^ 8 = field % 2 ^ 8 := by omega
      have high : 2 * field / 2 ^ 9 = field / 2 ^ 8 := by omega
      rw [low, high] at reads
      exact reads

/-! ## Moving control -/

/-- Statements that move control to an address in the states in which an instruction is taken, and
nowhere in the others. -/
def Leads (x : Transfer) (target : Nat) (statements : List Statement) : Prop :=
  ∀ {ρ : Type} [RegisterFile ρ] (I : Interpretation) (σ : State ρ),
    (σ.run I statements).2 = if x.taken σ then some (x.exit target) else none

/-- A branch on one flag is taken as the flag says. -/
theorem leads_branch {n : Fin 8} {wanted : Bool} (c : Condition) (bit : Nat)
    (same : decides n = (bit, wanted)) (holds : ∀ b : Bool, c.holds b.toNat = (b == wanted)) (target : Nat) :
    (onFlag n).Leads target [.branch (.test c (.identifier (Status.group (2 ^ bit)))) target] := by
  intro ρ _ I σ
  have flag : (Expr.identifier (Status.group (2 ^ bit))).eval I σ = (σ.flags "STATUS" bit).toNat :=
    Bits.gather_two_pow bit _
  have decided : (Expr.test c (.identifier (Status.group (2 ^ bit)))).eval I σ =
      (σ.flags "STATUS" bit == wanted).toNat := by
    rw [Expr.eval, flag, holds]
  simp only [State.run, State.exec, decided, taken, exit, same]
  cases σ.flags "STATUS" bit == wanted <;> rfl

theorem lowerWith_body (c : Catalog) (x : Transfer) (length field : Nat)
    (next : Option Instruction) (t : IntrinsicTable) :
    ∃ l, (backend c).lowerWith ⟨address, length, (x.body address field).1, (x.body address field).2⟩
        next t = (.ok l, t) ∧ x.Leads (x.target address field) l.statements := by
  cases x with
  | bra => exact ⟨_, rfl, fun _ _ => rfl⟩
  | rcall => exact ⟨_, rfl, fun _ _ => rfl⟩
  | goto => exact ⟨_, rfl, fun _ _ => rfl⟩
  | call fast => cases fast <;> exact ⟨_, rfl, fun _ _ => rfl⟩
  | onFlag n =>
      match n with
      | 0 => exact ⟨_, rfl, leads_branch .eq 2 rfl (by decide) _⟩
      | 1 => exact ⟨_, rfl, leads_branch .ne 2 rfl (by decide) _⟩
      | 2 => exact ⟨_, rfl, leads_branch .ult 0 rfl (by decide) _⟩
      | 3 => exact ⟨_, rfl, leads_branch .uge 0 rfl (by decide) _⟩
      | 4 => exact ⟨_, rfl, leads_branch .ov 3 rfl (by decide) _⟩
      | 5 => exact ⟨_, rfl, leads_branch .no 3 rfl (by decide) _⟩
      | 6 => exact ⟨_, rfl, leads_branch .lt 4 rfl (by decide) _⟩
      | 7 => exact ⟨_, rfl, leads_branch .ge 4 rfl (by decide) _⟩

end Transfer

/-- Bytes of an instruction that carries a code address are read and lowered to a cluster that leads to
the architecture's target of the field, whatever follows them, and different fields lead to different
targets. -/
theorem leads_to_target (family : Family) (mode : Mode) (c : Catalog) (x : Transfer)
    (address : Nat) :
    (∀ field < 2 ^ x.width, ∀ (rest : List UInt8) (next : Option Instruction) (t : IntrinsicTable),
      ∃ i l, decode family mode (x.code field ++ rest) address = .ok (some i) ∧
        (backend c).lowerWith i next t = (.ok l, t) ∧
          x.Leads (x.target address field) l.statements) ∧
      ∀ field < 2 ^ x.width, ∀ field' < 2 ^ x.width, field ≠ field' →
        x.target address field ≠ x.target address field' := by
  refine ⟨fun field fits rest next t => ?_, fun field fits field' fits' differ same => ?_⟩
  · obtain ⟨l, lowered, leads⟩ := x.lowerWith_body c _ field next t
    exact ⟨_, l, decode_of_reads (x.reads_body fits) rest, lowered, leads⟩
  · exact differ (x.target_injective fits fits' same)

/-- At address zero the furthest jumps back, long and short, wrap to the end of program memory; the
furthest one ahead leads elsewhere. -/
theorem leads_to_target_wrapping :
    ∃ c, Catalog.load (some Devices.Pic18f4620.device) = .ok c ∧
      (∃ i l, decode .traditional .traditional [0x00, 0xD4] 0 = .ok (some i) ∧
        (backend c).lowerWith i none .empty = (.ok l, .empty) ∧
          Transfer.bra.Leads 0x1FF802 l.statements) ∧
      (∃ i l, decode .traditional .traditional [0x80, 0xE0] 0 = .ok (some i) ∧
        (backend c).lowerWith i none .empty = (.ok l, .empty) ∧
          (Transfer.onFlag 0).Leads 0x1FFF02 l.statements) ∧
      Transfer.bra.target 0 0x400 ≠ Transfer.bra.target 0 0x3FF := by
  obtain ⟨c, loaded⟩ : ∃ c, Catalog.load (some Devices.Pic18f4620.device) = .ok c := ⟨_, rfl⟩
  have long := leads_to_target .traditional .traditional c .bra 0
  have short := leads_to_target .traditional .traditional c (.onFlag 0) 0
  refine ⟨c, loaded, long.1 0x400 (by decide) [] none .empty,
    short.1 0x80 (by decide) [] none .empty, ?_⟩
  exact long.2 0x400 (by decide) 0x3FF (by decide) (by decide)

end RegisterTransfer.Pic18
