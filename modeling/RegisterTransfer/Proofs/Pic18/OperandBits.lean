/-
# RegisterTransfer.Proofs.Pic18.OperandBits -- reading a field undoes writing it

The decoder reads each operand from some bits of a word.  For each way to read there are two facts: the
code of what is read is the bits it was read from (`code_`), and bits that are the code of an operand
read as that operand (`_eq`, and `_code` where a target is computed).
-/
import RegisterTransfer.Proofs.Meaning.Bits
import RegisterTransfer.Proofs.Pic18.Encoder
import RegisterTransfer.Proofs.Pic18.Signature

namespace RegisterTransfer.Pic18

set_option autoImplicit false

variable {mode : Mode} {address w : Nat}

/-! ## File registers -/

theorem code_fileOf (mode : Mode) (w : Nat) : (fileOf mode w).code = w % 2 ^ 9 := by
  have code : (fileOf mode w).code =
      (if bitsOf w 8 1 = 0 then 0 else 2 ^ 8) + (UInt8.ofNat (w % 256)).toNat := by
    by_cases access : bitsOf w 8 1 = 0 <;>
      simp [fileOf, FileOperand.ofFields, FileOperand.code, access]
  rw [code, UInt8.toNat_ofNat', bitsOf]
  split <;> omega

theorem fileOf_eq {f : FileOperand} (same : f.mode = mode) (bits : w % 2 ^ 9 = f.code) :
    fileOf mode w = f := by
  obtain ⟨offset, access, _⟩ := f
  cases same
  have small := offset.toNat_lt
  have low : UInt8.ofNat (w % 256) = offset := by
    apply UInt8.toNat_inj.mp
    simp only [FileOperand.code, UInt8.toNat_ofNat'] at bits ⊢
    split at bits <;> omega
  have bank : decide (bitsOf w 8 1 = 0) = access := by
    cases access with
    | false =>
        apply decide_eq_false
        simp only [FileOperand.code, Bool.false_eq_true, if_false, bitsOf] at bits ⊢
        omega
    | true =>
        apply decide_eq_true
        simp only [FileOperand.code, if_true, bitsOf] at bits ⊢
        omega
  simp only [fileOf, FileOperand.ofFields, low, bank]

theorem FileOperand.code_lt (f : FileOperand) : f.code < 2 ^ 9 := by
  have small := f.offset.toNat_lt
  unfold code
  split <;> omega

theorem Destination.code_lt (dest : Destination) : dest.code < 2 := by
  cases dest <;> decide

theorem code_ofBit (d : Nat) (small : d < 2) : (Destination.ofBit d).code = d := by
  unfold Destination.ofBit
  split
  · simp [Destination.code, *]
  · simp only [Destination.code]
    omega

theorem ofBit_code (dest : Destination) : Destination.ofBit dest.code = dest := by
  cases dest <;> rfl

theorem code_fileDestOf (op : Opcode) (mode : Mode) (w : Nat) :
    (Body.code (op, [fileDestOf mode w])).1 = op.pattern + w % 2 ^ 10 := by
  have bit := bitsOf_lt w 9 1
  simp only [fileDestOf, Body.code, code_fileOf, code_ofBit _ bit]
  simp only [bitsOf]
  omega

theorem fileDestOf_eq {f : FileOperand} {dest : Destination} (same : f.mode = mode)
    (bits : w % 2 ^ 10 = dest.code * 2 ^ 9 + f.code) : fileDestOf mode w = .fileDest f dest := by
  have small := f.code_lt
  have one := dest.code_lt
  have bit : bitsOf w 9 1 = dest.code := by
    unfold bitsOf
    omega
  rw [fileDestOf, fileOf_eq same (by omega), bit, ofBit_code]

theorem code_fileBitOf (op : Opcode) (mode : Mode) (w : Nat) :
    (Body.code (op, [fileBitOf mode w])).1 = op.pattern + w % 2 ^ 12 := by
  simp only [fileBitOf, Body.code, code_fileOf, Fin.val_ofNat]
  omega

theorem fileBitOf_eq {f : FileOperand} {bit : Fin 8} (same : f.mode = mode)
    (bits : w % 2 ^ 12 = bit.val * 2 ^ 9 + f.code) : fileBitOf mode w = .fileBit f bit := by
  have small := f.code_lt
  have few := bit.isLt
  have number : Fin.ofNat 8 (w / 2 ^ 9) = bit := by
    apply Fin.ext
    rw [Fin.val_ofNat]
    omega
  rw [fileBitOf, fileOf_eq same (by omega), number]

/-! ## Literals -/

theorem toNat_ofNat_mod (n : Nat) {m : Nat} (positive : 0 < m) (few : m ≤ 2 ^ 8) :
    (UInt8.ofNat (n % m)).toNat = n % m := by
  have small := Nat.mod_lt n positive
  rw [UInt8.toNat_ofNat']
  exact Nat.mod_eq_of_lt (by omega)

theorem ofNat_eq {k : UInt8} {n : Nat} (same : n = k.toNat) : UInt8.ofNat n = k := by
  rw [same, UInt8.ofNat_toNat]

theorem code_literal8Of (op : Opcode) (w : Nat) :
    (Body.code (op, [literal8Of w])).1 = op.pattern + w % 2 ^ 8 := by
  have literal := toNat_ofNat_mod w (m := 256) (by decide) (by decide)
  show op.pattern + (UInt8.ofNat (w % 256)).toNat = _
  omega

theorem literal8Of_eq {k : UInt8} (bits : w % 2 ^ 8 = k.toNat) : literal8Of w = .imm8 k := by
  have low : w % 256 = k.toNat := by omega
  rw [literal8Of, ofNat_eq low]

theorem toNat_decide_bitsOf (w lowest : Nat) :
    (decide (bitsOf w lowest 1 = 1)).toNat = bitsOf w lowest 1 := by
  have bit := bitsOf_lt w lowest 1
  by_cases set : bitsOf w lowest 1 = 1
  · simp [set]
  · rw [decide_eq_false set]
    show 0 = _
    omega

/-! ## Code addresses -/

theorem signedField_bounds (width value : Nat) :
    -2 ^ width ≤ signedField (width + 1) value ∧ signedField (width + 1) value < 2 ^ width := by
  have lower := Int.le_bmod (x := value) (Nat.two_pow_pos (width + 1))
  have upper := Int.bmod_lt (x := value) (Nat.two_pow_pos (width + 1))
  rw [Bits.natCast_two_pow, Int.pow_succ] at lower upper
  unfold signedField
  omega

theorem code_ofOffset8 (op : Opcode) (offset : Int) (address : Nat) :
    (Body.code (op, [.ofOffset8 offset address])).1 = op.pattern + (offset % 2 ^ 8).toNat := rfl

theorem code_ofOffset11 (op : Opcode) (offset : Int) (address : Nat) :
    (Body.code (op, [.ofOffset11 offset address])).1 = op.pattern + (offset % 2 ^ 11).toNat := rfl

/-- The code of a field is the bits that it was read from. -/
theorem code_signedField (width : Nat) {value : Nat} (small : value < 2 ^ width) :
    (signedField width value % 2 ^ width).toNat = value := by
  have bits := Int.bmod_emod (x := value) (m := 2 ^ width)
  rw [Bits.natCast_two_pow] at bits
  have small' : (value : Int) < 2 ^ width := by exact_mod_cast small
  rw [signedField, bits, Int.emod_eq_of_lt (Int.natCast_nonneg value) small', Int.toNat_natCast]

/-- The field that is read from the code of an offset is the offset. -/
theorem signedField_code (width : Nat) {offset : Int} (back : -2 ^ width ≤ offset)
    (ahead : offset < 2 ^ width) :
    signedField (width + 1) (offset % 2 ^ (width + 1)).toNat = offset := by
  have positive : (0 : Int) < 2 ^ (width + 1) := Int.pow_pos (by decide)
  have wraps := Int.emod_bmod offset (2 ^ (width + 1))
  rw [Bits.natCast_two_pow] at wraps
  rw [signedField, Int.toNat_of_nonneg (Int.emod_nonneg offset (by omega)), wraps]
  apply Int.bmod_eq_of_le <;> rw [Bits.natCast_two_pow, Int.pow_succ] <;> omega

theorem ofOffset8_code {offset : Int} (back : -2 ^ 7 ≤ offset) (ahead : offset < 2 ^ 7)
    (bits : w % 256 = (offset % 2 ^ 8).toNat) :
    Operand.ofOffset8 (signedField 8 (w % 256)) address =
      .relative8 offset (relativeTarget address offset) := by
  rw [bits, signedField_code 7 back ahead, Operand.ofOffset8]

theorem ofOffset11_code {offset : Int} (back : -2 ^ 10 ≤ offset) (ahead : offset < 2 ^ 10)
    (bits : w % 2 ^ 11 = (offset % 2 ^ 11).toNat) :
    Operand.ofOffset11 (signedField 11 (w % 2 ^ 11)) address =
      .relative11 offset (relativeTarget address offset) := by
  rw [bits, signedField_code 10 back ahead, Operand.ofOffset11]

theorem absoluteTarget_wordAddressOf {p : Nat} (p_ : p < 2 ^ 12) :
    absoluteTarget (wordAddressOf w p) = (p * 2 ^ 8 + w % 2 ^ 8) * 2 := by
  unfold absoluteTarget wordAddressOf programSize
  omega

theorem ofWordAddress_code {target p : Nat} (even : target % 2 = 0) (inside : target < programSize)
    (low : w % 2 ^ 8 = target / 2 % 2 ^ 8) (rest : p = target / 2 ^ 9) :
    Operand.ofWordAddress (wordAddressOf w p) = .absolute target := by
  have whole : p * 256 + w % 256 = target / 2 := by omega
  unfold programSize at inside
  rw [Operand.ofWordAddress, absoluteTarget, wordAddressOf, whole, programSize,
    Nat.mod_eq_of_lt (by omega), Nat.div_mul_cancel (Nat.dvd_of_mod_eq_zero even)]

/-! ## Data addresses -/

theorem ofAddress14_eq {address : Nat} (small : address < 2 ^ 14) :
    Operand.ofAddress14 address = .data14 address := by
  rw [Operand.ofAddress14, Nat.mod_eq_of_lt small]

/-- The two bits of a data address that stand in the second word, and the twelve in the third. -/
theorem joined_address (x : Nat) {dest : Nat} (inside : dest < 2 ^ 14) :
    (x * 4 + dest / 2 ^ 12) % 4 * 2 ^ 12 + dest % 2 ^ 12 = dest := by
  omega

end RegisterTransfer.Pic18
