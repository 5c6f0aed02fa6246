/-
# RegisterTransfer.Proofs.Meaning.Memory -- what is stored is read back

A value of some bytes that was stored at an address is what is loaded from there, cut to its bytes, as
long as the bytes do not run into each other: an address space of `2 ^ width` bytes has to hold them all
(`State.load_store`).  What stands above the value stays as it was, under the same condition for the
bytes up to there (`State.load_store_above`).  An assignment to memory stores at the address that its
destination has before the transfer.
-/
import RegisterTransfer.Proofs.Meaning.Execution

namespace RegisterTransfer

set_option autoImplicit false

/-! ## Bytes -/

/-- An address that none of the bytes are stored at keeps its byte. -/
theorem storeBytes_of_apart (m : Nat → UInt8) (width address value n other : Nat)
    (apart : ∀ k, k < n → other ≠ (address + k) % 2 ^ width) :
    storeBytes m width address value n other = m other := by
  induction n generalizing m address value with
  | zero => rfl
  | succ n ih =>
      have first := apart 0 (Nat.succ_pos n)
      have later : ∀ k, k < n → other ≠ (address + 1 + k) % 2 ^ width := by
        intro k less
        rw [Nat.add_right_comm]
        exact apart (k + 1) (Nat.succ_lt_succ less)
      rw [storeBytes, ih _ _ _ later]
      exact if_neg first

/-- The bytes behind an address are other bytes as long as they do not wrap around to it. -/
theorem mod_ne_of_wraps {width address n k : Nat} (fits : n + 1 ≤ 2 ^ width) (less : k < n) :
    address % 2 ^ width ≠ (address + 1 + k) % 2 ^ width := by
  intro same
  have multiple := Nat.sub_mod_eq_zero_of_mod_eq same.symm
  rw [show address + 1 + k - address = k + 1 by omega, Nat.mod_eq_of_lt (by omega)] at multiple
  omega

/-- The bytes that a number was stored in write the number, cut to them. -/
theorem littleNumber_bytesAt_storeBytes (m : Nat → UInt8) (width address value n : Nat)
    (fits : n ≤ 2 ^ width) :
    ByteOrder.littleNumber (bytesAt (storeBytes m width address value n) width address n) =
      value % 256 ^ n := by
  induction n generalizing m address value with
  | zero => simp [bytesAt, ByteOrder.littleNumber, Nat.mod_one]
  | succ n ih =>
      have lowest : storeBytes m width address value (n + 1) (address % 2 ^ width) =
          UInt8.ofNat value := by
        rw [storeBytes, storeBytes_of_apart _ _ _ _ _ _ fun k less => mod_ne_of_wraps fits less]
        exact if_pos rfl
      have first : (UInt8.ofNat value).toNat = value % 256 := UInt8.toNat_ofNat'
      have rest := ih (fun a => if a = address % 2 ^ width then UInt8.ofNat value else m a)
        (address + 1) (value / 256) (by omega)
      rw [bytesAt, ByteOrder.littleNumber, lowest, first, storeBytes, rest, Nat.pow_succ',
        Nat.mod_mul]

/-- Bytes keep of a number what fits into them. -/
theorem storeBytes_mod (m : Nat → UInt8) (width address value n : Nat) :
    storeBytes m width address (value % 256 ^ n) n = storeBytes m width address value n := by
  induction n generalizing m address value with
  | zero => rfl
  | succ n ih =>
      have lowest : UInt8.ofNat (value % 256 ^ (n + 1)) = UInt8.ofNat value := by
        apply UInt8.toNat_inj.mp
        rw [UInt8.toNat_ofNat', UInt8.toNat_ofNat', Nat.pow_succ']
        exact Nat.mod_mul_right_mod value 256 _
      have rest : value % 256 ^ (n + 1) / 256 = value / 256 % 256 ^ n := by
        rw [Nat.pow_succ']
        exact Nat.mod_mul_right_div_self value 256 _
      rw [storeBytes, storeBytes, lowest, rest, ih]

/-- The same bytes are found in two memories that agree on them. -/
theorem bytesAt_congr {m m' : Nat → UInt8} {width address n : Nat}
    (same : ∀ k, k < n → m ((address + k) % 2 ^ width) = m' ((address + k) % 2 ^ width)) :
    bytesAt m width address n = bytesAt m' width address n := by
  induction n generalizing address with
  | zero => rfl
  | succ n ih =>
      have later : ∀ k, k < n →
          m ((address + 1 + k) % 2 ^ width) = m' ((address + 1 + k) % 2 ^ width) := by
        intro k less
        rw [Nat.add_right_comm]
        exact same (k + 1) (Nat.succ_lt_succ less)
      rw [bytesAt, bytesAt, ih later]
      exact congrArg (· :: _) (same 0 (Nat.succ_pos n))

/-- An address counts modulo its width. -/
theorem bytesAt_of_mod (m : Nat → UInt8) {width address other : Nat}
    (same : address % 2 ^ width = other % 2 ^ width) (n : Nat) :
    bytesAt m width address n = bytesAt m width other n := by
  induction n generalizing address other with
  | zero => rfl
  | succ n ih =>
      have later : (address + 1) % 2 ^ width = (other + 1) % 2 ^ width := by
        rw [Nat.add_mod, same, ← Nat.add_mod]
      rw [bytesAt, bytesAt, same, ih later]

theorem length_bytesAt (m : Nat → UInt8) (width address n : Nat) :
    (bytesAt m width address n).length = n := by
  induction n generalizing address with
  | zero => rfl
  | succ n ih => exact congrArg (· + 1) (ih (address + 1))

namespace State

variable {ρ : Type}

theorem load_lt (σ : State ρ) (segment : Option Nat) (width address count : Nat) :
    σ.load segment width address count < 256 ^ count := by
  have bound := ByteOrder.littleNumber_lt (bytesAt (σ.memory segment) width address count)
  rwa [length_bytesAt] at bound

/-- What was stored is loaded, cut to its bytes. -/
theorem load_store (σ : State ρ) (segment : Option Nat) {width count : Nat} (address value : Nat)
    (fits : count ≤ 2 ^ width) :
    (σ.store segment width address count value).load segment width address count =
      value % 256 ^ count := by
  have stored : (σ.store segment width address count value).memory segment =
      storeBytes (σ.memory segment) width address value count := if_pos rfl
  rw [load, stored]
  exact littleNumber_bytesAt_storeBytes _ _ _ _ _ fits

theorem load_of_mod (σ : State ρ) (segment : Option Nat) {width address other : Nat}
    (same : address % 2 ^ width = other % 2 ^ width) (count : Nat) :
    σ.load segment width address count = σ.load segment width other count :=
  congrArg ByteOrder.littleNumber (bytesAt_of_mod (σ.memory segment) same count)

/-- What stands above a value keeps its bytes when the value is stored, as long as the bytes up to there
do not wrap around. -/
theorem load_store_above (σ : State ρ) (segment : Option Nat) {width count distance count' : Nat}
    (address value : Nat) (above : count ≤ distance) (fits : distance + count' ≤ 2 ^ width) :
    (σ.store segment width address count value).load segment width (address + distance) count' =
      σ.load segment width (address + distance) count' := by
  have stored : (σ.store segment width address count value).memory segment =
      storeBytes (σ.memory segment) width address value count := if_pos rfl
  refine congrArg ByteOrder.littleNumber (bytesAt_congr fun k inside => ?_)
  rw [stored]
  refine storeBytes_of_apart _ _ _ _ _ _ fun j below => ?_
  have gap : address + distance + k = address + j + 1 + (distance + k - j - 1) := by omega
  rw [gap]
  exact (mod_ne_of_wraps (n := 2 ^ width - 1) (by omega) (by omega)).symm

end State

/-! ## Types -/

theorem DataType.two_pow_bits_dvd (t : DataType) : 2 ^ t.bits ∣ 256 ^ t.bytes := by
  have enough : t.bits ≤ 8 * t.bytes := by
    unfold bytes
    omega
  calc
    2 ^ t.bits ∣ 2 ^ (8 * t.bytes) := Nat.pow_dvd_pow 2 enough
    _ = 256 ^ t.bytes := Nat.pow_mul ..

/-- The bytes of a type have room for its bits. -/
theorem DataType.two_pow_bits_le (t : DataType) : 2 ^ t.bits ≤ 256 ^ t.bytes :=
  Nat.le_of_dvd (Nat.pow_pos (by decide)) t.two_pow_bits_dvd

theorem DataType.bytes_le (t : DataType) : t.bytes ≤ 16 := by
  cases t <;> decide

/-! ## Transfers to memory -/

section Transfers

variable {ρ : Type} [RegisterFile ρ] {I : Interpretation}

theorem Expr.eval_memoryIn (σ : State ρ) (segment : Option Expr) (t : DataType) (ea : Expr) :
    (memoryIn segment t ea).eval I σ =
      σ.load (segment.map (·.eval I σ)) ea.type.bits (ea.eval I σ) t.bytes % 2 ^ t.bits := by
  cases segment <;> rfl

/-- A transfer to memory stores at the address of the moment. -/
theorem State.assign_memoryIn (σ : State ρ) (segment : Option Expr) (t : DataType) (ea src : Expr) :
    σ.assign I (Expr.memoryIn segment t ea) src =
      σ.store (segment.map (·.eval I σ)) ea.type.bits (ea.eval I σ) t.bytes (src.eval I σ) := by
  cases segment <;> rfl

end Transfers

end RegisterTransfer
