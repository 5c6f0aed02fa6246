/-
# RegisterTransfer.Proofs.Meaning.Bits -- numbers as strings of bits

Registers that share storage and flags are strings of bits, and what is read from them is a number.

* `pack` is the number of a list of bits, and `window` the number of neighbouring bits of a string;
* `gather` is the number of the bits of a string that a mask selects, the lowest first;
* `signed` and `ofInt` read and write integers as two's complement.
-/
import RegisterTransfer.Numeral

namespace RegisterTransfer.Bits

set_option autoImplicit false

/-- The number of a list of bits, the lowest first. -/
def pack : List Bool → Nat
  | [] => 0
  | b :: rest => b.toNat + 2 * pack rest

theorem pack_lt (bits : List Bool) : pack bits < 2 ^ bits.length := by
  induction bits with
  | nil => decide
  | cons b rest ih =>
      have single := b.toNat_lt
      rw [pack, List.length_cons, Nat.pow_succ]
      omega

theorem testBit_pack (bits : List Bool) (k : Nat) :
    (pack bits).testBit k = bits.getD k false := by
  induction bits generalizing k with
  | nil => simp [pack]
  | cons b rest ih =>
      have single := b.toNat_lt
      cases k with
      | zero =>
          have low : (pack (b :: rest)) % 2 = b.toNat := by
            rw [pack]
            omega
          rw [Nat.testBit_zero, low]
          cases b <;> rfl
      | succ k =>
          have high : (pack (b :: rest)) / 2 = pack rest := by
            rw [pack]
            omega
          rw [Nat.testBit_succ, high, ih]
          rfl

/-! ## Neighbouring bits -/

/-- The number of the `width` bits of a string from `first` on. -/
def window (f : Nat → Bool) (first width : Nat) : Nat :=
  pack ((List.range width).map fun k => f (first + k))

theorem window_lt (f : Nat → Bool) (first width : Nat) : window f first width < 2 ^ width := by
  have bound := pack_lt ((List.range width).map fun k => f (first + k))
  rw [List.length_map, List.length_range] at bound
  exact bound

theorem testBit_window (f : Nat → Bool) (first width k : Nat) :
    (window f first width).testBit k = (decide (k < width) && f (first + k)) := by
  rw [window, testBit_pack]
  by_cases inside : k < width
  · simp [inside]
  · simp [inside]

/-- Two strings have the same window if they agree on its bits. -/
theorem window_congr {f g : Nat → Bool} {first width : Nat}
    (same : ∀ k, k < width → f (first + k) = g (first + k)) :
    window f first width = window g first width := by
  apply Nat.eq_of_testBit_eq
  intro k
  rw [testBit_window, testBit_window]
  by_cases inside : k < width
  · rw [same k inside]
  · simp [inside]

/-- A window onto the bits of a number is the number, cut to the window. -/
theorem window_of_testBit {f : Nat → Bool} {first width value : Nat}
    (bits : ∀ k, k < width → f (first + k) = value.testBit k) :
    window f first width = value % 2 ^ width := by
  apply Nat.eq_of_testBit_eq
  intro k
  rw [testBit_window, Nat.testBit_mod_two_pow]
  by_cases inside : k < width
  · rw [bits k inside]
  · simp [inside]

/-- A window is its high part above its low part. -/
theorem window_add (f : Nat → Bool) (first low high : Nat) :
    window f first (low + high) = window f (first + low) high * 2 ^ low + window f first low := by
  apply Nat.eq_of_testBit_eq
  intro k
  rw [Nat.mul_comm, Nat.testBit_two_pow_mul_add _ (window_lt f first low), testBit_window,
    testBit_window, testBit_window]
  by_cases inLow : k < low
  · rw [if_pos inLow, decide_eq_true inLow, decide_eq_true (by omega)]
  · rw [if_neg inLow, show first + low + (k - low) = first + k by omega]
    congr 1
    exact decide_eq_decide.mpr (by omega)

/-! ## Bits under a mask -/

/-- The positions of the bits that are set, from the lowest up. -/
def positions (mask : Nat) : List Nat := (List.range (mask.log2 + 1)).filter mask.testBit

/-- The number of the bits of a string that a mask selects. -/
def gather (mask : Nat) (f : Nat → Bool) : Nat := pack ((positions mask).map f)

/-- Where a bit under a mask stands in the number that is gathered from them. -/
def rank (mask bit : Nat) : Nat := (positions mask).idxOf bit

theorem positions_two_pow (bit : Nat) : positions (2 ^ bit) = [bit] := by
  have below : (List.range bit).filter (2 ^ bit).testBit = [] := by
    rw [List.filter_eq_nil_iff]
    intro k inside
    have less := List.mem_range.mp inside
    simp [Nat.ne_of_gt less]
  rw [positions, Nat.log2_two_pow, List.range_succ, List.filter_append, below]
  simp

/-- A flag on its own is gathered as a truth value. -/
theorem gather_two_pow (bit : Nat) (f : Nat → Bool) : gather (2 ^ bit) f = (f bit).toNat := by
  rw [gather, positions_two_pow]
  simp [pack]

theorem gather_congr {mask : Nat} {f g : Nat → Bool}
    (same : ∀ bit, mask.testBit bit = true → f bit = g bit) : gather mask f = gather mask g :=
  congrArg pack (List.map_congr_left fun bit listed => same bit (List.mem_filter.mp listed).2)

/-- What is put into the bits under a mask is gathered from them, cut to their number. -/
theorem gather_rank (mask value : Nat) :
    gather mask (fun bit => value.testBit (rank mask bit)) =
      value % 2 ^ (positions mask).length := by
  have distinct : (positions mask).Nodup := List.nodup_range.filter _
  apply Nat.eq_of_testBit_eq
  intro k
  rw [gather, testBit_pack, Nat.testBit_mod_two_pow]
  by_cases inside : k < (positions mask).length
  · have own : rank mask (positions mask)[k] = k := distinct.idxOf_getElem k inside
    simp [inside, own]
  · simp [inside]

theorem length_positions_pos {mask : Nat} (nonzero : mask ≠ 0) : 0 < (positions mask).length := by
  refine List.length_pos_of_mem (a := mask.log2) (List.mem_filter.mpr ⟨?_, ?_⟩)
  · exact List.mem_range.mpr (Nat.lt_succ_self _)
  · exact Nat.testBit_log2 nonzero

/-! ## Two's complement -/

/-- The integer that a number stands for as two's complement of a width. -/
def signed (width value : Nat) : Int := Int.bmod value (2 ^ width)

/-- The number that stands for an integer as two's complement of a width. -/
def ofInt (width : Nat) (n : Int) : Nat := (n % 2 ^ width).toNat

theorem ofInt_lt (width : Nat) (n : Int) : ofInt width n < 2 ^ width := by
  have positive : (0 : Int) < 2 ^ width := Int.pow_pos (by decide)
  have bound := Int.emod_lt_of_pos n positive
  have nonneg := Int.emod_nonneg n (Int.ne_of_gt positive)
  rw [ofInt, Int.toNat_lt nonneg, Int.natCast_pow]
  exact bound

theorem natCast_two_pow (width : Nat) : ((2 ^ width : Nat) : Int) = 2 ^ width :=
  Int.natCast_pow 2 width

theorem ofInt_natCast (width n : Nat) : ofInt width n = n % 2 ^ width := by
  rw [ofInt, ← natCast_two_pow, ← Int.natCast_emod, Int.toNat_natCast]

end RegisterTransfer.Bits
