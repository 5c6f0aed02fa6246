/-
# RegisterTransfer.Bytes -- numbers in byte strings

`Bytes.slice?` cuts a range out of a byte string if the range lies within it, and `ByteOrder.field?`
reads a number there.  A number of `n` bytes lies below `256 ^ n` (`ByteOrder.number_lt`).
-/
import RegisterTransfer.Numeral

namespace RegisterTransfer

set_option autoImplicit false

/-- The bytes of a range, if all of it lies within the data. -/
def Bytes.slice? (data : List UInt8) (offset size : Nat) : Option (List UInt8) :=
  if offset + size ≤ data.length then some ((data.drop offset).take size) else none

theorem Bytes.length_of_slice? {data cut : List UInt8} {offset size : Nat}
    (h : slice? data offset size = some cut) : cut.length = size := by
  unfold slice? at h
  split at h
  · cases h
    simp only [List.length_take, List.length_drop]
    omega
  · cases h

/-- The order in which the bytes of a number stand. -/
inductive ByteOrder where
  /-- The least significant byte first. -/
  | little
  /-- The most significant byte first. -/
  | big
deriving DecidableEq

namespace ByteOrder

/-- The number of bytes with the least significant first. -/
def littleNumber : List UInt8 → Nat
  | [] => 0
  | b :: rest => b.toNat + 256 * littleNumber rest

/-- The number that bytes write. -/
def number : ByteOrder → List UInt8 → Nat
  | little, bytes => littleNumber bytes
  | big, bytes => littleNumber bytes.reverse

theorem littleNumber_lt (bytes : List UInt8) : littleNumber bytes < 256 ^ bytes.length := by
  induction bytes with
  | nil => decide
  | cons b rest ih =>
      have := b.toNat_lt
      simp only [littleNumber, List.length_cons, Nat.pow_succ]
      omega

theorem number_lt (order : ByteOrder) (bytes : List UInt8) :
    order.number bytes < 256 ^ bytes.length := by
  cases order with
  | little => exact littleNumber_lt bytes
  | big => simpa [number] using littleNumber_lt bytes.reverse

/-- The number in a range of the data. -/
def field? (order : ByteOrder) (data : List UInt8) (offset width : Nat) : Option Nat :=
  (Bytes.slice? data offset width).map order.number

theorem field?_lt {order : ByteOrder} {data : List UInt8} {offset width n : Nat}
    (h : order.field? data offset width = some n) : n < 256 ^ width := by
  obtain ⟨cut, hcut, rfl⟩ := Option.map_eq_some_iff.1 h
  rw [← Bytes.length_of_slice? hcut]
  exact number_lt order cut

end ByteOrder

end RegisterTransfer
