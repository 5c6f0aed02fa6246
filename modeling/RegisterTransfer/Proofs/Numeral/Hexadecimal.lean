/-
# RegisterTransfer.Proofs.Numeral.Hexadecimal -- hexadecimal numerals read back

`accumulate?_hexUpper` says that the reader of hexadecimal digits gives the number back that a numeral was
written from, whatever number of digits it was padded to.  So a numeral is made of digits only
(`not_mem_byte0x`), and no two bytes are written alike (`byte0x_inj`).
-/
import RegisterTransfer.Numeral.Reader
import RegisterTransfer.Numeral

namespace RegisterTransfer.Numeral

set_option autoImplicit false

theorem accumulate?_append (radix n : Nat) (front back : List Char) :
    accumulate? radix n (front ++ back) =
      (accumulate? radix n front).bind fun m => accumulate? radix m back := by
  induction front generalizing n with
  | nil => rfl
  | cons c rest ih =>
      simp only [List.cons_append, accumulate?]
      cases digitOf? radix c with
      | none => rfl
      | some d => exact ih _

/-- Only digits are read. -/
theorem digitOf?_of_accumulate? {radix n m : Nat} {digits : List Char} {c : Char}
    (read : accumulate? radix n digits = some m) (listed : c ∈ digits) :
    (digitOf? radix c).isSome := by
  induction digits generalizing n with
  | nil => cases listed
  | cons first rest ih =>
      cases found : digitOf? radix first with
      | none =>
          simp only [accumulate?, found] at read
          cases read
      | some d =>
          simp only [accumulate?, found] at read
          rcases List.mem_cons.mp listed with rfl | later
          · rw [found]
            rfl
          · exact ih read later

theorem digitOf?_toUpper_digitChar {d : Nat} (small : d < 16) :
    digitOf? 16 d.digitChar.toUpper = some d := by
  have all : ∀ n : Fin 16, digitOf? 16 n.val.digitChar.toUpper = some n.val := by decide
  exact all ⟨d, small⟩

theorem accumulate?_toDigits (n : Nat) :
    accumulate? 16 0 ((Nat.toDigits 16 n).map Char.toUpper) = some n := by
  induction n using Nat.strongRecOn with
  | ind n ih =>
      by_cases small : n < 16
      · rw [Nat.toDigits_of_lt_base small]
        simp [accumulate?, digitOf?_toUpper_digitChar small]
      · have front := ih (n / 16) (by omega)
        have last : n % 16 < 16 := Nat.mod_lt n (by decide)
        rw [Nat.toDigits_of_base_le (by decide) (by omega), List.map_append, accumulate?_append,
          front]
        simp only [Option.bind_some, List.map_cons, List.map_nil, accumulate?,
          digitOf?_toUpper_digitChar last, Option.some.injEq]
        omega

/-- Zeros in front do not count. -/
theorem accumulate?_padLeft (width : Nat) (digits : List Char) :
    accumulate? 16 0 (padLeft width digits) = accumulate? 16 0 digits := by
  have zeros : ∀ k, accumulate? 16 0 (List.replicate k '0') = some 0 := by
    intro k
    induction k with
    | zero => rfl
    | succ k ih => exact ih
  rw [padLeft, accumulate?_append, zeros]
  rfl

theorem accumulate?_hexUpper (width n : Nat) :
    accumulate? 16 0 (hexUpper width n).toList = some n := by
  rw [hexUpper, String.toList_ofList, accumulate?_padLeft, accumulate?_toDigits]

/-- No two numbers have one numeral, whatever number of digits they are padded to. -/
theorem hexUpper_inj {width width' n n' : Nat} (same : hexUpper width n = hexUpper width' n') :
    n = n' := by
  apply Option.some.inj
  rw [← accumulate?_hexUpper width n, ← accumulate?_hexUpper width' n', same]

/-- A numeral has no character but digits. -/
theorem not_mem_hexUpper {width n : Nat} {c : Char} (outside : digitOf? 16 c = none) :
    c ∉ (hexUpper width n).toList := by
  intro listed
  have digit := digitOf?_of_accumulate? (accumulate?_hexUpper width n) listed
  rw [outside] at digit
  cases digit

theorem toList_byte0x (b : UInt8) :
    (byte0x b).toList = '0' :: 'x' :: (hexUpper 2 b.toNat).toList := by
  rw [byte0x, String.toList_append]
  rfl

/-- The form of a byte has no character but digits behind its `x`. -/
theorem not_mem_byte0x {b : UInt8} {c : Char} (outside : digitOf? 16 c = none) (other : c ≠ 'x') :
    c ∉ (byte0x b).toList := by
  rw [toList_byte0x]
  intro listed
  rcases List.mem_cons.mp listed with rfl | listed
  · exact absurd outside (by decide)
  · rcases List.mem_cons.mp listed with rfl | listed
    · exact other rfl
    · exact not_mem_hexUpper outside listed

/-- No two bytes have one form. -/
theorem byte0x_inj {b b' : UInt8} (same : byte0x b = byte0x b') : b = b' :=
  UInt8.toNat_inj.mp (hexUpper_inj ((String.append_right_inj _).mp same))

end RegisterTransfer.Numeral
