/-
# RegisterTransfer.Proofs.Numeral.Grammar -- which characters write a number

`Writes radix digits n` says that some digits of a radix, of either case and with any zeros in front, write
a number, the most significant first; `UnsignedText` allows a plus sign before them.  Radixes go up to
sixteen.

* `digits?_eq_some_iff`, `unsigned?_eq_some_iff`: readers accept exactly such texts, and give the number;
* `writes_toDigits`: the shortest numeral of a number writes it, and so does any spelling of that
  (`Spells`) with other cases and with zeros in front.
-/
import Mathlib.Data.List.Induction
import RegisterTransfer.Proofs.Numeral.Hexadecimal

namespace RegisterTransfer.Numeral

set_option autoImplicit false

/-! ## Digits -/

/-- A character is the digit of a radix with a value. -/
structure IsDigit (radix : Nat) (c : Char) (d : Nat) : Prop where
  small : d < radix
  form : c = d.digitChar ∨ c = d.digitChar.toUpper

theorem toNat_digitChar {d : Nat} (small : d < 16) :
    d.digitChar.toNat = (if d < 10 then 48 else 87) + d ∧
      d.digitChar.toUpper.toNat = (if d < 10 then 48 else 55) + d := by
  have all : ∀ d : Fin 16, d.val.digitChar.toNat = (if d.val < 10 then 48 else 87) + d.val ∧
      d.val.digitChar.toUpper.toNat = (if d.val < 10 then 48 else 55) + d.val := by decide
  exact all ⟨d, small⟩

/-- The digits of a radix are known by their codes. -/
theorem isDigit_iff {radix d : Nat} {c : Char} (radixes : radix ≤ 16) :
    IsDigit radix c d ↔ d < radix ∧
      (c.toNat = 48 + d ∧ d < 10 ∨ (c.toNat = 87 + d ∨ c.toNat = 55 + d) ∧ 10 ≤ d) := by
  constructor
  · rintro ⟨small, form⟩
    obtain ⟨lower, upper⟩ := toNat_digitChar (d := d) (by omega)
    refine ⟨small, ?_⟩
    by_cases ten : d < 10
    · rw [if_pos ten] at lower upper
      rcases form with rfl | rfl <;> omega
    · rw [if_neg ten] at lower upper
      rcases form with rfl | rfl <;> omega
  · rintro ⟨small, codes⟩
    obtain ⟨lower, upper⟩ := toNat_digitChar (d := d) (by omega)
    refine ⟨small, ?_⟩
    simp only [← Char.toNat_inj]
    by_cases ten : d < 10
    · rw [if_pos ten] at lower
      omega
    · rw [if_neg ten] at lower upper
      omega

theorem digitValue?_eq_some_iff {c : Char} {d : Nat} :
    digitValue? c = some d ↔
      (c.toNat = 48 + d ∧ d < 10) ∨
        (c.toNat = 87 + d ∨ c.toNat = 55 + d) ∧ 10 ≤ d ∧ d < 36 := by
  have code : ∀ a b : Char, a ≤ b ↔ a.toNat ≤ b.toNat := fun _ _ => Iff.rfl
  have nine : '9'.toNat = 57 := rfl
  have zero : '0'.toNat = 48 := rfl
  have a : 'a'.toNat = 97 := rfl
  have z : 'z'.toNat = 122 := rfl
  have A : 'A'.toNat = 65 := rfl
  have Z : 'Z'.toNat = 90 := rfl
  unfold digitValue?
  simp only [code, nine, zero, a, z, A, Z]
  split
  · rw [Option.some.injEq]
    omega
  · split
    · rw [Option.some.injEq]
      omega
    · split
      · rw [Option.some.injEq]
        omega
      · simp only [reduceCtorEq, false_iff]
        omega

theorem digitOf?_eq_some_iff {radix d : Nat} {c : Char} (radixes : radix ≤ 16) :
    digitOf? radix c = some d ↔ IsDigit radix c d := by
  rw [digitOf?, Option.filter_eq_some_iff, decide_eq_true_eq, digitValue?_eq_some_iff,
    isDigit_iff radixes]
  omega

theorem toNat_toLower (c : Char) :
    c.toLower.toNat = if 65 ≤ c.toNat ∧ c.toNat ≤ 90 then c.toNat + 32 else c.toNat := by
  have code : ∀ v : UInt32, 65 ≤ v ∧ v ≤ 90 ↔ 65 ≤ v.toNat ∧ v.toNat ≤ 90 := fun _ => Iff.rfl
  show c.toLower.val.toNat = if 65 ≤ c.val.toNat ∧ c.val.toNat ≤ 90 then c.val.toNat + 32 else c.val.toNat
  unfold Char.toLower
  split
  case isTrue upper =>
    have inside := (code c.val).mp upper
    rw [if_pos inside, UInt32.toNat_add]
    show (c.val.toNat + 32) % 2 ^ 32 = _
    omega
  case isFalse other => rw [if_neg (mt (code c.val).mpr other)]

/-- The case of a digit does not count. -/
theorem isDigit_of_toLower {radix d : Nat} {c : Char} (radixes : radix ≤ 16)
    (lower : IsDigit radix c.toLower d) : IsDigit radix c d := by
  rw [isDigit_iff radixes, toNat_toLower] at lower
  rw [isDigit_iff radixes]
  split at lower <;> omega

/-! ## Numerals -/

/-- Digits of a radix write a number, the most significant first. -/
inductive Writes (radix : Nat) : List Char → Nat → Prop
  | digit {c : Char} {d : Nat} (last : IsDigit radix c d) : Writes radix [c] d
  | snoc {front : List Char} {n d : Nat} {c : Char} (high : Writes radix front n)
      (last : IsDigit radix c d) : Writes radix (front ++ [c]) (n * radix + d)

/-- A number is written with an optional plus sign. -/
def UnsignedText (radix : Nat) (text : List Char) (n : Nat) : Prop :=
  ∃ sign digits, text = sign ++ digits ∧ (sign = [] ∨ sign = ['+']) ∧ Writes radix digits n

section

variable {radix n : Nat} {digits : List Char}

theorem Writes.ne_nil (written : Writes radix digits n) : digits ≠ [] := by
  cases written with
  | digit _ => simp
  | snoc _ _ => simp

theorem Writes.isDigit_of_mem (written : Writes radix digits n) {c : Char} (listed : c ∈ digits) :
    ∃ d, IsDigit radix c d := by
  induction written with
  | digit last =>
      obtain rfl := List.mem_singleton.mp listed
      exact ⟨_, last⟩
  | snoc _ last ih =>
      rcases List.mem_append.mp listed with early | late
      · exact ih early
      · obtain rfl := List.mem_singleton.mp late
        exact ⟨_, last⟩

theorem accumulate?_singleton (radix n : Nat) (c : Char) :
    accumulate? radix n [c] = (digitOf? radix c).map (n * radix + ·) := by
  simp only [accumulate?]
  cases digitOf? radix c <;> rfl

/-- Adding up digits from the front gives the number that they write. -/
theorem accumulate?_eq_some_iff (radixes : radix ≤ 16) (there : digits ≠ []) :
    accumulate? radix 0 digits = some n ↔ Writes radix digits n := by
  constructor
  · intro read
    induction digits using List.reverseRecOn generalizing n with
    | nil => exact absurd rfl there
    | append_singleton front c ih =>
        obtain ⟨high, readHigh, read⟩ := Option.bind_eq_some_iff.mp ((accumulate?_append ..).symm.trans read)
        rw [accumulate?_singleton] at read
        obtain ⟨d, last, rfl⟩ := Option.map_eq_some_iff.mp read
        have digit := (digitOf?_eq_some_iff radixes).mp last
        by_cases empty : front = []
        · subst empty
          cases readHigh
          simpa using Writes.digit digit
        · exact .snoc (ih empty readHigh) digit
  · intro written
    induction written with
    | digit last =>
        rw [accumulate?_singleton, (digitOf?_eq_some_iff radixes).mpr last]
        simp
    | snoc high last ih =>
        rw [accumulate?_append, ih high.ne_nil, Option.bind_some, accumulate?_singleton,
          (digitOf?_eq_some_iff radixes).mpr last]
        rfl

/-- Exactly the digits of a radix are read, and there has to be one. -/
theorem digits?_eq_some_iff (radixes : radix ≤ 16) :
    digits? radix digits = some n ↔ Writes radix digits n := by
  by_cases there : digits = []
  · subst there
    simp only [digits?, reduceCtorEq, false_iff]
    exact fun written => written.ne_nil rfl
  · rw [← accumulate?_eq_some_iff radixes there]
    cases digits with
    | nil => exact absurd rfl there
    | cons c rest => rfl

theorem plus_not_digit (radixes : radix ≤ 16) {d : Nat} : ¬ IsDigit radix '+' d := by
  rw [isDigit_iff radixes]
  have code : '+'.toNat = 43 := rfl
  omega

/-- A reader of unsigned numbers accepts a plus sign and digits below its bound, and nothing else. -/
theorem unsigned?_eq_some_iff (radixes : radix ≤ 16) {bound : Nat} {text : List Char} :
    unsigned? radix bound text = some n ↔ UnsignedText radix text n ∧ n < bound := by
  rw [unsigned?, Option.filter_eq_some_iff, digits?_eq_some_iff radixes, decide_eq_true_eq]
  refine and_congr_left fun _ => ⟨fun written => ?_, ?_⟩
  · unfold dropPlus at written
    split at written
    · exact ⟨['+'], _, rfl, .inr rfl, written⟩
    · exact ⟨[], _, rfl, .inl rfl, written⟩
  · rintro ⟨sign, digits, rfl, rfl | rfl, written⟩
    · unfold dropPlus
      split
      · rename_i rest starts
        have first : '+' ∈ digits := by
          rw [List.nil_append] at starts
          simp [starts]
        obtain ⟨d, digit⟩ := written.isDigit_of_mem first
        exact absurd digit (plus_not_digit radixes)
      · exact written
    · exact written

/-! ## Spellings -/

/-- Digits that are those of the shortest numeral, with zeros in front and letters of either case. -/
def Spells (radix : Nat) (digits : List Char) (n : Nat) : Prop :=
  ∃ zeros, digits.map Char.toLower = List.replicate zeros '0' ++ Nat.toDigits radix n

/-- A zero in front does not count. -/
theorem Writes.zero_cons (positive : 0 < radix) (written : Writes radix digits n) :
    Writes radix ('0' :: digits) n := by
  have zero : IsDigit radix '0' 0 := ⟨positive, .inl rfl⟩
  induction written with
  | digit last => simpa using (Writes.digit zero).snoc last
  | snoc _ last ih => exact ih.snoc last

theorem Writes.of_toLower (radixes : radix ≤ 16) {lower : List Char} (written : Writes radix lower n)
    (same : digits.map Char.toLower = lower) : Writes radix digits n := by
  induction written generalizing digits with
  | digit last =>
      obtain ⟨c, rfl, rfl⟩ := List.map_eq_singleton_iff.mp same
      exact .digit (isDigit_of_toLower radixes last)
  | snoc _ last ih =>
      obtain ⟨front, back, rfl, early, final⟩ := List.map_eq_append_iff.mp same
      obtain ⟨c, rfl, rfl⟩ := List.map_eq_singleton_iff.mp final
      exact (ih early).snoc (isDigit_of_toLower radixes last)

/-- The shortest numeral of a number writes it. -/
theorem writes_toDigits (two : 1 < radix) (n : Nat) : Writes radix (Nat.toDigits radix n) n := by
  induction n using Nat.strongRecOn with
  | ind n ih =>
      by_cases small : n < radix
      · rw [Nat.toDigits_of_lt_base small]
        exact .digit ⟨small, .inl rfl⟩
      · have less : n / radix < n := Nat.div_lt_self (by omega) two
        have last : IsDigit radix (n % radix).digitChar (n % radix) :=
          ⟨Nat.mod_lt n (by omega), .inl rfl⟩
        have all := (ih _ less).snoc last
        rw [Nat.div_add_mod'] at all
        rw [Nat.toDigits_of_base_le two (by omega)]
        exact all

/-- Any spelling of a number writes it. -/
theorem Spells.writes (two : 1 < radix) (radixes : radix ≤ 16) (spelled : Spells radix digits n) :
    Writes radix digits n := by
  obtain ⟨zeros, same⟩ := spelled
  refine .of_toLower radixes ?_ same
  clear same
  induction zeros with
  | zero => exact writes_toDigits two n
  | succ zeros ih =>
      rw [List.replicate_succ, List.cons_append]
      exact ih.zero_cons (by omega)

end

end RegisterTransfer.Numeral
