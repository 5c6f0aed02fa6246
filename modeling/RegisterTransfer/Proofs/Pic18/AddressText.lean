/-
# RegisterTransfer.Proofs.Pic18.AddressText -- which texts are addresses

Device descriptions write addresses as texts.  `Text.Trims` says what is left of a text without the white
space at its ends, and `AddressText` is the grammar of what has to be left: a number below `2 ^ 32`, in
hexadecimal if `0x` or `0X` stands before it and in decimal otherwise.

* `Text.trims_iff`: `trim` leaves the one such middle of a text;
* `read_address`: exactly the texts of that grammar are read, with the number that they write, and
  any spelling of a number below the bound is read as that number.
-/
import Mathlib.Data.List.TakeWhile
import RegisterTransfer.Pic18.Device.Document
import RegisterTransfer.Proofs.Numeral.Grammar

namespace RegisterTransfer

set_option autoImplicit false

namespace Text

/-- No visible character of ASCII is white space. -/
theorem not_isBlank_of_visible {c : Char} (visible : 32 < c.toNat) (ascii : c.toNat < 128) :
    isBlank c = false := by
  simp only [isBlank, Bool.or_eq_false_iff, Bool.and_eq_false_iff, decide_eq_false_iff_not]
  omega

/-! ## White space at the ends -/

def IsBlankText (cs : List Char) : Prop := ∀ c ∈ cs, isBlank c = true

/-- A text without the white space at its ends. -/
structure Trims (cs core : List Char) : Prop where
  ends : ∃ front back, cs = front ++ core ++ back ∧ IsBlankText front ∧ IsBlankText back
  first : ∀ c ∈ core.head?, isBlank c = false
  last : ∀ c ∈ core.getLast?, isBlank c = false

theorem dropWhile_of_head? (cs : List Char) (first : ∀ c ∈ cs.head?, isBlank c = false) :
    cs.dropWhile isBlank = cs := by
  cases cs with
  | nil => rfl
  | cons c rest => rw [List.dropWhile_cons_of_neg (by simp [first c rfl])]

theorem head?_dropWhile (cs : List Char) : ∀ c ∈ (cs.dropWhile isBlank).head?, isBlank c = false := by
  intro c first
  have stops := List.head?_dropWhile_not isBlank cs
  rw [Option.mem_def.mp first] at stops
  simpa using stops

/-- Dropping blanks takes them off the front. -/
theorem exists_dropWhile (cs : List Char) :
    ∃ front, cs = front ++ cs.dropWhile isBlank ∧ IsBlankText front :=
  ⟨cs.takeWhile isBlank, List.takeWhile_append_dropWhile.symm, fun _ listed => List.mem_takeWhile_imp listed⟩

theorem trims_trim (cs : List Char) : Trims cs (trim cs) := by
  obtain ⟨front, split, blank⟩ := exists_dropWhile cs
  obtain ⟨back, split', blank'⟩ := exists_dropWhile (cs.dropWhile isBlank).reverse
  have middle : cs.dropWhile isBlank = trim cs ++ back.reverse := by
    rw [← List.reverse_inj, split', trim]
    simp
  refine ⟨⟨front, back.reverse, ?_, blank, fun c listed => blank' c (List.mem_reverse.mp listed)⟩,
    fun c first => ?_, ?_⟩
  · rw [List.append_assoc, ← middle, ← split]
  · refine head?_dropWhile cs c ?_
    rw [middle, List.head?_append, Option.mem_def.mp first]
    rfl
  · rw [trim, List.getLast?_reverse]
    exact head?_dropWhile _

/-- There is one way to trim a text. -/
theorem trims_iff {cs core : List Char} : Trims cs core ↔ trim cs = core := by
  constructor
  · rintro ⟨⟨front, back, rfl, blank, blank'⟩, first, last⟩
    have reversed : IsBlankText back.reverse := fun c listed => blank' c (List.mem_reverse.mp listed)
    rw [trim, List.append_assoc, List.dropWhile_append_of_pos blank]
    cases core with
    | nil =>
        rw [List.nil_append, List.dropWhile_eq_nil_iff.mpr blank']
        rfl
    | cons c rest =>
        rw [dropWhile_of_head? (c :: rest ++ back) first, List.reverse_append,
          List.dropWhile_append_of_pos reversed, dropWhile_of_head? _ (by rwa [List.head?_reverse]),
          List.reverse_reverse]
  · rintro rfl
    exact trims_trim cs

end Text

namespace Pic18.Document

open Numeral

/-! ## Addresses -/

/-- What writes an address. -/
inductive AddressText : List Char → Nat → Prop
  | decimal {text : List Char} {n : Nat} (number : UnsignedText 10 text n) : AddressText text n
  | hexadecimal {x : Char} {text : List Char} {n : Nat} (announced : x = 'x' ∨ x = 'X')
      (number : UnsignedText 16 text n) : AddressText ('0' :: x :: text) n

theorem radixAndRest_of_not_mem {cs : List Char} (lower : 'x' ∉ cs) (upper : 'X' ∉ cs) :
    radixAndRest cs = (10, cs) := by
  unfold radixAndRest
  split
  · simp at lower
  · simp at upper
  · rfl

/-- A decimal number has no letters. -/
theorem not_mem_of_decimal {text : List Char} {n : Nat} (number : UnsignedText 10 text n) {c : Char}
    (letter : 58 ≤ c.toNat) : c ∉ text := by
  obtain ⟨sign, digits, rfl, signs, written⟩ := number
  have plus : '+'.toNat = 43 := rfl
  intro listed
  rcases List.mem_append.mp listed with early | late
  · rcases signs with rfl | rfl
    · cases early
    · obtain rfl := List.mem_singleton.mp early
      omega
  · obtain ⟨d, digit⟩ := written.isDigit_of_mem late
    rw [isDigit_iff (by decide)] at digit
    omega

theorem fst_radixAndRest_le (cs : List Char) : (radixAndRest cs).1 ≤ 16 := by
  unfold radixAndRest
  split <;> simp

/-- What stands behind the announcement is a number of the radix exactly in the text of an address. -/
theorem unsignedText_radixAndRest {core : List Char} {n : Nat} :
    UnsignedText (radixAndRest core).1 (radixAndRest core).2 n ↔ AddressText core n := by
  constructor
  · intro number
    unfold radixAndRest at number
    split at number
    · exact .hexadecimal (.inl rfl) number
    · exact .hexadecimal (.inr rfl) number
    · exact .decimal number
  · intro written
    cases written with
    | decimal number =>
        -- Without a letter nothing is announced, so the radix is ten.
        rw [radixAndRest_of_not_mem (not_mem_of_decimal number (by decide))
          (not_mem_of_decimal number (by decide))]
        exact number
    | hexadecimal announced number =>
        rcases announced with rfl | rfl <;> exact number

theorem addressOfText?_eq_some_iff {cs : List Char} {n : Nat} :
    addressOfText? cs = some n ↔
      ∃ core, Text.Trims cs core ∧ AddressText core n ∧ n < addressBound := by
  have read : addressOfText? cs = some n ↔ AddressText (Text.trim cs) n ∧ n < addressBound := by
    rw [← unsignedText_radixAndRest, ← unsigned?_eq_some_iff (fst_radixAndRest_le _)]
    rfl
  rw [read]
  constructor
  · intro written
    exact ⟨_, Text.trims_trim cs, written⟩
  · rintro ⟨core, trims, written⟩
    rwa [Text.trims_iff.mp trims]

theorem not_isBlank_of_unsignedText {radix : Nat} {text : List Char} {n : Nat}
    (radixes : radix ≤ 16) (number : UnsignedText radix text n) {c : Char} (listed : c ∈ text) :
    Text.isBlank c = false := by
  obtain ⟨sign, digits, rfl, signs, written⟩ := number
  rcases List.mem_append.mp listed with early | late
  · rcases signs with rfl | rfl
    · cases early
    · obtain rfl := List.mem_singleton.mp early
      rfl
  · obtain ⟨d, digit⟩ := written.isDigit_of_mem late
    rw [isDigit_iff radixes] at digit
    exact Text.not_isBlank_of_visible (by omega) (by omega)

/-- The text of an address has no white space in it. -/
theorem AddressText.not_isBlank {core : List Char} {n : Nat} (written : AddressText core n) {c : Char}
    (listed : c ∈ core) : Text.isBlank c = false := by
  cases written with
  | decimal number => exact not_isBlank_of_unsignedText (by decide) number listed
  | @hexadecimal x text n announced number =>
      rcases List.mem_cons.mp listed with rfl | listed
      · rfl
      · rcases List.mem_cons.mp listed with rfl | listed
        · rcases announced with rfl | rfl <;> rfl
        · exact not_isBlank_of_unsignedText (by decide) number listed

/-- White space around the text of an address is trimmed. -/
theorem AddressText.trims {core front back : List Char} {n : Nat} (written : AddressText core n)
    (blank : Text.IsBlankText front) (blank' : Text.IsBlankText back) :
    Text.Trims (front ++ core ++ back) core where
  ends := ⟨front, back, rfl, blank, blank'⟩
  first _ first := written.not_isBlank (List.mem_of_mem_head? first)
  last _ last := written.not_isBlank (List.mem_of_getLast? last)

/-- A number is spelled in decimal, or in hexadecimal behind an announcement. -/
inductive Spelling (n : Nat) : List Char → Prop
  | decimal {digits : List Char} (spelled : Spells 10 digits n) : Spelling n digits
  | hexadecimal {digits : List Char} {x : Char} (announced : x = 'x' ∨ x = 'X')
      (spelled : Spells 16 digits n) : Spelling n ('0' :: x :: digits)

theorem Spelling.addressText {n : Nat} {core : List Char} (spelling : Spelling n core) :
    AddressText core n := by
  cases spelling with
  | decimal spelled =>
      exact .decimal ⟨[], _, rfl, .inl rfl, spelled.writes (by decide) (by decide)⟩
  | hexadecimal announced spelled =>
      exact .hexadecimal announced ⟨[], _, rfl, .inl rfl, spelled.writes (by decide) (by decide)⟩

/-- A text is read as an address exactly if what trimming leaves of it is an optional `0x` or `0X`, an
optional plus sign and one or more digits of the radix, hexadecimal or decimal, and the number they write
lies below `2 ^ 32`; and then that number is read.  So every spelling of such a number is read as it,
whatever white space stands around it. -/
theorem read_address (s : String) :
    (∀ n, addressOfText? s.toList = some n ↔
        ∃ core, Text.Trims s.toList core ∧ AddressText core n ∧ n < 2 ^ 32) ∧
      ∀ n core front back, n < 2 ^ 32 → Spelling n core → Text.IsBlankText front →
        Text.IsBlankText back → s.toList = front ++ core ++ back →
          addressOfText? s.toList = some n := by
  refine ⟨fun n => addressOfText?_eq_some_iff, ?_⟩
  intro n core front back below spelling blank blank' parts
  have written := spelling.addressText
  rw [parts, addressOfText?_eq_some_iff]
  exact ⟨core, written.trims blank blank', written, below⟩

/-- The largest address in letters of both cases, with zeros in front and white space around it; and a sign
before the announcement, with which no text is an address. -/
theorem read_address_largest :
    addressOfText? "\u00A0 0X00fFFFFffF\n".toList = some 0xFFFFFFFF ∧
      ¬ ∃ n core, Text.Trims "+0x10".toList core ∧ AddressText core n ∧ n < 2 ^ 32 := by
  constructor
  · refine (read_address _).2 0xFFFFFFFF "0X00fFFFFffF".toList "\u00A0 ".toList "\n".toList
      (by decide) (.hexadecimal (.inr rfl) ⟨2, by decide⟩) ?_ ?_ rfl
    · exact List.all_eq_true.mp rfl
    · exact List.all_eq_true.mp rfl
  · rintro ⟨n, grammar⟩
    have read := ((read_address "+0x10").1 n).mpr grammar
    have refused : addressOfText? "+0x10".toList = none := by decide
    rw [refused] at read
    cases read

end Pic18.Document

end RegisterTransfer
