/-
# RegisterTransfer.Proofs.Pic18.Legible -- the text of an operand tells the operand

Operand text leaves out how many bits a field has, which of two registers at one address was meant,
and an operand that is empty; names, numbers and what follows them share the commas.  On a device
whose names are words none of this loses anything: a text is cut at its first comma, and each piece
is read back on its own.  `Catalog.Legible` says what such a device is.

* `cut_text`: a text is cut at its first separator in one way only;
* `Catalog.Legible.addressText_inj`, `bitText_inj`: names and numbers of registers and bits;
* `FileOperand.text_inj`: the text of a file operand tells the operand and what follows it;
* `Operand.text_inj`: the text of any operand tells the operand, if one knows its form.
-/
import Mathlib.Data.List.Nodup
import RegisterTransfer.Proofs.Pic18.Description
import RegisterTransfer.Proofs.Pic18.OperandText

namespace RegisterTransfer.Pic18

set_option autoImplicit false

open Numeral

/-! ## Cutting texts -/

/-- A text is empty or begins with a separator. -/
def After (sep : Char) (s : String) : Prop := ∀ ch ∈ s.toList.head?, ch = sep

theorem IsTail.after {s : String} (tail : IsTail s) : After ',' s := by
  rcases tail with rfl | ⟨more, rfl⟩
  · intro ch first
    cases first
  · intro ch first
    rw [String.toList_append] at first
    cases first
    rfl

theorem cut_unique {sep : Char} {a a' b b' : List Char} (free : sep ∉ a) (free' : sep ∉ a')
    (after : ∀ ch ∈ b.head?, ch = sep) (after' : ∀ ch ∈ b'.head?, ch = sep)
    (same : a ++ b = a' ++ b') : a = a' ∧ b = b' := by
  induction a generalizing a' with
  | nil =>
      cases a' with
      | nil => exact ⟨rfl, same⟩
      | cons ch rest =>
          have first := after ch (by rw [← List.nil_append b, same]; rfl)
          exact absurd (first ▸ List.mem_cons_self) free'
  | cons ch rest ih =>
      cases a' with
      | nil =>
          have first := after' ch (by rw [← List.nil_append b', ← same]; rfl)
          exact absurd (first ▸ List.mem_cons_self) free
      | cons ch' rest' =>
          obtain ⟨rfl, later⟩ := List.cons.inj same
          obtain ⟨rfl, rfl⟩ := ih (fun listed => free (List.mem_cons_of_mem _ listed))
            (fun listed => free' (List.mem_cons_of_mem _ listed)) later
          exact ⟨rfl, rfl⟩

/-- A text is cut at its first separator in one way only. -/
theorem cut_text {sep : Char} {a a' b b' : String} (free : sep ∉ a.toList)
    (free' : sep ∉ a'.toList) (after : After sep b) (after' : After sep b')
    (same : a ++ b = a' ++ b') : a = a' ∧ b = b' := by
  have lists := congrArg String.toList same
  rw [String.toList_append, String.toList_append] at lists
  obtain ⟨front, back⟩ := cut_unique free free' after after' lists
  exact ⟨String.toList_inj.mp front, String.toList_inj.mp back⟩

theorem comma_not_mem_hex (digits n : Nat) : ',' ∉ ("0x" ++ hexUpper digits n).toList := by
  rw [String.toList_append, List.mem_append, not_or]
  exact ⟨by decide, not_mem_hexUpper (by decide)⟩

theorem hex_ne_empty (digits n : Nat) : "0x" ++ hexUpper digits n ≠ "" := by
  intro empty
  have first := congrArg (·.toList.head?) empty
  simp only [String.toList_append] at first
  cases first

/-! ## Words -/

/-- A letter, a digit or an underscore; every character beyond ASCII counts as a letter. -/
def isWordChar (ch : Char) : Bool := ch.isAlphanum || ch = '_' || 0x80 ≤ ch.toNat

/-- A word that does not begin with a digit. -/
def IsWord (s : String) : Prop :=
  s ≠ "" ∧ s.toList.all isWordChar = true ∧ s.toList.head?.any Char.isDigit = false

instance (s : String) : Decidable (IsWord s) := inferInstanceAs (Decidable (_ ∧ _ ∧ _))

namespace IsWord

variable {s : String}

theorem not_mem (word : IsWord s) {ch : Char} (other : isWordChar ch = false) : ch ∉ s.toList := by
  intro listed
  rw [List.all_eq_true.mp word.2.1 ch listed] at other
  cases other

/-- No word begins with a digit. -/
theorem ne_of_digit (word : IsWord s) {text : String}
    (digit : text.toList.head?.any Char.isDigit = true) : s ≠ text := by
  rintro rfl
  rw [word.2.2] at digit
  cases digit

theorem ne_byte0x (word : IsWord s) (k : UInt8) : s ≠ byte0x k :=
  word.ne_of_digit (by rw [toList_byte0x]; rfl)

theorem ne_hex (word : IsWord s) (digits n : Nat) : s ≠ "0x" ++ hexUpper digits n :=
  word.ne_of_digit (by rw [String.toList_append]; rfl)

theorem ne_decimal (word : IsWord s) (bit : Fin 8) : s ≠ decimal bit.val := by
  have digit : ∀ bit : Fin 8, (decimal bit.val).toList.head?.any Char.isDigit = true := by decide
  exact word.ne_of_digit (digit bit)

theorem ne_indexText (word : IsWord s) (k : UInt8) : s ≠ indexText k := by
  rintro rfl
  have listed : '[' ∈ (indexText k).toList := (bracket_prefix_indexText k).subset List.mem_cons_self
  exact word.not_mem (by decide) listed

end IsWord

theorem decimal_bit_inj {bit bit' : Fin 8} (same : decimal bit.val = decimal bit'.val) :
    bit = bit' := by
  revert bit bit'
  decide

/-- A device whose text can be read: names are words, one-bit fields of one register have different
names, and different access-bank offsets are at different addresses. -/
structure Catalog.Legible (c : Catalog) : Prop where
  names : ∀ r ∈ c.registers, IsWord r.name
  fieldNames : ∀ r ∈ c.registers, ∀ f ∈ r.fields, IsWord f.name
  bits : ∀ r ∈ c.registers, ((r.fields.filter (·.width = 1)).map (·.name)).Nodup
  offsets : Function.Injective c.memory.remapAccess

/-! ## Names -/

namespace Catalog

/-- No two registers have one name. -/
def DistinctNames (c : Catalog) : Prop := c.registers.Pairwise fun r r' => r.name ≠ r'.name

variable {c : Catalog}

theorem distinct_of_load {device : Option Device} (loaded : load device = .ok c) :
    c.DistinctNames := by
  obtain ⟨d, _, checked⟩ := checked_of_load loaded
  rw [DistinctNames, checked.registers]
  exact (consistent_of_checked checked).distinct

/-- A name tells the register. -/
theorem eq_of_name (distinct : c.DistinctNames) {r r' : Register} (listed : r ∈ c.registers)
    (listed' : r' ∈ c.registers) (same : r.name = r'.name) : r = r' := by
  have nodup : (c.registers.map (·.name)).Nodup := List.pairwise_map.mpr distinct
  exact List.inj_on_of_nodup_map nodup listed listed' same

theorem address_of_lookup? {address width : Nat} {r : Register}
    (found : c.lookup? address width = some r) : r.address = address := by
  have matches_ := List.find?_some found
  simp only [Bool.and_eq_true, decide_eq_true_eq] at matches_
  exact matches_.1

/-- A name tells the address that it stands for. -/
theorem address_of_name (distinct : c.DistinctNames) {a a' width width' : Nat} {r r' : Register}
    (found : c.lookup? a width = some r) (found' : c.lookup? a' width' = some r')
    (same : r.name = r'.name) : a = a' := by
  obtain rfl := eq_of_name distinct (of_lookup? found).1 (of_lookup? found').1 same
  rw [← address_of_lookup? found, address_of_lookup? found']

/-- The field whose name a bit shows. -/
theorem of_field? {address bit : Nat} {f : BitField} (found : c.field? address bit 1 = some f) :
    f.bit = bit ∧ ∃ r, c.lookup? address 8 = some r ∧ f ∈ r.fields.filter (·.width = 1) := by
  obtain ⟨r, listed, found⟩ := Option.bind_eq_some_iff.mp found
  have fits := List.find?_some found
  simp only [Bool.and_eq_true, decide_eq_true_eq] at fits
  exact ⟨fits.1, r, listed, List.mem_filter.mpr
    ⟨List.mem_of_find?_eq_some found, decide_eq_true fits.2⟩⟩

namespace Legible

variable (legible : c.Legible)

include legible

theorem word_of_lookup? {address width : Nat} {r : Register}
    (found : c.lookup? address width = some r) : IsWord r.name :=
  legible.names r (of_lookup? found).1

/-- The text of a full data address tells the address. -/
theorem addressText_inj (distinct : c.DistinctNames) {digits a a' : Nat}
    (same : c.addressText digits a = c.addressText digits a') : a = a' := by
  unfold addressText at same
  cases found : c.lookup? a 8 with
  | some r =>
      cases found' : c.lookup? a' 8 with
      | some r' =>
          rw [found, found'] at same
          exact address_of_name distinct found found' same
      | none =>
          rw [found, found'] at same
          exact absurd same ((legible.word_of_lookup? found).ne_hex digits a')
  | none =>
      cases found' : c.lookup? a' 8 with
      | some r' =>
          rw [found, found'] at same
          exact absurd same.symm ((legible.word_of_lookup? found').ne_hex digits a)
      | none =>
          rw [found, found'] at same
          exact hexUpper_inj ((String.append_right_inj _).mp same)

theorem word_of_field? {address bit : Nat} {f : BitField}
    (found : c.field? address bit 1 = some f) : IsWord f.name := by
  obtain ⟨_, r, listed, part⟩ := of_field? found
  exact legible.fieldNames r (of_lookup? listed).1 f (List.mem_of_mem_filter part)

/-- The name or the number of a bit tells the bit. -/
theorem bitText_inj {address : Nat} {bit bit' : Fin 8}
    (same : c.bitText address bit.val = c.bitText address bit'.val) : bit = bit' := by
  unfold bitText at same
  cases found : c.field? address bit.val 1 with
  | some f =>
      cases found' : c.field? address bit'.val 1 with
      | some f' =>
          rw [found, found'] at same
          obtain ⟨stands, r, listed, part⟩ := of_field? found
          obtain ⟨stands', r', listed', part'⟩ := of_field? found'
          rw [listed] at listed'
          cases listed'
          have fields := List.inj_on_of_nodup_map (legible.bits r (of_lookup? listed).1) part part'
            same
          exact Fin.ext (by rw [← stands, fields, stands'])
      | none =>
          rw [found, found'] at same
          exact absurd same ((legible.word_of_field? found).ne_decimal bit')
  | none =>
      cases found' : c.field? address bit'.val 1 with
      | some f' =>
          rw [found, found'] at same
          exact absurd same.symm ((legible.word_of_field? found').ne_decimal bit)
      | none =>
          rw [found, found'] at same
          exact decimal_bit_inj same

end Legible

end Catalog

/-! ## File operands -/

namespace FileOperand

/-- What the text of a file operand is made of: what stands before the first comma, and the rest. -/
inductive Parts (c : Catalog) (f : FileOperand) (tail : String) (namedTail : Nat → String) :
    String → String → Prop
  | indexed (access : f.access = true) : Parts c f tail namedTail (indexText f.offset) tail
  | banked (access : f.access = false) :
      Parts c f tail namedTail (byte0x f.offset) (tail ++ ",BANKED")
  | named {r : Register} (access : f.access = true)
      (listed : c.lookup? (c.memory.remapAccess f.offset) 8 = some r) :
      Parts c f tail namedTail r.name (namedTail (c.memory.remapAccess f.offset) ++ ",ACCESS")
  | numbered (access : f.access = true) :
      Parts c f tail namedTail (byte0x f.offset) (tail ++ ",ACCESS")

section Parts

variable {c : Catalog} {f f' : FileOperand} {tail tail' : String}
  {namedTail namedTail' : Nat → String}

theorem exists_parts (c : Catalog) (f : FileOperand) (tail : String) (namedTail : Nat → String) :
    ∃ head rest, f.text c tail namedTail = head ++ rest ∧ f.Parts c tail namedTail head rest := by
  unfold text location DataMemory.resolve
  by_cases index : f.mode = .extended ∧ f.access = true ∧ isIndex f.offset = true
  · rw [if_pos index]
    exact ⟨_, _, rfl, .indexed index.2.1⟩
  · rw [if_neg index]
    cases access : f.access with
    | false => exact ⟨_, _, String.append_assoc, .banked access⟩
    | true =>
        simp only [if_true]
        cases listed : c.lookup? (c.memory.remapAccess f.offset) 8 with
        | none => exact ⟨_, _, String.append_assoc, .numbered access⟩
        | some r => exact ⟨_, _, String.append_assoc, .named access listed⟩

theorem Parts.comma_not_mem {head rest : String} (legible : c.Legible)
    (parts : f.Parts c tail namedTail head rest) : ',' ∉ head.toList := by
  cases parts with
  | indexed _ => exact comma_not_mem_indexText _
  | banked _ | numbered _ => exact comma_not_mem_byte0x _
  | named _ listed => exact (legible.word_of_lookup? listed).not_mem (by decide)

theorem Parts.after {head rest : String} (tail_ : IsTail tail)
    (namedTail_ : ∀ a, IsTail (namedTail a)) (parts : f.Parts c tail namedTail head rest) :
    After ',' rest := by
  cases parts with
  | indexed _ => exact tail_.after
  | banked _ => exact (tail_.append (isTail_comma "BANKED")).after
  | named _ _ => exact ((namedTail_ _).append (isTail_comma "ACCESS")).after
  | numbered _ => exact (tail_.append (isTail_comma "ACCESS")).after

theorem indexText_ne_byte0x (k k' : UInt8) : indexText k ≠ byte0x k' := by
  intro same
  exact not_bracket_prefix_byte0x k' (same ▸ bracket_prefix_indexText k)

/-- The end of a text tells the selected bank from the access bank. -/
theorem banked_ne_access (tail tail' : String) : tail ++ ",BANKED" ≠ tail' ++ ",ACCESS" := by
  intro same
  have banked : Shows (tail ++ ",BANKED") tail ",BANKED" :=
    ⟨"", .inl rfl, by rw [String.append_empty]⟩
  have access : Shows (tail ++ ",BANKED") tail' ",ACCESS" :=
    ⟨"", .inl rfl, by rw [String.append_empty, same]⟩
  exact banked.banked_or_access access

/-- Operands of one mode whose texts have the same parts are the same, and so is what follows either
their number or their name. -/
theorem Parts.inj (legible : c.Legible) (distinct : c.DistinctNames) (mode : f.mode = f'.mode)
    {head rest head' rest' : String} (parts : f.Parts c tail namedTail head rest)
    (parts' : f'.Parts c tail' namedTail' head' rest') (heads : head = head')
    (rests : rest = rest') : f = f' ∧ (tail = tail' ∨ ∃ a, namedTail a = namedTail' a) := by
  have whole : f.offset = f'.offset → f.access = f'.access → f = f' := by
    intro offset access
    cases f
    cases f'
    cases offset
    cases access
    cases mode
    rfl
  -- Heads tell indexes, numbers and names apart; of two numbers the ends tell the bank.
  cases parts with
  | indexed access =>
      cases parts' with
      | indexed access' =>
          exact ⟨whole (indexText_inj heads) (access.trans access'.symm), .inl rests⟩
      | banked _ | numbered _ => exact absurd heads (indexText_ne_byte0x _ _)
      | named _ listed =>
          exact absurd heads.symm ((legible.word_of_lookup? listed).ne_indexText _)
  | banked access =>
      cases parts' with
      | indexed _ => exact absurd heads.symm (indexText_ne_byte0x _ _)
      | banked access' =>
          exact ⟨whole (byte0x_inj heads) (access.trans access'.symm),
            .inl ((String.append_left_inj _).mp rests)⟩
      | named _ listed => exact absurd heads.symm ((legible.word_of_lookup? listed).ne_byte0x _)
      | numbered _ => exact absurd rests (banked_ne_access _ _)
  | named access listed =>
      cases parts' with
      | indexed _ => exact absurd heads ((legible.word_of_lookup? listed).ne_indexText _)
      | banked _ | numbered _ =>
          exact absurd heads ((legible.word_of_lookup? listed).ne_byte0x _)
      | named access' listed' =>
          have addresses := Catalog.address_of_name distinct listed listed' heads
          rw [addresses] at rests
          exact ⟨whole (legible.offsets addresses) (access.trans access'.symm),
            .inr ⟨_, (String.append_left_inj _).mp rests⟩⟩
  | numbered access =>
      cases parts' with
      | indexed _ => exact absurd heads.symm (indexText_ne_byte0x _ _)
      | banked _ => exact absurd rests.symm (banked_ne_access _ _)
      | named _ listed => exact absurd heads.symm ((legible.word_of_lookup? listed).ne_byte0x _)
      | numbered access' =>
          exact ⟨whole (byte0x_inj heads) (access.trans access'.symm),
            .inl ((String.append_left_inj _).mp rests)⟩

/-- The text of a file operand tells the operand, and what follows either its number or its name. -/
theorem text_inj (legible : c.Legible) (distinct : c.DistinctNames)
    (mode : f.mode = f'.mode)
    (tail_ : IsTail tail) (tail_' : IsTail tail') (namedTail_ : ∀ a, IsTail (namedTail a))
    (namedTail_' : ∀ a, IsTail (namedTail' a))
    (same : f.text c tail namedTail = f'.text c tail' namedTail') :
    f = f' ∧ (tail = tail' ∨ ∃ a, namedTail a = namedTail' a) := by
  obtain ⟨head, rest, text, parts⟩ := exists_parts c f tail namedTail
  obtain ⟨head', rest', text', parts'⟩ := exists_parts c f' tail' namedTail'
  rw [text, text'] at same
  obtain ⟨heads, rests⟩ := cut_text (parts.comma_not_mem legible) (parts'.comma_not_mem legible)
    (parts.after tail_ namedTail_) (parts'.after tail_' namedTail_') same
  exact parts.inj legible distinct mode parts' heads rests

end Parts

end FileOperand

/-! ## Operands -/

theorem Destination.name_inj {dest dest' : Destination} (same : dest.name = dest'.name) :
    dest = dest' := by
  revert same
  cases dest <;> cases dest' <;> decide

theorem TableMode.name_inj {mode mode' : TableMode} (same : mode.name = mode'.name) :
    mode = mode' := by
  revert same
  cases mode <;> cases mode' <;> decide

/-- A target is that of one offset, as long as offsets are short. -/
theorem relativeTarget_inj {address : Nat} {offset offset' : Int} (back : -2 ^ 10 ≤ offset)
    (ahead : offset < 2 ^ 10) (back' : -2 ^ 10 ≤ offset') (ahead' : offset' < 2 ^ 10)
    (same : relativeTarget address offset = relativeTarget address offset') : offset = offset' := by
  unfold relativeTarget programSize at same
  omega

/-- What an operand can be, and how many bits its fields have. -/
inductive OperandForm where
  | imm4 | imm6 | imm8 | imm12 | imm14 | index | fast | relative8 | relative11 | absolute | pointer
  | table | data12 | data14 | file | fileBit | fileDest
deriving DecidableEq

/-- The operands of a form that an instruction at an address has in a mode. -/
inductive Operand.OfForm (mode : Mode) (address : Nat) : OperandForm → Operand → Prop
  | imm4 (k : UInt8) : OfForm mode address .imm4 (.imm4 k)
  | imm6 (k : UInt8) : OfForm mode address .imm6 (.imm6 k)
  | imm8 (k : UInt8) : OfForm mode address .imm8 (.imm8 k)
  | imm12 (k : Nat) : OfForm mode address .imm12 (.imm12 k)
  | imm14 (k : Nat) : OfForm mode address .imm14 (.imm14 k)
  | index (k : UInt8) : OfForm mode address .index (.index k)
  | fast (on : Bool) : OfForm mode address .fast (.fast on)
  | relative8 {offset : Int} (back : -2 ^ 7 ≤ offset) (ahead : offset < 2 ^ 7) :
      OfForm mode address .relative8 (.relative8 offset (relativeTarget address offset))
  | relative11 {offset : Int} (back : -2 ^ 10 ≤ offset) (ahead : offset < 2 ^ 10) :
      OfForm mode address .relative11 (.relative11 offset (relativeTarget address offset))
  | absolute (target : Nat) : OfForm mode address .absolute (.absolute target)
  | pointer {n : Nat} (few : n < 3) : OfForm mode address .pointer (.pointer n)
  | table (table : TableMode) : OfForm mode address .table (.table table)
  | data12 (a : Nat) : OfForm mode address .data12 (.data12 a)
  | data14 (a : Nat) : OfForm mode address .data14 (.data14 a)
  | file {f : FileOperand} (same : f.mode = mode) : OfForm mode address .file (.file f)
  | fileBit {f : FileOperand} (same : f.mode = mode) (bit : Fin 8) :
      OfForm mode address .fileBit (.fileBit f bit)
  | fileDest {f : FileOperand} (same : f.mode = mode) (dest : Destination) :
      OfForm mode address .fileDest (.fileDest f dest)

section Forms

variable {c : Catalog} {mode : Mode} {address : Nat} {form : OperandForm} {o o' : Operand}

/-- The text of an operand tells the operand, if one knows its form. -/
theorem Operand.text_inj (legible : c.Legible) (distinct : c.DistinctNames)
    (formed : o.OfForm mode address form) (formed' : o'.OfForm mode address form)
    (same : o.text c = o'.text c) : o = o' := by
  cases formed with
  | imm4 k | imm6 k | imm8 k =>
      cases formed'
      rw [byte0x_inj same]
  | imm12 k | imm14 k | data12 a | data14 a =>
      cases formed'
      rw [legible.addressText_inj distinct same]
  | index k =>
      cases formed'
      rw [indexText_inj same]
  | fast on =>
      cases formed' with
      | fast on' =>
          have texts : (if on then "FAST" else "") = (if on' then "FAST" else "") := by
            revert same
            cases on <;> cases on' <;> exact id
          revert texts
          cases on <;> cases on' <;> decide
  | relative8 back ahead =>
      cases formed' with
      | relative8 back' ahead' =>
          have targets := hexUpper_inj ((String.append_right_inj _).mp same)
          rw [relativeTarget_inj (by omega) (by omega) (by omega) (by omega) targets]
  | relative11 back ahead =>
      cases formed' with
      | relative11 back' ahead' =>
          have targets := hexUpper_inj ((String.append_right_inj _).mp same)
          rw [relativeTarget_inj back ahead back' ahead' targets]
  | absolute target =>
      cases formed'
      rw [hexUpper_inj ((String.append_right_inj _).mp same)]
  | @pointer n few =>
      cases formed' with
      | @pointer n' few' =>
          have numbers : (⟨n, by omega⟩ : Fin 8) = ⟨n', by omega⟩ :=
            decimal_bit_inj ((String.append_right_inj _).mp same)
          rw [Fin.mk.inj numbers]
  | table table =>
      cases formed'
      rw [TableMode.name_inj same]
  | file mode_ =>
      cases formed' with
      | file mode_' =>
          have nothing : IsTail "" := .inl rfl
          rw [(FileOperand.text_inj legible distinct (mode_.trans mode_'.symm) nothing nothing
            (fun _ => nothing) (fun _ => nothing) same).1]
  | fileBit mode_ bit =>
      cases formed' with
      | fileBit mode_' bit' =>
          obtain ⟨rfl, bits⟩ := FileOperand.text_inj legible distinct (mode_.trans mode_'.symm)
            (isTail_comma _) (isTail_comma _) (fun _ => isTail_comma _) (fun _ => isTail_comma _)
            same
          rcases bits with numbers | ⟨a, names⟩
          · rw [decimal_bit_inj ((String.append_right_inj _).mp numbers)]
          · rw [legible.bitText_inj ((String.append_right_inj _).mp names)]
  | fileDest mode_ dest =>
      cases formed' with
      | fileDest mode_' dest' =>
          obtain ⟨rfl, dests⟩ := FileOperand.text_inj legible distinct (mode_.trans mode_'.symm)
            (isTail_comma _) (isTail_comma _) (fun _ => isTail_comma _) (fun _ => isTail_comma _)
            same
          have names : "," ++ dest.name = "," ++ dest'.name := dests.elim id fun ⟨_, names⟩ => names
          rw [Destination.name_inj ((String.append_right_inj _).mp names)]

/-- A form whose texts are not empty and have no comma, so that another operand can follow. -/
def OperandForm.isPlain : OperandForm → Bool
  | index | absolute | pointer | data12 | data14 => true
  | _ => false

theorem Catalog.Legible.addressText_plain (legible : c.Legible) (digits a : Nat) :
    ',' ∉ (c.addressText digits a).toList ∧ c.addressText digits a ≠ "" := by
  unfold addressText
  cases found : c.lookup? a 8 with
  | some r =>
      have word := legible.word_of_lookup? found
      exact ⟨word.not_mem (by decide), word.1⟩
  | none => exact ⟨comma_not_mem_hex _ _, hex_ne_empty _ _⟩

/-- The text of an operand that another one can follow. -/
theorem Operand.plain_text (legible : c.Legible) (formed : o.OfForm mode address form)
    (plain : form.isPlain = true) : ',' ∉ (o.text c).toList ∧ o.text c ≠ "" := by
  cases formed with
  | index k => exact ⟨comma_not_mem_indexText k, fun empty => by
      have begins := bracket_prefix_indexText k
      rw [show indexText k = "" from empty] at begins
      cases List.prefix_nil.mp begins⟩
  | absolute target => exact ⟨comma_not_mem_hex _ _, hex_ne_empty _ _⟩
  | @pointer n few =>
      have all : ∀ n : Fin 3, ',' ∉ ("FSR" ++ decimal n.val).toList ∧
          "FSR" ++ decimal n.val ≠ "" := by
        decide
      exact all ⟨n, few⟩
  | data12 a => exact legible.addressText_plain 3 a
  | data14 a => exact legible.addressText_plain 4 a
  | _ => cases plain

end Forms

end RegisterTransfer.Pic18
