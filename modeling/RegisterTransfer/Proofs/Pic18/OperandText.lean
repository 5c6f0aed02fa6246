/-
# RegisterTransfer.Proofs.Pic18.OperandText -- the text of a file operand tells its storage

Printing and lowering resolve a file operand on their own, one to a text and the other to a cell.
`Shows text head last` says that a text is `head`, nothing or something after a comma, and `last`; the
four forms of a file operand's text are of this kind.  `FileOperand.Arm` lists what a file operand can
be resolved to, and gives the form and the cell of each side by side.

* `shows_iff_place`: which form a text has tells which place the lowering uses, and the other way
  round.

A name with a comma in it can be taken for a shorter name with a field behind it, and a layout can
place two offsets at one address: `text_leaves_open` has both, and two windows on one pointer.
-/
import RegisterTransfer.Pic18.Cell
import RegisterTransfer.Pic18.Devices
import RegisterTransfer.Pic18.Operand.Printer
import RegisterTransfer.Proofs.Numeral.Hexadecimal
import RegisterTransfer.Proofs.Pic18.Accepted

namespace RegisterTransfer.Pic18

set_option autoImplicit false

open Numeral

/-! ## Forms of text -/

/-- Nothing, or something after a comma. -/
def IsTail (s : String) : Prop := s = "" ∨ ∃ more, s = "," ++ more

/-- A text has the form `head..last`. -/
def Shows (text head last : String) : Prop :=
  ∃ tail, IsTail tail ∧ text = head ++ tail ++ last

theorem isTail_comma (more : String) : IsTail ("," ++ more) := .inr ⟨more, rfl⟩

theorem IsTail.append {s t : String} (front : IsTail s) (back : IsTail t) : IsTail (s ++ t) := by
  rcases front with rfl | ⟨more, rfl⟩
  · rw [String.empty_append]
    exact back
  · rw [String.append_assoc]
    exact isTail_comma _

/-- Characters of a tail before its first comma. -/
theorem IsTail.takeWhile {s : String} (tail : IsTail s) : s.toList.takeWhile (· ≠ ',') = [] := by
  rcases tail with rfl | ⟨more, rfl⟩
  · rfl
  · rw [String.toList_append]
    rfl

namespace Shows

variable {text head last head' last' : String}

/-- What stands behind the head begins with a comma. -/
theorem behind (shown : Shows text head last) (tail : IsTail last) :
    ∃ rest, IsTail rest ∧ text = head ++ rest := by
  obtain ⟨middle, middle_, rfl⟩ := shown
  exact ⟨middle ++ last, middle_.append tail, String.append_assoc⟩

/-- A text begins the way its head does. -/
theorem starts (shown : Shows text head last) {front : List Char} (begins : front <+: head.toList) :
    front <+: text.toList := by
  obtain ⟨middle, _, rfl⟩ := shown
  rw [String.append_assoc, String.toList_append]
  exact begins.trans (List.prefix_append _ _)

theorem takeWhile_eq (shown : Shows text head last) (tail : IsTail last)
    (free : ',' ∉ head.toList) : text.toList.takeWhile (· ≠ ',') = head.toList := by
  obtain ⟨rest, rest_, rfl⟩ := shown.behind tail
  have kept : ∀ c ∈ head.toList, decide (c ≠ ',') = true := by
    intro c listed
    exact decide_eq_true fun comma => free (comma ▸ listed)
  rw [String.toList_append, List.takeWhile_append_of_pos kept, rest_.takeWhile, List.append_nil]

/-- A text has no two heads without commas. -/
theorem head_unique (shown : Shows text head last) (shown' : Shows text head' last')
    (tail : IsTail last) (tail' : IsTail last') (free : ',' ∉ head.toList)
    (free' : ',' ∉ head'.toList) : head = head' := by
  apply String.toList_inj.mp
  rw [← shown.takeWhile_eq tail free, shown'.takeWhile_eq tail' free']

/-- What a text begins with before any comma, its head begins with. -/
theorem head_starts (shown : Shows text head last) (tail : IsTail last) {front : List Char}
    (begins : front <+: text.toList) (free : ',' ∉ front) : front <+: head.toList := by
  obtain ⟨rest, rest_, rfl⟩ := shown.behind tail
  rw [String.toList_append] at begins
  rcases List.prefix_or_prefix_of_prefix begins (List.prefix_append _ _) with inside | ⟨more, rfl⟩
  · exact inside
  · -- Whatever the front has behind the head would begin with a comma.
    have later : more <+: rest.toList := (List.prefix_append_right_inj _).mp begins
    have nothing : more = [] := by
      rcases rest_ with rfl | ⟨text, rfl⟩
      · exact List.prefix_nil.mp later
      · rw [String.toList_append] at later
        cases more with
        | nil => rfl
        | cons c more =>
            have comma : c = ',' := (List.cons_prefix_cons.mp later).1
            exact absurd (List.mem_append_right _ (comma ▸ List.mem_cons_self)) free
    simp only [nothing, List.append_nil, List.prefix_rfl]

/-- No text is both of the selected bank and of the access bank. -/
theorem banked_or_access (banked : Shows text head ",BANKED") (access : Shows text head' ",ACCESS") :
    False := by
  obtain ⟨_, _, rfl⟩ := banked
  obtain ⟨_, _, same⟩ := access
  have lists := congrArg String.toList same
  rw [String.toList_append, String.toList_append (t := ",ACCESS")] at lists
  have long : ",BANKED".toList.length = ",ACCESS".toList.length := by decide
  have ends : ",BANKED".toList = ",ACCESS".toList := List.append_inj_right' lists long
  exact absurd ends (by decide)

end Shows

/-- An offset from FSR2 as text. -/
def indexText (k : UInt8) : String := "[" ++ byte0x k ++ "]"

theorem indexText_inj {k k' : UInt8} (same : indexText k = indexText k') : k = k' := by
  apply byte0x_inj
  apply String.toList_inj.mp
  have lists := congrArg String.toList same
  simp only [indexText, String.toList_append] at lists
  exact List.append_cancel_left (List.append_cancel_right lists)

theorem comma_not_mem_byte0x (k : UInt8) : ',' ∉ (byte0x k).toList :=
  not_mem_byte0x (by decide) (by decide)

theorem comma_not_mem_indexText (k : UInt8) : ',' ∉ (indexText k).toList := by
  simp only [indexText, String.toList_append, List.mem_append, not_or]
  exact ⟨⟨by decide, comma_not_mem_byte0x k⟩, by decide⟩

theorem number_prefix_byte0x (k : UInt8) : ['0', 'x'] <+: (byte0x k).toList := by
  rw [toList_byte0x]
  exact List.prefix_append ['0', 'x'] _

theorem bracket_prefix_indexText (k : UInt8) : ['['] <+: (indexText k).toList := by
  simp only [indexText, String.toList_append, List.append_assoc]
  exact List.prefix_append ['['] _

theorem not_bracket_prefix_byte0x (k : UInt8) : ¬ ['['] <+: (byte0x k).toList := by
  intro begins
  rw [toList_byte0x] at begins
  exact absurd (List.cons_prefix_cons.mp begins).1 (by decide)

theorem not_number_prefix_indexText (k : UInt8) : ¬ ['0', 'x'] <+: (indexText k).toList := by
  intro begins
  simp only [indexText, String.toList_append, List.append_assoc] at begins
  exact absurd (List.cons_prefix_cons.mp begins).1 (by decide)

/-! ## What a file operand is resolved to -/

namespace FileOperand

/-- What a file operand can be resolved to on a device, with the head and the end of its text and the
cell of its byte. -/
inductive Arm (c : Catalog) (f : FileOperand) : String → String → Cell → Prop
  | indexed (found : f.location c = .indexed f.offset) :
      Arm c f (indexText f.offset) "" ⟨c.indexedPlace f.offset, none, none⟩
  | banked (found : f.location c = .banked f.offset) :
      Arm c f (byte0x f.offset) ",BANKED" ⟨c.bankedPlace f.offset, none, none⟩
  | window {r : Register} {kind : Indirect} {n : Fin 3} (listed : r ∈ c.registers)
      (named : Indirect.ofName? r.name = some (kind, n)) :
      Arm c f r.name ",ACCESS" (c.windowCell kind n)
  | register {r : Register} (listed : r ∈ c.registers) (wide : r.width = 8) :
      Arm c f r.name ",ACCESS" ⟨.identifier r.identifier, none, none⟩
  | plain (nameless : c.lookup? (c.memory.remapAccess f.offset) 8 = none) :
      Arm c f (byte0x f.offset) ",ACCESS"
        ⟨.memory .byte (.word (c.memory.remapAccess f.offset) .ptr16), none, none⟩

theorem location_cases (f : FileOperand) (c : Catalog) :
    f.location c = .indexed f.offset ∨ f.location c = .banked f.offset ∨
      f.location c = .absolute (c.memory.remapAccess f.offset) := by
  unfold location DataMemory.resolve
  split
  · exact .inl rfl
  · split
    · exact .inr (.inr rfl)
    · exact .inr (.inl rfl)

end FileOperand

theorem Catalog.of_lookup? {c : Catalog} {address width : Nat} {r : Register}
    (found : c.lookup? address width = some r) : r ∈ c.registers ∧ r.width = width := by
  refine ⟨List.mem_of_find?_eq_some found, ?_⟩
  have matches_ := List.find?_some found
  simp only [Bool.and_eq_true, decide_eq_true_eq] at matches_
  exact matches_.2

/-- The text of a file operand and its cell are of one arm, whatever follows the operand. -/
theorem FileOperand.exists_arm (c : Catalog) (f : FileOperand) {tail : String}
    {namedTail : Nat → String} (tail_ : IsTail tail) (namedTail_ : ∀ a, IsTail (namedTail a)) :
    ∃ head last, Shows (f.text c tail namedTail) head last ∧ f.Arm c head last (f.cell c) := by
  unfold text cell
  rcases f.location_cases c with found | found | found <;> rw [found]
  · exact ⟨_, _, ⟨tail, tail_, by rw [String.append_empty]; rfl⟩, .indexed found⟩
  · exact ⟨_, _, ⟨tail, tail_, rfl⟩, .banked found⟩
  · simp only [Catalog.cellAt, Catalog.absoluteCell, Catalog.indirect?]
    cases listed : c.lookup? (c.memory.remapAccess f.offset) 8 with
    | none => exact ⟨_, _, ⟨tail, tail_, rfl⟩, .plain listed⟩
    | some r =>
        obtain ⟨member, wide⟩ := Catalog.of_lookup? listed
        refine ⟨r.name, ",ACCESS", ⟨_, namedTail_ _, rfl⟩, ?_⟩
        simp only [Option.bind_some]
        cases named : Indirect.ofName? r.name with
        | none => exact .register member wide
        | some window => exact .window member named

theorem Operand.exists_arm (c : Catalog) {o : Operand} {f : FileOperand} (field : o.file? = some f) :
    ∃ head last, Shows (o.text c) head last ∧ f.Arm c head last (f.cell c) := by
  cases o with
  | file g =>
      cases field
      exact f.exists_arm c (.inl rfl) fun _ => .inl rfl
  | fileBit g bit =>
      cases field
      exact f.exists_arm c (isTail_comma _) fun _ => isTail_comma _
  | fileDest g dest =>
      cases field
      exact f.exists_arm c (isTail_comma _) fun _ => isTail_comma _
  | _ => cases field

/-! ## What a cell gives away -/

theorem Indirect.mem_windows {name : String} {window : Indirect × Fin 3}
    (found : Indirect.ofName? name = some window) : (name, window) ∈ Indirect.windows := by
  obtain ⟨front, back, all, _⟩ := List.lookup_eq_some_iff.mp found
  rw [all]
  exact List.mem_append_right _ List.mem_cons_self

/-- No two names are of one window. -/
theorem Indirect.ofName?_inj {name name' : String} {window : Indirect × Fin 3}
    (found : Indirect.ofName? name = some window) (found' : Indirect.ofName? name' = some window) :
    name = name' := by
  have distinct : ∀ x ∈ Indirect.windows, ∀ y ∈ Indirect.windows, x.2 = y.2 → x.1 = y.1 := by
    decide
  exact distinct _ (mem_windows found) _ (mem_windows found') rfl

namespace Catalog

variable {c : Catalog}

/-- The byte at an offset from FSR2 is at the sum of FSR2 and a literal. -/
theorem indexedPlace_eq (c : Catalog) (k : UInt8) :
    c.indexedPlace k = .memory .byte (.binary .add c.core.fsr2.type (.identifier c.core.fsr2)
      (.constant (.of k.toNat c.core.fsr2.type))) := by
  have positive : ¬ (k.toNat : Int) < 0 := by omega
  unfold indexedPlace Expr.addInt
  rw [if_neg positive]
  rfl

theorem indexedPlace_inj (wide : c.core.fsr2.bits = 16) {k k' : UInt8}
    (same : c.indexedPlace k = c.indexedPlace k') : k = k' := by
  rw [indexedPlace_eq, indexedPlace_eq] at same
  have literals : k.toNat % 2 ^ c.core.fsr2.type.literalBits =
      k'.toNat % 2 ^ c.core.fsr2.type.literalBits := by
    injection same with _ sum
    injection sum with _ _ _ literal
    injection literal with constant
    injection constant
  have bits : c.core.fsr2.type.literalBits = 16 := by
    have type : c.core.fsr2.type.bits = 16 := wide
    rw [DataType.literalBits, type]
    rfl
  have small := k.toNat_lt
  have small' := k'.toNat_lt
  rw [bits] at literals
  exact UInt8.toNat_inj.mp (by omega)

theorem bankedPlace_inj {k k' : UInt8} (same : c.bankedPlace k = c.bankedPlace k') : k = k' := by
  have literals : k.toNat % 2 ^ 8 = k'.toNat % 2 ^ 8 := by
    injection same with _ address
    injection address with _ _ literal
    injection literal with constant
    injection constant
  have small := k.toNat_lt
  have small' := k'.toNat_lt
  exact UInt8.toNat_inj.mp (by omega)

/-- No two windows have one cell. -/
theorem Accepted.windowCell_inj (accepted : c.Accepted) {kind kind' : Indirect} {n n' : Fin 3}
    (same : c.windowCell kind n = c.windowCell kind' n') : kind = kind' ∧ n = n' := by
  -- Two kinds differ in when they move the pointer, by how much, or in the shape of the address.
  cases kind <;> cases kind' <;>
    simp only [windowCell, Cell.mk.injEq, Expr.memory.injEq, Expr.identifier.injEq, Expr.add,
      Expr.sameType, Expr.binary.injEq, Option.some.injEq, Prod.mk.injEq, reduceCtorEq, and_false,
      true_and, and_true, Int.reduceNeg] at same ⊢
  case indf.indf => exact accepted.fsr_inj same
  case postInc.postInc => exact accepted.fsr_inj same.1
  case postDec.postDec => exact accepted.fsr_inj same.1
  case preInc.preInc => exact accepted.fsr_inj same.1
  case plusW.plusW => exact accepted.fsr_inj same.2

/-- The address behind a window is a pointer, or a pointer and the working register. -/
theorem place_windowCell (c : Catalog) (kind : Indirect) (n : Fin 3) :
    (c.windowCell kind n).place = .memory .byte (.identifier (c.core.fsr n)) ∨
      (c.windowCell kind n).place = .memory .byte (.binary .add (c.core.fsr n).type
        (.identifier (c.core.fsr n)) (.cast .int16 (.identifier c.core.wreg))) := by
  cases kind with
  | indf | postInc | postDec | preInc => exact .inl rfl
  | plusW => exact .inr rfl

/-- What a window adds to its pointer is no literal. -/
theorem place_windowCell_ne (c : Catalog) (kind : Indirect) (n : Fin 3) (k : UInt8) :
    (c.windowCell kind n).place ≠ c.indexedPlace k := by
  intro place
  rw [indexedPlace_eq] at place
  rcases c.place_windowCell kind n with through | through
  · rw [through] at place
    cases place
  · rw [through] at place
    injection place with _ address
    injection address with _ _ _ offset
    cases offset

/-- No name begins like an offset from FSR2 or like a number. -/
def PlainNames (c : Catalog) : Prop :=
  ∀ r ∈ c.registers, ¬ ['['] <+: r.name.toList ∧ ¬ ['0', 'x'] <+: r.name.toList

/-- A cell is of the byte register of a name, or of the window of a name. -/
def IsNamed (c : Catalog) (cell : Cell) (name : String) : Prop :=
  (∃ r ∈ c.registers, r.name = name ∧ r.width = 8 ∧ cell = ⟨.identifier r.identifier, none, none⟩) ∨
    ∃ kind n, Indirect.ofName? name = some (kind, n) ∧ cell = c.windowCell kind n

end Catalog

/-! ## Text and cell -/

namespace FileOperand.Arm

variable {c : Catalog} {f : FileOperand} {text head last : String} {cell : Cell}

theorem isTail_last (arm : f.Arm c head last cell) : IsTail last := by
  cases arm with
  | indexed _ => exact .inl rfl
  | banked _ => exact isTail_comma "BANKED"
  | window _ _ | register _ _ | plain _ => exact isTail_comma "ACCESS"

theorem cell_of_indexed (arm : f.Arm c head last cell) (plain : c.PlainNames)
    (shown : Shows text head last) {k : UInt8} (claimed : Shows text (indexText k) "") :
    cell.place = c.indexedPlace k := by
  have begins : ['['] <+: head.toList :=
    shown.head_starts arm.isTail_last (claimed.starts (bracket_prefix_indexText k)) (by decide)
  cases arm with
  | indexed _ =>
      have same := shown.head_unique claimed (.inl rfl) (.inl rfl) (comma_not_mem_indexText _)
        (comma_not_mem_indexText k)
      rw [indexText_inj same]
  | banked _ | plain _ => exact absurd begins (not_bracket_prefix_byte0x _)
  | window listed _ | register listed _ => exact absurd begins (plain _ listed).1

theorem shows_of_indexedPlace (arm : f.Arm c head last cell) (wide : c.core.fsr2.bits = 16)
    (shown : Shows text head last) {k : UInt8} (place : cell.place = c.indexedPlace k) :
    Shows text (indexText k) "" := by
  cases arm with
  | indexed _ =>
      rw [← Catalog.indexedPlace_inj wide place]
      exact shown
  | banked _ | register _ _ | plain _ =>
      rw [Catalog.indexedPlace_eq] at place
      cases place
  | window _ _ => exact absurd place (c.place_windowCell_ne _ _ k)

theorem cell_of_banked (arm : f.Arm c head last cell) (shown : Shows text head last) {k : UInt8}
    (claimed : Shows text (byte0x k) ",BANKED") : cell.place = c.bankedPlace k := by
  cases arm with
  | indexed _ =>
      have begins := shown.head_starts (.inl rfl) (claimed.starts (number_prefix_byte0x k))
        (by decide)
      exact absurd begins (not_number_prefix_indexText _)
  | banked _ =>
      have same := shown.head_unique claimed (isTail_comma "BANKED") (isTail_comma "BANKED")
        (comma_not_mem_byte0x _) (comma_not_mem_byte0x k)
      rw [byte0x_inj same]
  | window _ _ | register _ _ | plain _ => exact (claimed.banked_or_access shown).elim

theorem shows_of_bankedPlace (arm : f.Arm c head last cell) (shown : Shows text head last)
    {k : UInt8} (place : cell.place = c.bankedPlace k) : Shows text (byte0x k) ",BANKED" := by
  cases arm with
  | banked _ =>
      rw [← Catalog.bankedPlace_inj place]
      exact shown
  | indexed _ =>
      rw [Catalog.indexedPlace_eq] at place
      cases place
  | register _ _ | plain _ => cases place
  | @window r kind n listed named =>
      rcases c.place_windowCell kind n with through | through <;>
        · rw [through] at place
          cases place

/-- A text that a catalog name fits is the text of a named byte; without commas in names it is the name
of the byte. -/
theorem isNamed_of_named (arm : f.Arm c head last cell) (plain : c.PlainNames)
    (shown : Shows text head last) {r : Register} (listed : r ∈ c.registers)
    (claimed : Shows text r.name ",ACCESS") :
    (∃ shown_ ∈ c.registers, Shows text shown_.name ",ACCESS" ∧ c.IsNamed cell shown_.name) ∧
      ((∀ r ∈ c.registers, ',' ∉ r.name.toList) → c.IsNamed cell r.name) := by
  have access : IsTail ",ACCESS" := isTail_comma "ACCESS"
  have same : (∀ r ∈ c.registers, ',' ∉ r.name.toList) → ∀ r' ∈ c.registers, head = r'.name →
      r'.name = r.name := by
    intro free r' listed' is
    rw [← is]
    exact shown.head_unique claimed arm.isTail_last access (is ▸ free r' listed') (free r listed)
  cases arm with
  | indexed _ =>
      have begins := claimed.head_starts access (shown.starts (bracket_prefix_indexText _))
        (by decide)
      exact absurd begins (plain r listed).1
  | banked _ | plain _ =>
      have begins := claimed.head_starts access (shown.starts (number_prefix_byte0x _)) (by decide)
      exact absurd begins (plain r listed).2
  | @window r' kind n listed' named =>
      have is : c.IsNamed (c.windowCell kind n) r'.name := .inr ⟨kind, n, named, rfl⟩
      exact ⟨⟨r', listed', shown, is⟩, fun free => same free r' listed' rfl ▸ is⟩
  | @register r' listed' wide =>
      have is : c.IsNamed ⟨.identifier r'.identifier, none, none⟩ r'.name :=
        .inl ⟨r', listed', rfl, wide, rfl⟩
      exact ⟨⟨r', listed', shown, is⟩, fun free => same free r' listed' rfl ▸ is⟩

theorem shows_of_isNamed (arm : f.Arm c head last cell) (accepted : c.Accepted)
    (shown : Shows text head last) {name : String} (named : c.IsNamed cell name) :
    Shows text name ",ACCESS" := by
  rcases named with ⟨r, listed, rfl, wide, is⟩ | ⟨kind, n, found, is⟩
  · have place := congrArg Cell.place is
    cases arm with
    | indexed _ | banked _ | plain _ => cases place
    | @window r' kind n listed' named =>
        rcases c.place_windowCell kind n with through | through <;>
          · rw [through] at place
            cases place
    | @register r' _ _ =>
        have same : r'.name = r.name := by
          injection place with id
          injection id
        rw [← same]
        exact shown
  · cases arm with
    | @window r' kind' n' listed' named =>
        obtain ⟨rfl, rfl⟩ := accepted.windowCell_inj is
        rw [Indirect.ofName?_inj found named]
        exact shown
    | indexed _ => exact absurd (congrArg Cell.place is).symm (c.place_windowCell_ne kind n _)
    | banked _ | register _ _ | plain _ =>
        have place := congrArg Cell.place is
        rcases c.place_windowCell kind n with through | through <;>
          · rw [through] at place
            cases place

theorem plain_of_numbered (arm : f.Arm c head last cell) (plain : c.PlainNames)
    (shown : Shows text head last) {k : UInt8} (claimed : Shows text (byte0x k) ",ACCESS") :
    f.offset = k ∧ cell.place = .memory .byte (.word (c.memory.remapAccess k) .ptr16) ∧
      c.lookup? (c.memory.remapAccess k) 8 = none := by
  have access : IsTail ",ACCESS" := isTail_comma "ACCESS"
  have begins : ['0', 'x'] <+: head.toList :=
    shown.head_starts arm.isTail_last (claimed.starts (number_prefix_byte0x k)) (by decide)
  cases arm with
  | indexed _ => exact absurd begins (not_number_prefix_indexText _)
  | banked _ => exact (shown.banked_or_access claimed).elim
  | window listed _ | register listed _ => exact absurd begins (plain _ listed).2
  | plain nameless =>
      have same := shown.head_unique claimed access access (comma_not_mem_byte0x _)
        (comma_not_mem_byte0x k)
      obtain rfl := byte0x_inj same
      exact ⟨rfl, rfl, nameless⟩

theorem shows_of_plain (arm : f.Arm c head last cell) (shown : Shows text head last) {address : Nat}
    (place : cell.place = .memory .byte (.word address .ptr16)) :
    Shows text (byte0x f.offset) ",ACCESS" := by
  cases arm with
  | plain _ => exact shown
  | indexed _ =>
      rw [Catalog.indexedPlace_eq] at place
      cases place
  | banked _ | register _ _ => cases place
  | @window r kind n listed named =>
      rcases c.place_windowCell kind n with through | through <;>
        · rw [through] at place
          cases place

end FileOperand.Arm

/-- On a loaded device whose FSR2 has 16 bits and whose names are plain, the text of a file operand
tells the storage that a lowering uses for it, and the storage the text.

* `[0xKK]..` is the byte at that offset from FSR2, and the other way round;
* `0xKK..,BANKED` is the byte at that offset in the bank of BSR, and the other way round;
* `NAME..,ACCESS` is the byte register or the window of a catalog name that the text fits, and if names
  have no commas it is that of `NAME`; the text of a byte register or window fits its name;
* `0xKK..,ACCESS` is the byte at the access-bank address of the operand's offset, if no byte register
  stands there, and the other way round;
* in extended mode a small offset in the access bank is an index. -/
theorem shows_iff_place {device : Option Device} {c : Catalog}
    (loaded : Catalog.load device = .ok c) (wide : c.core.fsr2.bits = 16) (plain : c.PlainNames)
    {o : Operand} {f : FileOperand} (field : o.file? = some f) :
    let text := o.text c
    let cell := f.cell c
    (∀ k : UInt8, Shows text ("[" ++ byte0x k ++ "]") "" ↔
      cell.place = .memory .byte ((Expr.identifier c.core.fsr2).addInt k.toNat)) ∧
    (∀ k : UInt8, Shows text (byte0x k) ",BANKED" ↔
      cell.place = .memory .byte (.concat .ptr16 (.identifier c.core.bsr) (.byte k))) ∧
    ((∀ r ∈ c.registers, Shows text r.name ",ACCESS" →
        ∃ r ∈ c.registers, Shows text r.name ",ACCESS" ∧ c.IsNamed cell r.name) ∧
      (∀ name, c.IsNamed cell name → Shows text name ",ACCESS") ∧
      ((∀ r ∈ c.registers, ',' ∉ r.name.toList) →
        ∀ r ∈ c.registers, Shows text r.name ",ACCESS" ↔ c.IsNamed cell r.name)) ∧
    (∀ k : UInt8, Shows text (byte0x k) ",ACCESS" ↔
      f.offset = k ∧ cell.place = .memory .byte (.word (c.memory.remapAccess k) .ptr16) ∧
        c.lookup? (c.memory.remapAccess k) 8 = none) ∧
    (f.mode = .extended → f.access = true → f.offset.toNat ≤ 0x5F →
      Shows text ("[" ++ byte0x f.offset ++ "]") "") := by
  intro text cell
  have accepted := Catalog.accepted_of_load loaded
  obtain ⟨head, last, shown, arm⟩ := o.exists_arm c field
  refine ⟨fun k => ⟨arm.cell_of_indexed plain shown, arm.shows_of_indexedPlace wide shown⟩,
    fun k => ⟨arm.cell_of_banked shown, arm.shows_of_bankedPlace shown⟩, ⟨?_, ?_, ?_⟩, ?_, ?_⟩
  · intro r listed claimed
    exact (arm.isNamed_of_named plain shown listed claimed).1
  · intro name named
    exact arm.shows_of_isNamed accepted shown named
  · intro free r listed
    exact ⟨fun claimed => (arm.isNamed_of_named plain shown listed claimed).2 free,
      arm.shows_of_isNamed accepted shown⟩
  · intro k
    constructor
    · exact arm.plain_of_numbered plain shown
    · rintro ⟨rfl, place, _⟩
      exact arm.shows_of_plain shown place
  · intro extended access small
    have found : f.location c = .indexed f.offset := by
      unfold FileOperand.location DataMemory.resolve
      rw [if_pos ⟨extended, access, decide_eq_true small⟩]
    have place : cell.place = c.indexedPlace f.offset := by
      show (c.cellAt (f.location c)).place = _
      rw [found]
      rfl
    exact arm.shows_of_indexedPlace wide shown place

/-- The byte behind the first pointer, with a move of the pointer after the access, and its bit 3. -/
def postInc0Bit : Operand := .fileBit ⟨0xEE, true, .extended⟩ 3

/-- On a built-in device the window shows its name, and the name is that of the cell. -/
theorem shows_iff_place_postInc0 :
    ∃ c, Catalog.load (some Devices.Pic18f4620.device) = .ok c ∧ c.core.fsr2.bits = 16 ∧
      c.PlainNames ∧ postInc0Bit.file? = some ⟨0xEE, true, .extended⟩ ∧
      (∀ r ∈ c.registers, ',' ∉ r.name.toList) ∧
      ∀ r ∈ c.registers, Shows (postInc0Bit.text c) r.name ",ACCESS" ↔
        c.IsNamed (c.windowCell .postInc 0) r.name := by
  obtain ⟨c, loaded, wide, names, resolved⟩ : ∃ c,
      Catalog.load (some Devices.Pic18f4620.device) = .ok c ∧ c.core.fsr2.bits = 16 ∧
        c.registers = Devices.Pic18f4620.device.registers ∧
        FileOperand.cell ⟨0xEE, true, .extended⟩ c = c.windowCell .postInc 0 :=
    ⟨_, rfl, rfl, rfl, rfl⟩
  have plain : c.PlainNames := by
    unfold Catalog.PlainNames
    rw [names]
    decide +kernel
  have free : ∀ r ∈ c.registers, ',' ∉ r.name.toList := by
    rw [names]
    decide +kernel
  obtain ⟨_, _, ⟨_, _, named⟩, _⟩ := shows_iff_place loaded wide plain (o := postInc0Bit) rfl
  refine ⟨c, loaded, wide, plain, rfl, free, ?_⟩
  rw [← resolved]
  exact named free

/-! ## What the text leaves open -/

/-- A place is the byte register of a name, or a byte through the pointer of the window of a name. -/
def Catalog.ReachedBy (c : Catalog) (place : Expr) (name : String) : Prop :=
  (∃ r ∈ c.registers, r.name = name ∧ r.width = 8 ∧ place = .identifier r.identifier) ∨
    ∃ kind n, Indirect.ofName? name = some (kind, n) ∧
      ∃ kind', place = (c.windowCell kind' n).place

/-- A device with a window at an odd address, and with names that have commas. -/
def crossedDevice : Device :=
  { Devices.Pic18f4620.device with
    sfrWindow := 0xF01
    registers := Devices.Pic18f4620.device.registers ++
      [.byte "A" 0xF87 [.single "B,C" 0], .byte "A,B" 0x000 []] }

/-- What the text of an operand of that device is, and where the operand is. -/
theorem crossedDevice_operands :
    ∃ c, Catalog.load (some crossedDevice) = .ok c ∧ c.core.fsr2.bits = 16 ∧
      c.registers = crossedDevice.registers ∧ c.memory = ⟨.traditional, 0x80, 0xF01⟩ ∧
      ((Operand.fileBit ⟨0x87, true, .traditional⟩ 0).text c = "A,B,C,ACCESS" ∧
        (FileOperand.cell ⟨0x87, true, .traditional⟩ c).place =
          .identifier (.register "A" .byte 0xF87)) ∧
      ((Operand.file ⟨0xEF, true, .traditional⟩).text c = "INDF0,ACCESS" ∧
        FileOperand.cell ⟨0xEF, true, .traditional⟩ c = c.windowCell .indf 0) ∧
      ((Operand.file ⟨0x84, true, .traditional⟩).text c = "0x84,ACCESS" ∧
        (FileOperand.cell ⟨0x84, true, .traditional⟩ c).place =
          .memory .byte (.word 0xF85 .ptr16)) :=
  ⟨_, rfl, rfl, rfl, rfl, ⟨by decide +kernel, rfl⟩, ⟨by decide +kernel, rfl⟩,
    ⟨by decide +kernel, rfl⟩⟩

/-- Bit 0 of `A` reads as a bit of `A,B`, the byte behind FSR0 is that of more windows than the one it
shows, and two offsets are of one byte. -/
theorem text_leaves_open :
    ∃ c, Catalog.load (some crossedDevice) = .ok c ∧ c.core.fsr2.bits = 16 ∧ c.PlainNames ∧
      (let bit : FileOperand := ⟨0x87, true, .traditional⟩
       (∃ r ∈ c.registers, r.name = "A,B") ∧
        ¬ (Shows ((Operand.fileBit bit 0).text c) "A,B" ",ACCESS" ↔
          c.ReachedBy (bit.cell c).place "A,B")) ∧
      (let behind : FileOperand := ⟨0xEF, true, .traditional⟩
       (∃ r ∈ c.registers, r.name = "POSTINC0") ∧
        ¬ (Shows ((Operand.file behind).text c) "POSTINC0" ",ACCESS" ↔
          c.ReachedBy (behind.cell c).place "POSTINC0")) ∧
      (let low : FileOperand := ⟨0x84, true, .traditional⟩
       ¬ (Shows ((Operand.file low).text c) (byte0x 0x85) ",ACCESS" ↔
          (low.cell c).place = .memory .byte (.word (c.memory.remapAccess 0x85) .ptr16) ∧
            c.lookup? (c.memory.remapAccess 0x85) 8 = none)) := by
  obtain ⟨c, loaded, wide, registers, memory, ⟨bitText, bitPlace⟩, ⟨behindText, behindCell⟩,
    ⟨lowText, lowPlace⟩⟩ := crossedDevice_operands
  have plain : c.PlainNames := by
    unfold Catalog.PlainNames
    rw [registers]
    decide +kernel
  have access : IsTail ",ACCESS" := .inr ⟨"ACCESS", by decide⟩
  refine ⟨c, loaded, wide, plain, ⟨?listed, ?comma⟩, ⟨?window, ?pointer⟩, ?offset⟩
  case listed | window =>
    rw [registers]
    decide +kernel
  case comma =>
    intro iff
    have shown : Shows ((Operand.fileBit ⟨0x87, true, .traditional⟩ 0).text c) "A,B" ",ACCESS" :=
      ⟨",C", .inr ⟨"C", by decide⟩, by rw [bitText]; decide⟩
    rcases iff.mp shown with ⟨r, _, name, _, place⟩ | ⟨kind, n, window, _⟩
    · rw [bitPlace] at place
      injection place with id
      injection id with shown_
      rw [name] at shown_
      exact absurd shown_ (by decide)
    · have none_ : Indirect.ofName? "A,B" = none := by decide
      rw [none_] at window
      cases window
  case pointer =>
    intro iff
    have reached : c.ReachedBy (FileOperand.cell ⟨0xEF, true, .traditional⟩ c).place "POSTINC0" :=
      .inr ⟨.postInc, 0, by decide, .indf, by rw [behindCell]⟩
    have shown : Shows ((Operand.file ⟨0xEF, true, .traditional⟩).text c) "INDF0" ",ACCESS" :=
      ⟨"", .inl rfl, by rw [behindText]; decide⟩
    have same : "POSTINC0" = "INDF0" :=
      (iff.mpr reached).head_unique shown access access (by decide) (by decide)
    exact absurd same (by decide)
  case offset =>
    intro low iff
    have remapped : c.memory.remapAccess 0x85 = 0xF85 := by rw [memory]; decide
    have nameless : c.lookup? 0xF85 8 = none := by
      unfold Catalog.lookup?
      rw [registers]
      decide +kernel
    have shown : Shows ((Operand.file ⟨0x84, true, .traditional⟩).text c) (byte0x 0x84) ",ACCESS" :=
      ⟨"", .inl rfl, by rw [lowText]; decide⟩
    rw [remapped] at iff
    have same : byte0x 0x85 = byte0x 0x84 :=
      (iff.mpr ⟨lowPlace, nameless⟩).head_unique shown access access (comma_not_mem_byte0x _)
        (comma_not_mem_byte0x _)
    exact absurd (byte0x_inj same) (by decide)

end RegisterTransfer.Pic18
