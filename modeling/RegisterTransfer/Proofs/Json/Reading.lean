/-
# RegisterTransfer.Proofs.Json.Reading -- texts of JSON values

`ValueText text v` is the grammar of JSON: `text` writes `v`, with any blanks between its parts.  Strings
may escape characters by letter or by code unit, except for surrogates; numbers are integers in their
shortest form.

* `readString?_of_stringText`, `readNumber?_signedDecimal`: strings and numbers are read up to their end;
* `readValue?_of_valueText`: a reader with fuel for the length of a text gives its value and what follows;
* `parse?_of_itemText`: every text of a value is parsed as that value, so no text has two.
-/
import RegisterTransfer.Json.Reader

namespace RegisterTransfer.Json

set_option autoImplicit false

/-! ## Grammar -/

def IsBlankText (cs : List Char) : Prop := ∀ c ∈ cs, isBlank c = true

/-- The text of one character of a string. -/
inductive CharText : List Char → Char → Prop
  | plain {c : Char} (visible : 32 ≤ c.toNat) (quote : c ≠ '"') (backslash : c ≠ '\\') : CharText [c] c
  | simple {e c : Char} (named : simpleEscape? e = some c) : CharText ['\\', e] c
  | unit {a b c d : Char} {n : Nat} (digits : readUnit? [a, b, c, d] = some (n, []))
      (scalar : n < 0xD800 ∨ 0xDFFF < n) : CharText ['\\', 'u', a, b, c, d] (Char.ofNat n)

/-- The text of the characters of a string. -/
inductive StringText : List Char → List Char → Prop
  | nil : StringText [] []
  | cons {text texts : List Char} {c : Char} {cs : List Char} (first : CharText text c)
      (rest : StringText texts cs) : StringText (text ++ texts) (c :: cs)

mutual

/-- The text of a value. -/
inductive ValueText : List Char → Json → Prop
  | null : ValueText ['n', 'u', 'l', 'l'] .null
  | yes : ValueText ['t', 'r', 'u', 'e'] (.bool true)
  | no : ValueText ['f', 'a', 'l', 's', 'e'] (.bool false)
  | integer (n : Int) : ValueText (Numeral.signedDecimal n).toList (.integer n)
  | text {cs : List Char} {s : String} (chars : StringText cs s.toList) :
      ValueText ('"' :: (cs ++ ['"'])) (.text s)
  | emptyList {blanks : List Char} (blank : IsBlankText blanks) :
      ValueText ('[' :: (blanks ++ [']'])) (.list [])
  | list {cs : List Char} {items : List Json} (parts : ItemsText cs items) :
      ValueText ('[' :: (cs ++ [']'])) (.list items)
  | emptyObject {blanks : List Char} (blank : IsBlankText blanks) :
      ValueText ('\x7b' :: (blanks ++ ['\x7d'])) (.object [])
  | object {cs : List Char} {members : List (String × Json)} (parts : MembersText cs members) :
      ValueText ('\x7b' :: (cs ++ ['\x7d'])) (.object members)

/-- The text of an item of a list. -/
inductive ItemText : List Char → Json → Prop
  | mk {before cs after : List Char} {v : Json} (blank : IsBlankText before) (value : ValueText cs v)
      (blank' : IsBlankText after) : ItemText (before ++ (cs ++ after)) v

/-- The text of one or more items. -/
inductive ItemsText : List Char → List Json → Prop
  | last {cs : List Char} {v : Json} (one : ItemText cs v) : ItemsText cs [v]
  | more {cs texts : List Char} {v : Json} {items : List Json} (one : ItemText cs v)
      (rest : ItemsText texts items) : ItemsText (cs ++ ',' :: texts) (v :: items)

/-- The text of a member of an object. -/
inductive MemberText : List Char → String × Json → Prop
  | mk {before name colon cs : List Char} {key : String} {v : Json} (blank : IsBlankText before)
      (named : StringText name key.toList) (blank' : IsBlankText colon) (value : ItemText cs v) :
      MemberText (before ++ '"' :: (name ++ '"' :: (colon ++ ':' :: cs))) (key, v)

/-- The text of one or more members. -/
inductive MembersText : List Char → List (String × Json) → Prop
  | last {cs : List Char} {m : String × Json} (one : MemberText cs m) : MembersText cs [m]
  | more {cs texts : List Char} {m : String × Json} {members : List (String × Json)}
      (one : MemberText cs m) (rest : MembersText texts members) :
      MembersText (cs ++ ',' :: texts) (m :: members)

end

/-! ## Blanks -/

theorem skipBlanks_append {blanks : List Char} (blank : IsBlankText blanks) (rest : List Char) :
    skipBlanks (blanks ++ rest) = skipBlanks rest :=
  List.dropWhile_append_of_pos blank

theorem skipBlanks_cons {c : Char} (visible : isBlank c = false) (rest : List Char) :
    skipBlanks (c :: rest) = c :: rest :=
  List.dropWhile_cons_of_neg (by simp [visible])

/-! ## Strings -/

theorem readUnit?_append {a b c d : Char} {n : Nat} (digits : readUnit? [a, b, c, d] = some (n, []))
    (rest : List Char) : readUnit? (a :: b :: c :: d :: rest) = some (n, rest) := by
  unfold readUnit? at digits ⊢
  cases readA : hexValue? a with
  | none => simp [readA] at digits
  | some a =>
      cases readB : hexValue? b with
      | none => simp [readA, readB] at digits
      | some b =>
          cases readC : hexValue? c with
          | none => simp [readA, readB, readC] at digits
          | some c =>
              cases readD : hexValue? d with
              | none => simp [readA, readB, readC, readD] at digits
              | some d => simpa [readA, readB, readC, readD] using digits

/-- A code unit that is no surrogate is a character on its own. -/
theorem readUnicode?_of_scalar {cs rest : List Char} {n : Nat} (unit : readUnit? cs = some (n, rest))
    (scalar : n < 0xD800 ∨ 0xDFFF < n) : readUnicode? cs = some (some (Char.ofNat n), rest) := by
  unfold readUnicode?
  simp only [unit, Option.bind_eq_bind, Option.bind_some]
  rw [if_neg (by omega), if_neg (by omega)]
  rfl

/-- The text of a character is read as that character. -/
theorem readString?_of_charText {text : List Char} {c : Char} (one : CharText text c) (fuel : Nat)
    (rest found : List Char) (whole : Bool) :
    readString? (fuel + 1) (text ++ rest) found whole = readString? fuel rest (c :: found) whole := by
  cases one with
  | plain visible quote backslash =>
      simp only [List.cons_append, List.nil_append]
      rw [readString?]
      · rw [if_neg (by simp [backslash]; omega)]
      · exact quote
      · rintro _ rfl
        exact absurd rfl backslash
      · rintro _ _ rfl
        exact absurd rfl backslash
  | @simple e c named =>
      have letter : e ≠ 'u' := by
        rintro rfl
        cases named
      simp only [List.cons_append, List.nil_append]
      rw [readString?]
      · simp only [named]
      · exact letter
  | @unit a b c d n digits scalar =>
      simp only [List.cons_append, List.nil_append]
      rw [readString?, readUnicode?_of_scalar (readUnit?_append digits rest) scalar]

/-- The text of a string is read up to the quote behind it. -/
theorem readString?_of_stringText {text cs : List Char} (chars : StringText text cs) {fuel : Nat}
    (enough : text.length < fuel) (rest found : List Char) (whole : Bool) :
    readString? fuel (text ++ '"' :: rest) found whole =
      some (found.reverse ++ cs, whole, rest) := by
  induction chars generalizing fuel found with
  | nil =>
      obtain ⟨fuel, rfl⟩ := Nat.exists_eq_succ_of_ne_zero (Nat.ne_of_gt enough)
      rw [List.nil_append, readString?, List.append_nil]
  | @cons text texts c cs first _ ih =>
      have long : 0 < text.length := by
        cases first <;> simp
      obtain ⟨fuel, rfl⟩ :=
        Nat.exists_eq_succ_of_ne_zero (Nat.ne_of_gt (Nat.lt_of_le_of_lt (Nat.zero_le _) enough))
      rw [List.length_append] at enough
      rw [List.append_assoc, readString?_of_charText first, ih (by omega), List.reverse_cons,
        List.append_assoc]
      rfl

theorem readText?_of_stringText {text : List Char} {s : String} (chars : StringText text s.toList)
    (rest : List Char) : readText? (text ++ '"' :: rest) = some (some s, rest) := by
  have enough : text.length < (text ++ '"' :: rest).length + 1 := by
    rw [List.length_append]
    omega
  rw [readText?, readString?_of_stringText chars enough]
  simp [String.ofList_toList]

/-! ## Numbers -/

/-- A number does not go on in what follows it. -/
def Stops (rest : List Char) : Prop :=
  ∀ c ∈ rest.head?, c.isDigit = false ∧ c ≠ '.' ∧ c ≠ 'e' ∧ c ≠ 'E'

theorem spanDigits_append {digits rest : List Char} (all : ∀ c ∈ digits, c.isDigit = true)
    (stops : Stops rest) : spanDigits (digits ++ rest) = (digits, rest) := by
  have none_ : rest.takeWhile Char.isDigit = [] ∧ rest.dropWhile Char.isDigit = rest := by
    cases rest with
    | nil => exact ⟨rfl, rfl⟩
    | cons c rest =>
        have other := (stops c rfl).1
        exact ⟨List.takeWhile_cons_of_neg (by simp [other]), List.dropWhile_cons_of_neg (by simp [other])⟩
  rw [spanDigits, List.takeWhile_append_of_pos all, List.dropWhile_append_of_pos all, none_.1, none_.2,
    List.append_nil]

theorem digitsValue_toDigits (n : Nat) : digitsValue (Nat.toDigits 10 n) = n := by
  have value := Nat.ofDigitChars_ten_toDigits (n := n)
  rw [Nat.ofDigitChars] at value
  rw [digitsValue]
  simpa only [Nat.mul_comm] using value

/-- The numeral of a number other than zero begins with another digit than zero. -/
theorem head?_toDigits {n : Nat} (nonzero : n ≠ 0) : (Nat.toDigits 10 n).head? ≠ some '0' := by
  induction n using Nat.strongRecOn with
  | ind n ih =>
      by_cases small : n < 10
      · have code := Nat.toNat_digitChar_of_lt_ten small
        rw [Nat.toDigits_of_lt_base small]
        intro zero
        rw [Option.some.inj zero] at code
        have zero : '0'.toNat = 48 := rfl
        omega
      · have front := ih (n / 10) (by omega) (by omega)
        obtain ⟨c, cs, high⟩ := List.exists_cons_of_ne_nil (Nat.toDigits_ne_nil (n := n / 10) (b := 10))
        rw [high] at front
        rw [Nat.toDigits_of_base_le (by decide) (by omega), high]
        exact front

theorem readWhole?_toDigits (n : Nat) {rest : List Char} (stops : Stops rest) :
    readWhole? (Nat.toDigits 10 n ++ rest) = some (Nat.toDigits 10 n, rest) := by
  have all : ∀ c ∈ Nat.toDigits 10 n, c.isDigit = true :=
    fun _ listed => Nat.isDigit_of_mem_toDigits (by decide) (by decide) listed
  rw [readWhole?, spanDigits_append all stops]
  split
  case h_1 _ _ nothing => exact absurd (Prod.mk.inj nothing).1 Nat.toDigits_ne_nil
  case h_2 _ second later _ leading =>
    have digits : Nat.toDigits 10 n = '0' :: second :: later := (Prod.mk.inj leading).1
    by_cases zero : n = 0
    · subst zero
      cases digits
    · exact absurd (by rw [digits]; rfl) (head?_toDigits zero)
  case h_3 => rfl

theorem readFraction?_of_stops {rest : List Char} (stops : Stops rest) :
    readFraction? rest = some ([], rest) := by
  unfold readFraction?
  split
  · exact absurd rfl (stops _ rfl).2.1
  · rfl

theorem readExponent?_of_stops {rest : List Char} (stops : Stops rest) :
    readExponent? rest = some ([], rest) := by
  cases rest with
  | nil => rfl
  | cons c rest =>
      obtain ⟨-, -, lower, upper⟩ := stops c rfl
      unfold readExponent?
      simp only [lower, upper, or_self, if_false]

/-- A number in its shortest form is read up to its end. -/
theorem readNumber?_signedDecimal (n : Int) {rest : List Char} (stops : Stops rest) :
    readNumber? ((Numeral.signedDecimal n).toList ++ rest) = some (.integer n, rest) := by
  cases n with
  | ofNat n =>
      have positive : (Nat.toDigits 10 n).head? ≠ some '-' := by
        intro minus
        have digit := Nat.isDigit_of_mem_toDigits (b := 10) (by decide) (by decide)
          (List.mem_of_mem_head? minus)
        exact absurd digit (by decide)
      rw [Numeral.signedDecimal, Numeral.decimal, String.toList_ofList, readNumber?]
      simp [positive, readWhole?_toDigits n stops, readFraction?_of_stops stops,
        readExponent?_of_stops stops, digitsValue_toDigits]
  | negSucc n =>
      rw [Numeral.signedDecimal, Numeral.decimal, String.toList_append, String.toList_ofList,
        readNumber?]
      simp [readWhole?_toDigits (n + 1) stops, readFraction?_of_stops stops,
        readExponent?_of_stops stops, digitsValue_toDigits]
      omega

/-! ## Values -/

/-- What ends an item, and what ends a list or an object. -/
def IsDelimiter (c : Char) : Prop := c = ',' ∨ c = ']' ∨ c = '\x7d'

theorem IsDelimiter.not_isBlank {c : Char} (ends : IsDelimiter c) : isBlank c = false := by
  rcases ends with rfl | rfl | rfl <;> rfl

/-- No number goes on in a blank. -/
theorem stops_blank {c : Char} (space : isBlank c = true) (rest : List Char) : Stops (c :: rest) := by
  intro first found
  cases found
  simp only [isBlank, Bool.or_eq_true, decide_eq_true_eq] at space
  rcases space with ((rfl | rfl) | rfl) | rfl <;> decide

/-- No number goes on in a delimiter, with blanks before it or not. -/
theorem IsDelimiter.stops {c : Char} (ends : IsDelimiter c) {after : List Char}
    (blank : IsBlankText after) (rest : List Char) : Stops (after ++ c :: rest) := by
  cases after with
  | nil =>
      intro first found
      cases found
      rcases ends with rfl | rfl | rfl <;> decide
  | cons other after => exact stops_blank (blank other List.mem_cons_self) _

theorem skipBlanks_delimiter {c : Char} (ends : IsDelimiter c) {after : List Char}
    (blank : IsBlankText after) (rest : List Char) : skipBlanks (after ++ c :: rest) = c :: rest := by
  rw [skipBlanks_append blank, skipBlanks_cons ends.not_isBlank]

/-- A number begins with a digit or a minus sign. -/
theorem exists_head_signedDecimal (n : Int) :
    ∃ c rest, (Numeral.signedDecimal n).toList = c :: rest ∧ (c.isDigit = true ∨ c = '-') := by
  cases n with
  | ofNat n =>
      obtain ⟨c, rest, digits⟩ := List.exists_cons_of_ne_nil (Nat.toDigits_ne_nil (n := n) (b := 10))
      refine ⟨c, rest, ?_, .inl ?_⟩
      · rw [Numeral.signedDecimal, Numeral.decimal, String.toList_ofList, digits]
      · refine Nat.isDigit_of_mem_toDigits (b := 10) (n := n) (by decide) (by decide) ?_
        rw [digits]
        exact List.mem_cons_self
  | negSucc n =>
      refine ⟨'-', (Numeral.decimal (n + 1)).toList, ?_, .inr rfl⟩
      rw [Numeral.signedDecimal, String.toList_append]
      rfl

theorem ne_of_number {c d : Char} (number : c.isDigit = true ∨ c = '-')
    (other : d.isDigit = false ∧ d ≠ '-') : c ≠ d := by
  rintro rfl
  rcases number with digit | rfl
  · rw [other.1] at digit
    cases digit
  · exact other.2 rfl

/-- A value begins with a character that is neither blank nor a delimiter. -/
theorem ValueText.exists_head {cs : List Char} {v : Json} (text : ValueText cs v) :
    ∃ c rest, cs = c :: rest ∧ isBlank c = false ∧ ¬ IsDelimiter c := by
  unfold IsDelimiter
  cases text with
  | null => exact ⟨_, _, rfl, by decide⟩
  | yes => exact ⟨_, _, rfl, by decide⟩
  | no => exact ⟨_, _, rfl, by decide⟩
  | text chars => exact ⟨_, _, rfl, by decide⟩
  | emptyList blank => exact ⟨_, _, rfl, by decide⟩
  | list parts => exact ⟨_, _, rfl, by decide⟩
  | emptyObject blank => exact ⟨_, _, rfl, by decide⟩
  | object parts => exact ⟨_, _, rfl, by decide⟩
  | integer n =>
      obtain ⟨c, rest, begins, number⟩ := exists_head_signedDecimal n
      have other := fun d => ne_of_number (c := c) (d := d) number
      refine ⟨c, rest, begins, ?_, ?_⟩
      · simp only [isBlank, Bool.or_eq_false_iff, decide_eq_false_iff_not]
        exact ⟨⟨⟨other _ (by decide), other _ (by decide)⟩, other _ (by decide)⟩, other _ (by decide)⟩
      · simp only [not_or]
        exact ⟨other _ (by decide), other _ (by decide), other _ (by decide)⟩

/-- Blanks before a value are skipped. -/
theorem readValue?_append {blanks : List Char} (blank : IsBlankText blanks) (fuel : Nat)
    (rest : List Char) : readValue? fuel (blanks ++ rest) = readValue? fuel rest := by
  cases fuel with
  | zero => rfl
  | succ fuel => simp only [readValue?, skipBlanks_append blank]

/-- A list that does not end at once has items. -/
theorem readValue?_list {fuel : Nat} {c : Char} {rest more : List Char}
    (first : skipBlanks rest = c :: more) (other : ¬ IsDelimiter c) :
    readValue? (fuel + 1) ('[' :: rest) =
      (readItems? fuel rest).map fun (items, left) => (.list items, left) := by
  have bracket : c ≠ ']' := fun same => other (.inr (.inl same))
  simp only [readValue?, skipBlanks_cons (show isBlank '[' = false from rfl), first]
  split
  · rename_i same
    exact absurd (List.cons.inj same).1 bracket
  · cases readItems? fuel rest <;> rfl

theorem readValue?_object {fuel : Nat} {c : Char} {rest more : List Char}
    (first : skipBlanks rest = c :: more) (other : ¬ IsDelimiter c) :
    readValue? (fuel + 1) ('\x7b' :: rest) =
      (readMembers? fuel rest).map fun (members, left) => (ofMembers members, left) := by
  have brace : c ≠ '\x7d' := fun same => other (.inr (.inr same))
  simp only [readValue?, skipBlanks_cons (show isBlank '\x7b' = false from rfl), first]
  split
  · rename_i same
    exact absurd (List.cons.inj same).1 brace
  · cases readMembers? fuel rest <;> rfl

theorem readValue?_integer (n : Int) (fuel : Nat) {rest : List Char} (stops : Stops rest) :
    readValue? (fuel + 1) ((Numeral.signedDecimal n).toList ++ rest) = some (.integer n, rest) := by
  obtain ⟨c, cs, begins, number⟩ := exists_head_signedDecimal n
  obtain ⟨d, ds, same, visible, -⟩ := (ValueText.integer n).exists_head
  have other := fun d => ne_of_number (c := c) (d := d) number
  rw [begins] at same
  cases same
  have first : skipBlanks (c :: cs ++ rest) = c :: cs ++ rest := skipBlanks_cons visible _
  have read := readNumber?_signedDecimal n stops
  rw [begins] at read ⊢
  rw [readValue?, first]
  split
  case h_1 nothing => cases nothing
  case h_2 same => exact absurd (List.cons.inj same).1 (other _ (by decide))
  case h_3 same => exact absurd (List.cons.inj same).1 (other _ (by decide))
  case h_4 same => exact absurd (List.cons.inj same).1 (other _ (by decide))
  case h_5 same => exact absurd (List.cons.inj same).1 (other _ (by decide))
  case h_6 same => exact absurd (List.cons.inj same).1 (other _ (by decide))
  case h_7 same => exact absurd (List.cons.inj same).1 (other _ (by decide))
  case h_8 => exact read

/-- Members whose keys are all there make an object. -/
theorem ofMembers_map (members : List (String × Json)) :
    ofMembers (members.map fun m => (some m.1, m.2)) = .object members := by
  have all : (members.map fun m => (some m.1, m.2)).mapM
      (fun m : Option String × Json => m.1.map fun key => (key, m.2)) = some members := by
    induction members with
    | nil => rfl
    | cons m rest ih =>
        rw [List.map_cons, List.mapM_cons, ih]
        rfl
  rw [ofMembers, all]

theorem ItemsText.exists_head {cs : List Char} {items : List Json} (parts : ItemsText cs items) :
    ∃ c more, ¬ IsDelimiter c ∧ ∀ rest, skipBlanks (cs ++ rest) = c :: (more ++ rest) := by
  suffices one : ∀ {cs v}, ItemText cs v → ∃ c more, ¬ IsDelimiter c ∧
      ∀ rest, skipBlanks (cs ++ rest) = c :: (more ++ rest) by
    cases parts with
    | last item => exact one item
    | @more cs texts v items item later =>
        obtain ⟨c, more, other, skipped⟩ := one item
        refine ⟨c, more ++ ',' :: texts, other, fun rest => ?_⟩
        rw [List.append_assoc, skipped, List.append_assoc]
  rintro _ v ⟨blank, value, -⟩
  rename_i before cs after
  obtain ⟨c, rest', rfl, visible, other⟩ := value.exists_head
  refine ⟨c, rest' ++ after, other, fun rest => ?_⟩
  rw [List.append_assoc, skipBlanks_append blank]
  simp only [List.cons_append, List.append_assoc]
  exact skipBlanks_cons visible _

theorem MembersText.exists_head {cs : List Char} {members : List (String × Json)}
    (parts : MembersText cs members) :
    ∃ more, ∀ rest, skipBlanks (cs ++ rest) = '"' :: (more ++ rest) := by
  suffices one : ∀ {cs m}, MemberText cs m → ∃ more,
      ∀ rest, skipBlanks (cs ++ rest) = '"' :: (more ++ rest) by
    cases parts with
    | last member => exact one member
    | @more cs texts v members member later =>
        obtain ⟨more, skipped⟩ := one member
        refine ⟨more ++ ',' :: texts, fun rest => ?_⟩
        rw [List.append_assoc, skipped, List.append_assoc]
  rintro _ _ ⟨blank, -, -, -⟩
  rename_i before name colon cs key v
  refine ⟨name ++ '"' :: (colon ++ ':' :: cs), fun rest => ?_⟩
  rw [List.append_assoc, skipBlanks_append blank]
  exact skipBlanks_cons rfl _

-- Fuel falls by one at a value and by one at an item or a member.  Both have characters of their own, so
-- twice the length of a text is enough.
mutual

/-- The text of a value is read up to its end, whatever blanks stand before it. -/
theorem readValue?_of_valueText : ∀ {cs : List Char} {v : Json}, ValueText cs v →
    ∀ {fuel : Nat} {before rest : List Char}, 2 * cs.length ≤ fuel + 1 → IsBlankText before →
      Stops rest → readValue? (fuel + 1) (before ++ (cs ++ rest)) = some (v, rest)
  | _, _, .null, _, _, _, _, blank, _ => by
      rw [readValue?_append blank]
      rfl
  | _, _, .yes, _, _, _, _, blank, _ => by
      rw [readValue?_append blank]
      rfl
  | _, _, .no, _, _, _, _, blank, _ => by
      rw [readValue?_append blank]
      rfl
  | _, _, .integer n, fuel, _, _, _, blank, stops => by
      rw [readValue?_append blank, readValue?_integer n fuel stops]
  | _, _, .text chars, _, _, _, _, blank, _ => by
      rw [readValue?_append blank, List.cons_append, List.append_assoc]
      simp only [readValue?, skipBlanks_cons (show isBlank '"' = false from rfl), List.cons_append,
        List.nil_append, readText?_of_stringText chars]
  | _, _, .emptyList blanks, _, _, rest, _, blank, _ => by
      rw [readValue?_append blank, List.cons_append, List.append_assoc]
      simp only [readValue?, skipBlanks_cons (show isBlank '[' = false from rfl), List.cons_append,
        List.nil_append, skipBlanks_delimiter (.inr (.inl rfl)) blanks rest]
  | _, _, .emptyObject blanks, _, _, rest, _, blank, _ => by
      rw [readValue?_append blank, List.cons_append, List.append_assoc]
      simp only [readValue?, skipBlanks_cons (show isBlank '\x7b' = false from rfl), List.cons_append,
        List.nil_append, skipBlanks_delimiter (.inr (.inr rfl)) blanks rest]
  | _, _, @ValueText.list cs items parts, fuel, _, rest, enough, blank, _ => by
      obtain ⟨c, more, other, skipped⟩ := parts.exists_head
      have read := readItems?_of_itemsText parts fuel rest (by
        simp only [List.length_cons, List.length_append, List.length_nil] at enough
        omega)
      rw [readValue?_append blank, List.cons_append, List.append_assoc, List.cons_append,
        List.nil_append, readValue?_list (skipped (']' :: rest)) other, read]
      rfl
  | _, _, @ValueText.object cs members parts, fuel, _, rest, enough, blank, _ => by
      obtain ⟨more, skipped⟩ := parts.exists_head
      have read := readMembers?_of_membersText parts fuel rest (by
        simp only [List.length_cons, List.length_append, List.length_nil] at enough
        omega)
      rw [readValue?_append blank, List.cons_append, List.append_assoc, List.cons_append,
        List.nil_append, readValue?_object (skipped ('\x7d' :: rest)) (by unfold IsDelimiter; decide),
        read, Option.map_some]
      exact congrArg (fun v => some (v, rest)) (ofMembers_map members)

/-- The text of an item is read up to the delimiter behind it. -/
theorem readValue?_of_itemText : ∀ {cs : List Char} {v : Json}, ItemText cs v →
    ∀ (fuel : Nat) (rest : List Char) {c : Char}, 2 * cs.length ≤ fuel → IsDelimiter c →
      ∃ left, readValue? fuel (cs ++ c :: rest) = some (v, left) ∧ skipBlanks left = c :: rest
  | _, _, @ItemText.mk before cs after v blank value blank', fuel, rest, c, enough, ends => by
      obtain ⟨first, others, begins, -⟩ := value.exists_head
      have there : 0 < cs.length := by
        rw [begins]
        exact Nat.succ_pos _
      simp only [List.length_append] at enough
      obtain ⟨fuel, rfl⟩ : ∃ k, fuel = k + 1 := ⟨fuel - 1, by omega⟩
      refine ⟨after ++ c :: rest, ?_, skipBlanks_delimiter ends blank' rest⟩
      rw [List.append_assoc, List.append_assoc]
      exact readValue?_of_valueText value (by omega) blank (ends.stops blank' rest)

/-- The text of some items is read up to the bracket behind it. -/
theorem readItems?_of_itemsText : ∀ {cs : List Char} {items : List Json}, ItemsText cs items →
    ∀ (fuel : Nat) (rest : List Char), 2 * cs.length < fuel →
      readItems? fuel (cs ++ ']' :: rest) = some (items, rest)
  | _, _, .last item, fuel + 1, rest, enough => by
      obtain ⟨left, read, skipped⟩ :=
        readValue?_of_itemText item fuel rest (Nat.le_of_lt_succ enough) (.inr (.inl rfl))
      simp only [readItems?, read, skipped]
  | _, _, @ItemsText.more cs texts v items item later, fuel + 1, rest, enough => by
      simp only [List.length_append, List.length_cons] at enough
      obtain ⟨left, read, skipped⟩ :=
        readValue?_of_itemText item fuel (texts ++ ']' :: rest) (by omega) (.inl rfl)
      have read' := readItems?_of_itemsText later fuel rest (by omega)
      rw [List.append_assoc, List.cons_append]
      simp only [readItems?, read, skipped, read']

/-- The text of a member is read up to the delimiter behind it, which ends the object or goes on to more
members. -/
theorem readMembers?_of_memberText : ∀ {cs : List Char} {m : String × Json}, MemberText cs m →
    ∀ (fuel : Nat) (rest : List Char), 2 * cs.length ≤ fuel →
      readMembers? (fuel + 1) (cs ++ '\x7d' :: rest) = some ([(some m.1, m.2)], rest) ∧
        readMembers? (fuel + 1) (cs ++ ',' :: rest) =
          (readMembers? fuel rest).map fun (members, left) => ((some m.1, m.2) :: members, left)
  | _, _, @MemberText.mk before name colon cs key v blank named blank' value, fuel, rest, enough => by
      simp only [List.length_append, List.length_cons] at enough
      have skip : ∀ rest, skipBlanks (before ++ '"' :: rest) = '"' :: rest := fun rest => by
        rw [skipBlanks_append blank, skipBlanks_cons rfl]
      have skip' : ∀ rest, skipBlanks (colon ++ ':' :: rest) = ':' :: rest := fun rest => by
        rw [skipBlanks_append blank', skipBlanks_cons rfl]
      obtain ⟨left, read, skipped⟩ :=
        readValue?_of_itemText value fuel rest (by omega) (.inr (.inr rfl))
      obtain ⟨left', read', skipped'⟩ :=
        readValue?_of_itemText value fuel rest (by omega) (.inl rfl)
      simp only [List.append_assoc, List.cons_append, readMembers?, skip, readText?_of_stringText named,
        skip', read, skipped, read', skipped']
      cases readMembers? fuel rest <;> simp

/-- The text of some members is read up to the brace behind it. -/
theorem readMembers?_of_membersText : ∀ {cs : List Char} {members : List (String × Json)},
    MembersText cs members → ∀ (fuel : Nat) (rest : List Char), 2 * cs.length < fuel →
      readMembers? fuel (cs ++ '\x7d' :: rest) = some (members.map fun m => (some m.1, m.2), rest)
  | _, _, .last member, fuel + 1, rest, enough =>
      (readMembers?_of_memberText member fuel rest (Nat.le_of_lt_succ enough)).1
  | _, _, @MembersText.more cs texts m members member later, fuel + 1, rest, enough => by
      simp only [List.length_append, List.length_cons] at enough
      have read := readMembers?_of_membersText later fuel rest (by omega)
      rw [List.append_assoc, List.cons_append, (readMembers?_of_memberText member fuel _ (by omega)).2, read]
      rfl

end

end RegisterTransfer.Json
