/-
# RegisterTransfer.Proofs.Json.Writing -- what is written of a JSON value is its text

`compact` and `pretty` differ in the blanks they put between the parts of a value.  Both write texts of the
grammar in `Proofs.Json.Reading`, so both are parsed back.  Only values are meant that a text can stand for:
`Writable` leaves out numbers kept as they were spelled, and strings that no text holds.

* `valueText_compact`, `valueText_pretty`: either way of writing gives a text of the value;
* `newline_not_mem_compact`: a value without blanks stands on one line, whatever characters are in it.
-/
import Mathlib.Tactic.SplitIfs
import RegisterTransfer.Proofs.Json.Reading

namespace RegisterTransfer.Json

set_option autoImplicit false

/-! ## Values that texts stand for -/

mutual

/-- Whether a value has no real numbers and no unreadable strings in it. -/
def Writable : Json → Prop
  | real _ | unreadable => False
  | list items => WritableItems items
  | object members => WritableMembers members
  | _ => True

def WritableItems : List Json → Prop
  | [] => True
  | v :: rest => Writable v ∧ WritableItems rest

def WritableMembers : List (String × Json) → Prop
  | [] => True
  | (_, v) :: rest => Writable v ∧ WritableMembers rest

end

theorem charText_escape (c : Char) : CharText (escape c) c := by
  unfold escape
  split_ifs with quote backslash backspace feed line return_ tab control
  · subst quote
    exact .simple rfl
  · subst backslash
    exact .simple rfl
  · subst backspace
    exact .simple rfl
  · subst feed
    exact .simple rfl
  · subst line
    exact .simple rfl
  · subst return_
    exact .simple rfl
  · subst tab
    exact .simple rfl
  · have all : ∀ n : Fin 32, readUnit? ['0', '0', (n.val / 16).digitChar, (n.val % 16).digitChar] =
        some (n.val, []) := by decide
    have unit := CharText.unit (all ⟨c.toNat, control⟩) (.inl (by show c.toNat < _; omega))
    rwa [Char.ofNat_toNat] at unit
  · exact .plain (Nat.not_lt.mp control) quote backslash

theorem stringText_escape (cs : List Char) : StringText (cs.flatMap escape) cs := by
  induction cs with
  | nil => exact .nil
  | cons c rest ih => exact .cons (charText_escape c) ih

theorem toList_quote (s : String) : (quote s).toList = '"' :: (s.toList.flatMap escape ++ ['"']) := by
  rw [quote, String.toList_ofList]

/-! ## Lists and objects -/

/-- Parts with a separator and blanks between them are a text of all of them.  The blanks behind the last part
belong to it. -/
theorem separated {α : Type} (One : List Char → α → Prop) (Many : List Char → List α → Prop)
    (last : ∀ {cs x}, One cs x → Many cs [x])
    (more : ∀ {cs texts x xs}, One cs x → Many texts xs → Many (cs ++ ',' :: texts) (x :: xs))
    (before after : String) (text : α → String) :
    ∀ xs : List α, xs ≠ [] → (∀ x ∈ xs, One (before ++ text x).toList x) →
      (∀ x ∈ xs, One (before ++ text x ++ after).toList x) →
        Many (before ++ ("," ++ before).intercalate (xs.map text) ++ after).toList xs
  | [], there, _, _ => absurd rfl there
  | [x], _, _, atEnd => by
      rw [List.map_cons, List.map_nil, String.intercalate_singleton]
      exact last (atEnd x List.mem_cons_self)
  | x :: y :: later, _, inside, atEnd => by
      obtain ⟨first, inside⟩ := List.forall_mem_cons.mp inside
      obtain ⟨-, atEnd⟩ := List.forall_mem_cons.mp atEnd
      have rest := more first (separated One Many last more before after text (y :: later) nofun inside atEnd)
      simpa [String.toList_append, String.intercalate_cons_cons] using rest

variable {before after gap : String}

theorem isBlankText_empty : IsBlankText "".toList := nofun

theorem itemText_of_valueText (blank : IsBlankText before.toList) (blank' : IsBlankText after.toList)
    {text : String} {v : Json} (value : ValueText text.toList v) :
    ItemText (before ++ text ++ after).toList v := by
  have item := ItemText.mk blank value blank'
  rwa [← List.append_assoc, ← String.toList_append, ← String.toList_append] at item

theorem memberText_of_valueText (blank : IsBlankText before.toList) (gapped : IsBlankText gap.toList)
    (blank' : IsBlankText after.toList) (key : String) {text : String} {v : Json}
    (value : ValueText text.toList v) :
    MemberText (before ++ (quote key ++ (":" ++ gap) ++ text) ++ after).toList (key, v) := by
  have named : StringText _ key.toList := stringText_escape key.toList
  have member := MemberText.mk blank named isBlankText_empty
    (itemText_of_valueText gapped blank' value)
  simpa [String.toList_append, toList_quote] using member

/-- The items of a list, with blanks before each and behind the last, between brackets. -/
theorem valueText_list (write : Json → String) (blank : IsBlankText before.toList)
    (blank' : IsBlankText after.toList) {items : List Json} (there : items ≠ [])
    (values : ∀ v ∈ items, ValueText (write v).toList v) :
    ValueText
      ("[" ++ (before ++ ("," ++ before).intercalate (items.map write) ++ after) ++ "]").toList
      (.list items) := by
  have parts : ItemsText _ items := separated ItemText ItemsText .last .more before after write items there
    (fun v listed => by
      simpa using itemText_of_valueText blank isBlankText_empty (values v listed))
    fun v listed => itemText_of_valueText blank blank' (values v listed)
  simpa [String.toList_append] using ValueText.list parts

theorem valueText_object (write : Json → String) (blank : IsBlankText before.toList)
    (gapped : IsBlankText gap.toList) (blank' : IsBlankText after.toList)
    {members : List (String × Json)} (there : members ≠ [])
    (values : ∀ m ∈ members, ValueText (write m.2).toList m.2) :
    ValueText ("\x7b" ++ (before ++ ("," ++ before).intercalate
        (members.map fun m => quote m.1 ++ (":" ++ gap) ++ write m.2) ++ after) ++ "\x7d").toList
      (.object members) := by
  have parts : MembersText _ members := separated MemberText MembersText .last .more before after
    (fun m => quote m.1 ++ (":" ++ gap) ++ write m.2) members there
    (fun m listed => by
      simpa using memberText_of_valueText blank gapped isBlankText_empty m.1 (values m listed))
    fun m listed => memberText_of_valueText blank gapped blank' m.1 (values m listed)
  simpa [String.toList_append] using ValueText.object parts

theorem valueText_atom {v : Json} (writable : Writable v) (single : ∀ items, v ≠ .list items)
    (single' : ∀ members, v ≠ .object members) : ValueText v.atom.toList v := by
  cases v with
  | null => exact .null
  | bool b => cases b with
    | true => exact .yes
    | false => exact .no
  | integer n => exact .integer n
  | text s =>
      rw [atom, toList_quote]
      exact .text (stringText_escape s.toList)
  | real literal => cases writable
  | unreadable => cases writable
  | list items => exact absurd rfl (single items)
  | object members => exact absurd rfl (single' members)

/-! ## Without blanks -/

theorem compactItems_eq_map (items : List Json) : compactItems items = items.map compact := by
  induction items with
  | nil => rfl
  | cons v rest ih => rw [compactItems, ih, List.map_cons]

theorem compactMembers_eq_map (members : List (String × Json)) :
    compactMembers members = members.map fun m => quote m.1 ++ (":" ++ "") ++ compact m.2 := by
  induction members with
  | nil => rfl
  | cons m rest ih => rw [compactMembers, ih, List.map_cons, String.append_empty]

mutual

theorem valueText_compact : ∀ {v : Json}, Writable v → ValueText (compact v).toList v
  | .null, _ | .bool _, _ | .integer _, _ | .text _, _ => by
      rw [compact]
      · exact valueText_atom trivial nofun nofun
      · nofun
      · nofun
  | .list [], _ => .emptyList isBlankText_empty
  | .list (v :: rest), writable => by
      have values := valueText_list compact isBlankText_empty isBlankText_empty
        (List.cons_ne_nil v rest) (valueText_compactItems writable)
      rw [compact, compactItems_eq_map]
      simpa using values
  | .object [], _ => .emptyObject isBlankText_empty
  | .object (m :: rest), writable => by
      have values := valueText_object compact isBlankText_empty isBlankText_empty
        isBlankText_empty (List.cons_ne_nil m rest) (valueText_compactMembers writable)
      rw [compact, compactMembers_eq_map]
      simpa using values

theorem valueText_compactItems : ∀ {items : List Json}, WritableItems items →
    ∀ v ∈ items, ValueText (compact v).toList v
  | [], _ => nofun
  | _ :: _, ⟨first, rest⟩ =>
      List.forall_mem_cons.mpr ⟨valueText_compact first, valueText_compactItems rest⟩

theorem valueText_compactMembers : ∀ {members : List (String × Json)}, WritableMembers members →
    ∀ m ∈ members, ValueText (compact m.2).toList m.2
  | [], _ => nofun
  | _ :: _, ⟨first, rest⟩ =>
      List.forall_mem_cons.mpr ⟨valueText_compact first, valueText_compactMembers rest⟩

end

/-! ## On lines of their own -/

theorem isBlankText_newline (level : Nat) : IsBlankText (newline level).toList := by
  intro c listed
  rw [newline, String.toList_append] at listed
  rcases List.mem_append.mp listed with early | late
  · obtain rfl := List.mem_singleton.mp early
    rfl
  · rw [String.toList_ofList] at late
    obtain rfl := List.eq_of_mem_replicate late
    rfl

theorem prettyItems_eq_map (level : Nat) (items : List Json) :
    prettyItems level items = items.map (pretty level) := by
  induction items with
  | nil => rfl
  | cons v rest ih => rw [prettyItems, ih, List.map_cons]

theorem prettyMembers_eq_map (level : Nat) (members : List (String × Json)) :
    prettyMembers level members =
      members.map fun m => quote m.1 ++ (":" ++ " ") ++ pretty level m.2 := by
  induction members with
  | nil => rfl
  | cons m rest ih =>
      rw [prettyMembers, ih, List.map_cons]
      rfl

/-- Parts that are there stand between brackets, with blanks before each and behind the last. -/
theorem block_of_ne_nil (opening closing : String) (level : Nat) {parts : List String}
    (there : parts ≠ []) : block opening closing level parts =
      opening ++ (newline (level + 1) ++ ("," ++ newline (level + 1)).intercalate parts
        ++ newline level) ++ closing := by
  rw [block, if_neg (by simpa using there)]
  simp only [String.append_assoc]

mutual

theorem valueText_pretty : ∀ {v : Json} (level : Nat), Writable v →
    ValueText (pretty level v).toList v
  | .null, _, _ | .bool _, _, _ | .integer _, _, _ | .text _, _, _ => by
      rw [pretty]
      · exact valueText_atom trivial nofun nofun
      · nofun
      · nofun
  | .list [], level, _ => by
      rw [pretty, prettyItems, block, List.isEmpty_nil, if_pos rfl]
      exact .emptyList isBlankText_empty
  | .list (v :: rest), level, writable => by
      rw [pretty, prettyItems_eq_map, block_of_ne_nil _ _ _ (by simp)]
      exact valueText_list _ (isBlankText_newline (level + 1)) (isBlankText_newline level)
        (List.cons_ne_nil v rest) (valueText_prettyItems (level + 1) writable)
  | .object [], level, _ => by
      rw [pretty, prettyMembers, block, List.isEmpty_nil, if_pos rfl]
      exact .emptyObject isBlankText_empty
  | .object (m :: rest), level, writable => by
      have gapped : IsBlankText " ".toList := List.all_eq_true.mp rfl
      rw [pretty, prettyMembers_eq_map, block_of_ne_nil _ _ _ (by simp)]
      exact valueText_object _ (isBlankText_newline (level + 1)) gapped (isBlankText_newline level)
        (List.cons_ne_nil m rest) (valueText_prettyMembers (level + 1) writable)

theorem valueText_prettyItems : ∀ {items : List Json} (level : Nat), WritableItems items →
    ∀ v ∈ items, ValueText (pretty level v).toList v
  | [], _, _ => nofun
  | _ :: _, level, ⟨first, rest⟩ =>
      List.forall_mem_cons.mpr ⟨valueText_pretty level first, valueText_prettyItems level rest⟩

theorem valueText_prettyMembers : ∀ {members : List (String × Json)} (level : Nat),
    WritableMembers members → ∀ m ∈ members, ValueText (pretty level m.2).toList m.2
  | [], _, _ => nofun
  | _ :: _, level, ⟨first, rest⟩ =>
      List.forall_mem_cons.mpr ⟨valueText_pretty level first, valueText_prettyMembers level rest⟩

end

theorem newline_not_mem_escape (c : Char) : '\n' ∉ escape c := by
  unfold escape
  split_ifs with quote backslash backspace feed line return_ tab control
  · decide
  · decide
  · decide
  · decide
  · decide
  · decide
  · decide
  · have all : ∀ n : Fin 32,
        '\n' ∉ ['\\', 'u', '0', '0', (n.val / 16).digitChar, (n.val % 16).digitChar] := by decide
    exact all ⟨c.toNat, control⟩
  · simpa using Ne.symm line

/-- No character of a string breaks the line. -/
theorem newline_not_mem_quote (s : String) : '\n' ∉ (quote s).toList := by
  simp [toList_quote, newline_not_mem_escape]

theorem newline_not_mem_intercalate : ∀ {texts : List String}, (∀ t ∈ texts, '\n' ∉ t.toList) →
    '\n' ∉ (",".intercalate texts).toList
  | [], _ => by simp
  | [t], whole => by simpa using whole
  | t :: u :: later, whole => by
      obtain ⟨first, rest⟩ := List.forall_mem_cons.mp whole
      have rest_ := newline_not_mem_intercalate rest
      rw [String.intercalate_cons_cons]
      simp only [String.toList_append, List.mem_append, not_or]
      exact ⟨⟨first, by decide⟩, rest_⟩

theorem newline_not_mem_decimal (n : Nat) : '\n' ∉ (Numeral.decimal n).toList := by
  intro listed
  rw [Numeral.decimal, String.toList_ofList] at listed
  exact absurd (Nat.isDigit_of_mem_toDigits (by decide) (by decide) listed) (by decide)

theorem newline_not_mem_atom {v : Json} (writable : Writable v) : '\n' ∉ v.atom.toList := by
  cases v with
  | bool b => cases b <;> decide
  | integer n =>
      cases n with
      | ofNat n => exact newline_not_mem_decimal n
      | negSucc n =>
          rw [atom, Numeral.signedDecimal, String.toList_append, List.mem_append, not_or]
          exact ⟨by decide, newline_not_mem_decimal (n + 1)⟩
  | text s => exact newline_not_mem_quote s
  | real literal => cases writable
  | null | unreadable | list _ | object _ =>
      show '\n' ∉ "null".toList
      decide

mutual

/-- A value without blanks stands on one line. -/
theorem newline_not_mem_compact : ∀ {v : Json}, Writable v → '\n' ∉ (compact v).toList
  | .null, writable | .bool _, writable | .integer _, writable | .text _, writable => by
      rw [compact]
      · exact newline_not_mem_atom writable
      · nofun
      · nofun
  | .list items, writable => by
      have parts := newline_not_mem_intercalate (newline_not_mem_compactItems writable)
      simp only [compact, String.toList_append, List.mem_append, not_or]
      exact ⟨⟨by decide, parts⟩, by decide⟩
  | .object members, writable => by
      have parts := newline_not_mem_intercalate (newline_not_mem_compactMembers writable)
      simp only [compact, String.toList_append, List.mem_append, not_or]
      exact ⟨⟨by decide, parts⟩, by decide⟩

theorem newline_not_mem_compactItems : ∀ {items : List Json}, WritableItems items →
    ∀ t ∈ compactItems items, '\n' ∉ t.toList
  | [], _ => nofun
  | _ :: _, ⟨first, rest⟩ =>
      List.forall_mem_cons.mpr ⟨newline_not_mem_compact first, newline_not_mem_compactItems rest⟩

theorem newline_not_mem_compactMembers : ∀ {members : List (String × Json)}, WritableMembers members →
    ∀ t ∈ compactMembers members, '\n' ∉ t.toList
  | [], _ => nofun
  | (key, v) :: _, ⟨first, rest⟩ => by
      refine List.forall_mem_cons.mpr ⟨?_, newline_not_mem_compactMembers rest⟩
      simp [String.toList_append, newline_not_mem_quote key, newline_not_mem_compact first]

end

end RegisterTransfer.Json
