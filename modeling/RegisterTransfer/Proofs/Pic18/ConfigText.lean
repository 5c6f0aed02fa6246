/-
# RegisterTransfer.Proofs.Pic18.ConfigText -- what the text of a configuration byte tells

A configuration byte is printed field by field: the bits of a field are cut out of the byte and shown by
the name of a setting, or as they are.  The cutting is done on words of a fixed width, where a shift can be
too far and a difference can fall below zero; `configText?` is the text with these as failures.

* `configText?_eq`: fields that the check of a description lets pass never fail;
* `configText_shows_bits`: where the settings can be told apart, two bytes have one text exactly if they
  agree on the bits of the fields.
-/
import RegisterTransfer.Proofs.Pic18.Legible

namespace RegisterTransfer

set_option autoImplicit false

/-! ## Words of a fixed width -/

/-- A shift to the left by less than the width of the word. -/
def shiftLeft16? (x : UInt16) (amount : Nat) : Option UInt16 :=
  if amount < 16 then some (x <<< UInt16.ofNat amount) else none

/-- A difference that is not below zero. -/
def sub16? (x y : UInt16) : Option UInt16 := if y ≤ x then some (x - y) else none

/-- A shift to the right by less than the width of the byte. -/
def shiftRight8? (x : UInt8) (amount : Nat) : Option UInt8 :=
  if amount < 8 then some (x >>> UInt8.ofNat amount) else none

namespace Pic18

/-! ## Fields -/

namespace ConfigField

/-- The bits of a field in a byte. -/
def bitsOf (f : ConfigField) (value : UInt8) : Nat := value.toNat / 2 ^ f.bit % 2 ^ f.width

/-- The byte with its lowest bits set, from a difference in 16 bits. -/
def mask? (width : Nat) : Option UInt8 := do
  let power ← shiftLeft16? 1 width
  let mask ← sub16? power 1
  return mask.toUInt8

/-- The bits of a field, cut out of the byte with a mask as wide as the field. -/
def bitsOf? (f : ConfigField) (value : UInt8) : Option UInt8 := do
  let mask ← mask? f.width
  let low ← shiftRight8? value f.bit
  return low &&& mask

/-- What is shown of the bits of a field: the name of a setting, or the bare number. -/
def settingOf (f : ConfigField) (bits : Nat) : String :=
  match f.settings.find? (·.value = bits) with
  | some s => s.name
  | none => Numeral.hex0x bits

/-- A field whose settings can be told apart in a text: their names differ, have no comma, and do not look
like numbers. -/
structure Legible (f : ConfigField) : Prop where
  distinct : f.settings.Pairwise fun s s' => s.name ≠ s'.name
  comma : ∀ s ∈ f.settings, ',' ∉ s.name.toList
  number : ∀ s ∈ f.settings, ¬ ['0', 'x'] <+: s.name.toList

instance (f : ConfigField) : Decidable f.Legible :=
  decidable_of_iff
    ((f.settings.Pairwise fun s s' => s.name ≠ s'.name) ∧ (∀ s ∈ f.settings, ',' ∉ s.name.toList) ∧
      ∀ s ∈ f.settings, ¬ ['0', 'x'] <+: s.name.toList)
    ⟨fun h => ⟨h.1, h.2.1, h.2.2⟩, fun h => ⟨h.distinct, h.comma, h.number⟩⟩

variable {f : ConfigField}

theorem toNat_mask? (width : Nat) (narrow : width ≤ 8) :
    (mask? width).map UInt8.toNat = some (2 ^ width - 1) := by
  have all : ∀ width : Fin 9, (mask? width.val).map UInt8.toNat = some (2 ^ width.val - 1) := by
    decide
  exact all ⟨width, by omega⟩

/-- A field inside of the byte is cut out without a failure. -/
theorem toNat_bitsOf? (inside : f.width ≠ 0 ∧ f.bit + f.width ≤ 8) (value : UInt8) :
    (f.bitsOf? value).map UInt8.toNat = some (f.bitsOf value) := by
  obtain ⟨mask, masked, size⟩ := Option.map_eq_some_iff.mp (toNat_mask? f.width (by omega))
  have low : shiftRight8? value f.bit = some (value >>> UInt8.ofNat f.bit) := if_pos (by omega)
  have amount : (UInt8.ofNat f.bit).toNat % 8 = f.bit := by
    rw [UInt8.toNat_ofNat']
    omega
  simp only [bitsOf?, masked, low, Option.bind_eq_bind, Option.bind_some, Option.pure_def,
    Option.map_some, Option.some.injEq]
  rw [UInt8.toNat_and, UInt8.toNat_shiftRight, amount, size, Nat.and_two_pow_sub_one_eq_mod,
    Nat.shiftRight_eq_div_pow, bitsOf]

/-- Two bytes have the same bits of a field exactly if they agree on each of them. -/
theorem bitsOf_eq_iff {u v : UInt8} :
    f.bitsOf u = f.bitsOf v ↔
      ∀ k, k < f.width → u.toNat.testBit (f.bit + k) = v.toNat.testBit (f.bit + k) := by
  have bit : ∀ (value : UInt8) (k : Nat), (f.bitsOf value).testBit k =
      (decide (k < f.width) && value.toNat.testBit (f.bit + k)) := by
    intro value k
    rw [bitsOf, Nat.testBit_mod_two_pow, Nat.testBit_div_two_pow, Nat.add_comm]
  constructor
  · intro same k inside
    have there := congrArg (·.testBit k) same
    simpa only [bit, inside, decide_true, Bool.true_and] using there
  · intro agree
    apply Nat.eq_of_testBit_eq
    intro k
    rw [bit, bit]
    by_cases inside : k < f.width
    · rw [agree k inside]
    · simp [inside]

/-! ## Settings -/

theorem hex0x_starts (n : Nat) : ['0', 'x'] <+: (Numeral.hex0x n).toList := by
  rw [Numeral.hex0x, String.toList_append]
  exact List.prefix_append ['0', 'x'] _

namespace Legible

variable (legible : f.Legible)

include legible

/-- What is shown of the bits of a field tells the bits. -/
theorem settingOf_inj {bits bits' : Nat} (same : f.settingOf bits = f.settingOf bits') :
    bits = bits' := by
  unfold settingOf at same
  cases found : f.settings.find? (·.value = bits) with
  | some s =>
      have listed := List.mem_of_find?_eq_some found
      cases found' : f.settings.find? (·.value = bits') with
      | some s' =>
          simp only [found, found'] at same
          have nodup : (f.settings.map (·.name)).Nodup := List.pairwise_map.mpr legible.distinct
          have one : s = s' :=
            List.inj_on_of_nodup_map nodup listed (List.mem_of_find?_eq_some found') same
          have value : s.value = bits := by simpa using List.find?_some found
          have value' : s'.value = bits' := by simpa using List.find?_some found'
          rw [← value, ← value', one]
      | none =>
          simp only [found, found'] at same
          exact absurd (same ▸ hex0x_starts bits') (legible.number s listed)
  | none =>
      cases found' : f.settings.find? (·.value = bits') with
      | some s' =>
          simp only [found, found'] at same
          exact absurd (same ▸ hex0x_starts bits)
            (legible.number s' (List.mem_of_find?_eq_some found'))
      | none =>
          simp only [found, found'] at same
          exact Numeral.hexUpper_inj ((String.append_right_inj _).mp same)

theorem comma_not_mem_settingOf (bits : Nat) : ',' ∉ (f.settingOf bits).toList := by
  unfold settingOf
  split
  case h_1 s found => exact legible.comma s (List.mem_of_find?_eq_some found)
  case h_2 => exact comma_not_mem_hex 1 bits

end Legible

end ConfigField

/-! ## Configuration bytes -/

namespace Catalog

theorem settingText_eq (value : UInt8) (f : ConfigField) :
    settingText value f = f.name ++ "=" ++ f.settingOf (f.bitsOf value) := rfl

/-- The setting of a field, unless cutting the field out of the byte fails. -/
def settingText? (value : UInt8) (f : ConfigField) : Option String :=
  (f.bitsOf? value).map fun bits => f.name ++ "=" ++ f.settingOf bits.toNat

/-- The text of a configuration byte, unless cutting a field out of it fails. -/
def configText? (c : Catalog) (address : Nat) (value : UInt8) : Option String :=
  match c.configWords.find? fun w => w.address = address && !w.fields.isEmpty with
  | some w => (w.fields.mapM (settingText? value)).map (", ".intercalate ·)
  | none => some ("0x" ++ Numeral.hexUpper 6 address ++ "=" ++ Numeral.byte0x value)

variable {d : Device} {c : Catalog}

theorem configWords_of_load (loaded : load (some d) = .ok c) : c.configWords = d.configWords := by
  unfold load at loaded
  cases passed : check d with
  | error problem =>
      simp only [passed] at loaded
      cases loaded
  | ok checked =>
      simp only [passed] at loaded
      cases loaded
      unfold check at passed
      iterate 6 obtain ⟨_, -, passed⟩ := ok_of_bind passed
      cases passed
      rfl

theorem settingText?_eq {f : ConfigField} (inside : f.width ≠ 0 ∧ f.bit + f.width ≤ 8)
    (value : UInt8) : settingText? value f = some (settingText value f) := by
  obtain ⟨bits, cut, size⟩ := Option.map_eq_some_iff.mp (f.toNat_bitsOf? inside value)
  rw [settingText?, cut, Option.map_some, size, settingText_eq]

theorem settings_eq {fields : List ConfigField} (value : UInt8)
    (inside : ∀ f ∈ fields, f.width ≠ 0 ∧ f.bit + f.width ≤ 8) :
    fields.mapM (settingText? value) = some (fields.map (settingText value)) := by
  induction fields with
  | nil => rfl
  | cons f rest ih =>
      obtain ⟨first, later⟩ := List.forall_mem_cons.mp inside
      rw [List.mapM_cons, settingText?_eq first, ih later]
      rfl

/-- Fields inside of the byte are printed without a failure. -/
theorem configText?_eq (address : Nat) (value : UInt8)
    (inside : ∀ w ∈ c.configWords, ∀ f ∈ w.fields, f.width ≠ 0 ∧ f.bit + f.width ≤ 8) :
    c.configText? address value = some (c.configText address value) := by
  unfold configText?
  split
  case h_1 w found =>
    rw [configText, found, settings_eq value (inside w (List.mem_of_find?_eq_some found)),
      Option.map_some]
  case h_2 undescribed => rw [configText, undescribed]

/-- A list of settings tells each of them. -/
theorem settings_of_text {u v : UInt8} :
    ∀ fields : List ConfigField, (∀ f ∈ fields, f.Legible) →
      ", ".intercalate (fields.map (settingText u)) = ", ".intercalate (fields.map (settingText v)) →
        ∀ f ∈ fields, f.settingOf (f.bitsOf u) = f.settingOf (f.bitsOf v)
  | [], _, _ => by simp
  | [f], _, same => by
      simp only [List.map_cons, List.map_nil, String.intercalate_singleton, settingText_eq] at same
      simpa using (String.append_right_inj _).mp same
  | f :: next :: later, legible, same => by
      have comma : ∀ s : String, After ',' (", " ++ s) := by
        intro s ch first
        rw [String.toList_append] at first
        cases first
        rfl
      obtain ⟨own, others⟩ := List.forall_mem_cons.mp legible
      -- Names of fields may have commas.  They are the same in both texts, so only settings are cut off at one.
      simp only [List.map_cons, String.intercalate_cons_cons, settingText_eq, String.append_assoc]
        at same
      have cut := (String.append_right_inj _).mp ((String.append_right_inj _).mp same)
      obtain ⟨first, rest⟩ := cut_text (own.comma_not_mem_settingOf _)
        (own.comma_not_mem_settingOf _) (comma _) (comma _) cut
      have rest_ := settings_of_text (next :: later) others (by
        simpa only [List.map_cons, settingText_eq, String.append_assoc] using
          (String.append_right_inj _).mp rest)
      exact List.forall_mem_cons.mpr ⟨first, rest_⟩

/-- The text of a configuration byte of a device that is loaded never fails.  It is made from the first
description of the address that has fields; where the settings of each field can be told apart, two bytes
have one text exactly if they agree on every bit of these fields. -/
theorem configText_shows_bits (loaded : load (some d) = .ok c) (address : Nat) (u v : UInt8) :
    c.configText? address u = some (c.configText address u) ∧
      ∀ w, FirstWith (fun w => w.address = address ∧ w.fields ≠ []) d.configWords w →
        (∀ f ∈ w.fields, f.Legible) →
          (c.configText address u = c.configText address v ↔
            ∀ f ∈ w.fields, ∀ k, k < f.width →
              u.toNat.testBit (f.bit + k) = v.toNat.testBit (f.bit + k)) := by
  have words := configWords_of_load loaded
  refine ⟨configText?_eq address u ?_, fun w first legible => ?_⟩
  · rw [words]
    exact ((load_exact d).1.mp ⟨c, loaded⟩).config
  · have found : (c.configWords.find? fun w => w.address = address && !w.fields.isEmpty) = some w := by
      rw [words]
      exact (find?_eq_some_iff_firstWith fun w => by simp).mpr first
    have text : ∀ value, c.configText address value =
        ", ".intercalate (w.fields.map (settingText value)) := by
      intro value
      rw [configText, found]
    rw [text, text]
    constructor
    · intro same f listed
      exact f.bitsOf_eq_iff.mp ((legible f listed).settingOf_inj
        (settings_of_text w.fields legible same f listed))
    · intro agree
      have each : ∀ f ∈ w.fields, settingText u f = settingText v f := by
        intro f listed
        rw [settingText_eq, settingText_eq, f.bitsOf_eq_iff.mpr (agree f listed)]
      rw [List.map_congr_left each]

/-- The first configuration byte of a built-in device has no field at its bits 4 and 5.  They do not show,
and any other bit does. -/
theorem configText_shows_bits_oscillator :
    ∃ c w, load (some Devices.Pic18f4620.device) = .ok c ∧
      FirstWith (fun w => w.address = 0x300001 ∧ w.fields ≠ [])
        Devices.Pic18f4620.device.configWords w ∧
      (∀ f ∈ w.fields, f.Legible) ∧
      c.configText? 0x300001 0x82 = some (c.configText 0x300001 0x82) ∧
      c.configText 0x300001 0x82 = c.configText 0x300001 0xB2 ∧
      c.configText 0x300001 0x82 ≠ c.configText 0x300001 0x83 := by
  obtain ⟨c, loaded⟩ : ∃ c, load (some Devices.Pic18f4620.device) = .ok c := ⟨_, rfl⟩
  obtain ⟨w, words⟩ : ∃ w, Devices.Pic18f4620.configWords.head? = some w := ⟨_, rfl⟩
  have first : FirstWith (fun w => w.address = 0x300001 ∧ w.fields ≠ [])
      Devices.Pic18f4620.device.configWords w := by
    cases words
    exact ⟨[], _, rfl, ⟨rfl, nofun⟩, nofun⟩
  have legible : ∀ f ∈ w.fields, f.Legible := by
    cases words
    decide
  have shows := fun v => (configText_shows_bits loaded 0x300001 0x82 v).2 w first legible
  refine ⟨c, w, loaded, first, legible, (configText_shows_bits loaded 0x300001 0x82 0x82).1,
    (shows 0xB2).mpr ?_, fun same => absurd ((shows 0x83).mp same) ?_⟩
  · cases words
    decide
  · cases words
    decide

end Catalog

end Pic18

end RegisterTransfer
