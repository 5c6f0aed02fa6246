/-
# RegisterTransfer.Proofs.Pic18.Lossless -- the text of an instruction tells the instruction

Text shows neither the length of an instruction nor the forms of its operands.  Both follow: the
mnemonic ends at the tab and tells the opcode, opcode and family tell the forms, and by its form each
operand is read back from its text.

* `forms_of_encodable`: the forms of the operands of whatever a family has;
* `operands_eq`: operands of the same forms and one text are the same;
* `legible_builtin`: the built-in devices can be read;
* `text_lossless`: instructions that are decoded at one address and have one text are the same.
-/
import Mathlib.Data.List.Forall2
import RegisterTransfer.Pic18.Devices
import RegisterTransfer.Proofs.Pic18.Legible
import RegisterTransfer.Proofs.Pic18.RoundTrip

namespace RegisterTransfer.Pic18

set_option autoImplicit false

/-! ## Opcodes -/

namespace Opcode

/-- The forms of the operands of an opcode in a family. -/
def forms (family : Family) : Opcode → List OperandForm
  | .addwf | .addwfc | .andwf | .comf | .decf | .decfsz | .dcfsnz | .incf | .incfsz | .infsnz
  | .iorwf | .movf | .rlcf | .rlncf | .rrcf | .rrncf | .subfwb | .subwf | .subwfb | .swapf
  | .xorwf => [.fileDest]
  | .clrf | .cpfseq | .cpfsgt | .cpfslt | .movwf | .mulwf | .negf | .setf | .tstfsz => [.file]
  | .bcf | .bsf | .btfsc | .btfss | .btg => [.fileBit]
  | .bc | .bn | .bnc | .bnn | .bnov | .bnz | .bov | .bz => [.relative8]
  | .bra | .rcall => [.relative11]
  | .call => [.absolute, .fast]
  | .goto => [.absolute]
  | .ret | .retfie => [.fast]
  | .addlw | .andlw | .iorlw | .movlw | .mullw | .retlw | .sublw | .xorlw | .pushl => [.imm8]
  | .movlb =>
      match family with
      | .traditional => [.imm4]
      | .enhanced => [.imm6]
  | .lfsr =>
      match family with
      | .traditional => [.pointer, .imm12]
      | .enhanced => [.pointer, .imm14]
  | .addulnk | .subulnk => [.imm6]
  | .addfsr | .subfsr => [.pointer, .imm6]
  | .tblrd | .tblwt => [.table]
  | .movff => [.data12, .data12]
  | .movffl => [.data14, .data14]
  | .movsf => [.index, .data12]
  | .movss => [.index, .index]
  | .movsfl => [.index, .data14]
  | .clrwdt | .daw | .nop | .pop | .push | .reset | .sleep | .callw | .db | .dw | .de | .ascii
  | .idlocs | .config | .invalid => []

theorem mem_known (op : Opcode) : op ∈ invalid :: mnemonics := by
  cases op <;> decide

theorem name_inj {op op' : Opcode} (same : op.name = op'.name) : op = op' := by
  have distinct : ((invalid :: mnemonics).map name).Nodup := by decide +kernel
  exact List.inj_on_of_nodup_map distinct (mem_known op) (mem_known op') same

theorem tab_not_mem_name (op : Opcode) : '\t' ∉ op.name.toList := by
  cases op <;> decide

end Opcode

section Bodies

variable {family : Family} {mode : Mode} {address : Nat}

theorem not_encodable_invalid {operands : List Operand} :
    ¬ Body.Encodable family mode address (.invalid, operands) := by
  intro encodable
  cases encodable with
  | bare known | fast known | table known | file known _ | fileDest known _ | fileBit known _
  | literal known | link known _ _ | pointer known _ _ _ | branch known _ _
  | longBranch known _ _ => exact absurd known (by decide)

/-- Of the invalid instructions there is one at each address. -/
theorem invalid_of_decode {bytes : List UInt8} {i : Instruction}
    (decoded : decode family mode bytes address = .ok (some i)) (invalid : i.opcode = .invalid) :
    i = .invalid address := by
  rcases invalid_or_reads decoded with invalid_ | ⟨w, payloads, rest, reads, _⟩
  · exact invalid_
  · have encodable := (writtenAs_of_reads reads).encodable
    rw [Instruction.body, invalid] at encodable
    exact absurd encodable not_encodable_invalid

/-- The family and the opcode tell the forms of the operands. -/
theorem forms_of_encodable {op : Opcode} {operands : List Operand}
    (encodable : Body.Encodable family mode address (op, operands)) :
    List.Forall₂ (Operand.OfForm mode address) (op.forms family) operands := by
  cases encodable with
  | bare known =>
      rw [show op.forms family = [] by revert op; cases family <;> decide]
      exact .nil
  | callw _ => exact .nil
  | fast known =>
      rcases known with rfl | rfl <;> exact .cons (.fast _) .nil
  | table known =>
      rcases known with rfl | rfl <;> exact .cons (.table _) .nil
  | file known same =>
      rcases known with rfl | known
      · exact .cons (.file same) .nil
      · rw [show op.forms family = [.file] by revert op; cases family <;> decide]
        exact .cons (.file same) .nil
  | fileDest known same =>
      rcases known with rfl | known
      · exact .cons (.fileDest same _) .nil
      · rw [show op.forms family = [.fileDest] by revert op; cases family <;> decide]
        exact .cons (.fileDest same _) .nil
  | fileBit known same =>
      rw [show op.forms family = [.fileBit] by revert op; cases family <;> decide]
      exact .cons (.fileBit same _) .nil
  | literal known =>
      rw [show op.forms family = [.imm8] by revert op; cases family <;> decide]
      exact .cons (.imm8 _) .nil
  | pushl _ => exact .cons (.imm8 _) .nil
  | bank4 traditional _ =>
      subst traditional
      exact .cons (.imm4 _) .nil
  | bank6 enhanced _ =>
      subst enhanced
      exact .cons (.imm6 _) .nil
  | link known _ _ =>
      rcases known with rfl | rfl <;> exact .cons (.imm6 _) .nil
  | pointer known _ few _ =>
      rcases known with rfl | rfl <;> exact .cons (.pointer few) (.cons (.imm6 _) .nil)
  | load12 traditional few _ =>
      subst traditional
      exact .cons (.pointer few) (.cons (.imm12 _) .nil)
  | load14 enhanced few _ =>
      subst enhanced
      exact .cons (.pointer few) (.cons (.imm14 _) .nil)
  | branch known back ahead =>
      rw [show op.forms family = [.relative8] by revert op; cases family <;> decide]
      exact .cons (.relative8 back ahead) .nil
  | longBranch known back ahead =>
      rcases known with rfl | rfl <;> exact .cons (.relative11 back ahead) .nil
  | goto _ _ => exact .cons (.absolute _) .nil
  | call _ _ => exact .cons (.absolute _) (.cons (.fast _) .nil)
  | movff _ _ => exact .cons (.data12 _) (.cons (.data12 _) .nil)
  | movffl _ _ _ => exact .cons (.data14 _) (.cons (.data14 _) .nil)
  | movsf _ _ _ => exact .cons (.index _) (.cons (.data12 _) .nil)
  | movss _ _ _ => exact .cons (.index _) (.cons (.index _) .nil)
  | movsfl _ _ _ _ => exact .cons (.index _) (.cons (.data14 _) .nil)

end Bodies

/-! ## Instructions -/

/-- A text after a separator, unless it is empty. -/
def tailed (sep t : String) : String := if t = "" then "" else sep ++ t

theorem tailed_inj {sep t t' : String} (sign : sep ≠ "") (same : tailed sep t = tailed sep t') :
    t = t' := by
  have behind : ∀ t, sep ++ t ≠ "" := fun t empty => sign (String.append_eq_empty_iff.mp empty).1
  unfold tailed at same
  split at same
  case isTrue empty =>
    split at same
    case isTrue empty' => rw [empty, empty']
    case isFalse => exact absurd same.symm (behind t')
  case isFalse =>
    split at same
    case isTrue => exact absurd same (behind t)
    case isFalse => exact (String.append_right_inj _).mp same

theorem isTail_tailed (t : String) : IsTail (tailed "," t) := by
  unfold tailed
  split
  · exact .inl rfl
  · exact isTail_comma t

/-- The texts of operands that have one, as they stand behind a mnemonic. -/
def operandsText (c : Catalog) (operands : List Operand) : String :=
  match (operands.map (·.text c)).filter (· ≠ "") with
  | [] => ""
  | texts => "\t" ++ ",".intercalate texts

section Texts

variable {c : Catalog}

theorem text_eq (c : Catalog) (i : Instruction) :
    i.text c = i.opcode.name ++ operandsText c i.operands := by
  unfold Instruction.text Instruction.operandTexts operandsText
  generalize (i.operands.map (·.text c)).filter (· ≠ "") = texts
  cases texts with
  | nil => exact String.append_empty.symm
  | cons text more => exact String.append_assoc

theorem operandsText_one (c : Catalog) (o : Operand) :
    operandsText c [o] = tailed "\t" (o.text c) := by
  unfold operandsText tailed
  by_cases empty : o.text c = ""
  · simp [empty]
  · simp [empty]

theorem operandsText_two {o : Operand} (shown : o.text c ≠ "") (o' : Operand) :
    operandsText c [o, o'] = "\t" ++ (o.text c ++ tailed "," (o'.text c)) := by
  unfold operandsText tailed
  by_cases empty : o'.text c = ""
  · simp [shown, empty]
  · simp [shown, empty, String.append_assoc]

theorem after_operandsText (c : Catalog) (operands : List Operand) :
    After '\t' (operandsText c operands) := by
  intro ch first
  unfold operandsText at first
  split at first
  · cases first
  · rw [String.toList_append] at first
    cases first
    rfl

/-- The text of an instruction tells its opcode. -/
theorem opcode_of_text {i i' : Instruction} (same : i.text c = i'.text c) :
    i.opcode = i'.opcode ∧ operandsText c i.operands = operandsText c i'.operands := by
  rw [text_eq, text_eq] at same
  obtain ⟨names, operands⟩ := cut_text i.opcode.tab_not_mem_name i'.opcode.tab_not_mem_name
    (after_operandsText c _) (after_operandsText c _) same
  exact ⟨Opcode.name_inj names, operands⟩

/-- An opcode has at most two operands, and the texts of two can be told apart. -/
theorem Opcode.forms_cases (op : Opcode) (family : Family) :
    op.forms family = [] ∨ (∃ k, op.forms family = [k]) ∨
      ∃ k k', op.forms family = [k, k'] ∧ k.isPlain = true := by
  unfold forms
  split
  all_goals try cases family
  all_goals first
    | exact .inl rfl
    | exact .inr (.inl ⟨_, rfl⟩)
    | exact .inr (.inr ⟨_, _, rfl, rfl⟩)

/-- Operands of the forms of one opcode that have one text are the same. -/
theorem operands_eq (legible : c.Legible) (distinct : c.DistinctNames) {family : Family}
    {mode : Mode} {address : Nat} {op : Opcode} {operands operands' : List Operand}
    (formed : List.Forall₂ (Operand.OfForm mode address) (op.forms family) operands)
    (formed' : List.Forall₂ (Operand.OfForm mode address) (op.forms family) operands')
    (same : operandsText c operands = operandsText c operands') : operands = operands' := by
  rcases op.forms_cases family with none_ | ⟨k, one⟩ | ⟨k, k', two, plain⟩
  · rw [none_] at formed formed'
    cases formed
    cases formed'
    rfl
  · rw [one, List.forall₂_cons_left_iff] at formed formed'
    obtain ⟨o, _, first, none_, rfl⟩ := formed
    obtain ⟨o', _, first', none_', rfl⟩ := formed'
    cases none_
    cases none_'
    rw [operandsText_one, operandsText_one] at same
    rw [Operand.text_inj legible distinct first first' (tailed_inj (by decide) same)]
  · rw [two, List.forall₂_cons_left_iff] at formed formed'
    obtain ⟨o, _, first, later, rfl⟩ := formed
    obtain ⟨o', _, first', later', rfl⟩ := formed'
    rw [List.forall₂_cons_left_iff] at later later'
    obtain ⟨q, _, second, none_, rfl⟩ := later
    obtain ⟨q', _, second', none_', rfl⟩ := later'
    cases none_
    cases none_'
    obtain ⟨free, shown⟩ := Operand.plain_text legible first plain
    obtain ⟨free', shown'⟩ := Operand.plain_text legible first' plain
    -- The first operand ends at the first comma, or with the text if the second one is empty.
    rw [operandsText_two shown, operandsText_two shown'] at same
    obtain ⟨heads, rests⟩ := cut_text free free' (isTail_tailed _).after (isTail_tailed _).after
      ((String.append_right_inj _).mp same)
    rw [Operand.text_inj legible distinct first first' heads,
      Operand.text_inj legible distinct second second' (tailed_inj (by decide) rests)]

/-- Instructions that can be encoded for one address and have one text are the same. -/
theorem eq_of_text (legible : c.Legible) (distinct : c.DistinctNames) {family : Family}
    {mode : Mode} {address : Nat} {i i' : Instruction} (encodable : i.Encodable family mode address)
    (encodable' : i'.Encodable family mode address) (same : i.text c = i'.text c) : i = i' := by
  obtain ⟨opcode, texts⟩ := opcode_of_text same
  have formed := forms_of_encodable encodable.body
  have formed' := forms_of_encodable encodable'.body
  rw [← opcode] at formed'
  have operands := operands_eq legible distinct formed formed' texts
  have code : i.encode = i'.encode := by
    unfold Instruction.encode Instruction.body
    rw [opcode, operands]
  have length : i.length = i'.length := by rw [encodable.long, encodable'.long, code]
  have address_ : i.address = i'.address := encodable.placed.trans encodable'.placed.symm
  cases i
  cases i'
  cases opcode
  cases operands
  cases length
  cases address_
  rfl

end Texts

/-! ## Devices -/

/-- Where the window of special function registers begins at a multiple of 256, the low byte of an
address is the offset. -/
theorem DataMemory.remapAccess_injective {m : DataMemory} (aligned : m.sfrWindow % 2 ^ 8 = 0) :
    Function.Injective m.remapAccess := by
  have low : ∀ k : UInt8, m.remapAccess k % 2 ^ 8 = k.toNat := by
    intro k
    have small : k.toNat % 2 ^ 8 = k.toNat := Nat.mod_eq_of_lt k.toNat_lt
    unfold remapAccess
    split
    · exact small
    · rw [Nat.or_mod_two_pow, aligned, Nat.zero_or, small]
  intro k k' same
  apply UInt8.toNat_inj.mp
  rw [← low k, ← low k', same]

theorem Catalog.family_of_load {d : Device} {c : Catalog} (loaded : load (some d) = .ok c) :
    c.family = d.family := by
  obtain ⟨_, same, checked⟩ := checked_of_load loaded
  cases same
  rw [family, checked.memory]

/-- What the description of a device has to be for its text to be read. -/
theorem legible_of_load {d : Device} {c : Catalog} (loaded : Catalog.load (some d) = .ok c)
    (names : ∀ r ∈ d.registers, IsWord r.name)
    (fieldNames : ∀ r ∈ d.registers, ∀ f ∈ r.fields, IsWord f.name)
    (bits : ∀ r ∈ d.registers, ((r.fields.filter (·.width = 1)).map (·.name)).Nodup)
    (aligned : d.sfrWindow % 2 ^ 8 = 0) : c.Legible := by
  obtain ⟨_, same, checked⟩ := Catalog.checked_of_load loaded
  cases same
  rw [← checked.registers] at names fieldNames bits
  refine ⟨names, fieldNames, bits, DataMemory.remapAccess_injective ?_⟩
  rw [checked.memory]
  exact aligned

theorem legible_builtin {entry : String × Device} (listed : entry ∈ Devices.builtin) :
    ∃ c, Catalog.load (some entry.2) = .ok c ∧ c.Legible := by
  simp only [Devices.builtin, List.mem_cons, List.not_mem_nil, or_false] at listed
  rcases listed with rfl | rfl
  · obtain ⟨c, loaded⟩ : ∃ c, Catalog.load (some Devices.Pic18f4620.device) = .ok c := ⟨_, rfl⟩
    exact ⟨c, loaded, legible_of_load loaded (by decide +kernel) (by decide +kernel)
      (by decide +kernel) (by decide)⟩
  · obtain ⟨c, loaded⟩ : ∃ c, Catalog.load (some Devices.Pic18f46k42.device) = .ok c := ⟨_, rfl⟩
    exact ⟨c, loaded, legible_of_load loaded (by decide +kernel) (by decide +kernel)
      (by decide +kernel) (by decide)⟩

/-! ## Text of decoded instructions -/

/-- On a loaded device whose text can be read, two byte strings that decode at one address to
instructions with one text decode to the same instruction: the same opcode, length and operands.  The
built-in devices are of this kind. -/
theorem text_lossless :
    (∀ entry ∈ Devices.builtin, ∃ c, Catalog.load (some entry.2) = .ok c ∧ c.Legible) ∧
      ∀ device c, Catalog.load device = .ok c → c.Legible →
        ∀ mode address bytes bytes' i i', decode c.family mode bytes address = .ok (some i) →
          decode c.family mode bytes' address = .ok (some i') → i.text c = i'.text c → i = i' := by
  refine ⟨fun entry listed => legible_builtin listed, ?_⟩
  intro device c loaded legible mode address bytes bytes' i i' decoded decoded' same
  have opcode := (opcode_of_text same).1
  -- A word that is no instruction has a mnemonic of its own, so both are invalid or neither is.
  by_cases valid : i.opcode = .invalid
  · rw [invalid_of_decode decoded valid, invalid_of_decode decoded' (opcode ▸ valid)]
  · have encodable := (encodable_of_decode decoded valid).1
    have encodable' := (encodable_of_decode decoded' (opcode ▸ valid)).1
    exact eq_of_text legible (Catalog.distinct_of_load loaded) encodable encodable' same

/-- A move from offset 0x12 to offset 0x34 from FSR2. -/
def movssAt : Instruction := ⟨0x200, 4, .movss, [.index 0x12, .index 0x34]⟩

theorem text_movssAt (c : Catalog) : movssAt.text c = "MOVSS\t[0x12],[0x34]" := rfl

/-- Two encodings that differ in a bit the decoder leaves unread have one text on a built-in device,
so they are one instruction. -/
theorem text_lossless_movss :
    ∃ c, Catalog.load (some Devices.Pic18f4620.device) = .ok c ∧ c.Legible ∧
      ∃ i i', decode c.family .extended [0x92, 0xEB, 0x34, 0xF0] 0x200 = .ok (some i) ∧
        decode c.family .extended [0x92, 0xEB, 0x34, 0xF8] 0x200 = .ok (some i') ∧
        i.text c = "MOVSS\t[0x12],[0x34]" ∧ i'.text c = "MOVSS\t[0x12],[0x34]" ∧ i = i' := by
  obtain ⟨builtin, lossless⟩ := text_lossless
  obtain ⟨c, loaded, legible⟩ := builtin _ List.mem_cons_self
  have family : c.family = .traditional := Catalog.family_of_load loaded
  have decoded : decode c.family .extended [0x92, 0xEB, 0x34, 0xF0] 0x200 = .ok (some movssAt) := by
    rw [family]
    rfl
  have decoded' : decode c.family .extended [0x92, 0xEB, 0x34, 0xF8] 0x200 = .ok (some movssAt) := by
    rw [family]
    rfl
  exact ⟨c, loaded, legible, movssAt, movssAt, decoded, decoded', text_movssAt c, text_movssAt c,
    lossless _ c loaded legible _ _ _ _ _ _ decoded decoded' rfl⟩

end RegisterTransfer.Pic18
