/-
# RegisterTransfer.Proofs.Pic18.Compatibility -- extended mode reads old programs as before

Extended mode gives meanings to words that traditional mode refuses, and to small access-bank offsets
another location.  A program that uses neither is read alike in both modes.  `Instruction.inMode` sets
the mode that the file operands of an instruction are tagged with; nothing else of an instruction
knows the mode.

* `firstWord_extended`: what a first word begins in traditional mode it begins in extended mode;
* `decode_extended`: and so does an instruction that is valid there;
* `location_inMode`: the tag does not matter to an operand that is no index;
* `text_inMode`, `instruction_inMode`: nor to the text and the statements of its instruction;
* `extended_compatible`: two runs over one image.
-/
import RegisterTransfer.Pic18.Devices
import RegisterTransfer.Proofs.Pic18.Locality
import RegisterTransfer.Proofs.Pic18.Totality
import RegisterTransfer.Proofs.Stream.TwoPass

namespace RegisterTransfer

set_option autoImplicit false

open InstructionStream

namespace Pic18

/-! ## The mode of an instruction -/

/-- The operand in another mode. -/
def FileOperand.inMode (mode : Mode) (f : FileOperand) : FileOperand := { f with mode }

/-- The operand with its file-register field in another mode. -/
def Operand.inMode (mode : Mode) : Operand → Operand
  | file f => file (f.inMode mode)
  | fileBit f bit => fileBit (f.inMode mode) bit
  | fileDest f dest => fileDest (f.inMode mode) dest
  | o => o

def Body.inMode (mode : Mode) (body : Body) : Body := (body.1, body.2.map (·.inMode mode))

/-- The instruction with its file operands in another mode. -/
def Instruction.inMode (mode : Mode) (i : Instruction) : Instruction :=
  { i with operands := i.operands.map (·.inMode mode) }

/-- Not an access-bank operand that extended mode takes as an index. -/
def FileOperand.Unindexed (f : FileOperand) : Prop := f.access = true → indexLimit < f.offset.toNat

/-- No operand that extended mode takes as an index. -/
def Instruction.Unindexed (i : Instruction) : Prop :=
  ∀ o ∈ i.operands, ∀ f, o.file? = some f → f.Unindexed

/-! ## Decoding -/

section Decoding

variable {family : Family} {bytes : List UInt8} {address : Nat} {mode : Mode}

/-- The form with its bodies in another mode. -/
def Form.inMode (mode : Mode) : Form → Form
  | nothing => nothing
  | single body => single (body.inMode mode)
  | double body => double fun p => (body p).map (·.inMode mode)
  | triple body => triple fun p q => (body p q).inMode mode

/-- In extended mode a form is either new or that of traditional mode. -/
def Form.Kept (old new : Form) : Prop := old = .nothing ∨ new = old.inMode .extended

theorem Form.words_inMode (f : Form) : (f.inMode mode).words = f.words := by
  cases f <;> rfl

theorem kept_onlyIf (condition : Bool) {old new : Form} (kept : old.Kept new) :
    (Form.onlyIf condition old).Kept (Form.onlyIf condition new) := by
  cases condition with
  | false => exact .inl rfl
  | true => exact kept

theorem controlForm_extended (family : Family) (w : Nat) :
    (controlForm family .traditional w).Kept (controlForm family .extended w) := by
  unfold controlForm
  split
  -- The long indexed move and the computed call are new.
  case h_2 => exact .inl (by cases family <;> rfl)
  case h_20 => exact .inl rfl
  case h_22 => exact kept_onlyIf _ (.inr rfl)
  all_goals exact .inr rfl

theorem bankForm_extended (family : Family) (w : Nat) :
    (bankForm family w).Kept (bankForm family w) := by
  cases family <;> exact kept_onlyIf _ (.inr rfl)

theorem miscForm_extended (family : Family) (w : Nat) :
    (miscForm family .traditional w).Kept (miscForm family .extended w) := by
  unfold miscForm
  split
  case h_1 => exact controlForm_extended family w
  case h_2 => exact bankForm_extended family w
  all_goals exact .inr rfl

theorem loadPointerForm_extended (family : Family) (w : Nat) :
    (loadPointerForm family w).Kept (loadPointerForm family w) := by
  refine .inr (congrArg Form.double (funext fun p => ?_))
  cases family with
  | traditional | enhanced =>
      simp only [apply_ite (Option.map (Body.inMode .extended)), Option.map_none, Option.map_some]
      rfl

theorem branchForm_extended (family : Family) (address w : Nat) :
    (branchForm family .traditional address w).Kept (branchForm family .extended address w) := by
  unfold branchForm
  split
  case h_7 => exact loadPointerForm_extended family w
  all_goals first
    | exact .inr rfl
    | exact .inl rfl

/-- What a first word begins in traditional mode it begins in extended mode. -/
theorem firstWord_extended (family : Family) (address w : Nat) :
    (firstWord family .traditional address w).Kept (firstWord family .extended address w) := by
  unfold firstWord
  split
  case h_1 => exact miscForm_extended family w
  case h_15 => exact branchForm_extended family address w
  all_goals exact .inr rfl

theorem Form.complete_inMode (f : Form) (rest : List UInt8) :
    (f.inMode mode).complete rest = (f.complete rest).map (Option.map (Body.inMode mode)) := by
  match f, rest with
  | .nothing, _ | .single _, _ => rfl
  | .double _, [] | .double _, [_] => rfl
  | .triple _, [] | .triple _, [_] | .triple _, [_, _] | .triple _, [_, _, _] => rfl
  | .double body, l :: h :: _ =>
      show Except.ok ((payloadOf? l h).bind _) = Except.ok (((payloadOf? l h).bind body).map _)
      cases payloadOf? l h <;> rfl
  | .triple body, l :: h :: l' :: h' :: _ =>
      simp only [complete, inMode, Except.map]
      cases payloadOf? l h <;> cases payloadOf? l' h' <;> rfl

/-- An instruction that is valid in traditional mode is decoded in extended mode, with the other
tag. -/
theorem decode_extended
    (valid : ∀ i, decode family .traditional bytes address = .ok (some i) → i.opcode ≠ .invalid) :
    decode family .extended bytes address =
      (decode family .traditional bytes address).map (Option.map (·.inMode .extended)) := by
  match bytes with
  | [] | [_] => rfl
  | low :: high :: rest =>
    rcases firstWord_extended family address (wordOf low high) with none_ | kept
    · refine absurd rfl (valid (.invalid address) ?_)
      simp only [decode, none_]
      rfl
    · simp only [decode, kept, Form.complete_inMode, Form.words_inMode]
      cases result : (firstWord family .traditional address (wordOf low high)).complete rest with
      | error needed => rfl
      | ok found =>
          cases found with
          | none | some _ => rfl

end Decoding

/-! ## Operands and texts -/

section Operands

variable {c : Catalog} {mode : Mode} {f : FileOperand} {o : Operand} {i : Instruction}

/-- The tag does not matter to an operand that is no index. -/
theorem location_inMode (unindexed : f.Unindexed) : (f.inMode mode).location c = f.location c := by
  have index : ∀ m : Mode, ¬ (m = .extended ∧ f.access = true ∧ isIndex f.offset = true) := by
    rintro m ⟨_, access, small⟩
    exact absurd (of_decide_eq_true small) (Nat.not_le.mpr (unindexed access))
  unfold FileOperand.location FileOperand.inMode DataMemory.resolve
  rw [if_neg (index mode), if_neg (index f.mode)]

theorem cell_inMode (unindexed : f.Unindexed) : (f.inMode mode).cell c = f.cell c := by
  rw [FileOperand.cell, location_inMode unindexed, FileOperand.cell]

theorem fileText_inMode (unindexed : f.Unindexed) (tail : String) (namedTail : Nat → String) :
    (f.inMode mode).text c tail namedTail = f.text c tail namedTail := by
  rw [FileOperand.text, location_inMode unindexed, FileOperand.text]
  rfl

theorem operandText_inMode (unindexed : ∀ f, o.file? = some f → f.Unindexed) :
    (o.inMode mode).text c = o.text c := by
  cases o with
  | file f | fileBit f _ | fileDest f _ => exact fileText_inMode (unindexed f rfl) _ _
  | _ => rfl

theorem text_inMode (unindexed : i.Unindexed) : (i.inMode mode).text c = i.text c := by
  have texts : (i.inMode mode).operandTexts c = i.operandTexts c := by
    simp only [Instruction.operandTexts, Instruction.inMode, List.map_map]
    exact congrArg _ (List.map_congr_left fun o listed => operandText_inMode (unindexed o listed))
  rw [Instruction.text, texts]
  rfl

end Operands

/-! ## Lowering -/

section Reading

variable (mode : Mode) (i : Instruction)

theorem operand_inMode (n : Nat) :
    (i.inMode mode).operand n = (i.operand n).map (·.inMode mode) := by
  unfold Instruction.operand Instruction.inMode
  rw [List.getElem?_map]
  cases i.operands[n]? <;> rfl

/-- What a reader finds in another mode. -/
theorem expect_inMode {α : Type} {g : α → α} {read : Operand → Option α}
    (reads : ∀ o : Operand, read (o.inMode mode) = (read o).map g) (n : Nat) (what : String) :
    (i.inMode mode).expect n what read = (i.expect n what read).map g := by
  unfold Instruction.expect
  rw [operand_inMode]
  cases i.operand n with
  | error fault => rfl
  | ok o =>
      simp only [bind, Except.bind, Except.map, reads]
      cases read o <;> rfl

theorem expect_of_neutral {α : Type} {read : Operand → Option α}
    (reads : ∀ o : Operand, read (o.inMode mode) = read o) (n : Nat) (what : String) :
    (i.inMode mode).expect n what read = i.expect n what read := by
  rw [expect_inMode mode i (g := id) (fun o => by rw [reads, Option.map_id, id]) n what]
  cases i.expect n what read <;> rfl

theorem literal_inMode (n : Nat) : (i.inMode mode).literal n = i.literal n :=
  expect_of_neutral mode i (fun o => by cases o <;> rfl) n _

theorem codeTarget_inMode (n : Nat) : (i.inMode mode).codeTarget n = i.codeTarget n :=
  expect_of_neutral mode i (fun o => by cases o <;> rfl) n _

theorem pointer_inMode (n : Nat) : (i.inMode mode).pointer n = i.pointer n :=
  expect_of_neutral mode i (fun o => by cases o <;> rfl) n _

theorem tableMode_inMode : (i.inMode mode).tableMode = i.tableMode :=
  expect_of_neutral mode i (fun o => by cases o <;> rfl) _ _

theorem longLiteral_inMode (n : Nat) : (i.inMode mode).longLiteral n = i.longLiteral n :=
  expect_of_neutral mode i (fun o => by cases o <;> rfl) n _

theorem farDestination_inMode : (i.inMode mode).farDestination = i.farDestination :=
  expect_of_neutral mode i (fun o => by cases o <;> rfl) _ _

theorem farSource_inMode (c : Catalog) :
    Lower.farSource c (i.inMode mode) = Lower.farSource c i :=
  expect_of_neutral mode i (fun o => by cases o <;> rfl) _ _

theorem isFast_inMode (n : Nat) : (i.inMode mode).isFast n = i.isFast n := by
  unfold Instruction.isFast Instruction.inMode
  rw [List.getElem?_map]
  cases i.operands[n]? with
  | none => rfl
  | some o => cases o <;> rfl

theorem file_inMode : (i.inMode mode).file = i.file.map (·.inMode mode) :=
  expect_inMode mode i (fun o => by cases o <;> rfl) _ _

theorem fileDest_inMode :
    (i.inMode mode).fileDest = i.fileDest.map fun (f, dest) => (f.inMode mode, dest) :=
  expect_inMode mode i (fun o => by cases o <;> rfl) _ _

theorem fileBit_inMode :
    (i.inMode mode).fileBit = i.fileBit.map fun (f, bit) => (f.inMode mode, bit) :=
  expect_inMode mode i (fun o => by cases o <;> rfl) _ _

variable {i} {mode}

/-- What a reader finds it reads from an operand of the instruction. -/
theorem exists_of_expect {α : Type} {read : Operand → Option α} {n : Nat} {what : String} {a : α}
    (found : i.expect n what read = .ok a) : ∃ o ∈ i.operands, read o = some a := by
  obtain ⟨o, listed, holds⟩ := Instruction.getElem?_of_expect found
  exact ⟨o, List.mem_of_getElem? listed, holds⟩

variable {c : Catalog} {f : FileOperand} (unindexed : i.Unindexed)

include unindexed

theorem cell_of_file (found : i.file = .ok f) : (f.inMode mode).cell c = f.cell c := by
  obtain ⟨o, listed, holds⟩ := exists_of_expect found
  cases o <;> cases holds
  exact cell_inMode (unindexed _ listed _ rfl)

theorem cell_of_fileDest {dest : Destination} (found : i.fileDest = .ok (f, dest)) :
    (f.inMode mode).cell c = f.cell c := by
  obtain ⟨o, listed, holds⟩ := exists_of_expect found
  cases o <;> cases holds
  exact cell_inMode (unindexed _ listed _ rfl)

theorem cell_of_fileBit {bit : Fin 8} (found : i.fileBit = .ok (f, bit)) :
    (f.inMode mode).cell c = f.cell c := by
  obtain ⟨o, listed, holds⟩ := exists_of_expect found
  cases o <;> cases holds
  exact cell_inMode (unindexed _ listed _ rfl)

end Reading

namespace Lower

variable {c : Catalog} {mode : Mode} {i : Instruction} {next : Option Instruction}

theorem skipTarget_inMode :
    skipTarget (i.inMode mode) (next.map (·.inMode mode)) = skipTarget i next := by
  cases next <;> rfl

/-- A map of what was read that the statements after it do not notice. -/
theorem bind_map {α β : Type} {e : Except Fault α} {g : α → α} {body : α → Lowering β}
    (same : ∀ a, e = .ok a → body (g a) = body a) :
    liftM (e.map g) >>= body = liftM e >>= body := by
  cases e with
  | error fault => rfl
  | ok a => exact same a rfl

section File

variable (unindexed : i.Unindexed)

include unindexed

theorem fileResult_inMode (flags : Nat) (compute : Expr → Lowering Expr) :
    fileResult c (i.inMode mode) flags compute = fileResult c i flags compute := by
  unfold fileResult
  rw [fileDest_inMode]
  exact bind_map fun read found => by simp only [cell_of_fileDest unindexed found]

theorem onFile_inMode {α : Type} (body : Expr → Lowering α) :
    onFile c (i.inMode mode) body = onFile c i body := by
  unfold onFile
  rw [file_inMode]
  exact bind_map fun f found => by rw [cell_of_file unindexed found]

theorem changeBit_inMode (op : BinaryOp) :
    changeBit c (i.inMode mode) op = changeBit c i op := by
  unfold changeBit
  rw [fileBit_inMode]
  exact bind_map fun read found => by simp only [cell_of_fileBit unindexed found]

theorem countAndSkip_inMode (delta : Int) (onZero : Bool) :
    countAndSkip c (i.inMode mode) (next.map (·.inMode mode)) delta onZero =
      countAndSkip c i next delta onZero := by
  unfold countAndSkip
  rw [fileDest_inMode, skipTarget_inMode]
  exact bind_map fun read found => by simp only [cell_of_fileDest unindexed found]

theorem testAndSkip_inMode (test : Expr → Expr) :
    testAndSkip c (i.inMode mode) (next.map (·.inMode mode)) test = testAndSkip c i next test := by
  unfold testAndSkip
  rw [onFile_inMode unindexed, skipTarget_inMode]

theorem bitTestAndSkip_inMode (ifSet : Bool) :
    bitTestAndSkip c (i.inMode mode) (next.map (·.inMode mode)) ifSet =
      bitTestAndSkip c i next ifSet := by
  unfold bitTestAndSkip
  rw [fileBit_inMode, skipTarget_inMode]
  exact bind_map fun read found => by simp only [cell_of_fileBit unindexed found]

end File

theorem withTablePointer_inMode (body : Lowering Unit) :
    withTablePointer c (i.inMode mode) body = withTablePointer c i body := by
  unfold withTablePointer
  rw [tableMode_inMode]

theorem indexedMove_inMode : indexedMove c (i.inMode mode) = indexedMove c i := by
  unfold indexedMove
  rw [operand_inMode, operand_inMode]
  cases i.operand 0 with
  | error fault => rfl
  | ok o =>
      cases i.operand 1 with
      | error fault => rfl
      | ok o' => cases o <;> cases o' <;> rfl

/-- The statements of an instruction without index operands do not depend on the tag. -/
theorem instruction_inMode (unindexed : i.Unindexed) :
    instruction c (i.inMode mode) (next.map (·.inMode mode)) = instruction c i next := by
  unfold instruction
  have opcode : (i.inMode mode).opcode = i.opcode := rfl
  rw [opcode]
  cases i.opcode with
  | addwf | addwfc | subwf | subwfb | subfwb | incf | decf | andwf | iorwf | xorwf | comf | movf
  | rlncf | rrncf | rlcf | rrcf | swapf => exact fileResult_inMode unindexed _ _
  | negf | clrf | setf | movwf | mulwf => exact onFile_inMode unindexed _
  | bcf | bsf | btg => exact changeBit_inMode unindexed _
  | decfsz | dcfsnz | incfsz | infsnz => exact countAndSkip_inMode unindexed _ _
  | cpfseq | cpfsgt | cpfslt | tstfsz => exact testAndSkip_inMode unindexed _
  | btfsc | btfss => exact bitTestAndSkip_inMode unindexed _
  | bz | bnz | bc | bnc | bov | bnov | bn | bnn => simp only [branchOn, codeTarget_inMode]
  | bra | goto => simp only [jump, codeTarget_inMode]
  | call | rcall => simp only [call, codeTarget_inMode, isFast_inMode]
  | ret => simp only [returnFromCall, isFast_inMode]
  | retfie => simp only [returnFromInterrupt, isFast_inMode]
  | retlw => simp only [returnWithLiteral, literal_inMode]
  | addulnk | subulnk => simp only [unlink, literal_inMode]
  | addfsr | subfsr => simp only [adjustPointer, pointer_inMode, literal_inMode]
  | lfsr => simp only [loadPointer, pointer_inMode, longLiteral_inMode]
  | movlb => simp only [selectBank, literal_inMode]
  | movlw | addlw | sublw | andlw | iorlw | xorlw => simp only [literalResult, literal_inMode]
  | mullw => simp only [literal_inMode]
  | pushl => simp only [pushLiteral, literal_inMode]
  | tblrd | tblwt => exact withTablePointer_inMode _
  | movff | movffl | movsf | movsfl =>
      simp only [farMove, farDestination_inMode, farSource_inMode]
  | movss => exact indexedMove_inMode
  | push | pop | daw | callw | sleep | clrwdt | reset | nop | db | dw | de | ascii | idlocs
  | config | invalid => rfl

end Lower

theorem lowerWith_inMode (c : Catalog) (mode : Mode) {i : Instruction} (next : Option Instruction)
    (t : IntrinsicTable) (unindexed : i.Unindexed) :
    (backend c).lowerWith (i.inMode mode) (next.map (·.inMode mode)) t =
      (backend c).lowerWith i next t := by
  have lower : (backend c).lower (i.inMode mode) (next.map (·.inMode mode)) =
      (backend c).lower i next :=
    congrArg (fun x : Lowering Unit => x >>= fun _ => pure false)
      (Lower.instruction_inMode unindexed)
  unfold Backend.lowerWith Backend.draft
  rw [lower]

/-! ## Two runs -/

theorem located_decoder (family : Family) (mode : Mode) : (decoder family mode).Located := by
  intro bytes address i decoded
  refine ⟨(within_of_decode decoded).1, ?_⟩
  show 0 < i.length
  have long := length_of_decode decoded
  omega

/-- The first pass over an image in both modes. -/
theorem decodeAll_extended {family : Family} {image : List UInt8} {base : Nat}
    (valid : ∀ i ∈ ((decoder family .traditional).decodeAll image base).1, i.opcode ≠ .invalid) :
    (decoder family .extended).decodeAll image base =
      (((decoder family .traditional).decodeAll image base).1.map (·.inMode .extended),
        ((decoder family .traditional).decodeAll image base).2) :=
  Decoder.decodeAll_map (g := (·.inMode .extended)) (located_decoder family .traditional)
    (fun _ => rfl) (fun _ _ valid => decode_extended valid) image base valid

/-- What of an instruction does not know the mode. -/
def Instruction.shown (c : Catalog) (i : Instruction) : Nat × Nat × Opcode × String :=
  (i.address, i.length, i.opcode, i.text c)

/-- If every instruction of an image is valid in traditional mode and no operand is an access-bank
operand that extended mode takes as an index, then extended mode gives the same items up to the mode
that file operands are tagged with: the same addresses, lengths, opcodes, texts and fault, and the
same clusters, whatever table of intrinsics the two runs begin with. -/
theorem extended_compatible (c : Catalog) (family : Family) (image : List UInt8) (base : Nat)
    (t : IntrinsicTable) :
    let old := ofImage (decoder family .traditional) image base
    let new := ofImage (decoder family .extended) image base
    (∀ i, .ok i ∈ old.items → i.opcode ≠ .invalid ∧ i.Unindexed) →
      new.items = old.items.map (Except.map (·.inMode .extended)) ∧
      new.items.map (Except.map (·.shown c)) = old.items.map (Except.map (·.shown c)) ∧
      ClusterStream.collect (backend c) ⟨new, t, false⟩ =
        ClusterStream.collect (backend c) ⟨old, t, false⟩ := by
  intro old new plain
  let decoded := (decoder family .traditional).decodeAll image base
  have items : old.items = itemsOf decoded.1 decoded.2 := items_ofImage _ _ _
  have plain' : ∀ i ∈ decoded.1, i.opcode ≠ .invalid ∧ i.Unindexed := fun i listed =>
    plain i (by rw [items]; exact List.mem_append_left _ (List.mem_map_of_mem listed))
  have items' : new.items = itemsOf (decoded.1.map (·.inMode .extended)) decoded.2 := by
    rw [items_ofImage, decodeAll_extended fun i listed => (plain' i listed).1]
  have tagged : new.items = old.items.map (Except.map (·.inMode .extended)) := by
    rw [items', items, itemsOf_map]
  refine ⟨tagged, ?shown, ?clusters⟩
  case shown =>
    rw [tagged, List.map_map]
    refine List.map_congr_left fun item listed => ?_
    cases item with
    | error fault => rfl
    | ok i =>
        have text : (i.inMode .extended).text c = i.text c := text_inMode (plain i listed).2
        show Except.ok ((i.inMode .extended).shown c) = Except.ok (i.shown c)
        rw [Instruction.shown, text]
        rfl
  case clusters =>
    have same : (backend c).lowerAll t (decoded.1.map (·.inMode .extended)) =
        (backend c).lowerAll t decoded.1 :=
      Backend.lowerAll_map (g := (·.inMode .extended)) (fun _ => rfl) (fun _ => rfl)
        (fun i next t unindexed => lowerWith_inMode c .extended next t unindexed) decoded.1 t
        fun i listed => (plain' i listed).2
    rw [ClusterStream.collect_eq_lowerItems _ _ (coherent_ofImage _ _ _) rfl,
      ClusterStream.collect_eq_lowerItems _ _ (coherent_ofImage _ _ _) rfl]
    simp only [items, items', Backend.lowerItems_eq_lowerAll, same]

/-- A skip over a far move, an addition in the selected bank, and a byte that is left over. -/
def skippingProgram : List UInt8 := [0x80, 0x66, 0x23, 0xC1, 0xE8, 0xFF, 0x10, 0x25, 0x00]

/-- What a mode reads there. -/
def skippingItems (mode : Mode) : List (StreamItem Instruction) :=
  [.ok ⟨0, 2, .tstfsz, [.file ⟨0x80, true, mode⟩]⟩,
    .ok ⟨2, 4, .movff, [.data12 0x123, .data12 0xFE8]⟩,
    .ok ⟨6, 2, .addwf, [.fileDest ⟨0x10, false, mode⟩ .w]⟩,
    .error (.truncated 8 2 1)]

theorem items_skippingProgram :
    (ofImage (decoder .traditional .traditional) skippingProgram 0).items =
      skippingItems .traditional := by
  unfold skippingProgram
  rw [items_ofImage_instruction (by decide) rfl (by decide),
    items_ofImage_instruction (by decide) rfl (by decide),
    items_ofImage_instruction (by decide) rfl (by decide),
    items_ofImage_fault (by decide) rfl]
  rfl

/-- The program uses no index, so extended mode reads it alike on a built-in device. -/
theorem extended_compatible_tstfsz :
    ∃ c, Catalog.load (some Devices.Pic18f4620.device) = .ok c ∧
      (ofImage (decoder .traditional .extended) skippingProgram 0).items =
        skippingItems .extended ∧
      ClusterStream.collect (backend c)
          ⟨ofImage (decoder .traditional .extended) skippingProgram 0, .empty, false⟩ =
        ClusterStream.collect (backend c)
          ⟨ofImage (decoder .traditional .traditional) skippingProgram 0, .empty, false⟩ := by
  obtain ⟨c, loaded⟩ : ∃ c, Catalog.load (some Devices.Pic18f4620.device) = .ok c := ⟨_, rfl⟩
  obtain ⟨tagged, _, clusters⟩ :=
    extended_compatible c .traditional skippingProgram 0 .empty fun i listed => by
      rw [items_skippingProgram] at listed
      simp only [skippingItems, List.mem_cons, Except.ok.injEq, reduceCtorEq, List.not_mem_nil,
        or_false] at listed
      rcases listed with rfl | rfl | rfl <;>
        simp [Instruction.Unindexed, FileOperand.Unindexed, Operand.file?, indexLimit]
  refine ⟨c, loaded, ?_, clusters⟩
  rw [tagged, items_skippingProgram]
  rfl

end Pic18

end RegisterTransfer
