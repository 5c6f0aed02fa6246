/-
# RegisterTransfer.Proofs.Pic18.Signature -- the operands that an opcode takes

Each opcode has a signature, the kinds of its operands in order.  A kind is what the lowering of the
opcode asks of the operand: a file register with a destination, a code address, the number of one of
three pointers, and so on.  `Form.Fits` says the same of what a first word begins, for every payload
of its continuation words.

* `firstWord_fits`: whatever a first word begins has the signature of its opcode, in every family and
  mode;
* `decode_cases`: bytes that are not empty give an instruction at their address that fits its
  signature, takes one to three words and lies within the bytes, or a truncation and nothing else.
-/
import RegisterTransfer.Pic18.Decoder
import RegisterTransfer.Pic18.Lowering

namespace RegisterTransfer.Pic18

set_option autoImplicit false

/-- What a lowering can ask of an operand. -/
inductive OperandKind where
  | file | fileDest | fileBit
  /-- An address in code. -/
  | target
  /-- Whether the shadow registers take part. -/
  | fast
  | literal
  /-- A literal to load into a pointer. -/
  | longLiteral
  /-- The number of a pointer. -/
  | pointer
  | table
  /-- A full data address. -/
  | address
  /-- An offset from FSR2. -/
  | index
deriving DecidableEq

/-- Whether an operand is of a kind. -/
def Operand.isOf : Operand → OperandKind → Bool
  | .file _, .file => true
  | .fileDest .., .fileDest => true
  | .fileBit .., .fileBit => true
  | .relative8 .., .target => true
  | .relative11 .., .target => true
  | .absolute _, .target => true
  | .fast _, .fast => true
  | .imm4 _, .literal => true
  | .imm6 _, .literal => true
  | .imm8 _, .literal => true
  | .imm12 _, .longLiteral => true
  | .imm14 _, .longLiteral => true
  | .pointer n, .pointer => n < 3
  | .table _, .table => true
  | .data12 _, .address => true
  | .data14 _, .address => true
  | .index _, .index => true
  | _, _ => false

/-- The kinds of the operands of an opcode. -/
def Opcode.signature : Opcode → List OperandKind
  | .addwf | .addwfc | .subwf | .subwfb | .subfwb | .incf | .decf | .andwf | .iorwf | .xorwf
  | .comf | .movf | .rlncf | .rrncf | .rlcf | .rrcf | .swapf | .decfsz | .dcfsnz | .incfsz
  | .infsnz => [.fileDest]
  | .negf | .clrf | .setf | .movwf | .mulwf | .cpfseq | .cpfsgt | .cpfslt | .tstfsz => [.file]
  | .bcf | .bsf | .btg | .btfsc | .btfss => [.fileBit]
  | .bz | .bnz | .bc | .bnc | .bov | .bnov | .bn | .bnn | .bra | .goto | .rcall => [.target]
  | .call => [.target, .fast]
  | .ret | .retfie => [.fast]
  | .retlw | .addulnk | .subulnk | .movlb | .movlw | .addlw | .sublw | .andlw | .iorlw | .xorlw
  | .mullw | .pushl => [.literal]
  | .addfsr | .subfsr => [.pointer, .literal]
  | .lfsr => [.pointer, .longLiteral]
  | .tblrd | .tblwt => [.table]
  | .movff | .movffl => [.address, .address]
  | .movsf | .movsfl => [.index, .address]
  | .movss => [.index, .index]
  | .daw | .callw | .push | .pop | .sleep | .clrwdt | .reset | .nop | .invalid => []
  | .db | .dw | .de | .ascii | .idlocs | .config => []

/-- Whether operands are of the kinds given, one by one. -/
def Operand.fit : List Operand → List OperandKind → Bool
  | [], [] => true
  | o :: operands, k :: kinds => o.isOf k && fit operands kinds
  | _, _ => false

/-- The operands of a body are those that its opcode takes. -/
def Body.Fits (body : Body) : Prop := Operand.fit body.2 body.1.signature = true

/-- The operands of an instruction are those that its opcode takes. -/
def Instruction.Fits (i : Instruction) : Prop := Operand.fit i.operands i.opcode.signature = true

/-- Whatever continuation words complete the form, its body fits. -/
def Form.Fits : Form → Prop
  | .nothing => True
  | .single body => body.Fits
  | .double body => ∀ p found, body p = some found → found.Fits
  | .triple body => ∀ p q, (body p q).Fits

/-! ## First words -/

theorem Form.fits_onlyIf {condition : Bool} {f : Form} (fits : f.Fits) :
    (onlyIf condition f).Fits := by
  unfold onlyIf
  split
  · exact fits
  · trivial

theorem controlForm_fits (family : Family) (mode : Mode) (w : Nat) :
    (controlForm family mode w).Fits := by
  unfold controlForm
  split
  all_goals first
    | rfl
    | (apply Form.fits_onlyIf; rfl)
    | (apply Form.fits_onlyIf; intro p q; rfl)

theorem bankForm_fits (family : Family) (w : Nat) : (bankForm family w).Fits := by
  cases family <;> exact Form.fits_onlyIf rfl

theorem signature_literalOpcode (high : Nat) : (literalOpcode high).signature = [.literal] := by
  unfold literalOpcode
  split <;> rfl

theorem signature_byteOpcode (high : Nat) : (byteOpcode high).signature = [.fileDest] := by
  unfold byteOpcode
  split <;> rfl

theorem signature_fileOpcode (high : Nat) : (fileOpcode high).signature = [.file] := by
  unfold fileOpcode
  split <;> rfl

theorem signature_branchOpcode (high : Nat) : (branchOpcode high).signature = [.target] := by
  unfold branchOpcode
  split <;> rfl

theorem miscForm_fits (family : Family) (mode : Mode) (w : Nat) :
    (miscForm family mode w).Fits := by
  unfold miscForm
  split
  · exact controlForm_fits family mode w
  · exact bankForm_fits family w
  all_goals try rfl
  · show Operand.fit _ _ = true
    rw [signature_literalOpcode]
    rfl

theorem bitsOf_lt (w lowest width : Nat) : bitsOf w lowest width < 2 ^ width :=
  Nat.mod_lt _ (Nat.two_pow_pos width)

theorem pointerForm_fits (w : Nat) : (pointerForm w).Fits := by
  have small := bitsOf_lt w 6 2
  unfold pointerForm
  simp only
  split
  · show Operand.fit _ _ = true
    split <;> rfl
  · rename_i other
    have less : bitsOf w 6 2 < 3 := by
      have : bitsOf w 6 2 ≠ 3 := other
      omega
    show Operand.fit _ _ = true
    split <;> simp [Opcode.signature, Operand.fit, Operand.isOf, less]

theorem indexedMoveForm_fits (w : Nat) : (indexedMoveForm w).Fits := by
  intro p body found
  simp only at found
  split at found <;> · cases found; rfl

theorem loadPointerForm_fits (family : Family) (w : Nat) : (loadPointerForm family w).Fits := by
  have small := bitsOf_lt w 4 2
  intro p body found
  simp only at found
  split at found
  · cases found
  · rename_i allowed
    have less : bitsOf w 4 2 < 3 := by
      have : bitsOf w 4 2 ≠ 3 := fun same => allowed (.inr same)
      omega
    split at found <;> split at found
    · cases found
    · cases found
      simp [Body.Fits, Operand.fit, Opcode.signature, Operand.isOf, less]
    · cases found
    · cases found
      simp [Body.Fits, Operand.fit, Opcode.signature, Operand.isOf, less]

theorem branchForm_fits (family : Family) (mode : Mode) (address w : Nat) :
    (branchForm family mode address w).Fits := by
  unfold branchForm
  split
  · exact Form.fits_onlyIf (pointerForm_fits w)
  · exact Form.fits_onlyIf (pointerForm_fits w)
  · exact Form.fits_onlyIf rfl
  · exact Form.fits_onlyIf (indexedMoveForm_fits w)
  · intro p body found
    cases found
    rfl
  · intro p body found
    cases found
    rfl
  · exact loadPointerForm_fits family w
  · intro p body found
    cases found
    rfl
  · show Operand.fit _ _ = true
    rw [signature_branchOpcode]
    rfl

/-- Whatever a first word begins has the signature of its opcode. -/
theorem firstWord_fits (family : Family) (mode : Mode) (address w : Nat) :
    (firstWord family mode address w).Fits := by
  unfold firstWord
  split
  · exact miscForm_fits family mode w
  case h_7 =>
    show Operand.fit _ _ = true
    rw [signature_fileOpcode]
    rfl
  case h_13 =>
    intro p body found
    cases found
    rfl
  case h_14 =>
    show Operand.fit _ _ = true
    split <;> rfl
  case h_15 => exact branchForm_fits family mode address w
  all_goals first
    | rfl
    | (show Operand.fit _ _ = true; rw [signature_byteOpcode]; rfl)

/-! ## Whole instructions -/

/-- A form is completed by bytes that hold all its words, and misses bytes otherwise. -/
theorem Form.complete_cases (f : Form) (rest : List UInt8) :
    (∃ found, f.complete rest = .ok found ∧ 2 * f.words ≤ rest.length + 2) ∨
    (f.complete rest = .error (2 * f.words) ∧ rest.length + 2 < 2 * f.words) := by
  cases f with
  | nothing => exact .inl ⟨none, rfl, by simp [words]⟩
  | single body => exact .inl ⟨some body, rfl, by simp [words]⟩
  | double body =>
      rcases rest with _ | ⟨_, _ | ⟨_, _⟩⟩
      iterate 2 · exact .inr ⟨rfl, by simp [words]⟩
      · exact .inl ⟨_, rfl, by simp [words]⟩
  | triple body =>
      rcases rest with _ | ⟨_, _ | ⟨_, _ | ⟨_, _ | ⟨_, _⟩⟩⟩⟩
      iterate 4 · exact .inr ⟨rfl, by simp [words]⟩
      · exact .inl ⟨_, rfl, by simp [words]⟩

theorem Form.fits_of_complete {f : Form} {rest : List UInt8} {body : Body} (fits : f.Fits)
    (complete : f.complete rest = .ok (some body)) : body.Fits := by
  cases f with
  | nothing => cases complete
  | single _ =>
      cases complete
      exact fits
  | double make =>
      rcases rest with _ | ⟨_, _ | ⟨_, _⟩⟩
      iterate 2 · cases complete
      · obtain ⟨p, _, made⟩ := Option.bind_eq_some_iff.mp (Except.ok.inj complete)
        exact fits p body made
  | triple make =>
      rcases rest with _ | ⟨_, _ | ⟨_, _ | ⟨_, _ | ⟨_, _⟩⟩⟩⟩
      iterate 4 · cases complete
      · obtain ⟨p, _, found⟩ := Option.bind_eq_some_iff.mp (Except.ok.inj complete)
        obtain ⟨q, _, found⟩ := Option.bind_eq_some_iff.mp found
        cases found
        exact fits p q

theorem Form.words_pos (f : Form) : 0 < f.words := by
  cases f <;> simp [words]

/-- Bytes give an instruction that lies within them and fits its signature, or end too early. -/
theorem decode_cases (family : Family) (mode : Mode) (bytes : List UInt8) (address : Nat)
    (more : bytes ≠ []) :
    (∃ i, decode family mode bytes address = .ok (some i) ∧ i.address = address ∧ i.Fits ∧
      0 < i.length ∧ i.length ≤ bytes.length) ∨
    ∃ needed, decode family mode bytes address = .error (.truncated address needed bytes.length) ∧
      bytes.length < needed := by
  match bytes with
  | [] => exact absurd rfl more
  | [_] => exact .inr ⟨2, rfl, by simp⟩
  | low :: high :: rest =>
      have fits := firstWord_fits family mode address (wordOf low high)
      have positive := (firstWord family mode address (wordOf low high)).words_pos
      rcases (firstWord family mode address (wordOf low high)).complete_cases rest with
        ⟨found, complete, within⟩ | ⟨complete, missing⟩
      · cases found with
        | none =>
            refine .inl ⟨.invalid address, ?_, rfl, rfl, by simp [Instruction.invalid], ?_⟩
            · simp only [decode, complete]
            · simp [Instruction.invalid]
        | some body =>
            refine .inl ⟨⟨address, 2 * (firstWord family mode address (wordOf low high)).words,
              body.1, body.2⟩, ?_, rfl, Form.fits_of_complete fits complete, ?_, ?_⟩
            · simp only [decode, complete]
            · simp only
              omega
            · simp only [List.length_cons]
              omega
      · refine .inr ⟨_, ?_, missing⟩
        simp only [decode, complete]

end RegisterTransfer.Pic18
