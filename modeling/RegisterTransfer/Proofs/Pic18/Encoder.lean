/-
# RegisterTransfer.Proofs.Pic18.Encoder -- writing PIC18 instructions

The encoder is read off the table of instructions: a pattern for each opcode, with all operand bits
clear, to which the fields of the operands are added.  It knows no family and no mode.
`Body.Encodable` says which bodies a family has in a mode at an address, one rule for each shape of
operands, with the range of every field and the target of every branch.

Some words are read alike.  NOP stands for the word 0000 and for every word that begins with 1111,
and MOVSFL and MOVSS leave some bits of their second word unread.  `Opcode.Alike` relates bytes that
differ in nothing else.

* `Opcode.Alike.trans`: what is alike to the same bytes is alike;
* `OpcodeTable`: the decoder's tables of opcodes are the patterns read backwards.
-/
import RegisterTransfer.Pic18.Decoder

namespace RegisterTransfer.Pic18

set_option autoImplicit false

/-! ## Opcodes -/

/-- The first word of an opcode with all operand bits clear. -/
def Opcode.pattern : Opcode → Nat
  -- whole words
  | .nop => 0x0000 | .movsfl => 0x0002 | .sleep => 0x0003 | .clrwdt => 0x0004 | .push => 0x0005
  | .pop => 0x0006 | .daw => 0x0007 | .callw => 0x0014 | .reset => 0x00FF
  -- a few bits of operands
  | .tblrd => 0x0008 | .tblwt => 0x000C | .retfie => 0x0010 | .ret => 0x0012 | .movffl => 0x0060
  | .movlb => 0x0100 | .lfsr => 0xEE00
  | .addfsr => 0xE800 | .addulnk => 0xE8C0 | .subfsr => 0xE900 | .subulnk => 0xE9C0
  | .movsf => 0xEB00 | .movss => 0xEB80
  -- a literal or an offset of eight bits
  | .sublw => 0x0800 | .iorlw => 0x0900 | .xorlw => 0x0A00 | .andlw => 0x0B00 | .retlw => 0x0C00
  | .mullw => 0x0D00 | .movlw => 0x0E00 | .addlw => 0x0F00 | .pushl => 0xEA00
  | .bz => 0xE000 | .bnz => 0xE100 | .bc => 0xE200 | .bnc => 0xE300 | .bov => 0xE400
  | .bnov => 0xE500 | .bn => 0xE600 | .bnn => 0xE700
  | .call => 0xEC00 | .goto => 0xEF00
  -- a file register
  | .mulwf => 0x0200 | .cpfslt => 0x6000 | .cpfseq => 0x6200 | .cpfsgt => 0x6400
  | .tstfsz => 0x6600 | .setf => 0x6800 | .clrf => 0x6A00 | .negf => 0x6C00 | .movwf => 0x6E00
  -- a file register and a destination
  | .decf => 0x0400 | .iorwf => 0x1000 | .andwf => 0x1400 | .xorwf => 0x1800 | .comf => 0x1C00
  | .addwfc => 0x2000 | .addwf => 0x2400 | .incf => 0x2800 | .decfsz => 0x2C00 | .rrcf => 0x3000
  | .rlcf => 0x3400 | .swapf => 0x3800 | .incfsz => 0x3C00 | .rrncf => 0x4000 | .rlncf => 0x4400
  | .infsnz => 0x4800 | .dcfsnz => 0x4C00 | .movf => 0x5000 | .subfwb => 0x5400
  | .subwfb => 0x5800 | .subwf => 0x5C00
  -- a file register and a bit, or eleven or twelve bits of an address
  | .btg => 0x7000 | .bsf => 0x8000 | .bcf => 0x9000 | .btfss => 0xA000 | .btfsc => 0xB000
  | .movff => 0xC000 | .bra => 0xD000 | .rcall => 0xD800
  -- no instructions
  | .db | .dw | .de | .ascii | .idlocs | .config | .invalid => 0

/-- The opcodes without operands that every family has in every mode. -/
def bareOpcodes : List Opcode := [.nop, .sleep, .clrwdt, .push, .pop, .daw, .reset]

def literalOpcodes : List Opcode :=
  [.sublw, .iorlw, .xorlw, .andlw, .retlw, .mullw, .movlw, .addlw]

def branchOpcodes : List Opcode := [.bz, .bnz, .bc, .bnc, .bov, .bnov, .bn, .bnn]

/-- The opcodes with a file register alone, but for MULWF. -/
def fileOpcodes : List Opcode :=
  [.cpfslt, .cpfseq, .cpfsgt, .tstfsz, .setf, .clrf, .negf, .movwf]

/-- The opcodes with a file register and a destination, but for DECF. -/
def byteOpcodes : List Opcode :=
  [.iorwf, .andwf, .xorwf, .comf, .addwfc, .addwf, .incf, .decfsz, .rrcf, .rlcf, .swapf, .incfsz,
    .rrncf, .rlncf, .infsnz, .dcfsnz, .movf, .subfwb, .subwfb, .subwf]

def bitOpcodes : List Opcode := [.btg, .bsf, .bcf, .btfss, .btfsc]

/-- A table from numbers in a range to opcodes gives each of some opcodes for the top bits of its
pattern, and leaves so many bits for operands. -/
structure OpcodeTable (opcodeOf : Nat → Opcode) (opcodes : List Opcode) (lowest above room : Nat) :
    Prop where
  known : ∀ n < above, lowest ≤ n → opcodeOf n ∈ opcodes ∧ (opcodeOf n).pattern = n * 2 ^ room
  back : ∀ op ∈ opcodes, lowest ≤ op.pattern / 2 ^ room ∧ op.pattern / 2 ^ room < above ∧
    op.pattern % 2 ^ room = 0 ∧ opcodeOf (op.pattern / 2 ^ room) = op

namespace OpcodeTable

variable {opcodeOf : Nat → Opcode} {opcodes : List Opcode} {lowest above room : Nat}

/-- A word in the range of the table is the pattern of its opcode and bits of operands. -/
theorem pattern_add (table : OpcodeTable opcodeOf opcodes lowest above room) {w : Nat}
    (lower : lowest ≤ w / 2 ^ room) (upper : w / 2 ^ room < above) :
    opcodeOf (w / 2 ^ room) ∈ opcodes ∧ (opcodeOf (w / 2 ^ room)).pattern + w % 2 ^ room = w := by
  obtain ⟨listed, pattern⟩ := table.known _ upper lower
  rw [pattern]
  exact ⟨listed, Nat.div_add_mod' w (2 ^ room)⟩

/-- A pattern with bits of operands is a word in the range of the table, of that opcode. -/
theorem opcodeOf_add (table : OpcodeTable opcodeOf opcodes lowest above room) {op : Opcode}
    (listed : op ∈ opcodes) {x : Nat} (small : x < 2 ^ room) :
    lowest ≤ (op.pattern + x) / 2 ^ room ∧ (op.pattern + x) / 2 ^ room < above ∧
      (op.pattern + x) % 2 ^ room = x ∧ opcodeOf ((op.pattern + x) / 2 ^ room) = op := by
  obtain ⟨lower, upper, clear, same⟩ := table.back op listed
  have top : (op.pattern + x) / 2 ^ room = op.pattern / 2 ^ room := by
    obtain ⟨q, multiple⟩ := Nat.dvd_of_mod_eq_zero clear
    rw [multiple, Nat.mul_add_div (Nat.two_pow_pos room), Nat.div_eq_of_lt small, Nat.add_zero,
      Nat.mul_div_cancel_left q (Nat.two_pow_pos room)]
  have bits : (op.pattern + x) % 2 ^ room = x := by
    rw [Nat.add_mod, clear, Nat.zero_add, Nat.mod_mod, Nat.mod_eq_of_lt small]
  rw [top]
  exact ⟨lower, upper, bits, same⟩

end OpcodeTable

theorem literalTable : OpcodeTable literalOpcode literalOpcodes 0x08 0x10 8 :=
  ⟨by decide, by decide⟩

theorem branchTable : OpcodeTable branchOpcode branchOpcodes 0xE0 0xE8 8 :=
  ⟨by decide +kernel, by decide⟩

theorem fileTable : OpcodeTable fileOpcode fileOpcodes 0x30 0x38 9 :=
  ⟨by decide, by decide⟩

theorem byteTable : OpcodeTable byteOpcode byteOpcodes 0x04 0x18 10 :=
  ⟨by decide, by decide⟩

/-! ## Encoding -/

/-- The nine bits of a file register. -/
def FileOperand.code (f : FileOperand) : Nat := (if f.access then 0 else 2 ^ 8) + f.offset.toNat

def Destination.code : Destination → Nat
  | .w => 0
  | .f => 1

def TableMode.code : TableMode → Nat
  | .plain => 0
  | .postIncrement => 1
  | .postDecrement => 2
  | .preIncrement => 3

/-- The first word of a body, and the payloads of the words that continue it. -/
def Body.code : Body → Nat × List Nat
  | (op, [.file f]) => (op.pattern + f.code, [])
  | (op, [.fileDest f dest]) => (op.pattern + (dest.code * 2 ^ 9 + f.code), [])
  | (op, [.fileBit f bit]) => (op.pattern + (bit.val * 2 ^ 9 + f.code), [])
  | (op, [.imm4 k]) | (op, [.imm6 k]) | (op, [.imm8 k]) => (op.pattern + k.toNat, [])
  | (op, [.fast on]) => (op.pattern + on.toNat, [])
  | (op, [.table mode]) => (op.pattern + mode.code, [])
  | (op, [.relative8 offset _]) => (op.pattern + (offset % 2 ^ 8).toNat, [])
  | (op, [.relative11 offset _]) => (op.pattern + (offset % 2 ^ 11).toNat, [])
  | (op, [.absolute target]) => (op.pattern + target / 2 % 2 ^ 8, [target / 2 ^ 9])
  | (op, [.absolute target, .fast on]) =>
      (op.pattern + (on.toNat * 2 ^ 8 + target / 2 % 2 ^ 8), [target / 2 ^ 9])
  | (op, [.pointer n, .imm6 k]) => (op.pattern + (n * 2 ^ 6 + k.toNat), [])
  | (op, [.pointer n, .imm12 k]) => (op.pattern + (n * 2 ^ 4 + k / 2 ^ 8), [k % 2 ^ 8])
  | (op, [.pointer n, .imm14 k]) => (op.pattern + (n * 2 ^ 4 + k / 2 ^ 10), [k % 2 ^ 10])
  | (op, [.data12 source, .data12 dest]) => (op.pattern + source, [dest])
  | (op, [.data14 source, .data14 dest]) =>
      (op.pattern + source / 2 ^ 10, [source % 2 ^ 10 * 4 + dest / 2 ^ 12, dest % 2 ^ 12])
  | (op, [.index source, .data12 dest]) => (op.pattern + source.toNat, [dest])
  | (op, [.index source, .index dest]) => (op.pattern + source.toNat, [dest.toNat])
  | (op, [.index source, .data14 dest]) =>
      (op.pattern, [source.toNat * 4 + dest / 2 ^ 12, dest % 2 ^ 12])
  | (op, _) => (op.pattern, [])

/-- The bytes of a word, low byte first. -/
def wordBytes (w : Nat) : List UInt8 := [.ofNat w, .ofNat (w / 256)]

/-- The bytes of continuation words. -/
def laterBytes (payloads : List Nat) : List UInt8 :=
  payloads.flatMap fun p => wordBytes (0xF000 + p)

/-- The bytes of a first word and of the words that continue it. -/
def codeBytes (w : Nat) (payloads : List Nat) : List UInt8 := wordBytes w ++ laterBytes payloads

/-- The opcode and operands of an instruction. -/
def Instruction.body (i : Instruction) : Body := (i.opcode, i.operands)

/-- The bytes of an instruction. -/
def Instruction.encode (i : Instruction) : List UInt8 := codeBytes i.body.code.1 i.body.code.2

theorem length_codeBytes (w : Nat) (payloads : List Nat) :
    (codeBytes w payloads).length = 2 * (payloads.length + 1) := by
  induction payloads with
  | nil => rfl
  | cons p payloads ih =>
      simp only [codeBytes, laterBytes, List.flatMap_cons, List.length_append,
        List.length_cons] at ih ⊢
      simp only [wordBytes, List.length_cons, List.length_nil] at ih ⊢
      omega

theorem wordOf_bytes {w : Nat} (small : w < 2 ^ 16) :
    wordOf (.ofNat w) (.ofNat (w / 256)) = w := by
  simp only [wordOf, UInt8.toNat_ofNat']
  omega

theorem wordBytes_wordOf (low high : UInt8) : wordBytes (wordOf low high) = [low, high] := by
  have small := low.toNat_lt
  have small' := high.toNat_lt
  have low_ : UInt8.ofNat (low.toNat + 256 * high.toNat) = low := by
    apply UInt8.toNat_inj.mp
    rw [UInt8.toNat_ofNat']
    omega
  have high_ : UInt8.ofNat ((low.toNat + 256 * high.toNat) / 256) = high := by
    apply UInt8.toNat_inj.mp
    rw [UInt8.toNat_ofNat']
    omega
  rw [wordBytes, wordOf, low_, high_]

theorem wordOf_lt (low high : UInt8) : wordOf low high < 2 ^ 16 := by
  have small := low.toNat_lt
  have small' := high.toNat_lt
  unfold wordOf
  omega

/-! ## What can be encoded -/

/-- The bodies that a family has in a mode, of an instruction at an address. -/
inductive Body.Encodable (family : Family) (mode : Mode) (address : Nat) : Body → Prop
  | bare {op : Opcode} (known : op ∈ bareOpcodes) : Encodable family mode address (op, [])
  | callw (extended : mode = .extended) : Encodable family mode address (.callw, [])
  | fast {op : Opcode} {on : Bool} (known : op = .ret ∨ op = .retfie) :
      Encodable family mode address (op, [.fast on])
  | table {op : Opcode} {table : TableMode} (known : op = .tblrd ∨ op = .tblwt) :
      Encodable family mode address (op, [.table table])
  | file {op : Opcode} {f : FileOperand} (known : op = .mulwf ∨ op ∈ fileOpcodes)
      (same : f.mode = mode) : Encodable family mode address (op, [.file f])
  | fileDest {op : Opcode} {f : FileOperand} {dest : Destination}
      (known : op = .decf ∨ op ∈ byteOpcodes) (same : f.mode = mode) :
      Encodable family mode address (op, [.fileDest f dest])
  | fileBit {op : Opcode} {f : FileOperand} {bit : Fin 8} (known : op ∈ bitOpcodes)
      (same : f.mode = mode) : Encodable family mode address (op, [.fileBit f bit])
  | literal {op : Opcode} {k : UInt8} (known : op ∈ literalOpcodes) :
      Encodable family mode address (op, [.imm8 k])
  | pushl {k : UInt8} (extended : mode = .extended) :
      Encodable family mode address (.pushl, [.imm8 k])
  | bank4 {k : UInt8} (traditional : family = .traditional) (small : k.toNat < 2 ^ 4) :
      Encodable family mode address (.movlb, [.imm4 k])
  | bank6 {k : UInt8} (enhanced : family = .enhanced) (small : k.toNat < 2 ^ 6) :
      Encodable family mode address (.movlb, [.imm6 k])
  | link {op : Opcode} {k : UInt8} (known : op = .addulnk ∨ op = .subulnk)
      (extended : mode = .extended) (small : k.toNat < 2 ^ 6) :
      Encodable family mode address (op, [.imm6 k])
  | pointer {op : Opcode} {n : Nat} {k : UInt8} (known : op = .addfsr ∨ op = .subfsr)
      (extended : mode = .extended) (few : n < 3) (small : k.toNat < 2 ^ 6) :
      Encodable family mode address (op, [.pointer n, .imm6 k])
  | load12 {n k : Nat} (traditional : family = .traditional) (few : n < 3) (small : k < 2 ^ 12) :
      Encodable family mode address (.lfsr, [.pointer n, .imm12 k])
  | load14 {n k : Nat} (enhanced : family = .enhanced) (few : n < 3) (small : k < 2 ^ 14) :
      Encodable family mode address (.lfsr, [.pointer n, .imm14 k])
  | branch {op : Opcode} {offset : Int} (known : op ∈ branchOpcodes) (back : -2 ^ 7 ≤ offset)
      (ahead : offset < 2 ^ 7) :
      Encodable family mode address (op, [.relative8 offset (relativeTarget address offset)])
  | longBranch {op : Opcode} {offset : Int} (known : op = .bra ∨ op = .rcall)
      (back : -2 ^ 10 ≤ offset) (ahead : offset < 2 ^ 10) :
      Encodable family mode address (op, [.relative11 offset (relativeTarget address offset)])
  | goto {target : Nat} (even : target % 2 = 0) (inside : target < programSize) :
      Encodable family mode address (.goto, [.absolute target])
  | call {target : Nat} {on : Bool} (even : target % 2 = 0) (inside : target < programSize) :
      Encodable family mode address (.call, [.absolute target, .fast on])
  | movff {source dest : Nat} (inside : source < 2 ^ 12) (inside' : dest < 2 ^ 12) :
      Encodable family mode address (.movff, [.data12 source, .data12 dest])
  | movffl {source dest : Nat} (enhanced : family = .enhanced) (inside : source < 2 ^ 14)
      (inside' : dest < 2 ^ 14) :
      Encodable family mode address (.movffl, [.data14 source, .data14 dest])
  | movsf {source : UInt8} {dest : Nat} (extended : mode = .extended)
      (small : source.toNat < 2 ^ 7) (inside : dest < 2 ^ 12) :
      Encodable family mode address (.movsf, [.index source, .data12 dest])
  | movss {source dest : UInt8} (extended : mode = .extended) (small : source.toNat < 2 ^ 7)
      (small' : dest.toNat < 2 ^ 7) :
      Encodable family mode address (.movss, [.index source, .index dest])
  | movsfl {source : UInt8} {dest : Nat} (enhanced : family = .enhanced)
      (extended : mode = .extended) (small : source.toNat < 2 ^ 7) (inside : dest < 2 ^ 14) :
      Encodable family mode address (.movsfl, [.index source, .data14 dest])

/-- An instruction of a family in a mode that stands at an address. -/
structure Instruction.Encodable (family : Family) (mode : Mode) (address : Nat)
    (i : Instruction) : Prop where
  placed : i.address = address
  long : i.length = i.encode.length
  body : i.body.Encodable family mode address

/-! ## Bytes that are read alike -/

/-- A word has the mark of a continuation word. -/
def IsMarked (w : Nat) : Prop := w / 2 ^ 12 = 0xF

/-- A word stands for no operation. -/
def IsNop (w : Nat) : Prop := w = 0 ∨ IsMarked w

/-- The lowest bit of the second word that the decoder leaves unread, with all others up to bit 11. -/
def Opcode.unread? : Opcode → Option Nat
  | .movsfl => some 9
  | .movss => some 7
  | _ => none

/-- Words have the same bits, but for those from a lowest one up to bit 11. -/
def AgreeBut (lowest w w' : Nat) : Prop := w % 2 ^ lowest = w' % 2 ^ lowest ∧ w / 2 ^ 12 = w' / 2 ^ 12

/-- Bytes of instructions with one opcode are the same, or both words of NOP of a kind, or differ in
unread bits of their second words alone. -/
inductive Opcode.Alike (idle : Nat → Prop) (op : Opcode) : List UInt8 → List UInt8 → Prop
  | same (bytes : List UInt8) : op.Alike idle bytes bytes
  | nop {l h l' h' : UInt8} (is : op = .nop) (word : idle (wordOf l h))
      (word' : idle (wordOf l' h')) : op.Alike idle [l, h] [l', h']
  | unread {lowest : Nat} {a b l h l' h' : UInt8} {rest : List UInt8}
      (some_ : op.unread? = some lowest) (agree : AgreeBut lowest (wordOf l h) (wordOf l' h')) :
      op.Alike idle (a :: b :: l :: h :: rest) (a :: b :: l' :: h' :: rest)

namespace Opcode.Alike

variable {idle : Nat → Prop} {op : Opcode} {bytes bytes' bytes'' : List UInt8}

theorem length_eq (alike : op.Alike idle bytes bytes') : bytes.length = bytes'.length := by
  cases alike with
  | same _ | nop _ _ _ | unread _ _ => rfl

theorem symm (alike : op.Alike idle bytes bytes') : op.Alike idle bytes' bytes := by
  cases alike with
  | same _ => exact .same bytes
  | nop is word word' => exact .nop is word' word
  | unread some_ agree => exact .unread some_ ⟨agree.1.symm, agree.2.symm⟩

theorem trans (alike : op.Alike idle bytes bytes') (alike' : op.Alike idle bytes' bytes'') :
    op.Alike idle bytes bytes'' := by
  cases alike with
  | same _ => exact alike'
  | nop is word word' =>
      cases alike' with
      | same _ => exact .nop is word word'
      | nop _ _ word'' => exact .nop is word word''
  | unread some_ agree =>
      cases alike' with
      | same _ => exact .unread some_ agree
      | unread some' agree' =>
          rw [some_] at some'
          cases some'
          exact .unread some_ ⟨agree.1.trans agree'.1, agree.2.trans agree'.2⟩

end Opcode.Alike

end RegisterTransfer.Pic18
