/-
# RegisterTransfer.Pic18.Decoder -- reading PIC18 machine code

Instructions are rows of one to three little-endian words.  `firstWord` says what a first word
begins: a whole instruction, one with one or two continuation words, or nothing.  Continuation
words carry `1111` in their top bits and twelve bits of payload.

`decode` only has to count bytes then.  A word that begins no instruction, and one whose
continuation lacks its mark, is an invalid instruction of one word; bytes that end before the last
word are a truncation.
-/
import RegisterTransfer.Pic18.Instruction

namespace RegisterTransfer.Pic18

set_option autoImplicit false

/-- The number that two bytes write, low byte first. -/
def wordOf (low high : UInt8) : Nat := low.toNat + 256 * high.toNat

/-- The `width` bits of a word from bit `lowest` on. -/
def bitsOf (w lowest width : Nat) : Nat := w / 2 ^ lowest % 2 ^ width

/-- A field of `width` bits read as two's complement. -/
def signedField (width value : Nat) : Int := Int.bmod value (2 ^ width)

/-- An opcode with its operands. -/
abbrev Body := Opcode × List Operand

/-- What a first word begins. -/
inductive Form where
  | nothing
  | single (body : Body)
  /-- One continuation word; its payload may still be refused. -/
  | double (body : Nat → Option Body)
  /-- Two continuation words. -/
  | triple (body : Nat → Nat → Body)

namespace Form

/-- How many words an instruction of the form takes. -/
def words : Form → Nat
  | nothing => 1
  | single _ => 1
  | double _ => 2
  | triple _ => 3

/-- A form that only some devices or modes have. -/
def onlyIf (condition : Bool) (f : Form) : Form := if condition then f else nothing

end Form

/-! ## Operand fields -/

def fileOf (mode : Mode) (w : Nat) : FileOperand :=
  .ofFields mode (.ofNat (w % 256)) (bitsOf w 8 1)

def fileDestOf (mode : Mode) (w : Nat) : Operand :=
  .fileDest (fileOf mode w) (.ofBit (bitsOf w 9 1))

def fileBitOf (mode : Mode) (w : Nat) : Operand :=
  .fileBit (fileOf mode w) (Fin.ofNat 8 (w / 2 ^ 9))

def literal8Of (w : Nat) : Operand := .imm8 (.ofNat (w % 256))

/-- A word address with its low byte in the first word and the rest in the continuation. -/
def wordAddressOf (w payload : Nat) : Nat := payload * 256 + w % 256

/-! ## First words -/

/-- Words that begin with eight zero bits. -/
def controlForm (family : Family) (mode : Mode) (w : Nat) : Form :=
  match w % 256 with
  | 0x00 => .single (.nop, [])
  | 0x02 =>
      .onlyIf (family = .enhanced && mode = .extended) <| .triple fun p q =>
        (.movsfl, [.index (.ofNat (bitsOf p 2 7)), .ofAddress14 (p % 4 * 2 ^ 12 + q)])
  | 0x03 => .single (.sleep, [])
  | 0x04 => .single (.clrwdt, [])
  | 0x05 => .single (.push, [])
  | 0x06 => .single (.pop, [])
  | 0x07 => .single (.daw, [])
  | 0x08 | 0x09 | 0x0A | 0x0B => .single (.tblrd, [.table (.ofBits w)])
  | 0x0C | 0x0D | 0x0E | 0x0F => .single (.tblwt, [.table (.ofBits w)])
  | 0x10 | 0x11 => .single (.retfie, [.fast (w % 2 = 1)])
  | 0x12 | 0x13 => .single (.ret, [.fast (w % 2 = 1)])
  | 0x14 => .onlyIf (mode = .extended) <| .single (.callw, [])
  | 0xFF => .single (.reset, [])
  | low =>
      .onlyIf (family = .enhanced && low / 16 = 6) <| .triple fun p q =>
        (.movffl,
          [.ofAddress14 (w % 16 * 2 ^ 10 + p / 4), .ofAddress14 (p % 4 * 2 ^ 12 + q)])

/-- The instruction with a literal that a high byte from `08` on stands for. -/
def literalOpcode : Nat → Opcode
  | 0x08 => .sublw
  | 0x09 => .iorlw
  | 0x0A => .xorlw
  | 0x0B => .andlw
  | 0x0C => .retlw
  | 0x0D => .mullw
  | 0x0E => .movlw
  | _ => .addlw

/-- The bank selection, whose literal has as many bits as the family has bank bits. -/
def bankForm (family : Family) (w : Nat) : Form :=
  match family with
  | .enhanced => .onlyIf (w % 256 < 64) <| .single (.movlb, [.imm6 (.ofNat (w % 64))])
  | .traditional => .onlyIf (w % 256 < 16) <| .single (.movlb, [.imm4 (.ofNat (w % 16))])

/-- Words that begin with four zero bits. -/
def miscForm (family : Family) (mode : Mode) (w : Nat) : Form :=
  match w / 256 with
  | 0x0 => controlForm family mode w
  | 0x1 => bankForm family w
  | 0x2 | 0x3 => .single (.mulwf, [.file (fileOf mode w)])
  | 0x4 | 0x5 | 0x6 | 0x7 => .single (.decf, [fileDestOf mode w])
  | high => .single (literalOpcode high, [literal8Of w])

/-- The operation on a byte that the top six bits of a word from `1000` to `5FFF` stand for. -/
def byteOpcode : Nat → Opcode
  | 0x04 => .iorwf
  | 0x05 => .andwf
  | 0x06 => .xorwf
  | 0x07 => .comf
  | 0x08 => .addwfc
  | 0x09 => .addwf
  | 0x0A => .incf
  | 0x0B => .decfsz
  | 0x0C => .rrcf
  | 0x0D => .rlcf
  | 0x0E => .swapf
  | 0x0F => .incfsz
  | 0x10 => .rrncf
  | 0x11 => .rlncf
  | 0x12 => .infsnz
  | 0x13 => .dcfsnz
  | 0x14 => .movf
  | 0x15 => .subfwb
  | 0x16 => .subwfb
  | _ => .subwf

/-- The operation without a destination that the top seven bits of a word from `6000` to `6FFF`
stand for. -/
def fileOpcode : Nat → Opcode
  | 0x30 => .cpfslt
  | 0x31 => .cpfseq
  | 0x32 => .cpfsgt
  | 0x33 => .tstfsz
  | 0x34 => .setf
  | 0x35 => .clrf
  | 0x36 => .negf
  | _ => .movwf

/-- The conditional branch of a high byte from `E0` to `E7`. -/
def branchOpcode : Nat → Opcode
  | 0xE0 => .bz
  | 0xE1 => .bnz
  | 0xE2 => .bc
  | 0xE3 => .bnc
  | 0xE4 => .bov
  | 0xE5 => .bnov
  | 0xE6 => .bn
  | _ => .bnn

/-- Adding to or subtracting from a pointer; pointer number 3 means FSR2 and a return. -/
def pointerForm (w : Nat) : Form :=
  let literal : Operand := .imm6 (.ofNat (w % 64))
  let add := w / 256 = 0xE8
  match bitsOf w 6 2 with
  | 3 => .single (if add then .addulnk else .subulnk, [literal])
  | n => .single (if add then .addfsr else .subfsr, [.pointer n, literal])

/-- Moves from an offset of FSR2. -/
def indexedMoveForm (w : Nat) : Form :=
  let source : Operand := .index (.ofNat (w % 128))
  .double fun p =>
    if bitsOf w 7 1 = 0 then some (.movsf, [source, .ofAddress12 p])
    else some (.movss, [source, .index (.ofNat (p % 128))])

/-- Loading a pointer.  Bits of the words that no literal bit uses have to be zero. -/
def loadPointerForm (family : Family) (w : Nat) : Form :=
  let n := bitsOf w 4 2
  .double fun p =>
    if bitsOf w 6 2 ≠ 0 ∨ n = 3 then none
    else
      match family with
      | .enhanced =>
          if bitsOf p 10 2 ≠ 0 then none
          else some (.lfsr, [.pointer n, .imm14 (w % 16 * 2 ^ 10 + p % 2 ^ 10)])
      | .traditional =>
          if bitsOf p 8 4 ≠ 0 then none
          else some (.lfsr, [.pointer n, .imm12 (w % 16 * 2 ^ 8 + p % 2 ^ 8)])

/-- Words from `E000` to `EFFF`. -/
def branchForm (family : Family) (mode : Mode) (address w : Nat) : Form :=
  match w / 256 with
  | 0xE8 | 0xE9 => .onlyIf (mode = .extended) <| pointerForm w
  | 0xEA => .onlyIf (mode = .extended) <| .single (.pushl, [literal8Of w])
  | 0xEB => .onlyIf (mode = .extended) <| indexedMoveForm w
  | 0xEC | 0xED =>
      .double fun p =>
        some (.call, [.ofWordAddress (wordAddressOf w p), .fast (bitsOf w 8 1 = 1)])
  | 0xEE => loadPointerForm family w
  | 0xEF => .double fun p => some (.goto, [.ofWordAddress (wordAddressOf w p)])
  | high => .single (branchOpcode high, [.ofOffset8 (signedField 8 (w % 256)) address])

/-- What a first word at an address begins. -/
def firstWord (family : Family) (mode : Mode) (address w : Nat) : Form :=
  match w / 4096 with
  | 0x0 => miscForm family mode w
  | 0x1 | 0x2 | 0x3 | 0x4 | 0x5 => .single (byteOpcode (w / 2 ^ 10), [fileDestOf mode w])
  | 0x6 => .single (fileOpcode (w / 2 ^ 9), [.file (fileOf mode w)])
  | 0x7 => .single (.btg, [fileBitOf mode w])
  | 0x8 => .single (.bsf, [fileBitOf mode w])
  | 0x9 => .single (.bcf, [fileBitOf mode w])
  | 0xA => .single (.btfss, [fileBitOf mode w])
  | 0xB => .single (.btfsc, [fileBitOf mode w])
  | 0xC => .double fun p => some (.movff, [.ofAddress12 w, .ofAddress12 p])
  | 0xD =>
      .single (if bitsOf w 11 1 = 0 then .bra else .rcall,
        [.ofOffset11 (signedField 11 (w % 2 ^ 11)) address])
  | 0xE => branchForm family mode address w
  | _ => .single (.nop, [])

/-! ## Instructions -/

/-- The twelve bits of payload of a continuation word. -/
def payloadOf? (low high : UInt8) : Option Nat :=
  let w := wordOf low high
  if w / 4096 = 0xF then some (w % 4096) else none

/-- The bodies that a form and the bytes after the first word make, or how many bytes are missing
at least. -/
def Form.complete (f : Form) (rest : List UInt8) : Except Nat (Option Body) :=
  match f, rest with
  | nothing, _ => .ok none
  | single body, _ => .ok (some body)
  | double body, l :: h :: _ => .ok ((payloadOf? l h).bind body)
  | triple body, l :: h :: l' :: h' :: _ =>
      .ok (do
        let p ← payloadOf? l h
        let q ← payloadOf? l' h'
        return body p q)
  | f, _ => .error (2 * f.words)

/-- The instruction at the front of some bytes. -/
def decode (family : Family) (mode : Mode) (bytes : List UInt8) (address : Nat) :
    Except DecodeFault (Option Instruction) :=
  match bytes with
  | [] => .ok none
  | [_] => .error (.truncated address 2 1)
  | low :: high :: rest =>
      let form := firstWord family mode address (wordOf low high)
      match form.complete rest with
      | .error needed => .error (.truncated address needed bytes.length)
      | .ok none => .ok (some (.invalid address))
      | .ok (some (opcode, operands)) =>
          .ok (some ⟨address, 2 * form.words, opcode, operands⟩)

/-- The decoder of a family and mode. -/
def decoder (family : Family) (mode : Mode) : Decoder Instruction := ⟨decode family mode⟩

/-! ## Data directives

A directive reads its bytes through checked accesses.  An access past the end is not a refusal that
the decoder answers: it stops the program, so the two are kept apart. -/

/-- Why bytes give no directive. -/
inductive DirectiveFault where
  /-- The decoder refuses the bytes. -/
  | refused (fault : DecodeFault)
  /-- `wanted` items are read at an address where only `available` are. -/
  | overrun (address wanted available : Nat)
deriving DecidableEq

namespace DirectiveFault

/-- The refusal that a report of the fault names. -/
def cause : DirectiveFault → DecodeFault
  | refused fault => fault
  | overrun address wanted available => .truncated address wanted available

instance : Coe DirectiveFault DecodeFault := ⟨cause⟩

def message (f : DirectiveFault) : String := f.cause.message

end DirectiveFault

/-- The most bytes that one directive takes. -/
def maxDirectiveBytes : Nat := 8

/-- The first `count` items, if there are as many. -/
def firstItems {α : Type} (items : List α) (count address : Nat) :
    Except DirectiveFault (List α) :=
  if count ≤ items.length then .ok (items.take count)
  else .error (.overrun address count items.length)

/-- The first item, if there is one. -/
def firstItem {α : Type} (items : List α) (address : Nat) : Except DirectiveFault α :=
  match items with
  | item :: _ => .ok item
  | [] => .error (.overrun address 1 0)

/-- The words that bytes write; an odd byte at the end is left out. -/
def wordsOf : List UInt8 → List UInt16
  | low :: high :: rest => UInt16.ofNat (wordOf low high) :: wordsOf rest
  | _ => []

/-- The words of the first `count` bytes, of which an odd one is left out.  The check for a whole word
looks at the count that is asked for. -/
def firstWords (bytes : List UInt8) (count address : Nat) : Except DirectiveFault (List UInt16) :=
  if count < 2 then .error (.refused (.truncated address 2 bytes.length))
  else (firstItems bytes (count - count % 2) address).map wordsOf

/-- Length and payload of the directive that bytes are taken for. -/
def payloadFor (directive : Opcode) (bytes : List UInt8) (address : Nat) :
    Except DirectiveFault (Nat × Payload) :=
  let take := min bytes.length maxDirectiveBytes
  match directive with
  | .db => do return (take, .bytes (← firstItems bytes take address))
  | .de => do return (take, .eeprom (← firstItems bytes take address))
  | .ascii => do return (take, .ascii (← firstItems bytes take address))
  | .dw => do
      let taken ← firstWords bytes take address
      return (2 * taken.length, .words taken)
  | .idlocs => do
      let taken ← firstWords bytes 2 address
      return (2, .idLocation address (← firstItem taken address))
  | .config => do return (1, .config address (← firstItem bytes address))
  | other =>
      .error (.refused (.invalidEncoding address (other.name ++ " is not a data directive")))

/-- The directive at the front of some bytes. -/
def decodeDirective (directive : Opcode) (bytes : List UInt8) (address : Nat) :
    Except DirectiveFault (Option Instruction) :=
  if bytes.isEmpty then .ok none
  else do
    let (length, payload) ← payloadFor directive bytes address
    return some ⟨address, length, directive, [.payload payload]⟩

end RegisterTransfer.Pic18
