/-
# RegisterTransfer.Pic18.Lowering -- register transfers of PIC18 instructions

Every instruction of both families and modes has register transfers; data directives and words that
are no instruction are invalid.  An instruction that lacks an operand its lowering needs is
malformed, which the decoder never lets happen.

A skip is a conditional branch past the next instruction, whose length the lowering has to know; at
the end of the code the next instruction counts as one word.
-/
import RegisterTransfer.Draft.Copy
import RegisterTransfer.Intrinsic.Names
import RegisterTransfer.Pic18.Cell
import RegisterTransfer.Pic18.Instruction
import RegisterTransfer.Stream.Clusters

namespace RegisterTransfer.Pic18

set_option autoImplicit false

/-! ## Status flags -/

namespace Status

def c : Nat := 0x01
def dc : Nat := 0x02
def z : Nat := 0x04
def ov : Nat := 0x08
def n : Nat := 0x10

/-- Every arithmetic flag. -/
def all : Nat := 0x1F

/-- The flags of logical operations. -/
def zn : Nat := 0x14

/-- The flags and their names, in the order in which groups name them. -/
def letters : List (Nat × String) := [(c, "C"), (dc, "DC"), (z, "Z"), (ov, "OV"), (n, "N")]

/-- The group of the flags in a mask. -/
def group (mask : Nat) : Identifier := .flagGroup letters "STATUS" mask

/-- The carry as an operand. -/
def carry : Expr := .identifier (group c)

/-- The flags an instruction derives from its result. -/
def model (mask : Nat) : FlagModel := ⟨group mask, group c⟩

end Status

/-! ## Operands -/

namespace Instruction

def malformed (i : Instruction) (reason : String) : Fault :=
  .malformed i.address (i.opcode.name ++ " " ++ reason)

/-- An operand by its position. -/
def operand (i : Instruction) (n : Nat) : Except Fault Operand :=
  match i.operands[n]? with
  | some o => .ok o
  | none => .error (i.malformed ("needs operand " ++ Numeral.decimal (n + 1)))

/-- What an operand holds, if it is of the kind the instruction expects. -/
def expect {α : Type} (i : Instruction) (n : Nat) (what : String) (read : Operand → Option α) :
    Except Fault α := do
  match read (← i.operand n) with
  | some a => return a
  | none => throw (i.malformed ("expects " ++ what))

def literal (i : Instruction) (n : Nat) : Except Fault UInt8 :=
  i.expect n "a literal" fun
    | .imm4 k | .imm6 k | .imm8 k => some k
    | _ => none

def codeTarget (i : Instruction) (n : Nat) : Except Fault Nat :=
  i.expect n "a code address" Operand.codeTarget?

def pointer (i : Instruction) (n : Nat) : Except Fault (Fin 3) :=
  i.expect n "FSR0, FSR1 or FSR2" fun
    | .pointer k => if h : k < 3 then some ⟨k, h⟩ else none
    | _ => none

def file (i : Instruction) : Except Fault FileOperand :=
  i.expect 0 "a file register" fun
    | .file f => some f
    | _ => none

def fileDest (i : Instruction) : Except Fault (FileOperand × Destination) :=
  i.expect 0 "a file register and destination" fun
    | .fileDest f dest => some (f, dest)
    | _ => none

def fileBit (i : Instruction) : Except Fault (FileOperand × Fin 8) :=
  i.expect 0 "a file register bit" fun
    | .fileBit f bit => some (f, bit)
    | _ => none

def tableMode (i : Instruction) : Except Fault TableMode :=
  i.expect 0 "a table pointer mode" fun
    | .table mode => some mode
    | _ => none

def longLiteral (i : Instruction) (n : Nat) : Except Fault Nat :=
  i.expect n "a 12- or 14-bit literal" fun
    | .imm12 k | .imm14 k => some k
    | _ => none

def farDestination (i : Instruction) : Except Fault Nat :=
  i.expect 1 "a destination address" fun
    | .data12 a | .data14 a => some a
    | _ => none

/-- Whether a call or return asks for the shadow registers. -/
def isFast (i : Instruction) (n : Nat) : Bool :=
  match i.operands[n]? with
  | some (.fast true) => true
  | _ => false

end Instruction

/-- The mask of one bit of a byte. -/
def bitMask (bit : Nat) : UInt8 := 1 <<< UInt8.ofNat bit

namespace Lower

/-! ## Storing -/

/-- Store a result and derive the flags in the mask from it. -/
def store (flags : Nat) (dst src : Expr) : Lowering Expr :=
  .copy (Status.model flags) (if flags = 0 then .viaTemporary else .withFlags) dst src

/-- Add a number to a register. -/
def adjust (id : Identifier) (delta : Int) : Lowering Unit :=
  .assign (.identifier id) ((Expr.identifier id).addInt delta)

/-- An intrinsic called for its effect. -/
def effect (name : String) (arguments : List Expr) : Lowering Unit := do
  .effect (← .apply name .void arguments)

/-! ## Bytes of a file register -/

/-- The place where a result for a destination goes. -/
def placeFor (c : Catalog) (f : Expr) : Destination → Expr
  | .w => .identifier c.core.wreg
  | .f => f

/-- Compute a byte from the file register and store it to the destination. -/
def fileResult (c : Catalog) (i : Instruction) (flags : Nat) (compute : Expr → Lowering Expr) :
    Lowering Unit := do
  let (operand, dest) ← i.fileDest
  (operand.cell c).access fun f => do
    let value ← compute f
    let _ ← store flags (placeFor c f dest) value

/-- A byte that an expression gives. -/
def arithmetic (c : Catalog) (i : Instruction) (flags : Nat) (compute : Expr → Expr) :
    Lowering Unit :=
  fileResult c i flags fun f => pure (compute f)

/-- A byte that an intrinsic gives. -/
def viaIntrinsic (c : Catalog) (i : Instruction) (flags : Nat) (name : String)
    (more : List Expr) : Lowering Unit :=
  fileResult c i flags fun f => .apply name .byte (f :: more)

/-- Statements about the file register of an instruction without a destination. -/
def onFile {α : Type} (c : Catalog) (i : Instruction) (body : Expr → Lowering α) :
    Lowering α := do
  let operand ← i.file
  (operand.cell c).access body

def negate (c : Catalog) (i : Instruction) : Lowering Unit :=
  onFile c i fun f => do
    let model := Status.model (Status.dc ||| Status.z ||| Status.ov ||| Status.n)
    let _ ← Lowering.copy model { CopyMode.withFlags with carryIfZero := true } f f.negate

def clear (c : Catalog) (i : Instruction) : Lowering Unit :=
  onFile c i fun f => do
    .assign f (.byte 0)
    .assign (.identifier (Status.group Status.z)) (.ofBool true)

def storeFile (c : Catalog) (i : Instruction) (value : Expr) : Lowering Unit :=
  onFile c i fun f => .assign f value

/-- The product of the working register and a byte. -/
def multiply (c : Catalog) (f : Expr) : Lowering Unit :=
  .assign (.identifier c.core.prod) (.binary .umul .uint16 (.identifier c.core.wreg) f)

def decimalAdjust (c : Catalog) : Lowering Unit := do
  let w := Expr.identifier c.core.wreg
  let value ← Lowering.apply IntrinsicName.daw .byte
    [w, Status.carry, .identifier (Status.group Status.dc)]
  let _ ← store Status.c w value

/-! ## Bits of a file register -/

/-- Combine the file register with the mask of its bit, or with the complement of the mask. -/
def changeBit (c : Catalog) (i : Instruction) (op : BinaryOp) : Lowering Unit := do
  let (operand, bit) ← i.fileBit
  (operand.cell c).access fun f => do
    let mask := bitMask bit.val
    let mask := if op = .and then ~~~mask else mask
    let _ ← store 0 f (.binary op .byte f (.byte mask))

/-! ## Skips and branches -/

/-- Address past the instruction that a skip jumps over. -/
def skipTarget (i : Instruction) : Option Instruction → Nat
  | some next => next.nextAddress
  | none => i.nextAddress + 2

/-- Whether a value is zero, or whether it is not. -/
def zeroTest (onZero : Bool) (value : Expr) : Expr :=
  if onZero then value.isZero else value.isNonzero

/-- Count the file register up or down and skip on the result. -/
def countAndSkip (c : Catalog) (i : Instruction) (next : Option Instruction) (delta : Int)
    (onZero : Bool) : Lowering Unit := do
  let (operand, dest) ← i.fileDest
  let condition ← (operand.cell c).access fun f => do
    let value ← store 0 (placeFor c f dest) (f.addInt delta)
    return zeroTest onZero value
  .branch condition (skipTarget i next)

/-- Skip if a test of the file register holds. -/
def testAndSkip (c : Catalog) (i : Instruction) (next : Option Instruction)
    (test : Expr → Expr) : Lowering Unit := do
  let condition ← onFile c i fun f => pure (test f)
  .branch condition (skipTarget i next)

/-- Compare the file register with the working register. -/
def compareAndSkip (c : Catalog) (i : Instruction) (next : Option Instruction) (op : BinaryOp) :
    Lowering Unit :=
  testAndSkip c i next fun f => .binary op .bool f (.identifier c.core.wreg)

/-- Skip if a bit of the file register is set, or if it is clear. -/
def bitTestAndSkip (c : Catalog) (i : Instruction) (next : Option Instruction) (ifSet : Bool) :
    Lowering Unit := do
  let (operand, bit) ← i.fileBit
  let condition ← (operand.cell c).access fun f =>
    pure (zeroTest (!ifSet) (f.and (.byte (bitMask bit.val))))
  .branch condition (skipTarget i next)

/-- Branch if a condition holds of a flag. -/
def branchOn (i : Instruction) (condition : Condition) (flag : Nat) : Lowering Unit := do
  let target ← i.codeTarget 0
  .branch (.test condition (.identifier (Status.group flag))) target

def jump (i : Instruction) : Lowering Unit := do
  let target ← i.codeTarget 0
  .goto (.address target)

/-! ## Calls and returns -/

/-- The registers that fast calls save, each with its shadow. -/
def shadowed (c : Catalog) : List (Identifier × Identifier) :=
  [(c.core.wreg, shadow.wreg), (c.core.status, shadow.status), (c.core.bsr, shadow.bsr)]

def saveShadows (c : Catalog) : Lowering Unit :=
  (shadowed c).forM fun (live, saved) => .assign (.identifier saved) (.identifier live)

def restoreShadows (c : Catalog) : Lowering Unit :=
  (shadowed c).forM fun (live, saved) => .assign (.identifier live) (.identifier saved)

def call (c : Catalog) (i : Instruction) : Lowering Unit := do
  let target ← i.codeTarget 0
  if i.isFast 1 then saveShadows c
  .call (.address target) 0

/-- Call the address made of PCLATU, PCLATH and the working register. -/
def callComputed (c : Catalog) : Lowering Unit :=
  let low : Expr :=
    .concat .word16 (.identifier c.core.pclath) (.identifier c.core.wreg)
  .call (.concat .ptr32 (.identifier c.core.pclatu) low) 0

/-- The register with the interrupt-enable bit, and the number of the bit. -/
def interruptEnable? (c : Catalog) : Option (Register × BitField) :=
  (c.fieldNamed? "GIE").orElse fun _ => c.fieldNamed? "GIEH"

def returnFromCall (c : Catalog) (i : Instruction) : Lowering Unit := do
  if i.isFast 0 then restoreShadows c
  .ret 0 0

def returnFromInterrupt (c : Catalog) (i : Instruction) : Lowering Unit := do
  if i.isFast 0 then restoreShadows c
  match interruptEnable? c with
  | some (r, f) =>
      let id := Expr.identifier r.identifier
      .assign id (.binary .or .byte id (.byte (bitMask f.bit)))
  | none => pure ()
  .ret 0 0

def returnWithLiteral (c : Catalog) (i : Instruction) : Lowering Unit := do
  let k ← i.literal 0
  .assign (.identifier c.core.wreg) (.byte k)
  .ret 0 0

/-- Move FSR2 by a literal and return. -/
def unlink (c : Catalog) (i : Instruction) (sign : Int) : Lowering Unit := do
  let k ← i.literal 0
  adjust c.core.fsr2 (sign * k.toNat)
  .ret 0 0

/-! ## Pointers, literals and the stack -/

def adjustPointer (c : Catalog) (i : Instruction) (sign : Int) : Lowering Unit := do
  let n ← i.pointer 0
  let k ← i.literal 1
  adjust (c.core.fsr n) (sign * k.toNat)

def loadPointer (c : Catalog) (i : Instruction) : Lowering Unit := do
  let n ← i.pointer 0
  let k ← i.longLiteral 1
  .assign (.identifier (c.core.fsr n)) (.word k .word16)

def selectBank (c : Catalog) (i : Instruction) : Lowering Unit := do
  let k ← i.literal 0
  .assign (.identifier c.core.bsr) (.byte k)

/-- Compute a byte from the working register and a literal. -/
def literalResult (c : Catalog) (i : Instruction) (flags : Nat)
    (compute : Expr → Expr → Expr) : Lowering Unit := do
  let k ← i.literal 0
  let w := Expr.identifier c.core.wreg
  let _ ← store flags w (compute w (.byte k))

def pushLiteral (c : Catalog) (i : Instruction) : Lowering Unit := do
  let k ← i.literal 0
  .assign (.memory .byte (.identifier c.core.fsr2)) (.byte k)
  adjust c.core.fsr2 (-1)

def push (c : Catalog) (i : Instruction) : Lowering Unit := do
  adjust c.core.stkptr 1
  .assign (.identifier c.core.tos) (.address i.nextAddress)

/-! ## Tables in program memory -/

/-- A table access between the moves of the table pointer. -/
def withTablePointer (c : Catalog) (i : Instruction) (body : Lowering Unit) : Lowering Unit := do
  let mode ← i.tableMode
  if mode = .preIncrement then adjust c.core.tblptr 1
  body
  match mode with
  | .postIncrement => adjust c.core.tblptr 1
  | .postDecrement => adjust c.core.tblptr (-1)
  | .plain | .preIncrement => pure ()

def tableRead (c : Catalog) (i : Instruction) : Lowering Unit :=
  withTablePointer c i do
    let byte ← Lowering.apply IntrinsicName.tblrd .byte [.identifier c.core.tblptr]
    .assign (.identifier c.core.tablat) byte

def tableWrite (c : Catalog) (i : Instruction) : Lowering Unit :=
  withTablePointer c i <|
    effect IntrinsicName.tblwt [.identifier c.core.tblptr, .identifier c.core.tablat]

/-! ## Far moves -/

/-- The byte that a far move reads. -/
def farSource (c : Catalog) (i : Instruction) : Except Fault Cell :=
  i.expect 0 "a data address" fun
    | .data12 a | .data14 a => some (c.absoluteCell a)
    | .index k => some (c.cellAt (.indexed k))
    | _ => none

/-- Move a byte between any two places of data memory.  A move to a forbidden destination is
invalid. -/
def farMove (c : Catalog) (i : Instruction) : Lowering Unit := do
  let address ← i.farDestination
  if c.isForbidden address then .invalid
  else
    let source ← farSource c i
    let destination := c.absoluteCell address
    let src ← source.enter
    let dst ← destination.enter
    .assign dst src
    source.exit
    destination.exit

/-- Move a byte between two offsets from FSR2. -/
def indexedMove (c : Catalog) (i : Instruction) : Lowering Unit := do
  match ← i.operand 0, ← i.operand 1 with
  | .index source, .index destination =>
      .assign (c.indexedPlace destination) (c.indexedPlace source)
  | _, _ => .fail (i.malformed "expects two FSR2 offsets")

/-! ## Every opcode -/

/-- The register transfers of an instruction, given the one after it. -/
def instruction (c : Catalog) (i : Instruction) (next : Option Instruction) : Lowering Unit :=
  let w := Expr.identifier c.core.wreg
  let borrow := Status.carry.not
  match i.opcode with
  | .addwf => arithmetic c i Status.all fun f => w.add f
  | .addwfc => arithmetic c i Status.all fun f => (w.add f).add Status.carry
  | .subwf => arithmetic c i Status.all fun f => f.sub w
  | .subwfb => arithmetic c i Status.all fun f => (f.sub w).sub borrow
  | .subfwb => arithmetic c i Status.all fun f => (w.sub f).sub borrow
  | .incf => arithmetic c i Status.all fun f => f.addInt 1
  | .decf => arithmetic c i Status.all fun f => f.addInt (-1)
  | .andwf => arithmetic c i Status.zn fun f => w.and f
  | .iorwf => arithmetic c i Status.zn fun f => w.or f
  | .xorwf => arithmetic c i Status.zn fun f => w.xor f
  | .comf => arithmetic c i Status.zn fun f => f.complement
  | .movf => arithmetic c i Status.zn fun f => f
  | .rlncf => viaIntrinsic c i Status.zn IntrinsicName.rol [.byte 1]
  | .rrncf => viaIntrinsic c i Status.zn IntrinsicName.ror [.byte 1]
  | .rlcf => viaIntrinsic c i (Status.c ||| Status.zn) IntrinsicName.rlcf [Status.carry]
  | .rrcf => viaIntrinsic c i (Status.c ||| Status.zn) IntrinsicName.rrcf [Status.carry]
  | .swapf => viaIntrinsic c i 0 IntrinsicName.swapf []
  | .negf => negate c i
  | .clrf => clear c i
  | .setf => storeFile c i (.byte 0xFF)
  | .movwf => storeFile c i w
  | .mulwf => onFile c i (multiply c)
  | .daw => decimalAdjust c
  | .bcf => changeBit c i .and
  | .bsf => changeBit c i .or
  | .btg => changeBit c i .xor
  | .decfsz => countAndSkip c i next (-1) true
  | .dcfsnz => countAndSkip c i next (-1) false
  | .incfsz => countAndSkip c i next 1 true
  | .infsnz => countAndSkip c i next 1 false
  | .cpfseq => compareAndSkip c i next .eq
  | .cpfsgt => compareAndSkip c i next .ugt
  | .cpfslt => compareAndSkip c i next .ult
  | .tstfsz => testAndSkip c i next Expr.isZero
  | .btfsc => bitTestAndSkip c i next false
  | .btfss => bitTestAndSkip c i next true
  | .bz => branchOn i .eq Status.z
  | .bnz => branchOn i .ne Status.z
  | .bc => branchOn i .ult Status.c
  | .bnc => branchOn i .uge Status.c
  | .bov => branchOn i .ov Status.ov
  | .bnov => branchOn i .no Status.ov
  | .bn => branchOn i .lt Status.n
  | .bnn => branchOn i .ge Status.n
  | .bra | .goto => jump i
  | .call | .rcall => call c i
  | .callw => callComputed c
  | .ret => returnFromCall c i
  | .retfie => returnFromInterrupt c i
  | .retlw => returnWithLiteral c i
  | .addulnk => unlink c i 1
  | .subulnk => unlink c i (-1)
  | .addfsr => adjustPointer c i 1
  | .subfsr => adjustPointer c i (-1)
  | .lfsr => loadPointer c i
  | .movlb => selectBank c i
  | .movlw => literalResult c i 0 fun _ k => k
  | .addlw => literalResult c i Status.all fun w k => w.add k
  | .sublw => literalResult c i Status.all fun w k => k.sub w
  | .andlw => literalResult c i Status.zn fun w k => w.and k
  | .iorlw => literalResult c i Status.zn fun w k => w.or k
  | .xorlw => literalResult c i Status.zn fun w k => w.xor k
  | .mullw => do multiply c (.byte (← i.literal 0))
  | .pushl => pushLiteral c i
  | .push => push c i
  | .pop => adjust c.core.stkptr (-1)
  | .tblrd => tableRead c i
  | .tblwt => tableWrite c i
  | .movff | .movffl | .movsf | .movsfl => farMove c i
  | .movss => indexedMove c i
  | .sleep => effect IntrinsicName.sleep []
  | .clrwdt => effect IntrinsicName.clrwdt []
  | .reset => do
      effect IntrinsicName.reset []
      .setFlow .halt
  | .nop => .nop
  | .db | .dw | .de | .ascii | .idlocs | .config | .invalid => .invalid

end Lower

/-- The back-end of a device.  It looks at the next instruction but never absorbs it. -/
def backend (c : Catalog) : Backend Instruction where
  architecture := .pic18
  lower i next := do
    Lower.instruction c i next
    return false

end RegisterTransfer.Pic18
