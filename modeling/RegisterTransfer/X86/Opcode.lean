/-
# RegisterTransfer.X86.Opcode -- x86 opcodes

The opcodes the lowering knows, in groups that share their meaning: jumps, moves and stores on a
condition, string instructions, and the instructions of the floating-point unit.  Every opcode has
one mnemonic of its own; `Opcode.ofMnemonic` also takes the other spellings of some of them and
gives `unrecognized` for all else.
-/
import RegisterTransfer.X86.Flags

namespace RegisterTransfer.X86

set_option autoImplicit false

/-- Instructions that work on memory at the index registers and step them. -/
inductive StringOp where
  | movs | movsb | stos | stosb | lods | lodsb | cmps | cmpsb | scas | scasb | ins | outs
deriving DecidableEq

namespace StringOp

def all : List StringOp :=
  [.movs, .movsb, .stos, .stosb, .lods, .lodsb, .cmps, .cmpsb, .scas, .scasb, .ins, .outs]

def name : StringOp → String
  | movs => "movs"
  | movsb => "movsb"
  | stos => "stos"
  | stosb => "stosb"
  | lods => "lods"
  | lodsb => "lodsb"
  | cmps => "cmps"
  | cmpsb => "cmpsb"
  | scas => "scas"
  | scasb => "scasb"
  | ins => "ins"
  | outs => "outs"

/-- Whether the opcode alone says that bytes are moved. -/
def isByte : StringOp → Bool
  | movsb | stosb | lodsb | cmpsb | scasb => true
  | _ => false

/-- Whether the instruction sets flags, on which its repetition may stop. -/
def isComparison : StringOp → Bool
  | cmps | cmpsb | scas | scasb => true
  | _ => false

end StringOp

/-- Arithmetic of the floating-point unit. -/
inductive RealArithmetic where
  | add | sub | subReversed | mul | div | divReversed
deriving DecidableEq

namespace RealArithmetic

def all : List RealArithmetic := [.add, .sub, .subReversed, .mul, .div, .divReversed]

def name : RealArithmetic → String
  | add => "add"
  | sub => "sub"
  | subReversed => "subr"
  | mul => "mul"
  | div => "div"
  | divReversed => "divr"

def operator : RealArithmetic → BinaryOp
  | add => .fadd
  | sub | subReversed => .fsub
  | mul => .fmul
  | div | divReversed => .fdiv

/-- Whether the source is the left operand. -/
def isReversed : RealArithmetic → Bool
  | subReversed | divReversed => true
  | _ => false

end RealArithmetic

/-- Instructions of the floating-point unit. -/
inductive RealOp where
  | arithmetic (op : RealArithmetic) (pops : Bool)
  /-- Arithmetic with an integer in memory. -/
  | integerArithmetic (op : RealArithmetic)
  | load | loadInteger
  | store (integer pops : Bool)
  | loadOne | loadZero | loadPi
  /-- A comparison that pops this many registers. -/
  | compare (pops : Fin 3)
  | compareInteger (pops : Bool)
  | test | examine
  | changeSign | sine | cosine | sineCosine | squareRoot | round | arctangent | logarithm
  | exchange | clearExceptions
  | loadControl | storeControl | storeStatus
deriving DecidableEq

namespace RealOp

def all : List RealOp :=
  RealArithmetic.all.flatMap (fun op => [arithmetic op false, arithmetic op true])
    ++ RealArithmetic.all.map integerArithmetic
    ++ [load, loadInteger, store false false, store false true, store true false, store true true,
      loadOne, loadZero, loadPi, compare 0, compare 1, compare 2, compareInteger false,
      compareInteger true, test, examine, changeSign, sine, cosine, sineCosine, squareRoot, round,
      arctangent, logarithm, exchange, clearExceptions, loadControl, storeControl, storeStatus]

/-- The last letter of a mnemonic that pops. -/
def popSuffix (pops : Bool) : String := if pops then "p" else ""

def name : RealOp → String
  | arithmetic op pops => "f" ++ op.name ++ popSuffix pops
  | integerArithmetic op => "fi" ++ op.name
  | load => "fld"
  | loadInteger => "fild"
  | store integer pops => (if integer then "fist" else "fst") ++ popSuffix pops
  | loadOne => "fld1"
  | loadZero => "fldz"
  | loadPi => "fldpi"
  | compare pops => "fcom" ++ String.join (List.replicate pops.val "p")
  | compareInteger pops => "ficom" ++ popSuffix pops
  | test => "ftst"
  | examine => "fxam"
  | changeSign => "fchs"
  | sine => "fsin"
  | cosine => "fcos"
  | sineCosine => "fsincos"
  | squareRoot => "fsqrt"
  | round => "frndint"
  | arctangent => "fpatan"
  | logarithm => "fyl2x"
  | exchange => "fxch"
  | clearExceptions => "fclex"
  | loadControl => "fldcw"
  | storeControl => "fstcw"
  | storeStatus => "fstsw"

end RealOp

/-- An opcode. -/
inductive Opcode where
  | add | sub | adc | sbb | and | or | xor | cmp | test | inc | dec | neg | not
  | mul | imul | div | idiv
  | shl | shr | sar | rol | ror | rcl | rcr | shld | shrd
  | bt | bsr | bswap | arpl
  | daa | das | aaa | aam
  | mov | movzx | movsx | movsxd | lea | xchg | xlat
  | lds | les | lfs | lgs | lss
  | cbw | cwde | cdqe | cwd | cdq | cqo
  | push | pop | pushf | popf | pusha | popa | enter | leave
  | call | jmp | ret | iret
  /-- Jump, store a truth value, or move, if a condition holds. -/
  | jumpIf (c : Condition)
  | setIf (c : Condition)
  | moveIf (c : Condition)
  /-- Jump if the count register of a mode's width is zero. -/
  | jumpIfNoCount (mode : Mode)
  | loop | loopEqual | loopNotEqual
  | clc | stc | cmc | cld | std | cli | sti | lahf | sahf
  | int | hlt
  | portIn | portOut
  | string (op : StringOp)
  /-- Repetitions decoded apart from the string instruction they belong to. -/
  | rep | repne
  | real (op : RealOp)
  | nop | wait
  | cpuid | rdtsc
  /-- An encoding that is defined to be invalid. -/
  | illegal
  | unrecognized
deriving DecidableEq

namespace Opcode

/-- The mnemonic letters of a condition. -/
def conditionSuffix : Condition → String
  | .ugt => "a"
  | .uge => "ae"
  | .ult => "b"
  | .ule => "be"
  | .eq => "e"
  | .ne => "ne"
  | .gt => "g"
  | .ge => "ge"
  | .lt => "l"
  | .le => "le"
  | .ov => "o"
  | .no => "no"
  | .sg => "s"
  | .ns => "ns"
  | .pe => "p"
  | .po => "np"

/-- The mnemonic of an opcode. -/
def name : Opcode → String
  | add => "add"
  | sub => "sub"
  | adc => "adc"
  | sbb => "sbb"
  | and => "and"
  | or => "or"
  | xor => "xor"
  | cmp => "cmp"
  | test => "test"
  | inc => "inc"
  | dec => "dec"
  | neg => "neg"
  | not => "not"
  | mul => "mul"
  | imul => "imul"
  | div => "div"
  | idiv => "idiv"
  | shl => "shl"
  | shr => "shr"
  | sar => "sar"
  | rol => "rol"
  | ror => "ror"
  | rcl => "rcl"
  | rcr => "rcr"
  | shld => "shld"
  | shrd => "shrd"
  | bt => "bt"
  | bsr => "bsr"
  | bswap => "bswap"
  | arpl => "arpl"
  | daa => "daa"
  | das => "das"
  | aaa => "aaa"
  | aam => "aam"
  | mov => "mov"
  | movzx => "movzx"
  | movsx => "movsx"
  | movsxd => "movsxd"
  | lea => "lea"
  | xchg => "xchg"
  | xlat => "xlat"
  | lds => "lds"
  | les => "les"
  | lfs => "lfs"
  | lgs => "lgs"
  | lss => "lss"
  | cbw => "cbw"
  | cwde => "cwde"
  | cdqe => "cdqe"
  | cwd => "cwd"
  | cdq => "cdq"
  | cqo => "cqo"
  | push => "push"
  | pop => "pop"
  | pushf => "pushf"
  | popf => "popf"
  | pusha => "pusha"
  | popa => "popa"
  | enter => "enter"
  | leave => "leave"
  | call => "call"
  | jmp => "jmp"
  | ret => "ret"
  | iret => "iret"
  | jumpIf c => "j" ++ conditionSuffix c
  | setIf c => "set" ++ conditionSuffix c
  | moveIf c => "cmov" ++ conditionSuffix c
  | jumpIfNoCount .realMode => "jcxz"
  | jumpIfNoCount .protectedMode => "jecxz"
  | jumpIfNoCount .longMode => "jrcxz"
  | loop => "loop"
  | loopEqual => "loope"
  | loopNotEqual => "loopne"
  | clc => "clc"
  | stc => "stc"
  | cmc => "cmc"
  | cld => "cld"
  | std => "std"
  | cli => "cli"
  | sti => "sti"
  | lahf => "lahf"
  | sahf => "sahf"
  | int => "int"
  | hlt => "hlt"
  | portIn => "in"
  | portOut => "out"
  | string op => op.name
  | rep => "rep"
  | repne => "repne"
  | real op => op.name
  | nop => "nop"
  | wait => "wait"
  | cpuid => "cpuid"
  | rdtsc => "rdtsc"
  | illegal => "illegal"
  | unrecognized => "unrecognized"

/-- Every opcode. -/
def all : List Opcode :=
  [add, sub, adc, sbb, and, or, xor, cmp, test, inc, dec, neg, not, mul, imul, div, idiv, shl, shr,
    sar, rol, ror, rcl, rcr, shld, shrd, bt, bsr, bswap, arpl, daa, das, aaa, aam, mov, movzx,
    movsx, movsxd, lea, xchg, xlat, lds, les, lfs, lgs, lss, cbw, cwde, cdqe, cwd, cdq, cqo, push,
    pop, pushf, popf, pusha, popa, enter, leave, call, jmp, ret, iret, loop, loopEqual,
    loopNotEqual, clc, stc, cmc, cld, std, cli, sti, lahf, sahf, int, hlt, portIn, portOut, rep,
    repne, nop, wait, cpuid, rdtsc, illegal, unrecognized]
    ++ Condition.all.flatMap (fun c => [jumpIf c, setIf c, moveIf c])
    ++ Mode.all.map jumpIfNoCount
    ++ StringOp.all.map string
    ++ RealOp.all.map real

/-- Other spellings, each with the mnemonic of the opcode it stands for. -/
def spellings : List (String × String) :=
  [("jz", "je"), ("jnz", "jne"), ("jc", "jb"), ("jnae", "jb"), ("jnc", "jae"), ("jnb", "jae"),
    ("jna", "jbe"), ("jnbe", "ja"), ("jnge", "jl"), ("jnl", "jge"), ("jng", "jle"), ("jnle", "jg"),
    ("jpe", "jp"), ("jpo", "jnp"), ("cmovz", "cmove"), ("cmovnz", "cmovne"), ("setz", "sete"),
    ("setnz", "setne"), ("sal", "shl"), ("xlatb", "xlat"), ("pushfd", "pushf"),
    ("pushfq", "pushf"), ("popfd", "popf"), ("popfq", "popf"), ("fwait", "wait"),
    ("fisttp", "fistp"), ("fucom", "fcom"), ("fucomp", "fcomp"), ("fucompp", "fcompp"),
    ("fnstsw", "fstsw"), ("fnstcw", "fstcw"), ("fnclex", "fclex"), ("iretd", "iret"),
    ("iretq", "iret"), ("pushal", "pusha"), ("pushaw", "pusha"), ("popal", "popa"),
    ("popaw", "popa"), ("insb", "ins"), ("insw", "ins"), ("insd", "ins"), ("outsb", "outs"),
    ("outsw", "outs"), ("outsd", "outs"), ("ud2", "illegal"), ("movsw", "movs"),
    ("movsd", "movs"), ("movsq", "movs"), ("stosw", "stos"), ("stosd", "stos"), ("stosq", "stos"),
    ("lodsw", "lods"), ("lodsd", "lods"), ("lodsq", "lods"), ("cmpsw", "cmps"), ("cmpsd", "cmps"),
    ("cmpsq", "cmps"), ("scasw", "scas"), ("scasd", "scas"), ("scasq", "scas"), ("repe", "rep"),
    ("repz", "rep"), ("repnz", "repne")]

/-- The mnemonic that a spelling stands for. -/
def canonical (spelling : String) : String :=
  ((spellings.find? (·.1 == spelling)).map (·.2)).getD spelling

/-- The opcode of a mnemonic in any of its spellings. -/
def ofMnemonic (spelling : String) : Opcode :=
  (all.find? (·.name == canonical spelling)).getD unrecognized

/-- The condition on which the opcode jumps, moves or stores. -/
def condition? : Opcode → Option Condition
  | jumpIf c | setIf c | moveIf c => some c
  | _ => none

/-- The flags that an opcode derives from its result. -/
def definedFlags : Opcode → Nat
  | add | adc | sub | sbb | cmp | neg | shl | shr | sar | imul => Flag.sczo
  | string op => if op.isComparison then Flag.sczo else 0
  | and | or | xor | test | inc | dec => Flag.szo
  | rol | ror | rcl | rcr | bt | daa | das | aaa => Flag.carry
  | bsr | arpl => Flag.zero
  | _ => 0

/-- Whether the opcode can be repeated. -/
def isString : Opcode → Bool
  | string _ => true
  | _ => false

/-- Whether an immediate operand of the opcode is an address in code. -/
def takesCodeAddress : Opcode → Bool
  | jumpIf _ | jumpIfNoCount _ | jmp | call | loop | loopEqual | loopNotEqual => true
  | _ => false

end Opcode

end RegisterTransfer.X86
