/-
# RegisterTransfer.X86.Lowering -- register transfers of x86 instructions

The lowering of every opcode, and the back-end of a mode.  Opcodes that ask the processor about
itself or its clock have no register transfers, nor do those the decoder does not recognize.
-/
import RegisterTransfer.Stream.Clusters
import RegisterTransfer.X86.Lowering.Control
import RegisterTransfer.X86.Lowering.Integer
import RegisterTransfer.X86.Lowering.Real

namespace RegisterTransfer.X86

set_option autoImplicit false

namespace Lower

/-- The register transfers of an instruction that is no repetition on its own. -/
def instruction (m : Mode) (i : Instruction) : Lowering Unit :=
  match i.opcode with
  | .add => binary m i .add
  | .sub => binary m i .sub
  | .adc => withCarry m i .add
  | .sbb => withCarry m i .sub
  | .and => logical m i .and
  | .or => logical m i .or
  | .xor => logical m i .xor
  | .cmp => compare m i
  | .test => test m i
  | .inc => count m i 1
  | .dec => count m i (-1)
  | .neg => negate m i
  | .not => complement m i
  | .mul => wideMultiply m i false
  | .imul => multiplySigned m i
  | .div => divide m i false
  | .idiv => divide m i true
  | .shl => shift m i .shl
  | .shr => shift m i .shr
  | .sar => shift m i .sar
  | .rol => rotate m i IntrinsicName.rol false
  | .ror => rotate m i IntrinsicName.ror false
  | .rcl => rotate m i IntrinsicName.rcl true
  | .rcr => rotate m i IntrinsicName.rcr true
  | .shld => doubleShift m i IntrinsicName.shld
  | .shrd => doubleShift m i IntrinsicName.shrd
  | .bt => bitTest m i
  | .bsr => bitScan m i
  | .bswap => byteSwap m i
  | .arpl => adjustPrivilege m i
  | .daa => decimalAdjust i IntrinsicName.daa .al
  | .das => decimalAdjust i IntrinsicName.das .al
  | .aaa => decimalAdjust i IntrinsicName.aaa .ax
  | .aam => splitDigits m i
  | .mov => move m i
  | .movzx => extend m i false
  | .movsx | .movsxd => extend m i true
  | .lea => loadAddress m i
  | .xchg => exchange m i
  | .xlat => translate m i
  | .lds => loadFarPointer m i .ds
  | .les => loadFarPointer m i .es
  | .lfs => loadFarPointer m i .fs
  | .lgs => loadFarPointer m i .gs
  | .lss => loadFarPointer m i .ss
  | .cbw => widen .al .ax
  | .cwde => widen .ax .eax
  | .cdqe => widen .eax .rax
  | .cwd => widenPair .ax .dx
  | .cdq => widenPair .eax .edx
  | .cqo => widenPair .rax .rdx
  | .push => push m i
  | .pop => pop m i
  | .pushf => pushFlags m
  | .popf => popFlags m
  | .pusha => pushGeneral m i
  | .popa => popGeneral m i
  | .enter => enterFrame m i
  | .leave => leaveFrame m
  | .call => call m i
  | .jmp => jump m i
  | .ret => returnFromCall m i
  | .iret => returnFromInterrupt m
  | .jumpIf c => jumpIf i c
  | .setIf c => setIf m i c
  | .moveIf c => moveIf m i c
  | .jumpIfNoCount width => jumpIfNoCount i width
  | .loop => loop i none
  | .loopEqual => loop i (some .eq)
  | .loopNotEqual => loop i (some .ne)
  | .clc => setFlag Flag.carry false
  | .stc => setFlag Flag.carry true
  | .cmc => invertCarry
  | .cld => setFlag Flag.direction false
  | .std => setFlag Flag.direction true
  | .cli => effect IntrinsicName.cli []
  | .sti => effect IntrinsicName.sti []
  | .lahf => loadFlags
  | .sahf => storeFlags
  | .int => interrupt m i
  | .hlt => halt
  | .portIn => portIn m i
  | .portOut => portOut m i
  | .string op => string m i op
  | .real op => real m i op
  | .rep | .repne | .nop | .wait => .nop
  | .illegal => .invalid
  | .cpuid | .rdtsc | .unrecognized =>
      .fail (.unsupportedOpcode i.address m.architecture i.mnemonic)

end Lower

/-- The back-end of a mode.  A repetition decoded on its own absorbs the string instruction after
it; nothing else looks ahead. -/
def backend (m : Mode) : Backend Instruction where
  architecture := m.architecture
  lower i next :=
    match i.opcode with
    | .rep => Lower.repeatNext m i next .whileEqual
    | .repne => Lower.repeatNext m i next .whileDifferent
    | _ => do
        Lower.instruction m i
        return false

end RegisterTransfer.X86
