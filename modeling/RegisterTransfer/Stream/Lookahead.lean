/-
# RegisterTransfer.Stream.Lookahead -- a view of the instructions behind one

A lowering may look at the instruction behind its own and absorb it.  It does so through a view: a
stream that has not decoded the instruction yet, or a list of instructions that were decoded before.
-/
import RegisterTransfer.Stream

namespace RegisterTransfer

set_option autoImplicit false

/-- Access to the instructions behind the one that is lowered. -/
class Lookahead (σ : Type) (ι : outParam Type) where
  /-- The next instruction, if there is one that decodes. -/
  peek : σ → Option ι × σ
  /-- Take the next instruction out of the view. -/
  consume : σ → Option ι × σ

variable {ι : Type}

/-- A view of what a stream has not handed out. -/
instance [MachineInstruction ι] : Lookahead (InstructionStream ι) ι where
  peek := InstructionStream.peekInstruction
  consume := InstructionStream.consumeInstruction

/-- A view of instructions that are already decoded. -/
instance : Lookahead (List ι) ι where
  peek rest := (rest.head?, rest)
  consume rest := (rest.head?, rest.tail)

end RegisterTransfer
