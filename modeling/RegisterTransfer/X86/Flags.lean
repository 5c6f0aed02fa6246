/-
# RegisterTransfer.X86.Flags -- flag groups

The flags are bits of the flag register.  A group of them is named by their letters, always in the
same order.  `Flag.usedBy` gives the flags a condition depends on, which are the same for a
condition and its inverse.
-/
import RegisterTransfer.Operator
import RegisterTransfer.X86.Register

namespace RegisterTransfer.X86

set_option autoImplicit false

namespace Flag

def carry : Nat := 0x0001
def parity : Nat := 0x0004
def adjust : Nat := 0x0010
def zero : Nat := 0x0040
def sign : Nat := 0x0080
def direction : Nat := 0x0400
def overflow : Nat := 0x0800

/-- The flags of logical operations. -/
def szo : Nat := sign ||| zero ||| overflow

/-- The flags of arithmetic. -/
def sczo : Nat := szo ||| carry

/-- The flags that are saved on the stack. -/
def saved : Nat := sczo ||| direction ||| parity

/-- The flags that have a place in the second byte of the accumulator. -/
def inAh : Nat := sign ||| zero ||| adjust ||| parity ||| carry

/-- The flags and their letters, in the order in which groups name them. -/
def letters : List (Nat × String) :=
  [(sign, "S"), (carry, "C"), (zero, "Z"), (direction, "D"), (overflow, "O"), (parity, "P"),
    (adjust, "A")]

/-- The group of the flags in a mask. -/
def group (mask : Nat) : Identifier := .flagGroup letters "eflags" mask

/-- The condition bits of the floating-point status word. -/
def fpuMask : Nat := 0x4700

/-- The condition codes of floating-point comparisons. -/
def fpuGroup : Identifier := .flags "FPUF" Register.statusWord.name fpuMask

/-- The flags that a condition depends on. -/
def usedBy : Condition → Nat
  | .ugt | .ule => carry ||| zero
  | .ult | .uge => carry
  | .eq | .ne => zero
  | .gt | .le => szo
  | .lt | .ge => sign ||| overflow
  | .ov | .no => overflow
  | .sg | .ns => sign
  | .pe | .po => parity

theorem usedBy_invert (c : Condition) : usedBy c.invert = usedBy c := by
  cases c <;> rfl

end Flag

end RegisterTransfer.X86
