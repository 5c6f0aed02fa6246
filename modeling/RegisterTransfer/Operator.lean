/-
# RegisterTransfer.Operator -- operators and condition codes

The binary and unary operators of expressions with their infix symbols, and the conditions that can
be tested against a flag group.  Every condition has an inverse, and inverting twice gives the
condition back (`Condition.invert_invert`).
-/
namespace RegisterTransfer

set_option autoImplicit false

/-- Operators with two operands. -/
inductive BinaryOp where
  | add | sub | mul
  /-- Signed and unsigned multiplication into a possibly wider result. -/
  | smul | umul
  | sdiv | udiv | smod | umod
  | and | or | xor
  | shl | shr | sar
  | eq | ne
  | ult | ule | ugt | uge
  | lt | le | gt | ge
  /-- Both operands hold; the right one is not evaluated when the left one fails. -/
  | both
  /-- One of the operands holds; the right one is not evaluated when the left one holds. -/
  | either
  | fadd | fsub | fmul | fdiv
deriving DecidableEq

namespace BinaryOp

def all : List BinaryOp :=
  [.add, .sub, .mul, .smul, .umul, .sdiv, .udiv, .smod, .umod, .and, .or, .xor, .shl, .shr, .sar,
    .eq, .ne, .ult, .ule, .ugt, .uge, .lt, .le, .gt, .ge, .both, .either, .fadd, .fsub, .fmul,
    .fdiv]

/-- The operator between its operands in rendered text. -/
def symbol : BinaryOp → String
  | add => "+"
  | sub => "-"
  | mul => "*"
  | smul => "*s"
  | umul => "*u"
  | sdiv => "/"
  | udiv => "/u"
  | smod => "%s"
  | umod => "%u"
  | and => "&"
  | or => "|"
  | xor => "^"
  | shl => "<<"
  | shr => ">>u"
  | sar => ">>"
  | eq => "=="
  | ne => "!="
  | ult => "<u"
  | ule => "<=u"
  | ugt => ">u"
  | uge => ">=u"
  | lt => "<"
  | le => "<="
  | gt => ">"
  | ge => ">="
  | both => "&&"
  | either => "||"
  | fadd => "+"
  | fsub => "-"
  | fmul => "*"
  | fdiv => "/"

/-- Operators whose value is a truth value. -/
def isComparison : BinaryOp → Bool
  | eq | ne | ult | ule | ugt | uge | lt | le | gt | ge | both | either => true
  | _ => false

end BinaryOp

/-- Operators with one operand. -/
inductive UnaryOp where
  /-- Logical negation. -/
  | not
  /-- Bitwise complement. -/
  | complement
  /-- Two's complement negation. -/
  | negate
deriving DecidableEq

/-- The operator in front of its operand in rendered text. -/
def UnaryOp.symbol : UnaryOp → String
  | not => "!"
  | complement => "~"
  | negate => "-"

/-- A condition on a group of flags. -/
inductive Condition where
  | ugt | ule | ult | uge
  | gt | le | lt | ge
  | eq | ne
  /-- Overflow and no overflow. -/
  | ov | no
  /-- Sign set and sign clear. -/
  | sg | ns
  /-- Parity even and parity odd. -/
  | pe | po
deriving DecidableEq

namespace Condition

def all : List Condition :=
  [.ugt, .ule, .ult, .uge, .gt, .le, .lt, .ge, .eq, .ne, .ov, .no, .sg, .ns, .pe, .po]

/-- The condition that holds exactly when this one does not. -/
def invert : Condition → Condition
  | ugt => ule
  | ule => ugt
  | ult => uge
  | uge => ult
  | gt => le
  | le => gt
  | lt => ge
  | ge => lt
  | eq => ne
  | ne => eq
  | ov => no
  | no => ov
  | sg => ns
  | ns => sg
  | pe => po
  | po => pe

theorem invert_invert (c : Condition) : c.invert.invert = c := by
  cases c <;> rfl

/-- The name of the condition in rendered text. -/
def name : Condition → String
  | ugt => "UGT"
  | ule => "ULE"
  | ult => "ULT"
  | uge => "UGE"
  | gt => "GT"
  | le => "LE"
  | lt => "LT"
  | ge => "GE"
  | eq => "EQ"
  | ne => "NE"
  | ov => "OV"
  | no => "NO"
  | sg => "SG"
  | ns => "NS"
  | pe => "PE"
  | po => "PO"

/-- The condition of a name, the inverse of `name`. -/
def ofName? (s : String) : Option Condition := all.find? (·.name == s)

theorem ofName?_name (c : Condition) : ofName? c.name = some c := by
  cases c <;> decide

end Condition

end RegisterTransfer
