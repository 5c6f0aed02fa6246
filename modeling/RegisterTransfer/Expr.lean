/-
# RegisterTransfer.Expr -- expression trees

Expressions read registers, flags and memory and compute values from them.  Every node knows its
type (`Expr.type`).  An intrinsic is a named procedure that stands for a computation the language
has no operators for; an expression applies it to arguments.

The constructors after the type take the type of a result from the operands where it is determined
by them: arithmetic has the type of its left operand, comparisons are truth values.
-/
import RegisterTransfer.Constant
import RegisterTransfer.Identifier
import RegisterTransfer.Operator

namespace RegisterTransfer

set_option autoImplicit false

/-- A named procedure with a fixed number of arguments. -/
structure Intrinsic where
  name : String
  returnType : DataType
  arity : Nat
deriving DecidableEq

/-- An expression tree. -/
inductive Expr where
  | identifier (id : Identifier)
  | constant (c : Constant)
  /-- An address in code, as jumps and calls use it. -/
  | address (a : Nat)
  | binary (op : BinaryOp) (type : DataType) (left right : Expr)
  | unary (op : UnaryOp) (type : DataType) (operand : Expr)
  /-- Memory at an effective address. -/
  | memory (type : DataType) (ea : Expr)
  /-- Memory at an effective address within a segment. -/
  | segmented (type : DataType) (segment ea : Expr)
  /-- `high` and `low` side by side. -/
  | concat (type : DataType) (high low : Expr)
  /-- The bits of `e` from `offset` on, as wide as the type. -/
  | slice (type : DataType) (e : Expr) (offset : Nat)
  | cast (type : DataType) (e : Expr)
  /-- The condition codes that computing `e` sets. -/
  | conditionCodes (e : Expr)
  /-- Whether a condition holds of a flag group. -/
  | test (c : Condition) (flags : Expr)
  /-- An intrinsic applied to arguments. -/
  | apply (procedure : Intrinsic) (type : DataType) (arguments : List Expr)

namespace Expr

/-- The type of an expression's value. -/
def type : Expr → DataType
  | identifier id => id.type
  | constant c => c.type
  | address _ => .ptr32
  | binary _ t _ _ => t
  | unary _ t _ => t
  | memory t _ => t
  | segmented t _ _ => t
  | concat t _ _ => t
  | slice t _ _ => t
  | cast t _ => t
  | conditionCodes _ => .byte
  | test _ _ => .bool
  | apply _ t _ => t

/-- The identifier an expression consists of, if it is one. -/
def identifier? : Expr → Option Identifier
  | identifier id => some id
  | _ => none

/-- The literal an expression consists of, if it is one. -/
def constant? : Expr → Option Constant
  | constant c => some c
  | _ => none

/-- Whether an expression is a bare identifier. -/
def isIdentifier (e : Expr) : Bool := e.identifier?.isSome

/-- Whether an expression takes parentheses as an operand. -/
def isCompound : Expr → Bool
  | binary .. | unary .. | cast .. => true
  | _ => false

/-! ## Building expressions -/

/-- The literal of a type with the low-order bits of `value`. -/
def word (value : Nat) (t : DataType) : Expr := constant (.of value t)

def byte (b : UInt8) : Expr := word b.toNat .byte

def ofBool (b : Bool) : Expr := constant (.bool b)

/-- An operation whose result has the type of its left operand. -/
def sameType (op : BinaryOp) (a b : Expr) : Expr := binary op a.type a b

/-- An operation whose result is a truth value. -/
def compare (op : BinaryOp) (a b : Expr) : Expr := binary op .bool a b

def add (a b : Expr) : Expr := sameType .add a b

def sub (a b : Expr) : Expr := sameType .sub a b

def mul (a b : Expr) : Expr := sameType .mul a b

def and (a b : Expr) : Expr := sameType .and a b

def or (a b : Expr) : Expr := sameType .or a b

def xor (a b : Expr) : Expr := sameType .xor a b

def eq (a b : Expr) : Expr := compare .eq a b

def ne (a b : Expr) : Expr := compare .ne a b

def both (a b : Expr) : Expr := compare .both a b

/-- The sum of an expression and a number, which takes the expression's type.  A negative number
is subtracted as its absolute value. -/
def addInt (a : Expr) (n : Int) : Expr :=
  if n < 0 then a.sub (word n.natAbs a.type) else a.add (word n.toNat a.type)

theorem type_addInt (a : Expr) (n : Int) : (a.addInt n).type = a.type := by
  unfold addInt
  split <;> rfl

/-- Whether the value is zero. -/
def isZero (e : Expr) : Expr := e.eq (word 0 e.type)

/-- Whether the value is other than zero. -/
def isNonzero (e : Expr) : Expr := e.ne (word 0 e.type)

/-- An operation on one operand, with the operand's type. -/
def unaryOf (op : UnaryOp) (e : Expr) : Expr := unary op e.type e

def not (e : Expr) : Expr := unaryOf .not e

def complement (e : Expr) : Expr := unaryOf .complement e

def negate (e : Expr) : Expr := unaryOf .negate e

/-- Memory, within a segment if there is one. -/
def memoryIn (segment : Option Expr) (t : DataType) (ea : Expr) : Expr :=
  match segment with
  | some s => segmented t s ea
  | none => memory t ea

theorem type_memoryIn (segment : Option Expr) (t : DataType) (ea : Expr) :
    (memoryIn segment t ea).type = t := by
  cases segment <;> rfl

mutual

/-- The expression with `f` applied to every intrinsic in it. -/
def mapIntrinsics (f : Intrinsic → Intrinsic) : Expr → Expr
  | identifier id => identifier id
  | constant c => constant c
  | address a => address a
  | binary op t l r => binary op t (mapIntrinsics f l) (mapIntrinsics f r)
  | unary op t e => unary op t (mapIntrinsics f e)
  | memory t ea => memory t (mapIntrinsics f ea)
  | segmented t s ea => segmented t (mapIntrinsics f s) (mapIntrinsics f ea)
  | concat t h l => concat t (mapIntrinsics f h) (mapIntrinsics f l)
  | slice t e offset => slice t (mapIntrinsics f e) offset
  | cast t e => cast t (mapIntrinsics f e)
  | conditionCodes e => conditionCodes (mapIntrinsics f e)
  | test c e => test c (mapIntrinsics f e)
  | apply p t arguments => apply (f p) t (mapIntrinsicsList f arguments)

/-- The expressions with `f` applied to every intrinsic in them. -/
def mapIntrinsicsList (f : Intrinsic → Intrinsic) : List Expr → List Expr
  | [] => []
  | e :: rest => mapIntrinsics f e :: mapIntrinsicsList f rest

end

theorem type_mapIntrinsics (f : Intrinsic → Intrinsic) (e : Expr) :
    (e.mapIntrinsics f).type = e.type := by
  cases e <;> simp [mapIntrinsics, type]

theorem isCompound_mapIntrinsics (f : Intrinsic → Intrinsic) (e : Expr) :
    (e.mapIntrinsics f).isCompound = e.isCompound := by
  cases e <;> simp [mapIntrinsics, isCompound]

end Expr

end RegisterTransfer
