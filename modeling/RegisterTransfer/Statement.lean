/-
# RegisterTransfer.Statement -- statements and clusters

A statement transfers values between registers and memory or transfers control.  A cluster is the
list of statements that one machine instruction, or one merged group of them, stands for, with the
address and length of the machine code and a class that says how control leaves it.
-/
import RegisterTransfer.Expr.Printer

namespace RegisterTransfer

set_option autoImplicit false

/-- One register transfer. -/
inductive Statement where
  | assign (dst src : Expr)
  /-- Jump to `target` if the condition holds, and fall through otherwise. -/
  | branch (condition : Expr) (target : Nat)
  | goto (target : Expr)
  | call (target : Expr) (returnSize : Nat)
  | ret (returnSize extraBytes : Nat)
  /-- An expression evaluated for its effect alone. -/
  | effect (e : Expr)
  /-- A statement that executes only if the condition holds. -/
  | guarded (condition : Expr) (body : Statement)
  | nop
  | invalid

namespace Statement

/-- The text of a statement. -/
def text : Statement → String
  | assign dst src => dst.text ++ " = " ++ src.text
  | branch c target => "if (" ++ c.text ++ ") branch " ++ Numeral.hexUpper 8 target
  | goto target => "goto " ++ target.text
  | call target n => "call " ++ target.text ++ " (" ++ Numeral.decimal n ++ ")"
  | ret n extra => "return (" ++ Numeral.decimal n ++ "," ++ Numeral.decimal extra ++ ")"
  | effect e => e.text
  | guarded c body => "if (" ++ c.text ++ ") " ++ body.text
  | nop => "nop"
  | invalid => "<invalid>"

/-- The statement with `f` applied to every intrinsic in it. -/
def mapIntrinsics (f : Intrinsic → Intrinsic) : Statement → Statement
  | assign dst src => assign (dst.mapIntrinsics f) (src.mapIntrinsics f)
  | branch c target => branch (c.mapIntrinsics f) target
  | goto target => goto (target.mapIntrinsics f)
  | call target n => call (target.mapIntrinsics f) n
  | ret n extra => ret n extra
  | effect e => effect (e.mapIntrinsics f)
  | guarded c body => guarded (c.mapIntrinsics f) (body.mapIntrinsics f)
  | nop => nop
  | invalid => invalid

theorem text_mapIntrinsics (f : Intrinsic → Intrinsic) (h : ∀ p, (f p).name = p.name)
    (s : Statement) : (s.mapIntrinsics f).text = s.text := by
  induction s <;> simp_all [mapIntrinsics, text, Expr.text_mapIntrinsics f h]

end Statement

/-- How control leaves a cluster. -/
inductive Flow where
  /-- Falls through to the next instruction. -/
  | linear
  /-- Always goes elsewhere. -/
  | transfer
  /-- May or may not go elsewhere. -/
  | conditional
  | call
  | ret
  /-- Execution does not continue. -/
  | halt
  | invalid
deriving DecidableEq

namespace Flow

def all : List Flow := [.linear, .transfer, .conditional, .call, .ret, .halt, .invalid]

/-- Whether execution never falls through to the next address. -/
def endsTrace : Flow → Bool
  | transfer | ret | halt | invalid => true
  | linear | conditional | call => false

/-- The name of the class in plain text and tables. -/
def name : Flow → String
  | linear => "linear"
  | transfer => "transfer"
  | conditional => "conditional"
  | call => "call"
  | ret => "return"
  | halt => "terminates"
  | invalid => "invalid"

/-- The class of a name, the inverse of `name`. -/
def ofName? (s : String) : Option Flow := all.find? (·.name == s)

theorem ofName?_name (f : Flow) : ofName? f.name = some f := by
  cases f <;> decide

end Flow

/-- The statements for one machine instruction or one merged group. -/
structure Cluster where
  /-- Address of the first machine instruction. -/
  address : Nat
  /-- Bytes of machine code covered. -/
  length : Nat
  flow : Flow
  statements : List Statement

namespace Cluster

/-- Address just past the machine code covered. -/
def endAddress (c : Cluster) : Nat := c.address + c.length

/-- The text of each statement. -/
def rendered (c : Cluster) : List String := c.statements.map (·.text)

/-- A heading with address, length and class, and one indented line per statement. -/
def text (c : Cluster) : String :=
  Numeral.hexUpper 8 c.address ++ "(" ++ Numeral.decimal c.length ++ "): " ++ c.flow.name ++ "\n"
    ++ String.join (c.rendered.map fun s => "    " ++ s ++ "\n")

end Cluster

end RegisterTransfer
