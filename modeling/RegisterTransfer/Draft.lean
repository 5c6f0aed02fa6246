/-
# RegisterTransfer.Draft -- a cluster being written

A draft collects the statements of one cluster, its class and the number of temporaries used so
far.  Statements that move control set the class; `Draft.invalid` throws away what was written.

An intrinsic that a draft applies is only *requested*: the draft does not see the table of
intrinsics.  `Draft.settle` puts the requests to a table in order, fails at the first whose arity
differs from the known one, and otherwise gives the statements with the table's own entries in
them.  So what a draft says depends on its instruction alone, and the table only decides whether it
stands and which return types its intrinsics show.

`Lowering` is the state of a draft with refusals: what a back-end writes for one instruction.  A
lowering that stops leaves a `Refusal`, its fault and what it had asked for by then.
-/
import RegisterTransfer.Intrinsic
import RegisterTransfer.Statement

namespace RegisterTransfer

set_option autoImplicit false

/-- A cluster being written. -/
structure Draft where
  statements : List Statement := []
  flow : Flow := .linear
  /-- Index of the next unused temporary. -/
  temporaries : Nat := 0
  /-- Intrinsics asked for, in order. -/
  requests : List Intrinsic := []

namespace Draft

def empty : Draft := {}

/-- Add a statement that leaves the class as it is. -/
def push (d : Draft) (s : Statement) : Draft := { d with statements := d.statements ++ [s] }

/-- Add a statement that moves control, and set the class. -/
def leave (d : Draft) (flow : Flow) (s : Statement) : Draft := { d.push s with flow }

def setFlow (d : Draft) (flow : Flow) : Draft := { d with flow }

def assign (d : Draft) (dst src : Expr) : Draft := d.push (.assign dst src)

def branch (d : Draft) (condition : Expr) (target : Nat) : Draft :=
  d.leave .conditional (.branch condition target)

def goto (d : Draft) (target : Expr) : Draft := d.leave .transfer (.goto target)

def call (d : Draft) (target : Expr) (returnSize : Nat) : Draft :=
  d.leave .call (.call target returnSize)

def ret (d : Draft) (returnSize extraBytes : Nat) : Draft :=
  d.leave .ret (.ret returnSize extraBytes)

def effect (d : Draft) (e : Expr) : Draft := d.push (.effect e)

/-- An assignment that happens only if the condition holds. -/
def assignIf (d : Draft) (condition dst src : Expr) : Draft :=
  d.push (.guarded condition (.assign dst src))

def nop (d : Draft) : Draft := d.push .nop

/-- Replace everything written so far by the invalid marker. -/
def invalid (d : Draft) : Draft := { d with statements := [.invalid], flow := .invalid }

/-- The next temporary, of the type given. -/
def temporary (d : Draft) (type : DataType) : Identifier × Draft :=
  (.temporary d.temporaries type, { d with temporaries := d.temporaries + 1 })

/-- Request an intrinsic that fits some arguments and apply it to them. -/
def apply (d : Draft) (name : String) (type : DataType) (arguments : List Expr) : Expr × Draft :=
  let p : Intrinsic := ⟨name, type, arguments.length⟩
  (.apply p type arguments, { d with requests := d.requests ++ [p] })

/-- Put the requests to the table; the statements then show the table's entries. -/
def settle (d : Draft) (t : IntrinsicTable) : Except Fault (List Statement) × IntrinsicTable :=
  match t.ensureAll d.requests with
  | (.ok (), t') => (.ok (d.statements.map (·.mapIntrinsics t'.resolve)), t')
  | (.error fault, t') => (.error fault, t')

end Draft

/-- Why a draft was given up, and what it had asked for by then. -/
structure Refusal where
  fault : Fault
  requests : List Intrinsic := []

/-- Put what a refused draft had asked for to the table.  The first request that clashes hides the
fault. -/
def Refusal.settle (r : Refusal) (t : IntrinsicTable) : Fault × IntrinsicTable :=
  match t.ensureAll r.requests with
  | (.ok (), t') => (r.fault, t')
  | (.error clash, t') => (clash, t')

/-- Writing the cluster of one instruction: a draft is carried along until it is refused. -/
abbrev Lowering (α : Type) := StateT Draft (Except Refusal) α

namespace Lowering

/-- Change the draft. -/
def write (f : Draft → Draft) : Lowering Unit := modify f

def assign (dst src : Expr) : Lowering Unit := write (·.assign dst src)

def branch (condition : Expr) (target : Nat) : Lowering Unit := write (·.branch condition target)

def goto (target : Expr) : Lowering Unit := write (·.goto target)

def call (target : Expr) (returnSize : Nat) : Lowering Unit := write (·.call target returnSize)

def ret (returnSize extraBytes : Nat) : Lowering Unit := write (·.ret returnSize extraBytes)

def effect (e : Expr) : Lowering Unit := write (·.effect e)

def assignIf (condition dst src : Expr) : Lowering Unit := write (·.assignIf condition dst src)

def nop : Lowering Unit := write (·.nop)

def invalid : Lowering Unit := write (·.invalid)

def setFlow (flow : Flow) : Lowering Unit := write (·.setFlow flow)

/-- A new temporary as an expression. -/
def temporary (type : DataType) : Lowering Expr :=
  modifyGet fun d => ((.identifier (d.temporary type).1), (d.temporary type).2)

/-- An intrinsic applied to arguments. -/
def apply (name : String) (type : DataType) (arguments : List Expr) : Lowering Expr :=
  modifyGet fun d => d.apply name type arguments

/-- Stop with a fault. -/
def fail {α : Type} (fault : Fault) : Lowering α := fun d => .error ⟨fault, d.requests⟩

/-- Use what was read of an instruction, or stop with the fault of reading it. -/
def read {α : Type} (e : Except Fault α) : Lowering α :=
  match e with
  | .ok a => pure a
  | .error fault => fail fault

end Lowering

instance : MonadLift (Except Fault) (StateT Draft (Except Refusal)) where
  monadLift := Lowering.read

end RegisterTransfer
