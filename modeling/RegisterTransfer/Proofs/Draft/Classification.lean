/-
# RegisterTransfer.Proofs.Draft.Classification -- lowerings whose class agrees with what they write

`Lowering.Leaves P x Q` says that from every draft with `P` the lowering `x` stops with a fault of its
instruction, or ends in a value and a draft with `Q`.  Nothing is said of whether it stops: operands of
a wrong kind are a fault.  The rules follow the way lowerings are put together.

* `Lowering.Straight x`: whatever `x` adds moves no control, and the class stays as it is;
* `Lowering.Classifies start stop x`: a whole lowering, after which the class agrees with the
  statements of a cluster from `start` to `stop`;
* `Lowering.ClassifiesCluster i next x`: the same of the cluster of an instruction that may absorb the
  next one.

All three also say that every intrinsic that is asked for has the number of arguments its name stands for,
so that one walk over the opcodes of a back-end settles the classes and the arities.
-/
import RegisterTransfer.Draft.Copy
import RegisterTransfer.Proofs.Draft.Control
import RegisterTransfer.Proofs.Intrinsic.Arity
import RegisterTransfer.Stream

namespace RegisterTransfer

set_option autoImplicit false

/-- Whether a fault is about the instruction alone: an opcode without register transfers, or operands
that do not fit the opcode. -/
def Fault.isOfInstruction : Fault → Bool
  | unsupportedOpcode .. | malformed .. => true
  | _ => false

/-- A draft that has the class given and the statements given, and behind them only such as move no
control. -/
structure Draft.Extends (before : List Statement) (flow : Flow) (d : Draft) : Prop where
  flow : d.flow = flow
  regular : d.Regular
  statements : ∃ more, d.statements = before ++ more ∧ ∀ s ∈ more, s.isStraight = true

theorem Draft.extends_empty : Draft.empty.Extends [] .linear :=
  ⟨rfl, Draft.regular_empty, [], rfl, nofun⟩

namespace Draft.Extends

variable {before : List Statement} {flow : Flow} {d : Draft}

theorem push (open_ : d.Extends before flow) {s : Statement} (straight : s.isStraight = true) :
    (d.push s).Extends before flow := by
  obtain ⟨more, same, all⟩ := open_.statements
  refine ⟨open_.flow, open_.regular, more ++ [s], by simp [Draft.push, same], ?_⟩
  intro s' found
  rcases List.mem_append.mp found with old | new
  · exact all s' old
  · rw [List.mem_singleton.mp new]
    exact straight

theorem temporary (open_ : d.Extends before flow) (type : DataType) :
    (d.temporary type).2.Extends before flow :=
  ⟨open_.flow, open_.regular, open_.statements⟩

theorem apply (open_ : d.Extends before flow) {name : String} {arguments : List Expr}
    (fits : IntrinsicName.arity? name = some arguments.length) (type : DataType) :
    (d.apply name type arguments).2.Extends before flow := by
  refine ⟨open_.flow, ?_, open_.statements⟩
  intro p listed
  rcases List.mem_append.mp listed with old | new
  · exact open_.regular p old
  · rw [List.mem_singleton.mp new]
    exact fits

theorem assign (open_ : d.Extends before flow) (dst src : Expr) :
    (d.assign dst src).Extends before flow := open_.push rfl

theorem assignWhen (open_ : d.Extends before flow) (condition : Bool) (dst src : Expr) :
    (if condition then d.assign dst src else d).Extends before flow := by
  split
  · exact open_.assign dst src
  · exact open_

theorem copy (open_ : d.Extends before flow) (model : FlagModel) (mode : CopyMode)
    (dst src : Expr) : (d.copy model mode dst src).2.Extends before flow := by
  unfold Draft.copy
  by_cases direct : (dst.isIdentifier || !mode.split) = true
  · rw [if_pos direct]
    exact ((open_.assign _ _).assignWhen _ _ _).assignWhen _ _ _
  · rw [if_neg direct]
    -- The value is kept in a temporary, and stored from there.
    have kept := ((open_.temporary src.type).assign (.identifier (d.temporary src.type).1) src).assign
      dst (.identifier (d.temporary src.type).1)
    exact (kept.assignWhen _ _ _).assignWhen _ _ _

end Draft.Extends

namespace Lowering

variable {α β : Type}

/-! ## Rules -/

/-- Reading an operand stops, if it does, with a fault of the instruction. -/
def Reads (e : Except Fault α) : Prop := ∀ fault, e = .error fault → fault.isOfInstruction = true

/-- From every draft with `P` the lowering ends in a value and a draft with `Q`, or stops with a fault
of the instruction. -/
def Leaves (P : Draft → Prop) (x : Lowering α) (Q : α → Draft → Prop) : Prop :=
  ∀ d, P d → match x.run d with
    | .ok (a, d') => Q a d'
    | .error refusal => refusal.fault.isOfInstruction = true

theorem Leaves.holds {P : Draft → Prop} {x : Lowering α} {Q : α → Draft → Prop}
    (leaves : Leaves P x Q) {d d' : Draft} {a : α} (start : P d) (ran : x.run d = .ok (a, d')) :
    Q a d' := by
  have left := leaves d start
  rwa [ran] at left

theorem Leaves.refused {P : Draft → Prop} {x : Lowering α} {Q : α → Draft → Prop}
    (leaves : Leaves P x Q) {d : Draft} {refusal : Refusal} (start : P d)
    (ran : x.run d = .error refusal) : refusal.fault.isOfInstruction = true := by
  have left := leaves d start
  rwa [ran] at left

theorem reads_ok (a : α) : Reads (.ok a : Except Fault α) := nofun

theorem reads_error {fault : Fault} (is : fault.isOfInstruction = true) :
    Reads (.error fault : Except Fault α) := by
  rintro _ ⟨⟩
  exact is

theorem reads_bind {e : Except Fault α} {f : α → Except Fault β} (first : Reads e)
    (second : ∀ a, Reads (f a)) : Reads (e >>= f) := by
  cases e with
  | error fault => exact reads_error (first fault rfl)
  | ok a => exact second a

section Rules

variable {P : Draft → Prop} {Q : α → Draft → Prop} {R : β → Draft → Prop}

theorem leaves_pure (a : α) (holds : ∀ d, P d → Q a d) : Leaves P (pure a) Q := holds

theorem leaves_bind {x : Lowering α} {f : α → Lowering β} (first : Leaves P x Q)
    (second : ∀ a, Leaves (Q a) (f a) R) : Leaves P (x >>= f) R := by
  intro d start
  have left := first d start
  rw [StateT.run_bind]
  cases ran : x.run d with
  | error refusal =>
      rw [ran] at left
      exact left
  | ok out =>
      rw [ran] at left
      exact second out.1 out.2 left

theorem leaves_operand {e : Except Fault α} {f : α → Lowering β} (read : Reads e)
    (then_ : ∀ a, Leaves P (f a) R) : Leaves P (liftM e >>= f) R := by
  cases e with
  | error fault => exact fun d _ => read fault rfl
  | ok a => exact then_ a

theorem leaves_fail {fault : Fault} (is : fault.isOfInstruction = true) :
    Leaves P (fail fault : Lowering α) Q := fun _ _ => is

theorem leaves_write {f : Draft → Draft} {Q : Unit → Draft → Prop}
    (holds : ∀ d, P d → Q () (f d)) : Leaves P (write f) Q := holds

theorem leaves_modifyGet {f : Draft → α × Draft} (holds : ∀ d, P d → Q (f d).1 (f d).2) :
    Leaves P (modifyGet f) Q := holds

end Rules

/-! ## Lowerings that move no control -/

/-- The lowering adds only statements that move no control, and keeps the class. -/
def Straight (x : Lowering α) : Prop :=
  ∀ before flow, Leaves (Draft.Extends before flow) x fun _ => Draft.Extends before flow

theorem straight_pure (a : α) : Straight (pure a) := fun _ _ => leaves_pure a fun _ => id

theorem straight_bind {x : Lowering α} {f : α → Lowering β} (first : Straight x)
    (second : ∀ a, Straight (f a)) : Straight (x >>= f) :=
  fun before flow => leaves_bind (first before flow) fun a => second a before flow

theorem straight_operand {e : Except Fault α} {f : α → Lowering β} (read : Reads e)
    (then_ : ∀ a, Straight (f a)) : Straight (liftM e >>= f) :=
  fun before flow => leaves_operand read fun a => then_ a before flow

theorem straight_read {e : Except Fault α} (read : Reads e) : Straight (liftM e) := by
  intro before flow d open_
  cases e with
  | error fault => exact read fault rfl
  | ok a => exact open_

theorem straight_fail {fault : Fault} (is : fault.isOfInstruction = true) :
    Straight (fail fault : Lowering α) := fun _ _ => leaves_fail is

theorem straight_push {f : Draft → Draft} {s : Statement} (adds : ∀ d, f d = d.push s)
    (straight : s.isStraight = true) : Straight (write f) := by
  intro before flow
  refine leaves_write fun d open_ => ?_
  rw [adds]
  exact open_.push straight

theorem straight_assign (dst src : Expr) : Straight (assign dst src) :=
  straight_push (fun _ => rfl) rfl

theorem straight_effect (e : Expr) : Straight (effect e) := straight_push (fun _ => rfl) rfl

theorem straight_assignIf (condition dst src : Expr) : Straight (assignIf condition dst src) :=
  straight_push (fun _ => rfl) rfl

theorem straight_nop : Straight nop := straight_push (fun _ => rfl) rfl

theorem straight_temporary (type : DataType) : Straight (temporary type) :=
  fun _ _ => leaves_modifyGet fun _ open_ => open_.temporary type

theorem straight_apply {name : String} {type : DataType} {arguments : List Expr}
    (fits : IntrinsicName.arity? name = some arguments.length) :
    Straight (apply name type arguments) :=
  fun _ _ => leaves_modifyGet fun _ open_ => open_.apply fits type

theorem straight_copy (model : FlagModel) (mode : CopyMode) (dst src : Expr) :
    Straight (copy model mode dst src) :=
  fun _ _ => leaves_modifyGet fun _ open_ => open_.copy model mode dst src

theorem straight_forM {f : α → Lowering Unit} (each : ∀ a, Straight (f a)) :
    ∀ items : List α, Straight (items.forM f)
  | [] => straight_pure ()
  | a :: rest => straight_bind (each a) fun _ => straight_forM each rest

/-- A step that is taken only under a condition, and what comes after it in either case. -/
theorem straight_when {condition : Prop} [Decidable condition] {x : Lowering Unit}
    {after : Unit → Lowering α} (inside : Straight x) (rest : ∀ u, Straight (after u)) :
    Straight (if condition then x >>= after else after ()) := by
  split
  · exact straight_bind inside rest
  · exact rest ()

/-- One of two ways to a value, and what comes after it. -/
theorem straight_either {condition : Prop} [Decidable condition] {x y : Lowering α}
    {after : α → Lowering β} (one : Straight x) (other : Straight y)
    (rest : ∀ a, Straight (after a)) :
    Straight (if condition then x >>= after else y >>= after) := by
  split
  · exact straight_bind one rest
  · exact straight_bind other rest

/-! ## Whole lowerings -/

/-- The lowering, begun with an empty draft, gives its draft a class that agrees with the statements of
a cluster from `start` to `stop`. -/
def Classifies (start stop : Nat) (x : Lowering α) : Prop :=
  Leaves (Draft.Extends [] .linear) x fun _ d =>
    d.Regular ∧ Controlled start stop d.flow d.statements

variable {start stop : Nat}

theorem classifies_bind {x : Lowering α} {f : α → Lowering β} (first : Straight x)
    (then_ : ∀ a, Classifies start stop (f a)) : Classifies start stop (x >>= f) :=
  leaves_bind (first [] .linear) then_

theorem classifies_operand {e : Except Fault α} {f : α → Lowering β} (read : Reads e)
    (then_ : ∀ a, Classifies start stop (f a)) : Classifies start stop (liftM e >>= f) :=
  leaves_operand read then_

theorem classifies_fail {fault : Fault} (is : fault.isOfInstruction = true) :
    Classifies start stop (fail fault : Lowering α) := leaves_fail is

theorem classifies_when {condition : Prop} [Decidable condition] {x : Lowering Unit}
    {after : Unit → Lowering α} (inside : Straight x)
    (rest : ∀ u, Classifies start stop (after u)) :
    Classifies start stop (if condition then x >>= after else after ()) := by
  split
  · exact classifies_bind inside rest
  · exact rest ()

/-- Statements that move no control are a linear cluster. -/
theorem classifies_of_straight {x : Lowering α} (straight : Straight x) :
    Classifies start stop x := by
  intro d empty
  have left := straight [] .linear d empty
  revert left
  cases x.run d with
  | error refusal => exact id
  | ok out =>
      intro left
      obtain ⟨flow, regular, more, statements, all⟩ := left
      refine ⟨regular, ?_⟩
      rw [flow, statements, List.nil_append]
      exact .linear all

/-- One last step behind statements that move no control. -/
theorem classifies_write {f : Draft → Draft}
    (agrees : ∀ d, (∀ s ∈ d.statements, s.isStraight = true) →
      (f d).requests = d.requests ∧ Controlled start stop (f d).flow (f d).statements) :
    Classifies start stop (write f) := by
  refine leaves_write fun d open_ => ?_
  obtain ⟨flow, regular, more, statements, all⟩ := open_
  rw [List.nil_append] at statements
  obtain ⟨same, controlled⟩ := agrees d (by rwa [statements])
  refine ⟨?_, controlled⟩
  rwa [Draft.Regular, same]

theorem classifies_branch (condition : Expr) (target : Nat) :
    Classifies start stop (branch condition target) :=
  classifies_write fun _ all => ⟨rfl, .branch all condition target⟩

theorem classifies_goto (target : Expr) : Classifies start stop (goto target) :=
  classifies_write fun _ all => ⟨rfl, .transfer all target⟩

theorem classifies_call (target : Expr) (size : Nat) : Classifies start stop (call target size) :=
  classifies_write fun _ all => ⟨rfl, .call all target size⟩

theorem classifies_ret (size extra : Nat) : Classifies start stop (ret size extra) :=
  classifies_write fun _ all => ⟨rfl, .ret all size extra⟩

theorem classifies_halt : Classifies start stop (setFlow .halt) :=
  classifies_write fun _ all => ⟨rfl, .halt all⟩

theorem classifies_invalid : Classifies start stop invalid :=
  classifies_write fun _ _ => ⟨rfl, .invalid⟩

/-! ## Clusters of an instruction and the next one -/

section Clusters

variable {ι : Type} [MachineInstruction ι]

/-- Where the cluster of an instruction ends, which may have absorbed the next one. -/
def clusterEnd (i : ι) (next : Option ι) (absorbed : Bool) : Nat :=
  MachineInstruction.address i + (MachineInstruction.length i +
    if absorbed then (next.map MachineInstruction.length).getD 0 else 0)

/-- The lowering of an instruction with a view of the next one.  Where a cluster of two instructions
ends is known only if the next one starts where the first one ends. -/
def ClassifiesCluster (i : ι) (next : Option ι) (x : Lowering Bool) : Prop :=
  Leaves (Draft.Extends [] .linear) x fun absorbed d =>
    d.Regular ∧
      ((∀ j ∈ next,
          MachineInstruction.address j =
            MachineInstruction.address i + MachineInstruction.length i) →
        Controlled (MachineInstruction.address i) (clusterEnd i next absorbed) d.flow d.statements)

/-- An instruction that absorbs nothing. -/
theorem classifiesCluster_alone {i : ι} {next : Option ι} {x : Lowering α}
    (first : Classifies (MachineInstruction.address i)
      (MachineInstruction.address i + MachineInstruction.length i) x) :
    ClassifiesCluster i next (x >>= fun _ => pure false) :=
  leaves_bind first fun _ => leaves_pure false fun _ left => ⟨left.1, fun _ => left.2⟩

end Clusters

end Lowering

end RegisterTransfer
