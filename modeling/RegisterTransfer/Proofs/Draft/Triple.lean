/-
# RegisterTransfer.Proofs.Draft.Triple -- what a lowering is sure to write

`Lowering.Ensures P x Q` says that from every draft with `P` the lowering `x` ends without a fault,
and that its value and the draft it leaves satisfy `Q`.  The rules below follow the way lowerings are
put together: a value, a sequence, an operand that may be missing, a change of the draft, and a loop
over a list.

`Lowering.Regular x` is the instance that the totality of a back-end rests on: `x` never stops with a
fault, and the intrinsics it asks for have the number of arguments that their names stand for.
-/
import RegisterTransfer.Draft.Copy
import RegisterTransfer.Proofs.Intrinsic.Arity
import RegisterTransfer.Stream.Clusters

namespace RegisterTransfer.Lowering

set_option autoImplicit false

variable {α β : Type}

/-- From every draft with `P` the lowering ends without a fault, in a value and a draft with `Q`. -/
def Ensures (P : Draft → Prop) (x : Lowering α) (Q : α → Draft → Prop) : Prop :=
  ∀ d, P d → ∃ a d', x.run d = .ok (a, d') ∧ Q a d'

/-- Says nothing of the value of a lowering that is run for its statements alone. -/
abbrev Anything : Unit → Prop := fun _ => True

section Rules

variable {P : Draft → Prop} {Q : α → Draft → Prop} {R : β → Draft → Prop}

theorem ensures_pure (a : α) (holds : ∀ d, P d → Q a d) : Ensures P (pure a) Q :=
  fun d start => ⟨a, d, rfl, holds d start⟩

theorem ensures_bind {x : Lowering α} {f : α → Lowering β} (first : Ensures P x Q)
    (second : ∀ a, Ensures (Q a) (f a) R) : Ensures P (x >>= f) R := by
  intro d start
  obtain ⟨a, d', ran, holds⟩ := first d start
  obtain ⟨b, d'', ran', holds'⟩ := second a d' holds
  refine ⟨b, d'', ?_, holds'⟩
  rw [StateT.run_bind, ran]
  exact ran'

/-- An operand that is there takes no part in the draft. -/
theorem ensures_bind_operand {e : Except Fault α} {a : α} {f : α → Lowering β}
    (found : e = .ok a) (then_ : Ensures P (f a) R) :
    Ensures P (liftM e >>= f) R := by
  subst found
  exact then_

theorem ensures_write {f : Draft → Draft} {Q : Unit → Draft → Prop}
    (holds : ∀ d, P d → Q () (f d)) : Ensures P (write f) Q :=
  fun d start => ⟨(), f d, rfl, holds d start⟩

theorem ensures_modifyGet {f : Draft → α × Draft} (holds : ∀ d, P d → Q (f d).1 (f d).2) :
    Ensures P (modifyGet f) Q :=
  fun d start => ⟨(f d).1, (f d).2, rfl, holds d start⟩

end Rules

/-! ## Totality -/

/-- The lowering never faults, and asks only for intrinsics with the right number of arguments. -/
def Regular (x : Lowering α) : Prop := Ensures Draft.Regular x fun _ => Draft.Regular

theorem regular_pure (a : α) : Regular (pure a) := ensures_pure a fun _ => id

theorem regular_bind {x : Lowering α} {f : α → Lowering β} (first : Regular x)
    (second : ∀ a, Regular (f a)) : Regular (x >>= f) := ensures_bind first second

theorem regular_operand {e : Except Fault α} {a : α} {f : α → Lowering β} (found : e = .ok a)
    (then_ : Regular (f a)) : Regular (liftM e >>= f) := ensures_bind_operand found then_

/-- A change that asks for nothing keeps a draft regular. -/
theorem regular_write {f : Draft → Draft} (same : ∀ d, (f d).requests = d.requests) :
    Regular (write f) :=
  ensures_write fun d asks => by rwa [Draft.Regular, same]

theorem regular_assign (dst src : Expr) : Regular (assign dst src) := regular_write fun _ => rfl

theorem regular_branch (condition : Expr) (target : Nat) : Regular (branch condition target) :=
  regular_write fun _ => rfl

theorem regular_goto (target : Expr) : Regular (goto target) := regular_write fun _ => rfl

theorem regular_call (target : Expr) (returnSize : Nat) : Regular (call target returnSize) :=
  regular_write fun _ => rfl

theorem regular_ret (returnSize extraBytes : Nat) : Regular (ret returnSize extraBytes) :=
  regular_write fun _ => rfl

theorem regular_effect (e : Expr) : Regular (effect e) := regular_write fun _ => rfl

theorem regular_nop : Regular nop := regular_write fun _ => rfl

theorem regular_invalid : Regular invalid := regular_write fun _ => rfl

theorem regular_setFlow (flow : Flow) : Regular (setFlow flow) := regular_write fun _ => rfl

theorem regular_copy (model : FlagModel) (mode : CopyMode) (dst src : Expr) :
    Regular (copy model mode dst src) := by
  refine ensures_modifyGet fun d asks => ?_
  have same : (d.copy model mode dst src).2.requests = d.requests := by
    by_cases direct : (dst.isIdentifier || !mode.split) = true
    · simp only [Draft.copy, if_pos direct]
      split <;> split <;> rfl
    · simp only [Draft.copy, if_neg direct]
      split <;> split <;> rfl
  rwa [Draft.Regular, same]

theorem regular_apply (name : String) (type : DataType) (arguments : List Expr)
    (fits : IntrinsicName.arity? name = some arguments.length) :
    Regular (apply name type arguments) := by
  refine ensures_modifyGet fun d asks p listed => ?_
  rcases List.mem_append.mp listed with old | new
  · exact asks p old
  · rw [List.mem_singleton.mp new]
    exact fits

theorem regular_forM {f : α → Lowering Unit} (each : ∀ a, Regular (f a)) :
    ∀ items : List α, Regular (items.forM f)
  | [] => regular_pure ()
  | a :: rest => regular_bind (each a) fun _ => regular_forM each rest

end RegisterTransfer.Lowering

namespace RegisterTransfer.Backend

set_option autoImplicit false

variable {ι : Type}

/-- On a regular table a regular lowering gives a cluster, and leaves the table regular. -/
theorem lowerWith_of_regular {b : Backend ι} {i : ι} {next : Option ι} {absorbed : Bool}
    (lowers : Lowering.Ensures Draft.Regular (b.lower i next) fun a d => a = absorbed ∧ d.Regular)
    {t : IntrinsicTable} (regular : t.Regular) :
    ∃ lowered t', b.lowerWith i next t = (.ok lowered, t') ∧ lowered.absorbed = absorbed ∧
      t'.Regular := by
  obtain ⟨a, d, ran, rfl, asks⟩ := lowers .empty Draft.regular_empty
  obtain ⟨t', settled, regular'⟩ := Draft.settle_of_regular asks regular
  refine ⟨⟨a, d.flow, d.statements.map (·.mapIntrinsics t'.resolve)⟩, t', ?_, rfl, regular'⟩
  rw [lowerWith, draft, ran]
  simp only [settled]

end RegisterTransfer.Backend
