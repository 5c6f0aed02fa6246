/-
# RegisterTransfer.Proofs.Draft.Additions -- what every statement of a lowering is like

`Lowering.Adds K x V` says that whatever the lowering `x` adds to a draft satisfies `K`, and its value
satisfies `V`; if it stops, it does so with a fault of its instruction.  It is `Lowering.Leaves` for a
property of single statements, and the rules ask for `K` of just the statements that a step writes.
-/
import RegisterTransfer.Proofs.Draft.Classification
import RegisterTransfer.Proofs.Draft.Triple

namespace RegisterTransfer

set_option autoImplicit false

/-- Every statement written so far satisfies a property. -/
def Draft.All (K : Statement → Prop) (d : Draft) : Prop := ∀ s ∈ d.statements, K s

namespace Draft.All

variable {K : Statement → Prop} {d : Draft}

theorem empty : Draft.empty.All K := nofun

theorem push (all : d.All K) {s : Statement} (is : K s) : (d.push s).All K := by
  intro s' listed
  rcases List.mem_append.mp listed with old | new
  · exact all s' old
  · rwa [List.mem_singleton.mp new]

theorem assignWhen (all : d.All K) (condition : Bool) {dst src : Expr} (is : K (.assign dst src)) :
    (if condition then d.assign dst src else d).All K := by
  split
  · exact all.push is
  · exact all

/-- Flags derived from a value. -/
theorem flags (all : d.All K) (model : FlagModel) (mode : CopyMode) {value : Expr}
    (group : K (.assign (.identifier model.group) (.conditionCodes value)))
    (carry : K (.assign (.identifier model.carry) value.isZero)) :
    (let d :=
      if mode.conditionCodes then d.assign (.identifier model.group) (.conditionCodes value) else d
    if mode.carryIfZero then d.assign (.identifier model.carry) value.isZero else d).All K :=
  (all.assignWhen mode.conditionCodes group).assignWhen mode.carryIfZero carry

end Draft.All

namespace Lowering

variable {α β : Type} {K : Statement → Prop} {V : α → Prop} {W : β → Prop}

/-- Anything the lowering adds satisfies `K`, and its value satisfies `V`. -/
def Adds (K : Statement → Prop) (x : Lowering α) (V : α → Prop) : Prop :=
  Leaves (Draft.All K) x fun a d => V a ∧ d.All K

/-! ## Ways to put lowerings together -/

theorem adds_pure {a : α} (holds : V a) : Adds K (pure a) V := leaves_pure a fun _ all => ⟨holds, all⟩

theorem adds_bind {x : Lowering α} {f : α → Lowering β} (first : Adds K x V)
    (second : ∀ a, V a → Adds K (f a) W) : Adds K (x >>= f) W :=
  leaves_bind first fun a d between => second a between.1 d between.2

theorem adds_operand {e : Except Fault α} {f : α → Lowering β} (read : Reads e)
    (then_ : ∀ a, e = .ok a → Adds K (f a) W) : Adds K (liftM e >>= f) W := by
  cases e with
  | error fault => exact fun d _ => read fault rfl
  | ok a => exact then_ a rfl

theorem adds_fail {fault : Fault} (is : fault.isOfInstruction = true) :
    Adds K (fail fault : Lowering α) V := leaves_fail is

theorem adds_forM {f : α → Lowering Unit} :
    ∀ {items : List α}, (∀ a ∈ items, Adds K (f a) Anything) → Adds K (items.forM f) Anything
  | [], _ => adds_pure trivial
  | _ :: _, each =>
      adds_bind (each _ List.mem_cons_self) fun _ _ =>
        adds_forM fun a later => each a (List.mem_cons_of_mem _ later)

/-- A step that is taken only under a condition, and what comes after it in either case. -/
theorem adds_when {condition : Prop} [Decidable condition] {x : Lowering Unit}
    {after : Unit → Lowering α} (inside : Adds K x Anything) (rest : ∀ u, Adds K (after u) V) :
    Adds K (if condition then x >>= after else after ()) V := by
  split
  · exact adds_bind inside fun u _ => rest u
  · exact rest ()

/-! ## Single statements -/

theorem adds_push {f : Draft → Draft} {s : Statement} (adds : ∀ d, (f d).statements = (d.push s).statements)
    (is : K s) : Adds K (write f) Anything :=
  leaves_write fun d all => ⟨trivial, by rw [Draft.All, adds]; exact all.push is⟩

theorem adds_assign {dst src : Expr} (is : K (.assign dst src)) : Adds K (assign dst src) Anything :=
  adds_push (fun _ => rfl) is

theorem adds_branch {condition : Expr} {target : Nat} (is : K (.branch condition target)) :
    Adds K (branch condition target) Anything := adds_push (fun _ => rfl) is

theorem adds_goto {target : Expr} (is : K (.goto target)) : Adds K (goto target) Anything :=
  adds_push (fun _ => rfl) is

theorem adds_call {target : Expr} {size : Nat} (is : K (.call target size)) :
    Adds K (call target size) Anything := adds_push (fun _ => rfl) is

theorem adds_ret {size extra : Nat} (is : K (.ret size extra)) : Adds K (ret size extra) Anything :=
  adds_push (fun _ => rfl) is

theorem adds_effect {e : Expr} (is : K (.effect e)) : Adds K (effect e) Anything :=
  adds_push (fun _ => rfl) is

theorem adds_nop (is : K .nop) : Adds K nop Anything := adds_push (fun _ => rfl) is

/-- The marker takes the place of whatever was written. -/
theorem adds_invalid (is : K .invalid) : Adds K invalid Anything :=
  leaves_write fun _ _ => ⟨trivial, fun _ listed => List.mem_singleton.mp listed ▸ is⟩

theorem adds_setFlow (flow : Flow) : Adds K (setFlow flow) Anything :=
  leaves_write fun _ all => ⟨trivial, all⟩

theorem adds_apply {name : String} {type : DataType} {arguments : List Expr} {V : Expr → Prop}
    (holds : V (.apply ⟨name, type, arguments.length⟩ type arguments)) :
    Adds K (apply name type arguments) V :=
  leaves_modifyGet fun _ all => ⟨holds, all⟩

/-- A copy writes the value to its place, directly or by way of a temporary, and flags of the value. -/
theorem adds_copy (model : FlagModel) (mode : CopyMode) {dst src : Expr} {V : Expr → Prop}
    (direct : K (.assign dst src))
    (kept : ∀ n, K (.assign (.identifier (.temporary n src.type)) src) ∧
      K (.assign dst (.identifier (.temporary n src.type))))
    (holds : V dst) (holds' : ∀ n, V (.identifier (.temporary n src.type)))
    (flags : ∀ value, V value → K (.assign (.identifier model.group) (.conditionCodes value)) ∧
      K (.assign (.identifier model.carry) value.isZero)) :
    Adds K (copy model mode dst src) V := by
  refine leaves_modifyGet fun d all => ?_
  unfold Draft.copy
  by_cases plain : (dst.isIdentifier || !mode.split) = true
  · rw [if_pos plain]
    obtain ⟨group, carry⟩ := flags dst holds
    exact ⟨holds, (all.push direct).flags model mode group carry⟩
  · rw [if_neg plain]
    obtain ⟨first, second⟩ := kept d.temporaries
    obtain ⟨group, carry⟩ := flags _ (holds' d.temporaries)
    have begun : (d.temporary src.type).2.All K := all
    exact ⟨holds' _, ((begun.push first).push second).flags model mode group carry⟩

end Lowering

end RegisterTransfer
