/-
# RegisterTransfer.Proofs.Draft.Collection -- what the statements of a lowering add up to

A question that is asked of single statements, as which flags one assigns or where one may jump to, has a
list of answers `f s` for each.  `Lowering.Collects f x items V` says that the statements which the
lowering `x` adds to a draft have the answers `items`, all together and in order, and that its value
satisfies `V`.  Most steps add none: `collects_then` and `collects_last` leave these out of the list.

`Lowering.Yields f x items` says it of a whole lowering, which may also throw away what was written.
Nothing is said of a lowering that stops: `Backend.flatMap_of_lowered` is about clusters there are.
-/
import RegisterTransfer.Proofs.Draft.Emission

namespace RegisterTransfer

set_option autoImplicit false

namespace Lowering

variable {α β γ : Type} {f : Statement → List γ} {items more : List γ} {V : α → Prop} {W : β → Prop}

/-- What the lowering adds has the answers `items`, and its value satisfies `V`. -/
def Collects (f : Statement → List γ) (x : Lowering α) (items : List γ) (V : α → Prop) : Prop :=
  ∀ d a d', x.run d = .ok (a, d') →
    V a ∧ d'.statements.flatMap f = d.statements.flatMap f ++ items

/-- Begun with an empty draft, the lowering leaves one with the answers `items`. -/
def Yields (f : Statement → List γ) (x : Lowering α) (items : List γ) : Prop :=
  ∀ a d, x.run .empty = .ok (a, d) → d.statements.flatMap f = items

/-- A lowering of two steps that ends has ended after the first. -/
theorem run_of_bind {x : Lowering α} {g : α → Lowering β} {d d' : Draft} {b : β}
    (ran : (x >>= g).run d = .ok (b, d')) :
    ∃ a e, x.run d = .ok (a, e) ∧ (g a).run e = .ok (b, d') := by
  rw [StateT.run_bind] at ran
  cases first : x.run d with
  | error refusal =>
      rw [first] at ran
      cases ran
  | ok out =>
      rw [first] at ran
      exact ⟨out.1, out.2, rfl, ran⟩

/-! ## Ways to put lowerings together -/

theorem collects_pure {a : α} (holds : V a) : Collects f (pure a) [] V := by
  rintro d _ _ ⟨⟩
  exact ⟨holds, (List.append_nil _).symm⟩

theorem collects_bind {x : Lowering α} {g : α → Lowering β} (first : Collects f x items V)
    (second : ∀ a, V a → Collects f (g a) more W) : Collects f (x >>= g) (items ++ more) W := by
  intro d b d' ran
  obtain ⟨a, e, ran, ran'⟩ := run_of_bind ran
  obtain ⟨holds, same⟩ := first d a e ran
  obtain ⟨holds', same'⟩ := second a holds e b d' ran'
  refine ⟨holds', ?_⟩
  rw [same', same, List.append_assoc]

/-- A first step that adds nothing of interest. -/
theorem collects_then {x : Lowering α} {g : α → Lowering β} (first : Collects f x [] V)
    (second : ∀ a, V a → Collects f (g a) items W) : Collects f (x >>= g) items W :=
  collects_bind first second

/-- Steps behind it that add nothing of interest. -/
theorem collects_last {x : Lowering α} {g : α → Lowering β} (first : Collects f x items V)
    (second : ∀ a, V a → Collects f (g a) [] W) : Collects f (x >>= g) items W := by
  have whole := collects_bind first second
  rwa [List.append_nil] at whole

theorem collects_fail (fault : Fault) : Collects f (fail fault : Lowering α) items V := by
  rintro d a d' ⟨⟩

theorem collects_operand {e : Except Fault α} {g : α → Lowering β}
    (then_ : ∀ a, e = .ok a → Collects f (g a) items W) : Collects f (liftM e >>= g) items W := by
  cases e with
  | error fault => exact collects_fail fault
  | ok a => exact then_ a rfl

theorem collects_read (e : Except Fault α) : Collects f (liftM e) [] fun _ => True := by
  cases e with
  | error fault => exact collects_fail fault
  | ok a => exact collects_pure trivial

/-- A step that is taken only under a condition, and what comes after it in either case. -/
theorem collects_when {condition : Prop} [Decidable condition] {x : Lowering Unit}
    {after : Unit → Lowering α} (inside : Collects f x [] Anything)
    (rest : ∀ u, Collects f (after u) items V) :
    Collects f (if condition then x >>= after else after ()) items V := by
  split
  · exact collects_then inside fun u _ => rest u
  · exact rest ()

/-- One of two ways to a value, and what comes after it. -/
theorem collects_either {condition : Prop} [Decidable condition] {x y : Lowering α}
    {after : α → Lowering β} (one : Collects f x [] V) (other : Collects f y [] V)
    (rest : ∀ a, V a → Collects f (after a) items W) :
    Collects f (if condition then x >>= after else y >>= after) items W := by
  split
  · exact collects_then one rest
  · exact collects_then other rest

theorem collects_forM {g : α → Lowering Unit} (each : ∀ a, Collects f (g a) [] Anything) :
    ∀ list : List α, Collects f (list.forM g) [] Anything
  | [] => collects_pure trivial
  | a :: rest => collects_then (each a) fun _ _ => collects_forM each rest

/-! ## Single statements -/

theorem collects_push {g : Draft → Draft} (s : Statement)
    (adds : ∀ d, (g d).statements = d.statements ++ [s]) (has : f s = items) :
    Collects f (write g) items Anything := by
  rintro d _ _ ⟨⟩
  refine ⟨trivial, ?_⟩
  rw [adds, List.flatMap_append, List.flatMap_singleton, has]

theorem collects_assign {dst src : Expr} (has : f (.assign dst src) = items) :
    Collects f (assign dst src) items Anything := collects_push _ (fun _ => rfl) has

theorem collects_assignIf {condition dst src : Expr}
    (has : f (.guarded condition (.assign dst src)) = items) :
    Collects f (assignIf condition dst src) items Anything := collects_push _ (fun _ => rfl) has

theorem collects_branch {condition : Expr} {target : Nat}
    (has : f (.branch condition target) = items) :
    Collects f (branch condition target) items Anything := collects_push _ (fun _ => rfl) has

theorem collects_goto {target : Expr} (has : f (.goto target) = items) :
    Collects f (goto target) items Anything := collects_push _ (fun _ => rfl) has

theorem collects_call {target : Expr} {size : Nat} (has : f (.call target size) = items) :
    Collects f (call target size) items Anything := collects_push _ (fun _ => rfl) has

theorem collects_ret {size extra : Nat} (has : f (.ret size extra) = items) :
    Collects f (ret size extra) items Anything := collects_push _ (fun _ => rfl) has

theorem collects_effect {e : Expr} (has : f (.effect e) = items) :
    Collects f (effect e) items Anything := collects_push _ (fun _ => rfl) has

theorem collects_nop (has : f .nop = items) : Collects f nop items Anything :=
  collects_push _ (fun _ => rfl) has

theorem collects_setFlow (flow : Flow) : Collects f (setFlow flow) [] Anything := by
  rintro d _ _ ⟨⟩
  exact ⟨trivial, (List.append_nil _).symm⟩

theorem collects_modifyGet {g : Draft → α × Draft}
    (holds : ∀ d, V (g d).1 ∧ (g d).2.statements.flatMap f = d.statements.flatMap f ++ items) :
    Collects f (modifyGet g) items V := by
  intro d a d' ran
  obtain ⟨rfl, rfl⟩ := Prod.ext_iff.mp (Except.ok.inj ran)
  exact holds d

theorem collects_temporary {type : DataType} {V : Expr → Prop}
    (holds : ∀ n, V (.identifier (.temporary n type))) : Collects f (temporary type) [] V :=
  collects_modifyGet fun d => ⟨holds d.temporaries, (List.append_nil _).symm⟩

theorem collects_apply {name : String} {type : DataType} {arguments : List Expr} {V : Expr → Prop}
    (holds : V (.apply ⟨name, type, arguments.length⟩ type arguments)) :
    Collects f (apply name type arguments) [] V :=
  collects_modifyGet fun _ => ⟨holds, (List.append_nil _).symm⟩

/-- A copy to a place of no interest adds what its flags add. -/
theorem collects_copy {model : FlagModel} {mode : CopyMode} {dst src : Expr} {V : Expr → Prop}
    (direct : f (.assign dst src) = [])
    (kept : ∀ n, f (.assign (.identifier (.temporary n src.type)) src) = [] ∧
      f (.assign dst (.identifier (.temporary n src.type))) = [])
    (holds : V dst) (holds' : ∀ n, V (.identifier (.temporary n src.type)))
    (flags : ∀ value, V value → (flagging model mode value).flatMap f = items) :
    Collects f (copy model mode dst src) items V := by
  refine collects_modifyGet fun d => ?_
  obtain ⟨value, statements, -⟩ := copy_eq_copied d model mode dst src
  rw [value, statements, List.flatMap_append]
  obtain ⟨first, second⟩ := kept d.temporaries
  by_cases plain : (dst.isIdentifier || !mode.split) = true
  · rw [copied_of_direct plain]
    refine ⟨holds, ?_⟩
    rw [List.flatMap_cons, direct, flags dst holds, List.nil_append]
  · rw [copied_of_kept plain]
    refine ⟨holds' _, ?_⟩
    rw [List.flatMap_cons, List.flatMap_cons, first, second, flags _ (holds' _), List.nil_append,
      List.nil_append]

/-! ## Whole lowerings -/

theorem Collects.yields {x : Lowering α} (collects : Collects f x items V) : Yields f x items :=
  fun a d ran => (collects .empty a d ran).2

theorem yields_operand {e : Except Fault α} {g : α → Lowering β}
    (then_ : ∀ a, e = .ok a → Yields f (g a) items) : Yields f (liftM e >>= g) items := by
  cases e with
  | error fault => rintro _ _ ⟨⟩
  | ok a => exact then_ a rfl

/-- The marker takes the place of whatever was written. -/
theorem yields_invalid (has : f .invalid = []) : Yields f invalid [] := by
  rintro _ _ ⟨⟩
  show [Statement.invalid].flatMap f = []
  rw [List.flatMap_singleton, has]

theorem yields_return {x : Lowering α} (b : β) (yields : Yields f x items) :
    Yields f (x >>= fun _ => pure b) items := by
  intro b' d ran
  obtain ⟨a, _, first, last⟩ := run_of_bind ran
  cases last
  exact yields a d first

end Lowering

/-- The statements of a cluster have the answers of its lowering, if they do not depend on the entries
that a table has for intrinsics. -/
theorem Backend.flatMap_of_lowered {ι γ : Type} {b : Backend ι} {i : ι} {next : Option ι}
    {f : Statement → List γ} {items : List γ} (yields : Lowering.Yields f (b.lower i next) items)
    (settled : ∀ g s, f (s.mapIntrinsics g) = f s) {t t' : IntrinsicTable} {l : Backend.Lowered}
    (lowered : b.lowerWith i next t = (.ok l, t')) : l.statements.flatMap f = items := by
  obtain ⟨d, drafted, -, -, same⟩ := drafted_of_lowered lowered
  rw [same, List.flatMap_map]
  simp only [settled]
  exact yields _ d drafted

end RegisterTransfer
