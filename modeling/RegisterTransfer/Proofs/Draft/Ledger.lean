/-
# RegisterTransfer.Proofs.Draft.Ledger -- what a draft asks for is what its statements apply

An intrinsic is asked for when an expression that applies it is built, and the expression goes into a
statement later, or never.  `Draft.Owes held d` says that the requests of `d` are the uses in its
statements, one for one and in order, and behind them the uses in `held`, which wait for a statement.

* `Lowering.Pays held x left V`: from a draft that owes `held` the lowering ends without a fault, in a value
  with `V` and a draft that owes `left`;
* `Lowering.Settles x V`: a whole lowering, begun before anything was asked for.  It ends in a value with `V`
  and a draft that owes nothing, or it is refused while it has not asked for anything yet.

Operands are read first, by `settles_operand`; what is done with them cannot fail and pays for itself.
-/
import RegisterTransfer.Proofs.Draft.Triple
import RegisterTransfer.Proofs.Expr.Parts

namespace RegisterTransfer

set_option autoImplicit false

namespace Draft

/-- The requests are the uses in the statements, and then those that wait for a statement. -/
def Owes (held : List IntrinsicUse) (d : Draft) : Prop :=
  d.requests.map Intrinsic.use = d.statements.flatMap Statement.uses ++ held

/-- Nothing was asked for, and nothing is applied. -/
structure Silent (d : Draft) : Prop where
  requests : d.requests = []
  owes : d.Owes []

theorem silent_empty : Draft.empty.Silent := ⟨rfl, rfl⟩

variable {held : List IntrinsicUse} {d : Draft}

/-- A statement pays for the uses in it. -/
theorem Owes.add (owes : d.Owes held) {e : Draft} {s : Statement}
    (adds : e.statements = d.statements ++ [s]) (same : e.requests = d.requests)
    (pays : s.uses = held) : e.Owes [] := by
  rw [Owes, adds, same, List.flatMap_append, List.flatMap_singleton, pays, List.append_nil]
  exact owes

theorem Owes.assign (owes : d.Owes held) (dst src : Expr) (plain : dst.uses = [])
    (pays : src.uses = held) : (d.assign dst src).Owes [] :=
  owes.add rfl rfl (by simp [plain, pays])

theorem Owes.assignWhen (owes : d.Owes []) (condition : Bool) (dst src : Expr)
    (plain : dst.uses = []) (plain' : src.uses = []) :
    (if condition then d.assign dst src else d).Owes [] := by
  split
  · exact owes.assign dst src plain plain'
  · exact owes

/-- Flags derived from where a value was stored. -/
theorem Owes.flags (owes : d.Owes []) (model : FlagModel) (mode : CopyMode) {value : Expr}
    (plain : value.uses = []) :
    (let d :=
      if mode.conditionCodes then d.assign (.identifier model.group) (.conditionCodes value) else d
    if mode.carryIfZero then d.assign (.identifier model.carry) value.isZero else d).Owes [] := by
  have codes :=
    owes.assignWhen mode.conditionCodes (.identifier model.group) (.conditionCodes value) rfl plain
  exact codes.assignWhen _ _ _ rfl (value.uses_isZero.trans plain)

/-- Copying a value pays for it once: flags are derived from the place where it was stored. -/
theorem Owes.copy (owes : d.Owes held) (model : FlagModel) (mode : CopyMode) {dst src : Expr}
    (plain : dst.uses = []) (pays : src.uses = held) :
    (d.copy model mode dst src).1.uses = [] ∧ (d.copy model mode dst src).2.Owes [] := by
  unfold Draft.copy
  by_cases direct : (dst.isIdentifier || !mode.split) = true
  · rw [if_pos direct]
    exact ⟨plain, (owes.assign dst src plain pays).flags model mode plain⟩
  · rw [if_neg direct]
    let t : Expr := .identifier (d.temporary src.type).1
    have kept : ((d.temporary src.type).2.assign t src).Owes [] :=
      Owes.assign (d := (d.temporary src.type).2) owes t src rfl pays
    exact ⟨rfl, (kept.assign dst t plain rfl).flags model mode rfl⟩

theorem Owes.apply (owes : d.Owes []) (name : String) (type : DataType) {arguments : List Expr}
    (plain : ∀ e ∈ arguments, e.uses = []) :
    (d.apply name type arguments).2.Owes (d.apply name type arguments).1.uses := by
  have none_ : arguments.flatMap Expr.uses = [] := List.flatMap_eq_nil_iff.mpr plain
  have before : d.requests.map Intrinsic.use = d.statements.flatMap Statement.uses := by
    rwa [Owes, List.append_nil] at owes
  simp [Draft.apply, Owes, none_, before, Intrinsic.use]

end Draft

namespace Lowering

variable {α β : Type}

/-! ## Lowerings that cannot fail -/

/-- From a draft that owes `held` the lowering ends in a value with `V` and a draft that owes `left`. -/
def Pays (held : List IntrinsicUse) (x : Lowering α) (left : List IntrinsicUse) (V : α → Prop) : Prop :=
  Ensures (Draft.Owes held) x fun a d => V a ∧ d.Owes left

variable {held left later : List IntrinsicUse} {V : α → Prop} {W : β → Prop}

theorem pays_pure {a : α} (holds : V a) : Pays held (pure a) held V :=
  ensures_pure a fun _ owes => ⟨holds, owes⟩

theorem pays_bind {x : Lowering α} {f : α → Lowering β} (first : Pays held x left V)
    (second : ∀ a, V a → Pays left (f a) later W) : Pays held (x >>= f) later W :=
  ensures_bind first fun a d between => second a between.1 d between.2

theorem pays_add {f : Draft → Draft} (s : Statement)
    (adds : ∀ d, (f d).statements = d.statements ++ [s]) (same : ∀ d, (f d).requests = d.requests)
    (pays : s.uses = held) : Pays held (write f) [] Anything :=
  ensures_write fun d owes => ⟨trivial, owes.add (adds d) (same d) pays⟩

theorem pays_assign {dst src : Expr} (plain : dst.uses = []) (pays : src.uses = held) :
    Pays held (assign dst src) [] Anything :=
  pays_add (.assign dst src) (fun _ => rfl) (fun _ => rfl) (by simp [plain, pays])

theorem pays_assignIf {condition dst src : Expr} (plain : condition.uses = [])
    (plain' : dst.uses = []) (pays : src.uses = held) :
    Pays held (assignIf condition dst src) [] Anything :=
  pays_add (.guarded condition (.assign dst src)) (fun _ => rfl) (fun _ => rfl)
    (by simp [plain, plain', pays])

theorem pays_branch {condition : Expr} (pays : condition.uses = held) (target : Nat) :
    Pays held (branch condition target) [] Anything :=
  pays_add (.branch condition target) (fun _ => rfl) (fun _ => rfl) pays

theorem pays_goto {target : Expr} (pays : target.uses = held) :
    Pays held (goto target) [] Anything :=
  pays_add (.goto target) (fun _ => rfl) (fun _ => rfl) pays

theorem pays_call {target : Expr} (pays : target.uses = held) (size : Nat) :
    Pays held (call target size) [] Anything :=
  pays_add (.call target size) (fun _ => rfl) (fun _ => rfl) pays

theorem pays_ret (size extra : Nat) : Pays [] (ret size extra) [] Anything :=
  pays_add (.ret size extra) (fun _ => rfl) (fun _ => rfl) rfl

theorem pays_effect {e : Expr} (pays : e.uses = held) : Pays held (effect e) [] Anything :=
  pays_add (.effect e) (fun _ => rfl) (fun _ => rfl) pays

theorem pays_nop : Pays [] nop [] Anything := pays_add .nop (fun _ => rfl) (fun _ => rfl) rfl

theorem pays_setFlow (flow : Flow) : Pays held (setFlow flow) held Anything :=
  ensures_write fun _ owes => ⟨trivial, owes⟩

theorem pays_temporary (type : DataType) :
    Pays held (temporary type) held fun e => e.uses = [] :=
  ensures_modifyGet fun _ owes => ⟨rfl, owes⟩

theorem pays_copy (model : FlagModel) (mode : CopyMode) {dst src : Expr}
    (plain : dst.uses = []) (pays : src.uses = held) :
    Pays held (copy model mode dst src) [] fun e => e.uses = [] :=
  ensures_modifyGet fun _ owes => owes.copy model mode plain pays

/-- A use is owed until it stands in a statement. -/
theorem pays_apply {name : String} {type : DataType} {arguments : List Expr} {f : Expr → Lowering β}
    (plain : ∀ e ∈ arguments, e.uses = [])
    (used : ∀ e : Expr, Pays e.uses (f e) [] W) :
    Pays [] (apply name type arguments >>= f) [] W := by
  intro d owes
  exact used (d.apply name type arguments).1 (d.apply name type arguments).2
    (owes.apply name type plain)

theorem pays_forM {f : α → Lowering Unit} (each : ∀ a, Pays [] (f a) [] Anything) :
    ∀ items : List α, Pays [] (items.forM f) [] Anything
  | [] => pays_pure trivial
  | a :: rest => pays_bind (each a) fun _ _ => pays_forM each rest

/-- A step that is taken only under a condition, and what comes after it in either case. -/
theorem pays_when {condition : Prop} [Decidable condition] {x : Lowering Unit}
    {after : Unit → Lowering α} (inside : Pays [] x [] Anything)
    (rest : ∀ u, Pays [] (after u) [] V) :
    Pays [] (if condition then x >>= after else after ()) [] V := by
  split
  · exact pays_bind inside fun u _ => rest u
  · exact rest ()

/-! ## Whole lowerings -/

/-- Begun before anything was asked for, the lowering ends in a value with `V` and a draft that owes
nothing, or it is refused and has asked for nothing. -/
def Settles (x : Lowering α) (V : α → Prop) : Prop :=
  ∀ d : Draft, d.Silent → match x.run d with
    | .ok (a, d') => V a ∧ d'.Owes []
    | .error refusal => refusal.requests = []

theorem Settles.holds {x : Lowering α} (settles : Settles x V) {d d' : Draft} {a : α}
    (silent : d.Silent) (ran : x.run d = .ok (a, d')) : V a ∧ d'.Owes [] := by
  have left := settles d silent
  rwa [ran] at left

theorem Settles.refused {x : Lowering α} (settles : Settles x V) {d : Draft} {refusal : Refusal}
    (silent : d.Silent) (ran : x.run d = .error refusal) : refusal.requests = [] := by
  have left := settles d silent
  rwa [ran] at left

theorem settles_of_pays {x : Lowering α} (pays : Pays [] x [] V) : Settles x V := by
  intro d silent
  obtain ⟨a, d', ran, holds, owes⟩ := pays d silent.owes
  rw [ran]
  exact ⟨holds, owes⟩

/-- Reading an operand asks for nothing, and it may fail. -/
theorem settles_operand {e : Except Fault α} {f : α → Lowering β}
    (then_ : ∀ a, e = .ok a → Settles (f a) W) : Settles (liftM e >>= f) W := by
  cases e with
  | error fault => exact fun d silent => silent.requests
  | ok a => exact then_ a rfl

theorem settles_read (e : Except Fault α) : Settles (liftM e) fun _ => True := by
  cases e with
  | error fault => exact fun d silent => silent.requests
  | ok a => exact fun d silent => ⟨trivial, silent.owes⟩

theorem settles_fail (fault : Fault) : Settles (fail fault) V := fun _ silent => silent.requests

theorem settles_bind {x : Lowering α} {f : α → Lowering β} (first : Settles x V)
    (second : ∀ a, V a → Pays [] (f a) [] W) : Settles (x >>= f) W := by
  intro d silent
  have left := first d silent
  rw [StateT.run_bind]
  cases ran : x.run d with
  | error refusal =>
      rw [ran] at left
      exact left
  | ok out =>
      rw [ran] at left
      obtain ⟨b, d', ran', holds, owes⟩ := second out.1 left.1 out.2 left.2
      show match (f out.1).run out.2 with
        | .ok (b, d') => W b ∧ d'.Owes []
        | .error refusal => refusal.requests = []
      rw [ran']
      exact ⟨holds, owes⟩

/-- One of two ways to a value, and what comes after it. -/
theorem settles_either {condition : Prop} [Decidable condition] {x y : Lowering α}
    {after : α → Lowering β} (one : Settles x V) (other : Settles y V)
    (rest : ∀ a, V a → Pays [] (after a) [] W) :
    Settles (if condition then x >>= after else y >>= after) W := by
  split
  · exact settles_bind one rest
  · exact settles_bind other rest

/-- The invalid marker takes the place of statements that apply nothing. -/
theorem settles_invalid : Settles invalid Anything := by
  intro d silent
  refine ⟨trivial, ?_⟩
  show d.requests.map Intrinsic.use = _
  rw [silent.requests]
  rfl

end Lowering

end RegisterTransfer
