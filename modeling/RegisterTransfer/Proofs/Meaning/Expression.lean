/-
# RegisterTransfer.Proofs.Meaning.Expression -- the value of an expression

An expression has a value in a state, and evaluating it applies the intrinsics in it.  Condition codes
are no number: `Expr.outcome` says what they are derived from, and assigning them to a group of flags
gives them their meaning.

* `eval_congr`: the value depends on the identifiers in the expression, memory and the history alone;
* `eval_mapIntrinsics`: of an intrinsic only the name matters.
-/
import RegisterTransfer.Proofs.Expr.Parts
import RegisterTransfer.Proofs.Meaning.State

namespace RegisterTransfer.Expr

set_option autoImplicit false

/-! ## Values -/

section Eval

variable {ρ : Type} [RegisterFile ρ] (I : Interpretation)

mutual

/-- The value of an expression in a state. -/
def eval (σ : State ρ) : Expr → Nat
  | identifier id => σ.get id
  | constant c => c.value % 2 ^ c.type.bits
  | address a => a
  | binary op t l r => op.value I t l.type.bits r.type.bits (eval σ l) (eval σ r)
  | unary op t e => op.value I t (eval σ e)
  | memory t ea => σ.load none ea.type.bits (eval σ ea) t.bytes % 2 ^ t.bits
  | segmented t s ea => σ.load (some (eval σ s)) ea.type.bits (eval σ ea) t.bytes % 2 ^ t.bits
  | concat t h l => (eval σ h * 2 ^ l.type.bits + eval σ l) % 2 ^ t.bits
  | slice t e offset => (eval σ e >>> offset) % 2 ^ t.bits
  | cast t e => e.type.castValue I t (eval σ e)
  | conditionCodes _ => 0
  | test c flags => (c.holds (eval σ flags)).toNat
  | apply p t arguments => I.intrinsic σ.history p.name (evalList σ arguments) % 2 ^ t.bits

/-- The values of some expressions. -/
def evalList (σ : State ρ) : List Expr → List Nat
  | [] => []
  | e :: rest => eval σ e :: evalList σ rest

end

/-- What the condition codes of an expression are derived from. -/
def outcome (σ : State ρ) : Expr → Outcome
  | binary op t l r => .operation op t.bits (eval I σ l) (eval I σ r)
  | e => .value e.type.bits (eval I σ e)

mutual

/-- The intrinsics that evaluating an expression applies. -/
def applications (σ : State ρ) : Expr → List Application
  | identifier _ | constant _ | address _ => []
  | binary _ _ a b | segmented _ a b | concat _ a b => applications σ a ++ applications σ b
  | unary _ _ e | memory _ e | slice _ e _ | cast _ e | conditionCodes e | test _ e =>
      applications σ e
  | apply p _ arguments =>
      applicationsList σ arguments ++ [⟨p.name, evalList I σ arguments⟩]

def applicationsList (σ : State ρ) : List Expr → List Application
  | [] => []
  | e :: rest => applications σ e ++ applicationsList σ rest

end

end Eval

/-! ## What a value depends on -/

section Congruence

variable {ρ : Type} [RegisterFile ρ] {I : Interpretation} {σ τ : State ρ}

/-- Two states agree on what evaluating an expression reads. -/
structure Agree (σ τ : State ρ) (parts : List Expr) : Prop where
  identifiers : ∀ id, identifier id ∈ parts → σ.get id = τ.get id
  memory : σ.memory = τ.memory
  history : σ.history = τ.history

theorem Agree.subset {parts more : List Expr} (agree : Agree σ τ more)
    (inside : ∀ e, e ∈ parts → e ∈ more) : Agree σ τ parts :=
  ⟨fun id found => agree.identifiers id (inside _ found), agree.memory, agree.history⟩

theorem Agree.left {parts more : List Expr} (agree : Agree σ τ (parts ++ more)) :
    Agree σ τ parts :=
  agree.subset fun _ found => List.mem_append_left _ found

theorem Agree.right {parts more : List Expr} (agree : Agree σ τ (parts ++ more)) :
    Agree σ τ more :=
  agree.subset fun _ found => List.mem_append_right _ found

theorem Agree.tail {e : Expr} {parts : List Expr} (agree : Agree σ τ (e :: parts)) :
    Agree σ τ parts :=
  agree.subset fun _ found => List.mem_cons_of_mem _ found

mutual

theorem eval_congr : ∀ e : Expr, Agree σ τ e.parts → e.eval I σ = e.eval I τ
  | identifier id, agree => agree.identifiers id (by rw [parts]; exact List.mem_singleton_self _)
  | constant _, _ | address _, _ | conditionCodes _, _ => by rw [eval, eval]
  | binary _ _ l r, agree => by
      rw [parts] at agree
      rw [eval, eval, eval_congr l agree.tail.left, eval_congr r agree.tail.right]
  | unary _ _ e, agree | cast _ e, agree | test _ e, agree | slice _ e _, agree => by
      rw [parts] at agree
      rw [eval, eval, eval_congr e agree.tail]
  | memory _ e, agree => by
      rw [parts] at agree
      rw [eval, eval, eval_congr e agree.tail, State.load_congr agree.memory]
  | segmented _ a b, agree => by
      rw [parts] at agree
      rw [eval, eval, eval_congr a agree.tail.left, eval_congr b agree.tail.right,
        State.load_congr agree.memory]
  | concat _ a b, agree => by
      rw [parts] at agree
      rw [eval, eval, eval_congr a agree.tail.left, eval_congr b agree.tail.right]
  | apply _ _ arguments, agree => by
      rw [parts] at agree
      rw [eval, eval, evalList_congr arguments agree.tail, agree.history]

theorem evalList_congr :
    ∀ es : List Expr, Agree σ τ (partsList es) → evalList I σ es = evalList I τ es
  | [], _ => by rw [evalList, evalList]
  | e :: rest, agree => by
      rw [partsList] at agree
      rw [evalList, evalList, eval_congr e agree.left, evalList_congr rest agree.right]

end

theorem outcome_congr (e : Expr) (agree : Agree σ τ e.parts) : e.outcome I σ = e.outcome I τ := by
  cases e with
  | binary op t l r =>
      rw [parts] at agree
      rw [outcome, outcome, eval_congr l agree.tail.left, eval_congr r agree.tail.right]
  | _ => exact congrArg (Outcome.value _) (eval_congr _ agree)

mutual

theorem applications_congr :
    ∀ e : Expr, Agree σ τ e.parts → e.applications I σ = e.applications I τ
  | identifier _, _ | constant _, _ | address _, _ => by rw [applications, applications]
  | binary _ _ a b, agree | segmented _ a b, agree | concat _ a b, agree => by
      rw [parts] at agree
      rw [applications, applications, applications_congr a agree.tail.left,
        applications_congr b agree.tail.right]
  | unary _ _ e, agree | memory _ e, agree | slice _ e _, agree | cast _ e, agree
  | conditionCodes e, agree | test _ e, agree => by
      rw [parts] at agree
      rw [applications, applications, applications_congr e agree.tail]
  | apply _ _ arguments, agree => by
      rw [parts] at agree
      rw [applications, applications, applicationsList_congr arguments agree.tail,
        evalList_congr arguments agree.tail]

theorem applicationsList_congr : ∀ es : List Expr, Agree σ τ (partsList es) →
    applicationsList I σ es = applicationsList I τ es
  | [], _ => by rw [applicationsList, applicationsList]
  | e :: rest, agree => by
      rw [partsList] at agree
      rw [applicationsList, applicationsList, applications_congr e agree.left,
        applicationsList_congr rest agree.right]

end

end Congruence

/-! ## Intrinsics count by name -/

section Renaming

variable {ρ : Type} [RegisterFile ρ] {I : Interpretation} {f : Intrinsic → Intrinsic}

mutual

theorem eval_mapIntrinsics (named : ∀ p, (f p).name = p.name) (σ : State ρ) :
    ∀ e : Expr, (e.mapIntrinsics f).eval I σ = e.eval I σ
  | identifier _ | constant _ | address _ => by rw [mapIntrinsics]
  | conditionCodes _ => by rw [mapIntrinsics, eval, eval]
  | binary _ _ a b => by
      rw [mapIntrinsics, eval, eval, eval_mapIntrinsics named σ a, eval_mapIntrinsics named σ b,
        type_mapIntrinsics, type_mapIntrinsics]
  | segmented _ a b | concat _ a b => by
      rw [mapIntrinsics, eval, eval, eval_mapIntrinsics named σ a, eval_mapIntrinsics named σ b,
        type_mapIntrinsics]
  | unary _ _ e | slice _ e _ | test _ e => by
      rw [mapIntrinsics, eval, eval, eval_mapIntrinsics named σ e]
  | memory _ e | cast _ e => by
      rw [mapIntrinsics, eval, eval, eval_mapIntrinsics named σ e, type_mapIntrinsics]
  | apply _ _ arguments => by
      rw [mapIntrinsics, eval, eval, named, evalList_mapIntrinsics named σ arguments]

theorem evalList_mapIntrinsics (named : ∀ p, (f p).name = p.name) (σ : State ρ) :
    ∀ es : List Expr, evalList I σ (mapIntrinsicsList f es) = evalList I σ es
  | [] => by rw [mapIntrinsicsList]
  | e :: rest => by
      rw [mapIntrinsicsList, evalList, evalList, eval_mapIntrinsics named σ e,
        evalList_mapIntrinsics named σ rest]

end

theorem outcome_mapIntrinsics (named : ∀ p, (f p).name = p.name) (σ : State ρ) (e : Expr) :
    (e.mapIntrinsics f).outcome I σ = e.outcome I σ := by
  cases e with
  | binary op t l r =>
      rw [mapIntrinsics, outcome, outcome, eval_mapIntrinsics named, eval_mapIntrinsics named]
  | _ =>
      exact congrArg₂ (fun t v => Outcome.value (DataType.bits t) v) (type_mapIntrinsics f _)
        (eval_mapIntrinsics named σ _)

mutual

theorem applications_mapIntrinsics (named : ∀ p, (f p).name = p.name) (σ : State ρ) :
    ∀ e : Expr, (e.mapIntrinsics f).applications I σ = e.applications I σ
  | identifier _ | constant _ | address _ => by rw [mapIntrinsics]
  | binary _ _ a b | segmented _ a b | concat _ a b => by
      rw [mapIntrinsics, applications, applications, applications_mapIntrinsics named σ a,
        applications_mapIntrinsics named σ b]
  | unary _ _ e | memory _ e | slice _ e _ | cast _ e | conditionCodes e | test _ e => by
      rw [mapIntrinsics, applications, applications, applications_mapIntrinsics named σ e]
  | apply _ _ arguments => by
      rw [mapIntrinsics, applications, applications, named,
        applicationsList_mapIntrinsics named σ arguments,
        evalList_mapIntrinsics named σ arguments]

theorem applicationsList_mapIntrinsics (named : ∀ p, (f p).name = p.name) (σ : State ρ) :
    ∀ es : List Expr,
      applicationsList I σ (mapIntrinsicsList f es) = applicationsList I σ es
  | [] => by rw [mapIntrinsicsList]
  | e :: rest => by
      rw [mapIntrinsicsList, applicationsList, applicationsList,
        applications_mapIntrinsics named σ e, applicationsList_mapIntrinsics named σ rest]

end

end Renaming

end RegisterTransfer.Expr
