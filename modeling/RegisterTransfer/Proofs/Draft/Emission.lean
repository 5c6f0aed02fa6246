/-
# RegisterTransfer.Proofs.Draft.Emission -- the statements that a lowering writes

`Lowering.Emits k x a statements k'` says exactly what a lowering does when `k` temporaries are in use:
it ends in the value `a`, adds the statements to the draft and leaves `k'` temporaries in use.  It
also stays regular, so on a regular table its cluster has these statements, with the table's own
intrinsics in them (`Backend.lowerWith_of_emits`), and runs as they do (`Backend.runs_of_emits`).
-/
import RegisterTransfer.Proofs.Draft.Triple
import RegisterTransfer.Proofs.Meaning.Execution
import RegisterTransfer.Proofs.Stream.Eager

namespace RegisterTransfer

set_option autoImplicit false

/-- A regular draft with some statements and some temporaries in use. -/
structure Draft.Holds (k : Nat) (statements : List Statement) (d : Draft) : Prop where
  regular : d.Regular
  temporaries : d.temporaries = k
  statements : d.statements = statements

namespace Lowering

variable {α β : Type} {k k' k'' : Nat}

/-- The lowering ends in a value after it added some statements to the draft. -/
def Emits (k : Nat) (x : Lowering α) (a : α) (statements : List Statement) (k' : Nat) : Prop :=
  ∀ before, Ensures (Draft.Holds k before) x fun b d =>
    b = a ∧ d.Holds k' (before ++ statements)

theorem emits_pure (a : α) : Emits k (pure a) a [] k :=
  fun _ => ensures_pure a fun _ holds => ⟨rfl, by rwa [List.append_nil]⟩

theorem emits_bind {x : Lowering α} {f : α → Lowering β} {a : α} {b : β}
    {statements more : List Statement} (first : Emits k x a statements k')
    (second : Emits k' (f a) b more k'') : Emits k (x >>= f) b (statements ++ more) k'' := by
  intro before
  refine ensures_bind (first before) fun a' d start => ?_
  obtain ⟨rfl, holds⟩ := start
  obtain ⟨b', d', ran, same, holds'⟩ := second _ d holds
  refine ⟨b', d', ran, same, ?_⟩
  rwa [← List.append_assoc]

/-- A value made of another adds nothing. -/
theorem emits_map {x : Lowering α} {a : α} {statements : List Statement} (f : α → β)
    (first : Emits k x a statements k') :
    Emits k (x >>= fun a => pure (f a)) (f a) statements k' := by
  have emits := emits_bind (f := fun a => pure (f a)) first (emits_pure (f a))
  rwa [List.append_nil] at emits

theorem emits_return {x : Lowering α} {a : α} {statements : List Statement} (b : β)
    (first : Emits k x a statements k') : Emits k (x >>= fun _ => pure b) b statements k' :=
  emits_map (fun _ => b) first

theorem emits_operand {e : Except Fault α} {a : α} {f : α → Lowering β} {b : β}
    {statements : List Statement} (found : e = .ok a) (then_ : Emits k (f a) b statements k') :
    Emits k (liftM e >>= f) b statements k' :=
  fun before => ensures_bind_operand found (then_ before)

/-- A step that only adds a statement. -/
theorem emits_write {f : Draft → Draft} {s : Statement}
    (adds : ∀ d, (f d).statements = d.statements ++ [s])
    (same : ∀ d, (f d).temporaries = d.temporaries ∧ (f d).requests = d.requests) :
    Emits k (write f) () [s] k := by
  intro before
  refine ensures_write fun d holds => ⟨rfl, ?_, ?_, ?_⟩
  · rw [Draft.Regular, (same d).2]
    exact holds.regular
  · rw [(same d).1]
    exact holds.temporaries
  · rw [adds, holds.statements]

/-- A lowering that ends, and all whose statements together have a property. -/
def Writes (x : Lowering Unit) (property : List Statement → Prop) : Prop :=
  ∃ statements k, Emits 0 x () statements k ∧ property statements

theorem Writes.operand {e : Except Fault α} {a : α} {f : α → Lowering Unit}
    {property : List Statement → Prop} (found : e = .ok a) (writes : Writes (f a) property) :
    Writes (liftM e >>= f) property := by
  obtain ⟨statements, k, emits, holds⟩ := writes
  exact ⟨statements, k, emits_operand found emits, holds⟩

theorem emits_assign (dst src : Expr) : Emits k (assign dst src) () [.assign dst src] k :=
  emits_write (fun _ => rfl) fun _ => ⟨rfl, rfl⟩

theorem emits_assign_bind {dst src : Expr} {f : Unit → Lowering β} {b : β}
    {statements : List Statement} (then_ : Emits k (f ()) b statements k') :
    Emits k (assign dst src >>= f) b (.assign dst src :: statements) k' :=
  emits_bind (emits_assign dst src) then_

theorem emits_branch (condition : Expr) (target : Nat) :
    Emits k (branch condition target) () [.branch condition target] k :=
  emits_write (fun _ => rfl) fun _ => ⟨rfl, rfl⟩

theorem emits_goto (target : Expr) : Emits k (goto target) () [.goto target] k :=
  emits_write (fun _ => rfl) fun _ => ⟨rfl, rfl⟩

theorem emits_effect (e : Expr) : Emits k (effect e) () [.effect e] k :=
  emits_write (fun _ => rfl) fun _ => ⟨rfl, rfl⟩

theorem emits_call (target : Expr) (size : Nat) :
    Emits k (call target size) () [.call target size] k :=
  emits_write (fun _ => rfl) fun _ => ⟨rfl, rfl⟩

theorem emits_ret (size extra : Nat) : Emits k (ret size extra) () [.ret size extra] k :=
  emits_write (fun _ => rfl) fun _ => ⟨rfl, rfl⟩

/-- A step that is taken under a condition. -/
theorem emits_ite {c : Prop} [Decidable c] {x : Lowering Unit} {statements : List Statement}
    (step : Emits k x () statements k) :
    Emits k (if c then x else pure ()) () (if c then statements else []) k := by
  split
  · exact step
  · exact emits_pure ()

/-- A step that is taken under a condition before another one. -/
theorem emits_ite_bind {c : Prop} [Decidable c] {x : Lowering Unit} {f : Unit → Lowering β} {b : β}
    {statements more : List Statement} (step : Emits k x () statements k)
    (then_ : Emits k (f ()) b more k') :
    Emits k (if c then x >>= f else f ()) b ((if c then statements else []) ++ more) k' := by
  split
  · exact emits_bind step then_
  · exact then_

/-- A loop that adds some statements a turn. -/
theorem emits_forM_flatMap {f : α → Lowering Unit} {block : α → List Statement}
    (each : ∀ a, Emits k (f a) () (block a) k) :
    ∀ items : List α, Emits k (items.forM f) () (items.flatMap block) k
  | [] => emits_pure ()
  | a :: rest => emits_bind (each a) (emits_forM_flatMap each rest)

/-- A loop that adds one statement a turn. -/
theorem emits_forM {f : α → Lowering Unit} {s : α → Statement}
    (each : ∀ a, Emits k (f a) () [s a] k) (items : List α) :
    Emits k (items.forM f) () (items.map s) k := by
  rw [← List.flatMap_singleton' (items.map s), List.flatMap_map]
  exact emits_forM_flatMap each items

/-- The class of a cluster is no statement. -/
theorem emits_setFlow (flow : Flow) : Emits k (setFlow flow) () [] k := by
  intro before
  refine ensures_write fun d holds => ⟨rfl, holds.regular, holds.temporaries, ?_⟩
  rw [List.append_nil]
  exact holds.statements

/-- A temporary is the next one that is not in use. -/
theorem emits_temporary (type : DataType) :
    Emits k (temporary type) (.identifier (.temporary k type)) [] (k + 1) := by
  intro before
  refine ensures_modifyGet fun d holds => ⟨?_, holds.regular, ?_, ?_⟩
  · rw [← holds.temporaries]
    rfl
  · rw [← holds.temporaries]
    rfl
  · rw [List.append_nil]
    exact holds.statements

theorem emits_temporary_bind {type : DataType} {f : Expr → Lowering β} {b : β}
    {statements : List Statement}
    (then_ : Emits (k + 1) (f (.identifier (.temporary k type))) b statements k') :
    Emits k (temporary type >>= f) b statements k' :=
  emits_bind (emits_temporary type) then_

theorem emits_apply (name : String) (type : DataType) (arguments : List Expr)
    (fits : IntrinsicName.arity? name = some arguments.length) :
    Emits k (apply name type arguments)
      (.apply ⟨name, type, arguments.length⟩ type arguments) [] k := by
  intro before d holds
  obtain ⟨a, d', ran, regular⟩ := regular_apply name type arguments fits d holds.regular
  cases ran
  refine ⟨_, _, rfl, rfl, regular, holds.temporaries, ?_⟩
  rw [List.append_nil]
  exact holds.statements

/-! ## Copies -/

/-- What copying a value writes, and the expression that holds the value afterwards. -/
structure Copied where
  value : Expr
  statements : List Statement
  temporaries : Nat

/-- The copy of `src` to `dst` when `k` temporaries are in use. -/
def copied (model : FlagModel) (mode : CopyMode) (k : Nat) (dst src : Expr) : Copied :=
  let direct := dst.isIdentifier || !mode.split
  let kept := Expr.identifier (.temporary k src.type)
  let value := if direct then dst else kept
  { value
    statements :=
      (if direct then [.assign dst src] else [.assign kept src, .assign dst kept]) ++
        ((if mode.conditionCodes then
            [.assign (.identifier model.group) (.conditionCodes value)] else []) ++
          if mode.carryIfZero then [.assign (.identifier model.carry) value.isZero] else [])
    temporaries := if direct then k else k + 1 }

/-- The assignments that derive flags from a copied value. -/
def flagging (model : FlagModel) (mode : CopyMode) (value : Expr) : List Statement :=
  (if mode.conditionCodes then
      [.assign (.identifier model.group) (.conditionCodes value)] else []) ++
    if mode.carryIfZero then [.assign (.identifier model.carry) value.isZero] else []

/-- A copy without a temporary derives flags from its destination. -/
theorem copied_of_direct {mode : CopyMode} {dst : Expr}
    (direct : (dst.isIdentifier || !mode.split) = true) (model : FlagModel) (k : Nat) (src : Expr) :
    copied model mode k dst src = ⟨dst, .assign dst src :: flagging model mode dst, k⟩ := by
  simp only [copied, direct, if_true, flagging]
  rfl

/-- A copy through a temporary derives flags from the temporary. -/
theorem copied_of_kept {mode : CopyMode} {dst : Expr}
    (kept : ¬(dst.isIdentifier || !mode.split) = true) (model : FlagModel) (k : Nat) (src : Expr) :
    let t := Expr.identifier (.temporary k src.type)
    copied model mode k dst src =
      ⟨t, .assign t src :: .assign dst t :: flagging model mode t, k + 1⟩ := by
  simp only [copied, kept, flagging]
  rfl

/-- A draft that copies a value writes just that. -/
theorem copy_eq_copied (d : Draft) (model : FlagModel) (mode : CopyMode) (dst src : Expr) :
    (d.copy model mode dst src).1 = (copied model mode d.temporaries dst src).value ∧
      (d.copy model mode dst src).2.statements =
        d.statements ++ (copied model mode d.temporaries dst src).statements ∧
      (d.copy model mode dst src).2.temporaries =
        (copied model mode d.temporaries dst src).temporaries ∧
      (d.copy model mode dst src).2.requests = d.requests := by
  obtain ⟨split, conditionCodes, carryIfZero⟩ := mode
  cases direct : dst.isIdentifier <;> cases split <;> cases conditionCodes <;>
    cases carryIfZero <;>
    simp [Draft.copy, copied, Draft.assign, Draft.push, Draft.temporary, direct]

theorem emits_copy (model : FlagModel) (mode : CopyMode) (dst src : Expr) :
    Emits k (copy model mode dst src) (copied model mode k dst src).value
      (copied model mode k dst src).statements (copied model mode k dst src).temporaries := by
  refine fun before => ensures_modifyGet fun d holds => ?_
  obtain ⟨value, statements, temporaries, requests⟩ := copy_eq_copied d model mode dst src
  rw [holds.temporaries] at value statements temporaries
  refine ⟨value, ?_, temporaries, ?_⟩
  · rw [Draft.Regular, requests]
    exact holds.regular
  · rw [statements, holds.statements]

end Lowering

namespace Backend

variable {ι : Type} {b : Backend ι} {i : ι} {next : Option ι} {absorbed : Bool}
variable {statements : List Statement} {k : Nat}

/-- On a regular table the cluster of an instruction has the statements that its lowering adds to the
empty draft. -/
theorem lowerWith_of_emits (emits : Lowering.Emits 0 (b.lower i next) absorbed statements k)
    {t : IntrinsicTable} (regular : t.Regular) :
    ∃ flow t', b.lowerWith i next t =
        (.ok ⟨absorbed, flow, statements.map (·.mapIntrinsics t'.resolve)⟩, t') ∧ t'.Regular := by
  obtain ⟨a, d, ran, rfl, holds⟩ := emits [] .empty ⟨Draft.regular_empty, rfl, rfl⟩
  obtain ⟨t', settled, regular'⟩ := Draft.settle_of_regular holds.regular regular
  refine ⟨d.flow, t', ?_, regular'⟩
  rw [lowerWith, draft, ran]
  simp only [settled, holds.statements, List.nil_append]

/-- Against any table, an instruction that is lowered has the statements that its lowering adds. -/
theorem statements_of_emits (emits : Lowering.Emits 0 (b.lower i next) absorbed statements k)
    {t t' : IntrinsicTable} {l : Lowered} (lowered : b.lowerWith i next t = (.ok l, t')) :
    l.statements = statements.map (·.mapIntrinsics t'.resolve) := by
  obtain ⟨d, drafted, -, -, same⟩ := drafted_of_lowered lowered
  obtain ⟨_, d', ran, -, holds⟩ := emits [] .empty ⟨Draft.regular_empty, rfl, rfl⟩
  rw [draft, ran] at drafted
  cases drafted
  rw [same, holds.statements, List.nil_append]

end Backend

namespace State

variable {ρ : Type} [RegisterFile ρ] {I : Interpretation}

/-- Settled statements run as they were written. -/
theorem run_settled (σ : State ρ) (t : IntrinsicTable) (statements : List Statement) :
    σ.run I (statements.map (·.mapIntrinsics t.resolve)) = σ.run I statements :=
  run_mapIntrinsics t.name_resolve σ statements

theorem runTimes_settled (t : IntrinsicTable) (statements : List Statement) (n : Nat)
    (σ : State ρ) :
    runTimes I (statements.map (·.mapIntrinsics t.resolve)) n σ = runTimes I statements n σ := by
  induction n generalizing σ with
  | zero => rfl
  | succ n ih => rw [runTimes, runTimes, run_settled, ih]

end State

/-- On a regular table an instruction has a cluster, which runs as its lowering was written. -/
theorem Backend.runs_of_emits {ι : Type} {b : Backend ι} {i : ι} {next : Option ι} {absorbed : Bool}
    {statements : List Statement} {k : Nat}
    (emits : Lowering.Emits 0 (b.lower i next) absorbed statements k) {t : IntrinsicTable}
    (regular : t.Regular) :
    ∃ cluster t', b.lowerWith i next t = (.ok cluster, t') ∧
      ∀ {ρ : Type} [RegisterFile ρ] (I : Interpretation) (σ : State ρ),
        σ.run I cluster.statements = σ.run I statements := by
  obtain ⟨flow, t', lowered, -⟩ := lowerWith_of_emits emits regular
  exact ⟨_, t', lowered, fun I σ => σ.run_settled t' statements⟩

end RegisterTransfer
