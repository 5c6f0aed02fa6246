/-
# RegisterTransfer.Proofs.Draft.Scope -- temporaries are defined once, before they are used

The scope of a draft lists the types of its temporaries; temporary `n` has the `n`th.  `Scoped Γ
statements` says how statements come by a scope: a statement that defines a temporary adds it to the
scope, and any other statement changes no temporary; both name only temporaries that were in scope before
them.  `singleAssignment_of_scoped` reads off it what users of a cluster rely on.

* `Lowering.Keeps Γ x V`: from a draft with the scope `Γ` the lowering ends, if it does, in a value with `V`
  and a draft with the same scope;
* `Lowering.Grows Γ x V`: it may have defined further temporaries.  A temporary is in no scope until it is
  defined, so `grows_define` takes both steps at once;
* `Lowering.Delimits x`: begun with an empty draft, the lowering ends in a draft with some scope.
-/
import RegisterTransfer.Proofs.Draft.Collection
import RegisterTransfer.Proofs.Expr.Names

namespace RegisterTransfer

set_option autoImplicit false

/-! ## Scopes -/

/-- If the identifier is a temporary, it is in scope with its type. -/
def Identifier.InScope (Γ : List DataType) (id : Identifier) : Prop :=
  ∀ n, id.storage = .temporary n → ∃ t, Γ[n]? = some t ∧ id = .temporary n t

namespace Identifier

variable {Γ Δ : List DataType} {id : Identifier}

theorem InScope.of_isRegister (register : id.IsRegister) : id.InScope Γ := by
  obtain ⟨family, lowest, width, storage⟩ := register
  intro n temporary
  rw [storage] at temporary
  cases temporary

theorem InScope.append (inside : id.InScope Γ) (Δ : List DataType) : id.InScope (Γ ++ Δ) := by
  intro n storage
  obtain ⟨t, listed, same⟩ := inside n storage
  obtain ⟨small, -⟩ := List.getElem?_eq_some_iff.mp listed
  exact ⟨t, by rw [List.getElem?_append_left small, listed], same⟩

theorem inScope_flags (name register : String) (mask : Nat) : (flags name register mask).InScope Γ :=
  nofun

theorem inScope_temporary (Γ : List DataType) (t : DataType) :
    (temporary Γ.length t).InScope (Γ ++ [t]) := by
  rintro n ⟨⟩
  exact ⟨t, List.getElem?_concat_length, rfl⟩

end Identifier

namespace Expr

/-- Every temporary in the expression is in scope. -/
def Within (Γ : List DataType) (e : Expr) : Prop := ∀ id, identifier id ∈ e.parts → id.InScope Γ

/-- The expression has no temporaries. -/
abbrev Free (e : Expr) : Prop := ∀ Γ, e.Within Γ

variable {Γ : List DataType}

theorem Within.append {e : Expr} (inside : e.Within Γ) (Δ : List DataType) : e.Within (Γ ++ Δ) :=
  fun id named => (inside id named).append Δ

section Constructors

variable (t : DataType) (a b : Expr)

@[simp]
theorem within_identifier {id : Identifier} : (identifier id).Within Γ ↔ id.InScope Γ := by
  simp [Within, parts]

@[simp]
theorem within_constant (c : Constant) : (constant c).Within Γ := by simp [Within, parts]

@[simp]
theorem within_address (n : Nat) : (address n).Within Γ := by simp [Within, parts]

@[simp]
theorem within_binary (op : BinaryOp) : (binary op t a b).Within Γ ↔ a.Within Γ ∧ b.Within Γ := by
  simp [Within, parts, or_imp, forall_and]

@[simp]
theorem within_unary (op : UnaryOp) : (unary op t a).Within Γ ↔ a.Within Γ := by
  simp [Within, parts]

@[simp]
theorem within_memory : (memory t a).Within Γ ↔ a.Within Γ := by simp [Within, parts]

@[simp]
theorem within_segmented : (segmented t a b).Within Γ ↔ a.Within Γ ∧ b.Within Γ := by
  simp [Within, parts, or_imp, forall_and]

@[simp]
theorem within_concat : (concat t a b).Within Γ ↔ a.Within Γ ∧ b.Within Γ := by
  simp [Within, parts, or_imp, forall_and]

@[simp]
theorem within_slice (offset : Nat) : (slice t a offset).Within Γ ↔ a.Within Γ := by
  simp [Within, parts]

@[simp]
theorem within_cast : (cast t a).Within Γ ↔ a.Within Γ := by simp [Within, parts]

@[simp]
theorem within_conditionCodes : (conditionCodes a).Within Γ ↔ a.Within Γ := by
  simp [Within, parts]

@[simp]
theorem within_test (c : Condition) : (test c a).Within Γ ↔ a.Within Γ := by
  simp [Within, parts]

@[simp]
theorem within_apply (p : Intrinsic) (es : List Expr) :
    (apply p t es).Within Γ ↔ ∀ e ∈ es, e.Within Γ := by
  simp only [Within, parts, List.mem_cons, reduceCtorEq, false_or, mem_partsList]
  exact ⟨fun all e listed id named => all id ⟨e, listed, named⟩,
    fun all id ⟨e, listed, named⟩ => all e listed id named⟩

end Constructors

section Combinators

variable (a b : Expr)

@[simp]
theorem within_word (n : Nat) (t : DataType) : (word n t).Within Γ := within_constant _

@[simp]
theorem within_byte (k : UInt8) : (byte k).Within Γ := within_constant _

@[simp]
theorem within_ofBool (k : Bool) : (ofBool k).Within Γ := within_constant _

@[simp]
theorem within_sameType (op : BinaryOp) :
    (sameType op a b).Within Γ ↔ a.Within Γ ∧ b.Within Γ := within_binary ..

@[simp]
theorem within_compare (op : BinaryOp) :
    (compare op a b).Within Γ ↔ a.Within Γ ∧ b.Within Γ := within_binary ..

@[simp]
theorem within_unaryOf (op : UnaryOp) : (unaryOf op a).Within Γ ↔ a.Within Γ := within_unary ..

@[simp]
theorem within_addInt (n : Int) : (a.addInt n).Within Γ ↔ a.Within Γ := by
  unfold addInt
  split <;> simp [sub, add]

@[simp]
theorem within_isZero : a.isZero.Within Γ ↔ a.Within Γ := by simp [isZero, eq]

@[simp]
theorem within_isNonzero : a.isNonzero.Within Γ ↔ a.Within Γ := by simp [isNonzero, ne]

@[simp]
theorem within_memoryIn (segment : Option Expr) (t : DataType) :
    (memoryIn segment t a).Within Γ ↔ (∀ s ∈ segment, s.Within Γ) ∧ a.Within Γ := by
  cases segment <;> simp [memoryIn]

end Combinators

end Expr

namespace Expr

/-- The expression has the temporary of a number in it. -/
def Names (n : Nat) (e : Expr) : Prop := ∃ id, identifier id ∈ e.parts ∧ id.storage = .temporary n

/-- What an assignment changes is named in its destination. -/
theorem mem_parts_of_mem_targets {e : Expr} {id : Identifier} (changed : id ∈ e.targets) :
    identifier id ∈ e.parts := by
  induction e using targets.induct with
  | case1 other =>
      rw [targets, List.mem_singleton] at changed
      rw [changed]
      exact List.mem_cons_self
  | case2 t high low ih ih' =>
      rw [targets, List.mem_append] at changed
      rw [parts]
      refine List.mem_cons_of_mem _ (List.mem_append.mpr ?_)
      exact changed.imp ih ih'
  | case3 e other other' =>
      cases e with
      | identifier other => exact absurd rfl (other _)
      | concat t high low => exact absurd rfl (other' _ _ _)
      | _ => cases changed

theorem mem_map_mapIntrinsics {f : Intrinsic → Intrinsic} {es : List Expr} {id : Identifier} :
    identifier id ∈ es.map (mapIntrinsics f) ↔ identifier id ∈ es := by
  rw [List.mem_map]
  constructor
  · rintro ⟨e, listed, same⟩
    cases e with
    | identifier other => exact same ▸ listed
    | _ => cases same
  · intro listed
    exact ⟨_, listed, rfl⟩

theorem within_mapIntrinsics {Γ : List DataType} (f : Intrinsic → Intrinsic) (e : Expr) :
    (e.mapIntrinsics f).Within Γ ↔ e.Within Γ := by
  simp only [Within, parts_mapIntrinsics, mem_map_mapIntrinsics]

end Expr

namespace Statement

/-- Every temporary in the statement is in scope. -/
def Within (Γ : List DataType) (s : Statement) : Prop :=
  ∀ id, .identifier id ∈ s.parts → id.InScope Γ

/-- The statement has the temporary of a number in it. -/
def Names (n : Nat) (s : Statement) : Prop := ∃ id, .identifier id ∈ s.parts ∧ id.storage = .temporary n

/-- The statement may change the temporary of a number. -/
def Changes (n : Nat) (s : Statement) : Prop := ∃ id ∈ s.targets, id.storage = .temporary n

variable {Γ : List DataType} {dst src : Expr}

theorem within_assign : (assign dst src).Within Γ ↔ dst.Within Γ ∧ src.Within Γ := by
  simp [Within, Expr.Within, parts, or_imp, forall_and]

theorem within_guarded {condition : Expr} {body : Statement} :
    (guarded condition body).Within Γ ↔ condition.Within Γ ∧ body.Within Γ := by
  simp [Within, Expr.Within, parts, or_imp, forall_and]

/-- A destination without temporaries changes none. -/
theorem not_changes_of_free {s : Statement} (same : s.targets = dst.targets) (free : dst.Free)
    (n : Nat) : ¬s.Changes n := by
  rintro ⟨id, changed, storage⟩
  rw [same] at changed
  obtain ⟨t, listed, -⟩ := free [] id (Expr.mem_parts_of_mem_targets changed) n storage
  cases listed

theorem within_mapIntrinsics (f : Intrinsic → Intrinsic) (s : Statement) :
    (s.mapIntrinsics f).Within Γ ↔ s.Within Γ := by
  simp only [Within, parts_mapIntrinsics, Expr.mem_map_mapIntrinsics]

theorem changes_mapIntrinsics (f : Intrinsic → Intrinsic) (s : Statement) (n : Nat) :
    (s.mapIntrinsics f).Changes n ↔ s.Changes n := by
  simp only [Changes, targets_mapIntrinsics]

end Statement

/-- Statements that define the temporaries of a scope, each before it is used. -/
inductive Scoped : List DataType → List Statement → Prop
  | nil : Scoped [] []
  | keep {Γ : List DataType} {statements : List Statement} {s : Statement}
      (before : Scoped Γ statements) (within : s.Within Γ) (spares : ∀ n, ¬s.Changes n) :
      Scoped Γ (statements ++ [s])
  | define {Γ : List DataType} {statements : List Statement} {src : Expr}
      (before : Scoped Γ statements) (t : DataType) (within : src.Within Γ) :
      Scoped (Γ ++ [t])
        (statements ++ [.assign (.identifier (.temporary Γ.length t)) src])

/-- The temporaries of some statements are those of a list of types.  Each has one assignment that cannot be
skipped; nothing before it and not its source has the temporary in it, and nothing after it changes it. -/
structure SingleAssignment (types : List DataType) (statements : List Statement) : Prop where
  named : ∀ s ∈ statements, s.Within types
  defined : ∀ n t, types[n]? = some t → ∃ before src after,
    statements = before ++ .assign (.identifier (.temporary n t)) src :: after ∧
      (∀ s ∈ before, ¬s.Names n) ∧ ¬src.Names n ∧ ∀ s ∈ after, ¬s.Changes n

section Scoped

variable {Γ : List DataType} {statements : List Statement}

theorem Scoped.mapIntrinsics (built : Scoped Γ statements) (f : Intrinsic → Intrinsic) :
    Scoped Γ (statements.map (·.mapIntrinsics f)) := by
  induction built with
  | nil => exact .nil
  | keep _ within spares ih =>
      rw [List.map_append]
      refine .keep ih ((Statement.within_mapIntrinsics f _).mpr within) fun n changed => ?_
      exact spares n ((Statement.changes_mapIntrinsics f _ n).mp changed)
  | define _ t within ih =>
      rw [List.map_append]
      exact .define ih t ((Expr.within_mapIntrinsics f _).mpr within)

/-- The next temporary is in no expression yet. -/
theorem Expr.Within.not_names {e : Expr} (within : e.Within Γ) : ¬e.Names Γ.length := by
  rintro ⟨id, named, storage⟩
  obtain ⟨t, listed, -⟩ := within id named _ storage
  rw [List.getElem?_eq_none (Nat.le_refl _)] at listed
  cases listed

theorem Statement.Within.not_names {s : Statement} (within : s.Within Γ) : ¬s.Names Γ.length := by
  rintro ⟨id, named, storage⟩
  obtain ⟨t, listed, -⟩ := within id named _ storage
  rw [List.getElem?_eq_none (Nat.le_refl _)] at listed
  cases listed

theorem Scoped.named (built : Scoped Γ statements) : ∀ s ∈ statements, s.Within Γ := by
  induction built with
  | nil => nofun
  | keep _ within _ ih =>
      intro s listed
      rcases List.mem_append.mp listed with earlier | last
      · exact ih s earlier
      · rw [List.mem_singleton.mp last]
        exact within
  | @define Γ _ src _ t within ih =>
      intro s listed
      rcases List.mem_append.mp listed with earlier | last
      · exact fun id named => (ih s earlier id named).append [t]
      · rw [List.mem_singleton.mp last, Statement.within_assign, Expr.within_identifier]
        exact ⟨Identifier.inScope_temporary Γ t, within.append [t]⟩

theorem singleAssignment_of_scoped (built : Scoped Γ statements) : SingleAssignment Γ statements := by
  refine ⟨built.named, ?_⟩
  induction built with
  | nil =>
      intro n t listed
      cases listed
  | @keep _ _ s _ _ spares ih =>
      intro n t listed
      obtain ⟨before, src, after, rfl, fresh, apart, kept⟩ := ih n t listed
      refine ⟨before, src, after ++ [s], by simp, fresh, apart, fun later inside => ?_⟩
      rcases List.mem_append.mp inside with earlier | last
      · exact kept later earlier
      · rw [List.mem_singleton.mp last]
        exact spares n
  | @define Γ statements src built t within ih =>
      intro n t' listed
      by_cases earlier : n < Γ.length
      · rw [List.getElem?_append_left earlier] at listed
        obtain ⟨before, src', after, rfl, fresh, apart, kept⟩ := ih n t' listed
        refine ⟨before, src', after ++ [.assign (.identifier (.temporary Γ.length t)) src], by simp,
          fresh, apart, fun later inside => ?_⟩
        rcases List.mem_append.mp inside with inside | last
        · exact kept later inside
        · rw [List.mem_singleton.mp last]
          rintro ⟨id, changed, storage⟩
          rw [Statement.targets_assign, Expr.targets, List.mem_singleton] at changed
          rw [changed] at storage
          exact absurd (Storage.temporary.inj storage) (by omega)
      · obtain ⟨inside, -⟩ := List.getElem?_eq_some_iff.mp listed
        rw [List.length_append, List.length_singleton] at inside
        obtain rfl : n = Γ.length := by omega
        rw [List.getElem?_concat_length] at listed
        cases listed
        exact ⟨statements, src, [], rfl, fun s there => (built.named s there).not_names,
          within.not_names, fun _ there => by cases there⟩

end Scoped

/-! ## Drafts -/

namespace Draft

/-- The statements of the draft define its temporaries. -/
structure HasScope (Γ : List DataType) (d : Draft) : Prop where
  count : d.temporaries = Γ.length
  built : Scoped Γ d.statements

theorem hasScope_empty : Draft.empty.HasScope [] := ⟨rfl, .nil⟩

variable {Γ : List DataType} {d e : Draft} {dst src : Expr}

theorem HasScope.add {s : Statement} (has : d.HasScope Γ)
    (adds : e.statements = d.statements ++ [s]) (same : e.temporaries = d.temporaries)
    (within : s.Within Γ) (spares : ∀ n, ¬s.Changes n) : e.HasScope Γ := by
  refine ⟨same.trans has.count, ?_⟩
  rw [adds]
  exact .keep has.built within spares

theorem HasScope.assign (has : d.HasScope Γ) (free : dst.Free) (within : src.Within Γ) :
    (d.assign dst src).HasScope Γ :=
  has.add rfl rfl (Statement.within_assign.mpr ⟨free Γ, within⟩)
    (Statement.not_changes_of_free (Statement.targets_assign dst src) free)

theorem HasScope.assignWhen (has : d.HasScope Γ) (condition : Bool) (free : dst.Free)
    (within : src.Within Γ) : (if condition then d.assign dst src else d).HasScope Γ := by
  split
  · exact has.assign free within
  · exact has

/-- The assignment to a new temporary. -/
theorem HasScope.define (has : d.HasScope Γ) (t : DataType) (within : src.Within Γ) :
    ((d.temporary t).2.assign (.identifier (.temporary Γ.length t)) src).HasScope (Γ ++ [t]) := by
  refine ⟨?_, .define has.built t within⟩
  rw [List.length_append, ← has.count]
  rfl

/-- Flags derived from where a value was stored. -/
theorem HasScope.flags (has : d.HasScope Γ) {model : FlagModel} (mode : CopyMode) {value : Expr}
    (group : (Expr.identifier model.group).Free) (carry : (Expr.identifier model.carry).Free)
    (within : value.Within Γ) :
    (let d :=
      if mode.conditionCodes then d.assign (.identifier model.group) (.conditionCodes value) else d
    if mode.carryIfZero then d.assign (.identifier model.carry) value.isZero else d).HasScope Γ := by
  have codes := has.assignWhen mode.conditionCodes group ((value.within_conditionCodes).mpr within)
  exact codes.assignWhen _ carry ((value.within_isZero).mpr within)

/-- A copy may define the temporary that it keeps the value in. -/
theorem HasScope.copy (has : d.HasScope Γ) {model : FlagModel} (mode : CopyMode)
    (group : (Expr.identifier model.group).Free) (carry : (Expr.identifier model.carry).Free)
    (free : dst.Free) (within : src.Within Γ) :
    ∃ Δ, (d.copy model mode dst src).2.HasScope Δ ∧ (d.copy model mode dst src).1.Within Δ := by
  unfold Draft.copy
  by_cases direct : (dst.isIdentifier || !mode.split) = true
  · rw [if_pos direct]
    exact ⟨Γ, (has.assign free within).flags mode group carry (free Γ), free Γ⟩
  · rw [if_neg direct]
    have kept := has.define src.type within
    rw [← has.count] at kept
    have inside : (Expr.identifier (d.temporary src.type).1).Within (Γ ++ [src.type]) := by
      rw [Expr.within_identifier, temporary, has.count]
      exact Identifier.inScope_temporary Γ src.type
    exact ⟨_, (kept.assign free inside).flags mode group carry inside, inside⟩

end Draft

/-! ## Lowerings -/

namespace Lowering

variable {α β : Type} {Γ : List DataType} {V : α → Prop} {W : β → Prop}
variable {P : List DataType → α → Prop} {Q : List DataType → β → Prop}

/-- The lowering ends in a value with `V` and leaves the scope as it is. -/
def Keeps (Γ : List DataType) (x : Lowering α) (V : α → Prop) : Prop :=
  ∀ d a d', d.HasScope Γ → x.run d = .ok (a, d') → d'.HasScope Γ ∧ V a

/-- The lowering ends in some scope and in a value with `P` there. -/
def Grows (Γ : List DataType) (x : Lowering α) (P : List DataType → α → Prop) : Prop :=
  ∀ d a d', d.HasScope Γ → x.run d = .ok (a, d') → ∃ Δ, d'.HasScope Δ ∧ P Δ a

/-- Begun with an empty draft, the lowering ends in a draft with some scope. -/
def Delimits (x : Lowering α) : Prop :=
  ∀ a d, x.run .empty = .ok (a, d) → ∃ Γ, d.HasScope Γ

/-! ### Ways to put lowerings together -/

theorem keeps_pure {a : α} (holds : V a) : Keeps Γ (pure a) V := by
  rintro d _ _ has ⟨⟩
  exact ⟨has, holds⟩

theorem keeps_bind {x : Lowering α} {g : α → Lowering β} (first : Keeps Γ x V)
    (second : ∀ a, V a → Keeps Γ (g a) W) : Keeps Γ (x >>= g) W := by
  intro d b d' has ran
  obtain ⟨a, e, ran, ran'⟩ := run_of_bind ran
  obtain ⟨has', holds⟩ := first d a e has ran
  exact second a holds e b d' has' ran'

theorem grows_operand {e : Except Fault α} {g : α → Lowering β}
    (then_ : ∀ a, e = .ok a → Grows Γ (g a) Q) : Grows Γ (liftM e >>= g) Q := by
  cases e with
  | error fault => rintro d b d' has ⟨⟩
  | ok a => exact then_ a rfl

theorem keeps_fail (fault : Fault) : Keeps Γ (fail fault : Lowering α) V := by
  rintro d a d' has ⟨⟩

theorem keeps_operand {e : Except Fault α} {g : α → Lowering β}
    (then_ : ∀ a, e = .ok a → Keeps Γ (g a) W) : Keeps Γ (liftM e >>= g) W := by
  cases e with
  | error fault => exact keeps_fail fault
  | ok a => exact then_ a rfl

/-- A step that is taken only under a condition, and what comes after it in either case. -/
theorem keeps_when {condition : Prop} [Decidable condition] {x : Lowering Unit}
    {after : Unit → Lowering α} (inside : Keeps Γ x Anything)
    (rest : ∀ u, Keeps Γ (after u) V) :
    Keeps Γ (if condition then x >>= after else after ()) V := by
  split
  · exact keeps_bind inside fun u _ => rest u
  · exact rest ()

theorem keeps_forM {g : α → Lowering Unit} {list : List α}
    (each : ∀ a ∈ list, Keeps Γ (g a) Anything) : Keeps Γ (list.forM g) Anything := by
  induction list with
  | nil => exact keeps_pure trivial
  | cons a rest ih =>
      refine keeps_bind (each a List.mem_cons_self) fun _ _ => ih fun b later => ?_
      exact each b (List.mem_cons_of_mem _ later)

theorem Keeps.grows {x : Lowering α} (keeps : Keeps Γ x V) (there : ∀ a, V a → P Γ a) :
    Grows Γ x P := by
  intro d a d' has ran
  obtain ⟨has', holds⟩ := keeps d a d' has ran
  exact ⟨Γ, has', there a holds⟩

theorem grows_then {x : Lowering α} {g : α → Lowering β} (first : Keeps Γ x V)
    (second : ∀ a, V a → Grows Γ (g a) Q) : Grows Γ (x >>= g) Q := by
  intro d b d' has ran
  obtain ⟨a, e, ran, ran'⟩ := run_of_bind ran
  obtain ⟨has', holds⟩ := first d a e has ran
  exact second a holds e b d' has' ran'

theorem grows_bind {x : Lowering α} {g : α → Lowering β} (first : Grows Γ x P)
    (second : ∀ Δ a, P Δ a → Grows Δ (g a) Q) : Grows Γ (x >>= g) Q := by
  intro d b d' has ran
  obtain ⟨a, e, ran, ran'⟩ := run_of_bind ran
  obtain ⟨Δ, has', holds⟩ := first d a e has ran
  exact second Δ a holds e b d' has' ran'

/-- A temporary and the assignment that defines it. -/
theorem grows_define {t : DataType} {src : Expr} {g : Expr → Unit → Lowering β}
    (within : src.Within Γ)
    (rest : ∀ v : Expr, v.Within (Γ ++ [t]) → Grows (Γ ++ [t]) (g v ()) Q) :
    Grows Γ (temporary t >>= fun v => assign v src >>= g v) Q := by
  intro d b d' has ran
  have inside : (Expr.identifier (.temporary Γ.length t)).Within (Γ ++ [t]) :=
    Expr.within_identifier.mpr (Identifier.inScope_temporary Γ t)
  refine rest _ inside _ b d' (has.define t within) ?_
  rw [← has.count]
  exact ran

/-! ### Single statements -/

theorem keeps_push {g : Draft → Draft} (s : Statement)
    (adds : ∀ d, (g d).statements = d.statements ++ [s])
    (same : ∀ d, (g d).temporaries = d.temporaries) (within : s.Within Γ)
    (spares : ∀ n, ¬s.Changes n) : Keeps Γ (write g) Anything := by
  rintro d _ _ has ⟨⟩
  exact ⟨has.add (adds d) (same d) within spares, trivial⟩

theorem keeps_assign {dst src : Expr} (free : dst.Free) (within : src.Within Γ) :
    Keeps Γ (assign dst src) Anything := by
  rintro d _ _ has ⟨⟩
  exact ⟨has.assign free within, trivial⟩

theorem keeps_assignIf {condition dst src : Expr} (tests : condition.Within Γ) (free : dst.Free)
    (within : src.Within Γ) : Keeps Γ (assignIf condition dst src) Anything :=
  keeps_push (.guarded condition (.assign dst src)) (fun _ => rfl) (fun _ => rfl)
    (Statement.within_guarded.mpr ⟨tests, Statement.within_assign.mpr ⟨free Γ, within⟩⟩)
    (Statement.not_changes_of_free (Statement.targets_assign dst src) free)

/-- A statement that assigns nothing. -/
theorem keeps_other {g : Draft → Draft} (s : Statement)
    (adds : ∀ d, (g d).statements = d.statements ++ [s])
    (same : ∀ d, (g d).temporaries = d.temporaries) (within : s.Within Γ) (none_ : s.targets = []) :
    Keeps Γ (write g) Anything := by
  refine keeps_push s adds same within fun n => ?_
  rintro ⟨id, changed, -⟩
  rw [none_] at changed
  cases changed

theorem keeps_branch {condition : Expr} (within : condition.Within Γ) (target : Nat) :
    Keeps Γ (branch condition target) Anything :=
  keeps_other (.branch condition target) (fun _ => rfl) (fun _ => rfl) within rfl

theorem keeps_goto {target : Expr} (within : target.Within Γ) : Keeps Γ (goto target) Anything :=
  keeps_other (.goto target) (fun _ => rfl) (fun _ => rfl) within rfl

theorem keeps_call {target : Expr} (within : target.Within Γ) (size : Nat) :
    Keeps Γ (call target size) Anything :=
  keeps_other (.call target size) (fun _ => rfl) (fun _ => rfl) within rfl

theorem keeps_ret (size extra : Nat) : Keeps Γ (ret size extra) Anything :=
  keeps_other (.ret size extra) (fun _ => rfl) (fun _ => rfl) nofun rfl

theorem keeps_effect {e : Expr} (within : e.Within Γ) : Keeps Γ (effect e) Anything :=
  keeps_other (.effect e) (fun _ => rfl) (fun _ => rfl) within rfl

theorem keeps_nop : Keeps Γ nop Anything :=
  keeps_other .nop (fun _ => rfl) (fun _ => rfl) nofun rfl

theorem keeps_setFlow (flow : Flow) : Keeps Γ (setFlow flow) Anything := by
  rintro d _ _ has ⟨⟩
  exact ⟨⟨has.count, has.built⟩, trivial⟩

theorem keeps_apply {name : String} {type : DataType} {arguments : List Expr}
    (within : ∀ e ∈ arguments, e.Within Γ) :
    Keeps Γ (apply name type arguments) fun e => e.Within Γ := by
  rintro d _ _ has ⟨⟩
  exact ⟨⟨has.count, has.built⟩, (Expr.within_apply ..).mpr within⟩

theorem grows_copy {model : FlagModel} {mode : CopyMode} {dst src : Expr}
    (group : (Expr.identifier model.group).Free) (carry : (Expr.identifier model.carry).Free)
    (free : dst.Free) (within : src.Within Γ) :
    Grows Γ (copy model mode dst src) fun Δ e => e.Within Δ := by
  rintro d _ _ has ⟨⟩
  exact has.copy mode group carry free within

/-! ### Whole lowerings -/

theorem Grows.delimits {x : Lowering α} (grows : Grows [] x P) : Delimits x := by
  intro a d ran
  obtain ⟨Δ, has, -⟩ := grows .empty a d Draft.hasScope_empty ran
  exact ⟨Δ, has⟩

theorem Keeps.delimits {x : Lowering α} (keeps : Keeps [] x V) : Delimits x :=
  fun a d ran => ⟨[], (keeps .empty a d Draft.hasScope_empty ran).1⟩

theorem delimits_operand {e : Except Fault α} {g : α → Lowering β}
    (then_ : ∀ a, e = .ok a → Delimits (g a)) : Delimits (liftM e >>= g) := by
  cases e with
  | error fault => rintro _ _ ⟨⟩
  | ok a => exact then_ a rfl

/-- The marker takes the place of statements that define nothing. -/
theorem delimits_invalid : Delimits invalid := by
  rintro _ _ ⟨⟩
  refine ⟨[], rfl, ?_⟩
  show Scoped [] ([] ++ [Statement.invalid])
  refine .keep .nil nofun fun n => ?_
  rintro ⟨_, ⟨⟩, -⟩

theorem delimits_return {x : Lowering α} (b : β) (delimits : Delimits x) : Delimits (x >>= fun _ => pure b) := by
  intro b' d ran
  obtain ⟨a, _, first, last⟩ := run_of_bind ran
  cases last
  exact delimits a d first

end Lowering

/-- The temporaries of a cluster, if its lowering ends with a scope. -/
theorem Backend.singleAssignment_of_lowered {ι : Type} {b : Backend ι} {i : ι} {next : Option ι}
    (delimits : Lowering.Delimits (b.lower i next)) {t t' : IntrinsicTable} {l : Backend.Lowered}
    (lowered : b.lowerWith i next t = (.ok l, t')) :
    ∃ types, SingleAssignment types l.statements := by
  obtain ⟨d, drafted, -, -, same⟩ := drafted_of_lowered lowered
  obtain ⟨Γ, has⟩ := delimits _ d drafted
  rw [same]
  exact ⟨Γ, singleAssignment_of_scoped (has.built.mapIntrinsics _)⟩

end RegisterTransfer
