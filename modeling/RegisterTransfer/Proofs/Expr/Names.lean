/-
# RegisterTransfer.Proofs.Expr.Names -- the storage that expressions and statements name

`Expr.identifiers` are the identifiers in an expression, in order: its value depends on nothing else but
memory and what was applied before.  `Expr.targets` are those that an assignment to an expression
changes, and `Statement.targets` those that a statement may change; an address within memory is read and
not changed.

An expression without intrinsics is *plain*; `uses` in `Proofs/Expr/Parts` says so.
-/
import RegisterTransfer.Proofs.Expr.Width

namespace RegisterTransfer

set_option autoImplicit false

namespace Expr

/-! ## What is read -/

/-- The identifiers in an expression, in order. -/
def identifiers (e : Expr) : List Identifier := e.parts.filterMap identifier?

theorem mem_identifiers {e : Expr} {id : Identifier} :
    id ∈ e.identifiers ↔ identifier id ∈ e.parts := by
  rw [identifiers, List.mem_filterMap]
  constructor
  · rintro ⟨p, inside, named⟩
    cases p with
    | identifier other =>
        cases named
        exact inside
    | _ => cases named
  · intro inside
    exact ⟨_, inside, rfl⟩

section Constructors

variable (t : DataType) (a b : Expr)

@[simp]
theorem identifiers_identifier (id : Identifier) : (identifier id).identifiers = [id] := rfl

@[simp]
theorem identifiers_constant (c : Constant) : (constant c).identifiers = [] := rfl

@[simp]
theorem identifiers_binary (op : BinaryOp) :
    (binary op t a b).identifiers = a.identifiers ++ b.identifiers :=
  List.filterMap_append ..

@[simp]
theorem identifiers_memory : (memory t a).identifiers = a.identifiers := rfl

@[simp]
theorem identifiers_segmented :
    (segmented t a b).identifiers = a.identifiers ++ b.identifiers :=
  List.filterMap_append ..

@[simp]
theorem identifiers_cast : (cast t a).identifiers = a.identifiers := rfl

@[simp]
theorem identifiers_word (n : Nat) : (word n t).identifiers = [] := rfl

@[simp]
theorem identifiers_addInt (n : Int) : (a.addInt n).identifiers = a.identifiers := by
  unfold addInt
  split <;> simp [sub, add, sameType]

theorem identifiers_memoryIn (segment : Option Expr) :
    (memoryIn segment t a).identifiers =
      (segment.map identifiers).getD [] ++ a.identifiers := by
  cases segment with
  | none => rfl
  | some s => exact identifiers_segmented t s a

end Constructors

/-! ## What is changed -/

/-- The identifiers that an assignment to an expression changes. -/
def targets : Expr → List Identifier
  | identifier id => [id]
  | concat _ high low => high.targets ++ low.targets
  | _ => []

theorem targets_mapIntrinsics (f : Intrinsic → Intrinsic) (e : Expr) :
    (e.mapIntrinsics f).targets = e.targets := by
  induction e using targets.induct with
  | case1 id => rfl
  | case2 t high low ih ih' => rw [mapIntrinsics, targets, targets, ih, ih']
  | case3 e other other' => cases e <;> simp_all [mapIntrinsics, targets]

end Expr

namespace Statement

/-- The identifiers that a statement may change. -/
def targets (s : Statement) : List Identifier := s.assignments.flatMap (·.1.targets)

@[simp]
theorem targets_assign (dst src : Expr) : (assign dst src).targets = dst.targets :=
  List.append_nil _

theorem targets_mapIntrinsics (f : Intrinsic → Intrinsic) (s : Statement) :
    (s.mapIntrinsics f).targets = s.targets := by
  simp [targets, assignments_mapIntrinsics, List.flatMap_map, Expr.targets_mapIntrinsics]

end Statement

end RegisterTransfer
