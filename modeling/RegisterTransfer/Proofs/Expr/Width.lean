/-
# RegisterTransfer.Proofs.Expr.Width -- statements whose widths fit together

The language does not check widths: a lowering gives every node its type, and a literal or an assignment
may be narrower than its partner.  `Statement.Sized` says of one statement that it is width correct, for a
machine that accesses data memory by bytes at 16-bit addresses:

* an assignment gives its destination as many bits as that has, unless it sets a group of flags;
* memory is accessed one byte at a time, by an address of 16 bits and in no segment, at any depth
  (`Expr.Bytewise`);
* a branch decides on a truth value.

The simp lemmas for `Expr.Bytewise` follow the constructors.  Putting a table's intrinsics into a statement
changes no width (`Statement.Sized.mapIntrinsics`).
-/
import RegisterTransfer.Proofs.Expr.Parts

namespace RegisterTransfer

set_option autoImplicit false

namespace Expr

/-- Whether an expression, if it accesses memory, accesses a byte at a 16-bit address in no segment. -/
def accessesByte : Expr → Bool
  | memory t ea => t = .byte && ea.type.bits = 16
  | segmented .. => false
  | _ => true

/-- Every access to memory in an expression is of that kind. -/
def Bytewise (e : Expr) : Prop := ∀ p ∈ e.parts, p.accessesByte = true

/-- Whether an expression names a group of flags. -/
def isFlagGroup : Expr → Bool
  | identifier ⟨_, _, .flags ..⟩ => true
  | _ => false

/-- An expression that makes no wrong access itself is as bytewise as what is below it. -/
theorem forall_accessesByte_cons {e : Expr} {below : List Expr} (own : e.accessesByte = true) :
    (∀ p ∈ e :: below, p.accessesByte = true) ↔ ∀ p ∈ below, p.accessesByte = true :=
  List.forall_mem_cons.trans (and_iff_right own)

section Constructors

variable (t : DataType) (a b : Expr)

@[simp]
theorem bytewise_identifier (id : Identifier) : (identifier id).Bytewise :=
  List.forall_mem_singleton.mpr rfl

@[simp]
theorem bytewise_constant (c : Constant) : (constant c).Bytewise := List.forall_mem_singleton.mpr rfl

@[simp]
theorem bytewise_address (n : Nat) : (address n).Bytewise := List.forall_mem_singleton.mpr rfl

@[simp]
theorem bytewise_binary (op : BinaryOp) :
    (binary op t a b).Bytewise ↔ a.Bytewise ∧ b.Bytewise :=
  (forall_accessesByte_cons rfl).trans List.forall_mem_append

@[simp]
theorem bytewise_unary (op : UnaryOp) : (unary op t a).Bytewise ↔ a.Bytewise :=
  forall_accessesByte_cons rfl

@[simp]
theorem bytewise_memory :
    (memory t a).Bytewise ↔ (t = .byte ∧ a.type.bits = 16) ∧ a.Bytewise := by
  simp [Bytewise, parts, accessesByte]

@[simp]
theorem bytewise_concat : (concat t a b).Bytewise ↔ a.Bytewise ∧ b.Bytewise :=
  (forall_accessesByte_cons rfl).trans List.forall_mem_append

@[simp]
theorem bytewise_cast : (cast t a).Bytewise ↔ a.Bytewise := forall_accessesByte_cons rfl

@[simp]
theorem bytewise_conditionCodes : (conditionCodes a).Bytewise ↔ a.Bytewise :=
  forall_accessesByte_cons rfl

@[simp]
theorem bytewise_test (c : Condition) : (test c a).Bytewise ↔ a.Bytewise :=
  forall_accessesByte_cons rfl

@[simp]
theorem bytewise_apply (p : Intrinsic) (es : List Expr) :
    (apply p t es).Bytewise ↔ ∀ e ∈ es, e.Bytewise := by
  simp only [Bytewise, parts, List.forall_mem_cons, accessesByte, true_and, mem_partsList]
  exact ⟨fun all e listed q within => all q ⟨e, listed, within⟩,
    fun all q ⟨e, listed, within⟩ => all e listed q within⟩

end Constructors

section Combinators

variable (a b : Expr)

@[simp]
theorem bytewise_word (n : Nat) (t : DataType) : (word n t).Bytewise := bytewise_constant _

@[simp]
theorem bytewise_byte (k : UInt8) : (byte k).Bytewise := bytewise_constant _

@[simp]
theorem bytewise_ofBool (k : Bool) : (ofBool k).Bytewise := bytewise_constant _

@[simp]
theorem bytewise_sameType (op : BinaryOp) :
    (sameType op a b).Bytewise ↔ a.Bytewise ∧ b.Bytewise := bytewise_binary ..

@[simp]
theorem bytewise_compare (op : BinaryOp) :
    (compare op a b).Bytewise ↔ a.Bytewise ∧ b.Bytewise := bytewise_binary ..

@[simp]
theorem bytewise_unaryOf (op : UnaryOp) : (unaryOf op a).Bytewise ↔ a.Bytewise := bytewise_unary ..

@[simp]
theorem bytewise_addInt (n : Int) : (a.addInt n).Bytewise ↔ a.Bytewise := by
  unfold addInt
  split <;> simp [sub, add]

@[simp]
theorem bytewise_isZero : a.isZero.Bytewise ↔ a.Bytewise := by simp [isZero, eq]

@[simp]
theorem bytewise_isNonzero : a.isNonzero.Bytewise ↔ a.Bytewise := by simp [isNonzero, ne]

end Combinators

theorem accessesByte_mapIntrinsics (f : Intrinsic → Intrinsic) (e : Expr) :
    (e.mapIntrinsics f).accessesByte = e.accessesByte := by
  cases e <;> simp [mapIntrinsics, accessesByte, type_mapIntrinsics]

theorem isFlagGroup_mapIntrinsics (f : Intrinsic → Intrinsic) (e : Expr) :
    (e.mapIntrinsics f).isFlagGroup = e.isFlagGroup := by
  cases e <;> simp [mapIntrinsics, isFlagGroup]

end Expr

namespace Statement

/-- The destination and source of an assignment, also of one under a condition. -/
def assignments : Statement → List (Expr × Expr)
  | assign dst src => [(dst, src)]
  | guarded _ body => body.assignments
  | _ => []

/-- What a branch decides on, also one under a condition. -/
def decisions : Statement → List Expr
  | branch condition _ => [condition]
  | guarded _ body => body.decisions
  | _ => []

/-- A statement whose widths fit together. -/
structure Sized (s : Statement) : Prop where
  assigned : ∀ a ∈ s.assignments, a.1.isFlagGroup = false → a.2.type.bits = a.1.type.bits
  bytewise : ∀ e ∈ s.parts, e.accessesByte = true
  decided : ∀ e ∈ s.decisions, e.type = .bool

theorem sized_assign {dst src : Expr} (into : dst.Bytewise) (value : src.Bytewise)
    (same : dst.isFlagGroup = false → src.type.bits = dst.type.bits) : (assign dst src).Sized where
  assigned := by simpa [assignments] using same
  bytewise := List.forall_mem_append.mpr ⟨into, value⟩
  decided := nofun

theorem sized_branch {condition : Expr} (clean : condition.Bytewise) (truth : condition.type = .bool)
    (target : Nat) : (branch condition target).Sized where
  assigned := nofun
  bytewise := clean
  decided := by simpa [decisions] using truth

theorem sized_goto {target : Expr} (clean : target.Bytewise) : (goto target).Sized :=
  ⟨nofun, clean, nofun⟩

theorem sized_call {target : Expr} (clean : target.Bytewise) (size : Nat) :
    (call target size).Sized := ⟨nofun, clean, nofun⟩

theorem sized_effect {e : Expr} (clean : e.Bytewise) : (effect e).Sized := ⟨nofun, clean, nofun⟩

theorem sized_ret (size extra : Nat) : (ret size extra).Sized := ⟨nofun, nofun, nofun⟩

theorem sized_nop : nop.Sized := ⟨nofun, nofun, nofun⟩

theorem sized_invalid : invalid.Sized := ⟨nofun, nofun, nofun⟩

theorem assignments_mapIntrinsics (f : Intrinsic → Intrinsic) (s : Statement) :
    (s.mapIntrinsics f).assignments =
      s.assignments.map fun a => (a.1.mapIntrinsics f, a.2.mapIntrinsics f) := by
  induction s <;> simp_all [mapIntrinsics, assignments]

theorem decisions_mapIntrinsics (f : Intrinsic → Intrinsic) (s : Statement) :
    (s.mapIntrinsics f).decisions = s.decisions.map (Expr.mapIntrinsics f) := by
  induction s <;> simp_all [mapIntrinsics, decisions]

theorem Sized.mapIntrinsics {s : Statement} (sized : s.Sized) (f : Intrinsic → Intrinsic) :
    (s.mapIntrinsics f).Sized where
  assigned := by
    simp only [assignments_mapIntrinsics, List.forall_mem_map, Expr.isFlagGroup_mapIntrinsics,
      Expr.type_mapIntrinsics]
    exact sized.assigned
  bytewise := by
    simp only [parts_mapIntrinsics, List.forall_mem_map, Expr.accessesByte_mapIntrinsics]
    exact sized.bytewise
  decided := by
    simp only [decisions_mapIntrinsics, List.forall_mem_map, Expr.type_mapIntrinsics]
    exact sized.decided

end Statement

end RegisterTransfer
