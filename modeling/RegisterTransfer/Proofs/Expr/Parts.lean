/-
# RegisterTransfer.Proofs.Expr.Parts -- the expressions within an expression

`Expr.parts` lists an expression and all that it is built of, and `Statement.parts` all expressions of a
statement.  What is said of every expression of a cluster is said of its parts.

`Expr.uses` are the intrinsics that an expression applies, in order, each with the number of its
arguments.  The constructors that lowerings build with put the uses of their operands one behind the other;
the simp lemmas here say so, so that an expression without an intrinsic is seen to be one.
-/
import RegisterTransfer.Statement

namespace RegisterTransfer

set_option autoImplicit false

/-! ## Parts -/

namespace Expr

mutual

/-- An expression and everything in it. -/
def parts : Expr → List Expr
  | identifier id => [identifier id]
  | constant c => [constant c]
  | address a => [address a]
  | binary op t l r => binary op t l r :: (parts l ++ parts r)
  | unary op t e => unary op t e :: parts e
  | memory t ea => memory t ea :: parts ea
  | segmented t s ea => segmented t s ea :: (parts s ++ parts ea)
  | concat t h l => concat t h l :: (parts h ++ parts l)
  | slice t e offset => slice t e offset :: parts e
  | cast t e => cast t e :: parts e
  | conditionCodes e => conditionCodes e :: parts e
  | test c e => test c e :: parts e
  | apply p t arguments => apply p t arguments :: partsList arguments

/-- Everything in some expressions. -/
def partsList : List Expr → List Expr
  | [] => []
  | e :: rest => parts e ++ partsList rest

end

theorem mem_partsList {p : Expr} {es : List Expr} : p ∈ partsList es ↔ ∃ e ∈ es, p ∈ e.parts := by
  induction es with
  | nil => simp [partsList]
  | cons e rest ih => simp [partsList, ih]

mutual

theorem parts_mapIntrinsics (f : Intrinsic → Intrinsic) :
    ∀ e : Expr, (e.mapIntrinsics f).parts = e.parts.map (mapIntrinsics f)
  | .identifier _ | .constant _ | .address _ => by simp [mapIntrinsics, parts]
  | .unary _ _ e | .cast _ e | .memory _ e | .slice _ e _ | .conditionCodes e | .test _ e => by
      simp [mapIntrinsics, parts, parts_mapIntrinsics f e]
  | .binary _ _ a b | .segmented _ a b | .concat _ a b => by
      simp [mapIntrinsics, parts, parts_mapIntrinsics f a, parts_mapIntrinsics f b]
  | .apply _ _ arguments => by
      simp [mapIntrinsics, parts, partsList_mapIntrinsics f arguments]

theorem partsList_mapIntrinsics (f : Intrinsic → Intrinsic) :
    ∀ es : List Expr, partsList (mapIntrinsicsList f es) = (partsList es).map (mapIntrinsics f)
  | [] => by simp [mapIntrinsicsList, partsList]
  | e :: rest => by
      simp [mapIntrinsicsList, partsList, parts_mapIntrinsics f e, partsList_mapIntrinsics f rest]

end

theorem length_mapIntrinsicsList (f : Intrinsic → Intrinsic) :
    ∀ es : List Expr, (mapIntrinsicsList f es).length = es.length
  | [] => rfl
  | _ :: rest => by simp [mapIntrinsicsList, length_mapIntrinsicsList f rest]

end Expr

namespace Statement

/-- Everything in the expressions of a statement. -/
def parts : Statement → List Expr
  | assign dst src => dst.parts ++ src.parts
  | branch condition _ => condition.parts
  | goto target | call target _ => target.parts
  | effect e => e.parts
  | guarded condition body => condition.parts ++ body.parts
  | ret .. | nop | invalid => []

theorem parts_mapIntrinsics (f : Intrinsic → Intrinsic) (s : Statement) :
    (s.mapIntrinsics f).parts = s.parts.map (Expr.mapIntrinsics f) := by
  induction s <;> simp_all [mapIntrinsics, parts, Expr.parts_mapIntrinsics]

end Statement

/-! ## Uses of intrinsics -/

/-- An intrinsic as an expression applies it. -/
structure IntrinsicUse where
  intrinsic : Intrinsic
  /-- How many arguments it is applied to. -/
  arguments : Nat

/-- The use of an intrinsic with as many arguments as it takes. -/
def Intrinsic.use (p : Intrinsic) : IntrinsicUse := ⟨p, p.arity⟩

/-- The use that an expression is, if it applies an intrinsic. -/
def Expr.use? : Expr → Option IntrinsicUse
  | apply p _ arguments => some ⟨p, arguments.length⟩
  | _ => none

/-- The intrinsics that an expression applies, in order. -/
def Expr.uses (e : Expr) : List IntrinsicUse := e.parts.filterMap Expr.use?

/-- The intrinsics that a statement applies. -/
def Statement.uses (s : Statement) : List IntrinsicUse := s.parts.filterMap Expr.use?

/-- The intrinsics that a cluster applies. -/
def Cluster.uses (c : Cluster) : List IntrinsicUse := c.statements.flatMap Statement.uses

namespace Expr

/-- A table that puts its own entries into an expression changes no number of arguments. -/
theorem use?_mapIntrinsics (f : Intrinsic → Intrinsic) (e : Expr) :
    (e.mapIntrinsics f).use? =
      e.use?.map fun a => ⟨f a.intrinsic, a.arguments⟩ := by
  cases e <;> simp [mapIntrinsics, use?, length_mapIntrinsicsList]

section Constructors

variable (t : DataType) (a b : Expr)

@[simp]
theorem uses_identifier (id : Identifier) : (identifier id).uses = [] := rfl

@[simp]
theorem uses_constant (c : Constant) : (constant c).uses = [] := rfl

@[simp]
theorem uses_address (n : Nat) : (address n).uses = [] := rfl

@[simp]
theorem uses_binary (op : BinaryOp) :
    (binary op t a b).uses = a.uses ++ b.uses :=
  List.filterMap_append ..

@[simp]
theorem uses_unary (op : UnaryOp) : (unary op t a).uses = a.uses := rfl

@[simp]
theorem uses_memory : (memory t a).uses = a.uses := rfl

@[simp]
theorem uses_segmented :
    (segmented t a b).uses = a.uses ++ b.uses :=
  List.filterMap_append ..

@[simp]
theorem uses_concat : (concat t a b).uses = a.uses ++ b.uses :=
  List.filterMap_append ..

@[simp]
theorem uses_slice (offset : Nat) : (slice t a offset).uses = a.uses := rfl

@[simp]
theorem uses_cast : (cast t a).uses = a.uses := rfl

@[simp]
theorem uses_conditionCodes : (conditionCodes a).uses = a.uses := rfl

@[simp]
theorem uses_test (c : Condition) : (test c a).uses = a.uses := rfl

theorem uses_partsList (es : List Expr) :
    (partsList es).filterMap use? = es.flatMap uses := by
  induction es with
  | nil => rfl
  | cons e rest ih => simp [partsList, uses, ih]

@[simp]
theorem uses_apply (p : Intrinsic) (es : List Expr) :
    (apply p t es).uses = ⟨p, es.length⟩ :: es.flatMap uses :=
  congrArg _ (uses_partsList es)

end Constructors

section Combinators

variable (a b : Expr)

@[simp]
theorem uses_word (n : Nat) (t : DataType) : (word n t).uses = [] := rfl

@[simp]
theorem uses_byte (k : UInt8) : (byte k).uses = [] := rfl

@[simp]
theorem uses_ofBool (k : Bool) : (ofBool k).uses = [] := rfl

@[simp]
theorem uses_sameType (op : BinaryOp) :
    (sameType op a b).uses = a.uses ++ b.uses := uses_binary ..

@[simp]
theorem uses_compare (op : BinaryOp) :
    (compare op a b).uses = a.uses ++ b.uses := uses_binary ..

@[simp]
theorem uses_unaryOf (op : UnaryOp) : (unaryOf op a).uses = a.uses :=
  uses_unary ..

@[simp]
theorem uses_addInt (n : Int) : (a.addInt n).uses = a.uses := by
  unfold addInt
  split <;> simp [sub, add]

@[simp]
theorem uses_isZero : a.isZero.uses = a.uses := by simp [isZero, eq]

@[simp]
theorem uses_isNonzero : a.isNonzero.uses = a.uses := by
  simp [isNonzero, ne]

@[simp]
theorem uses_memoryIn (segment : Option Expr) (t : DataType) :
    (memoryIn segment t a).uses =
      (segment.map uses).getD [] ++ a.uses := by
  cases segment <;> simp [memoryIn]

end Combinators

end Expr

namespace Statement

@[simp]
theorem uses_assign (dst src : Expr) :
    (assign dst src).uses = dst.uses ++ src.uses := by
  simp [uses, parts, Expr.uses]

@[simp]
theorem uses_guarded (condition : Expr) (body : Statement) :
    (guarded condition body).uses = condition.uses ++ body.uses := by
  simp [uses, parts, Expr.uses]

/-- The uses of a statement with a table's own entries in them. -/
theorem uses_mapIntrinsics (f : Intrinsic → Intrinsic) (s : Statement) :
    (s.mapIntrinsics f).uses =
      s.uses.map fun a => ⟨f a.intrinsic, a.arguments⟩ := by
  simp only [uses, parts_mapIntrinsics, List.filterMap_map, Function.comp_def,
    Expr.use?_mapIntrinsics, List.map_filterMap]

end Statement

end RegisterTransfer
