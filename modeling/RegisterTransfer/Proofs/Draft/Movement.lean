/-
# RegisterTransfer.Proofs.Draft.Movement -- by how much a lowering moves registers

A `Watch` is a family of registers, no two of them the same.  Statements carry the registers by some
amounts if, from every state, control runs through them and each register ends that much further on,
modulo the size of the register (`Watch.Carries`); they bring the registers there if the same holds
wherever control ends up (`Watch.Brings`).

`Lowering.Moves w x moved V` says that whatever the lowering `x` adds to a draft carries the registers
by `moved`, and that its value satisfies `V`.  Amounts add up along a lowering (`moves_bind`), a step
that assigns to none of the registers adds nothing (`moves_push`), and `moves_addInt` is the step that
moves one.  `Lowering.Brings w x moved` is the same for a whole lowering, which may leave at its end.

Registers are separate cells here.
-/
import Mathlib.Algebra.Group.Pi.Basic
import Mathlib.Algebra.Ring.Int.Defs
import RegisterTransfer.Proofs.Draft.Additions
import RegisterTransfer.Proofs.Meaning.Arithmetic
import RegisterTransfer.Proofs.Meaning.Frame

namespace RegisterTransfer

set_option autoImplicit false

/-- Registers of which no two are the same. -/
structure Watch (κ : Type) where
  id : κ → Identifier
  register : ∀ k, (id k).IsRegister
  injective : ∀ k l, id k = id l → k = l

variable {κ : Type} {w : Watch κ}

namespace Watch

/-! ## States -/

/-- Each register is so much further on. -/
def Moved (w : Watch κ) (moved : κ → Int) (σ τ : State Cells) : Prop :=
  ∀ k, τ.get (w.id k) = Bits.ofInt (w.id k).bits (σ.get (w.id k) + moved k)

theorem moved_of_get_eq {σ τ : State Cells} (same : ∀ k, τ.get (w.id k) = σ.get (w.id k)) :
    w.Moved 0 σ τ := by
  intro k
  rw [same k, Pi.zero_apply, Int.add_zero]
  exact (Bits.ofInt_of_lt (σ.get_lt (w.register k))).symm

theorem Moved.trans {moved later : κ → Int} {σ τ υ : State Cells} (first : w.Moved moved σ τ)
    (second : w.Moved later τ υ) : w.Moved (moved + later) σ υ := by
  intro k
  rw [second k, first k, Bits.ofInt_ofInt_add, Int.add_assoc, Pi.add_apply]

/-! ## Statements -/

/-- Control runs through the statements, and each register ends so much further on. -/
def Carries (w : Watch κ) (moved : κ → Int) (statements : List Statement) : Prop :=
  ∀ I (σ : State Cells), ∃ τ, σ.run I statements = (τ, none) ∧ w.Moved moved σ τ

/-- Wherever control goes, each register ends so much further on. -/
def Brings (w : Watch κ) (moved : κ → Int) (statements : List Statement) : Prop :=
  ∀ I (σ : State Cells), w.Moved moved σ (σ.run I statements).1

/-- An assignment to the expression changes none of the registers. -/
def Apart (w : Watch κ) (e : Expr) : Prop := ∀ k, w.id k ∉ e.targets

theorem apart_of_quiet {e : Expr} (quiet : e.targets = []) : w.Apart e := by
  intro k listed
  rw [quiet] at listed
  cases listed

theorem apart_identifier {id : Identifier} (other : ∀ k, w.id k ≠ id) :
    w.Apart (.identifier id) := by
  intro k listed
  exact other k (List.mem_singleton.mp listed)

/-- Flags and temporaries are no registers. -/
theorem apart_of_not_isRegister {id : Identifier} (none_ : ¬id.IsRegister) :
    w.Apart (.identifier id) :=
  apart_identifier fun k same => none_ (same ▸ w.register k)

theorem carries_nil : w.Carries 0 [] :=
  fun _ σ => ⟨σ, rfl, moved_of_get_eq fun _ => rfl⟩

theorem Carries.append {moved later : κ → Int} {first second : List Statement}
    (carries : w.Carries moved first) (then_ : w.Carries later second) :
    w.Carries (moved + later) (first ++ second) := by
  intro I σ
  obtain ⟨τ, ran, half⟩ := carries I σ
  obtain ⟨υ, ran', rest⟩ := then_ I τ
  exact ⟨υ, (State.run_append_of_falls second ran).trans ran', half.trans rest⟩

theorem Carries.brings {moved later : κ → Int} {first second : List Statement}
    (carries : w.Carries moved first) (then_ : w.Brings later second) :
    w.Brings (moved + later) (first ++ second) := by
  intro I σ
  obtain ⟨τ, ran, half⟩ := carries I σ
  rw [State.run_append_of_falls second ran]
  exact half.trans (then_ I τ)

/-- A statement that assigns to none of the registers leaves them where they are. -/
theorem carries_singleton {s : Statement} (straight : s.isStraight = true)
    (apart : ∀ k, w.id k ∉ s.targets) : w.Carries 0 [s] := by
  intro I σ
  have falls : (σ.exec I s).2 = none := State.exec_of_isStraight σ straight
  refine ⟨(σ.exec I s).1, State.run_cons_of_falls [] (Prod.ext rfl falls), ?_⟩
  exact moved_of_get_eq fun k => State.get_exec_of_not_mem (w.register k) σ (apart k)

/-- So does a statement through which control leaves. -/
theorem brings_singleton {s : Statement} (quiet : s.targets = []) :
    w.Brings 0 [s] := by
  intro I σ
  refine moved_of_get_eq fun k => State.get_run_of_not_mem (w.register k) σ ?_
  intro s' listed
  rw [List.mem_singleton.mp listed, quiet]
  exact List.not_mem_nil

theorem carries_addInt [DecidableEq κ] (k : κ) {delta : Int} (short : delta.natAbs < 2 ^ 64) :
    w.Carries (Pi.single k delta)
      [.assign (.identifier (w.id k)) ((Expr.identifier (w.id k)).addInt delta)] := by
  intro I σ
  refine ⟨_, State.run_cons_of_falls [] (σ.exec_addInt (I := I) (w.register k) short), ?_⟩
  intro l
  by_cases same : l = k
  · subst same
    rw [Pi.single_eq_same, State.get_setRegister σ _ (w.register l),
      Nat.mod_eq_of_lt (Bits.ofInt_lt _ _)]
  · have other : w.id l ≠ w.id k := fun equal => same (w.injective l k equal)
    rw [Pi.single_eq_of_ne same, Int.add_zero, Bits.ofInt_of_lt (σ.get_lt (w.register l))]
    exact State.get_setRegister_of_ne (w.register l) σ _ other

end Watch

/-! ## Drafts -/

/-- A draft that is not given up, with statements that carry the registers by so much. -/
structure Draft.Carries (w : Watch κ) (moved : κ → Int) (d : Draft) : Prop where
  valid : d.flow ≠ .invalid
  carries : w.Carries moved d.statements

/-- A draft that is not given up, with statements that bring the registers so much further on. -/
structure Draft.Brings (w : Watch κ) (moved : κ → Int) (d : Draft) : Prop where
  valid : d.flow ≠ .invalid
  brings : w.Brings moved d.statements

namespace Draft.Carries

variable {moved : κ → Int} {d : Draft}

theorem empty : Draft.empty.Carries w 0 := ⟨nofun, Watch.carries_nil⟩

theorem brings (carries : d.Carries w moved) : d.Brings w moved where
  valid := carries.valid
  brings I σ := by
    obtain ⟨τ, ran, moved⟩ := carries.carries I σ
    rw [ran]
    exact moved

theorem push (carries : d.Carries w moved) {s : Statement} (straight : s.isStraight = true)
    (apart : ∀ k, w.id k ∉ s.targets) : (d.push s).Carries w moved where
  valid := carries.valid
  carries := by
    have whole := carries.carries.append (Watch.carries_singleton straight apart)
    rwa [add_zero] at whole

theorem assign (carries : d.Carries w moved) {dst : Expr} (apart : w.Apart dst) (src : Expr) :
    (d.assign dst src).Carries w moved := by
  refine carries.push rfl fun k => ?_
  rw [Statement.targets_assign]
  exact apart k

theorem assignWhen (carries : d.Carries w moved) (condition : Bool) {dst : Expr}
    (apart : w.Apart dst) (src : Expr) :
    (if condition then d.assign dst src else d).Carries w moved := by
  split
  · exact carries.assign apart src
  · exact carries

theorem copy (carries : d.Carries w moved) {model : FlagModel} (mode : CopyMode) {dst : Expr}
    (src : Expr) (apart : w.Apart dst) (group : w.Apart (.identifier model.group))
    (carry : w.Apart (.identifier model.carry)) : (d.copy model mode dst src).2.Carries w moved := by
  unfold Draft.copy
  by_cases direct : (dst.isIdentifier || !mode.split) = true
  · rw [if_pos direct]
    exact ((carries.assign apart _).assignWhen _ group _).assignWhen _ carry _
  · rw [if_neg direct]
    have temporary : w.Apart (.identifier (d.temporary src.type).1) :=
      Watch.apart_of_not_isRegister (by rintro ⟨_, _, _, storage⟩; cases storage)
    have next : (d.temporary src.type).2.Carries w moved := ⟨carries.valid, carries.carries⟩
    exact ((((next.assign temporary _).assign apart _).assignWhen _ group _).assignWhen _ carry _)

end Draft.Carries

/-! ## Lowerings -/

namespace Lowering

variable {α β : Type} {moved later : κ → Int} {V : α → Prop} {W : β → Prop}

/-- Whatever the lowering adds carries the registers by so much, and its value satisfies `V`. -/
def Moves (w : Watch κ) (x : Lowering α) (moved : κ → Int) (V : α → Prop) : Prop :=
  ∀ before, Leaves (Draft.Carries w before) x fun a d =>
    V a ∧ d.Carries w (before + moved)

/-- With what the lowering adds, which may be the end, the registers are so much further on. -/
def Brings (w : Watch κ) (x : Lowering α) (moved : κ → Int) : Prop :=
  ∀ before, Leaves (Draft.Carries w before) x fun _ d =>
    d.Brings w (before + moved)

theorem moves_pure {a : α} (holds : V a) : Moves w (pure a) 0 V := by
  intro before
  refine leaves_pure a fun d carries => ⟨holds, ?_⟩
  rwa [add_zero]

theorem moves_bind {x : Lowering α} {f : α → Lowering β} (first : Moves w x moved V)
    (second : ∀ a, V a → Moves w (f a) later W) :
    Moves w (x >>= f) (moved + later) W := by
  intro before
  refine leaves_bind (first before) fun a d between => ?_
  rw [← add_assoc]
  exact second a between.1 _ d between.2

theorem brings_bind {x : Lowering α} {f : α → Lowering β} (first : Moves w x moved V)
    (second : ∀ a, V a → Brings w (f a) later) : Brings w (x >>= f) (moved + later) := by
  intro before
  refine leaves_bind (first before) fun a d between => ?_
  rw [← add_assoc]
  exact second a between.1 _ d between.2

theorem Moves.brings {x : Lowering α} (moves : Moves w x moved V) : Brings w x moved := by
  intro before d start
  have left := moves before d start
  cases ran : x.run d with
  | error refusal =>
      rw [ran] at left
      exact left
  | ok out =>
      rw [ran] at left
      exact left.2.brings

theorem moves_operand {e : Except Fault α} {f : α → Lowering β} (read : Reads e)
    (then_ : ∀ a, e = .ok a → Moves w (f a) moved W) : Moves w (liftM e >>= f) moved W := by
  cases e with
  | error fault => exact fun _ d _ => read fault rfl
  | ok a => exact then_ a rfl

theorem brings_operand {e : Except Fault α} {f : α → Lowering β} (read : Reads e)
    (then_ : ∀ a, e = .ok a → Brings w (f a) moved) : Brings w (liftM e >>= f) moved := by
  cases e with
  | error fault => exact fun _ d _ => read fault rfl
  | ok a => exact then_ a rfl

theorem moves_assign {dst : Expr} (apart : w.Apart dst) (src : Expr) :
    Moves w (assign dst src) 0 fun _ => True := by
  intro before
  refine leaves_write fun d carries => ⟨trivial, ?_⟩
  rw [add_zero]
  exact carries.assign apart src

theorem moves_addInt [DecidableEq κ] (k : κ) {delta : Int} (short : delta.natAbs < 2 ^ 64) :
    Moves w (assign (.identifier (w.id k)) ((Expr.identifier (w.id k)).addInt delta))
      (Pi.single k delta) fun _ => True := by
  intro before
  refine leaves_write fun d carries => ⟨trivial, carries.valid, ?_⟩
  exact carries.carries.append (Watch.carries_addInt k short)

theorem moves_apply (name : String) (type : DataType) (arguments : List Expr) :
    Moves w (apply name type arguments) 0 fun _ => True := by
  intro before
  refine leaves_modifyGet fun d carries => ⟨trivial, carries.valid, ?_⟩
  rw [add_zero]
  exact carries.carries

theorem moves_copy (model : FlagModel) (mode : CopyMode) {dst : Expr} (src : Expr)
    (apart : w.Apart dst) (group : w.Apart (.identifier model.group))
    (carry : w.Apart (.identifier model.carry)) :
    Moves w (copy model mode dst src) 0 fun _ => True := by
  intro before
  refine leaves_modifyGet fun d carries => ⟨trivial, ?_⟩
  rw [add_zero]
  exact carries.copy mode src apart group carry

theorem brings_branch (condition : Expr) (target : Nat) :
    Brings w (branch condition target) 0 := by
  intro before
  refine leaves_write fun d carries => ⟨nofun, ?_⟩
  exact carries.carries.brings (Watch.brings_singleton rfl)

end Lowering

end RegisterTransfer
