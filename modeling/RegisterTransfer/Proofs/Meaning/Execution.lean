/-
# RegisterTransfer.Proofs.Meaning.Execution -- running statements

Statements run one after the other, and each reads the state at its moment.  A statement may move
control, and then the ones after it do not run.

* `State.run_append_of_falls`: two lists one after the other;
* `State.run_mapIntrinsics`: of intrinsics only the names matter;
* `State.run_setRegister`: statements that name no register of a family neither read nor change one;
* `Cluster.Repeats`: running a cluster again as long as control comes back to it.
-/
import RegisterTransfer.Proofs.Meaning.Arithmetic
import RegisterTransfer.Statement

namespace RegisterTransfer

set_option autoImplicit false

/-- How control leaves some statements. -/
inductive Exit where
  | jump (target : Nat)
  | call (target returnSize : Nat)
  | ret (returnSize extraBytes : Nat)
  /-- There was no instruction. -/
  | stuck
deriving DecidableEq

namespace Expr

/-- The flags that an expression names. -/
def flags? : Expr → Option (String × Nat)
  | identifier ⟨_, _, .flags register mask⟩ => some (register, mask)
  | _ => none

/-- The expression whose condition codes an expression is. -/
def codes? : Expr → Option Expr
  | conditionCodes e => some e
  | _ => none

end Expr

namespace State

variable {ρ : Type} [RegisterFile ρ] (I : Interpretation)

/-- Put a number into the storage that an expression denotes.  Addresses are those of another state,
the one before the transfer. -/
def put (before : State ρ) : Expr → Nat → State ρ → State ρ
  | .identifier id, value, σ => σ.set id value
  | .memory t ea, value, σ =>
      σ.store none ea.type.bits (ea.eval I before) t.bytes value
  | .segmented t segment ea, value, σ =>
      σ.store (some (segment.eval I before)) ea.type.bits (ea.eval I before) t.bytes value
  | .concat _ high low, value, σ =>
      put before high (value >>> low.type.bits) (put before low value σ)
  | _, _, σ => σ

/-- The state after a transfer.  Condition codes set each flag of a group on its own. -/
def assign (σ : State ρ) (dst src : Expr) : State ρ :=
  match dst.flags?, src.codes? with
  | some (register, mask), some e =>
      σ.setFlags register mask fun bit => I.flag register bit (e.outcome I σ)
  | _, _ => put I σ dst (src.eval I σ) σ

/-- Run a statement. -/
def exec (σ : State ρ) : Statement → State ρ × Option Exit
  | .assign dst src =>
      ((σ.assign I dst src).record (dst.applications I σ ++ src.applications I σ), none)
  | .branch condition target =>
      (σ.record (condition.applications I σ),
        if condition.eval I σ = 0 then none else some (.jump target))
  | .goto target => (σ.record (target.applications I σ), some (.jump (target.eval I σ)))
  | .call target returnSize =>
      (σ.record (target.applications I σ), some (.call (target.eval I σ) returnSize))
  | .ret returnSize extraBytes => (σ, some (.ret returnSize extraBytes))
  | .effect e => (σ.record (e.applications I σ), none)
  | .guarded condition body =>
      if condition.eval I σ = 0 then (σ.record (condition.applications I σ), none)
      else exec (σ.record (condition.applications I σ)) body
  | .nop => (σ, none)
  | .invalid => (σ, some .stuck)

/-- Run statements until control leaves them. -/
def run (σ : State ρ) : List Statement → State ρ × Option Exit
  | [] => (σ, none)
  | s :: rest =>
      match σ.exec I s with
      | (τ, none) => run τ rest
      | (τ, some exit) => (τ, some exit)

variable {I}

/-! ## Transfers to registers -/

theorem assign_register (σ : State ρ) {id : Identifier} (register : id.IsRegister) (src : Expr) :
    σ.assign I (.identifier id) src = σ.setRegister id (src.eval I σ) := by
  have stored := σ.set_of_isRegister (src.eval I σ) register
  obtain ⟨name, type, storage⟩ := id
  obtain ⟨family, lowest, width, rfl⟩ := register
  exact stored

/-- A register moved by a number. -/
theorem exec_addInt (σ : State ρ) {id : Identifier} (register : id.IsRegister) {n : Int}
    (short : n.natAbs < 2 ^ 64) :
    σ.exec I (.assign (.identifier id) ((Expr.identifier id).addInt n)) =
      (σ.setRegister id (Bits.ofInt id.bits (σ.get id + n)), none) := by
  rw [exec, assign_register σ register, Expr.eval_addInt _ short, Expr.applications_addInt]
  exact congrArg₂ Prod.mk (record_nil _) rfl

/-! ## Transfers to flags -/

/-- A number is put into an identifier of any kind. -/
theorem assign_identifier (σ : State ρ) (id : Identifier) {src : Expr} (notCodes : src.codes? = none) :
    σ.assign I (.identifier id) src = σ.set id (src.eval I σ) := by
  unfold assign
  rw [notCodes]
  cases (Expr.identifier id).flags? <;> rfl

/-- Condition codes set each flag of a group on its own. -/
theorem assign_conditionCodes (σ : State ρ) {id : Identifier} {register : String} {mask : Nat}
    (storage : id.storage = .flags register mask) (e : Expr) :
    σ.assign I (.identifier id) (.conditionCodes e) =
      σ.setFlags register mask fun bit => I.flag register bit (e.outcome I σ) := by
  obtain ⟨name, type, _⟩ := id
  cases storage
  rfl

/-! ## One list after another -/

theorem run_cons_of_falls {σ τ : State ρ} {s : Statement} (rest : List Statement)
    (falls : σ.exec I s = (τ, none)) : σ.run I (s :: rest) = τ.run I rest := by
  rw [run, falls]

theorem run_cons_of_leaves {σ τ : State ρ} {s : Statement} {exit : Exit} (rest : List Statement)
    (leaves : σ.exec I s = (τ, some exit)) : σ.run I (s :: rest) = (τ, some exit) := by
  rw [run, leaves]

theorem run_append_of_falls {σ τ : State ρ} {first : List Statement} (second : List Statement)
    (falls : σ.run I first = (τ, none)) : σ.run I (first ++ second) = τ.run I second := by
  induction first generalizing σ with
  | nil =>
      rw [run] at falls
      cases falls
      rfl
  | cons s rest ih =>
      rw [run] at falls
      rw [List.cons_append, run]
      cases step : σ.exec I s with
      | mk next exit =>
          rw [step] at falls
          cases exit with
          | none => exact ih falls
          | some exit => cases falls

/-! ## Intrinsics count by name -/

section Renaming

variable {f : Intrinsic → Intrinsic} (named : ∀ p, (f p).name = p.name)

include named

theorem put_mapIntrinsics (before : State ρ) :
    ∀ (dst : Expr) (value : Nat) (σ : State ρ),
      put I before (dst.mapIntrinsics f) value σ = put I before dst value σ
  | .memory t ea, value, σ => by
      rw [Expr.mapIntrinsics, put, put, Expr.eval_mapIntrinsics named, Expr.type_mapIntrinsics]
  | .segmented t s ea, value, σ => by
      rw [Expr.mapIntrinsics, put, put, Expr.eval_mapIntrinsics named,
        Expr.eval_mapIntrinsics named, Expr.type_mapIntrinsics]
  | .concat t high low, value, σ => by
      rw [Expr.mapIntrinsics, put, put, put_mapIntrinsics before low,
        put_mapIntrinsics before high, Expr.type_mapIntrinsics]
  | .identifier _, _, _ | .constant _, _, _ | .address _, _, _ | .binary .., _, _
  | .unary .., _, _ | .slice .., _, _ | .cast .., _, _ | .conditionCodes _, _, _ | .test .., _, _
  | .apply .., _, _ => rfl

theorem assign_mapIntrinsics (σ : State ρ) (dst src : Expr) :
    σ.assign I (dst.mapIntrinsics f) (src.mapIntrinsics f) = σ.assign I dst src := by
  have flags : (dst.mapIntrinsics f).flags? = dst.flags? := by
    cases dst <;> rfl
  have codes : (src.mapIntrinsics f).codes? = src.codes?.map (·.mapIntrinsics f) := by
    cases src <;> rfl
  unfold assign
  rw [flags, codes, put_mapIntrinsics named, Expr.eval_mapIntrinsics named]
  cases dst.flags? with
  | none => rfl
  | some group =>
      cases src.codes? with
      | none => rfl
      | some e =>
          show σ.setFlags _ _ _ = σ.setFlags _ _ _
          rw [Expr.outcome_mapIntrinsics named]

theorem exec_mapIntrinsics (σ : State ρ) (s : Statement) :
    σ.exec I (s.mapIntrinsics f) = σ.exec I s := by
  induction s generalizing σ with
  | assign dst src =>
      rw [Statement.mapIntrinsics, exec, exec, assign_mapIntrinsics named,
        Expr.applications_mapIntrinsics named, Expr.applications_mapIntrinsics named]
  | branch condition target =>
      rw [Statement.mapIntrinsics, exec, exec, Expr.applications_mapIntrinsics named,
        Expr.eval_mapIntrinsics named]
  | goto target =>
      rw [Statement.mapIntrinsics, exec, exec, Expr.applications_mapIntrinsics named,
        Expr.eval_mapIntrinsics named]
  | call target returnSize =>
      rw [Statement.mapIntrinsics, exec, exec, Expr.applications_mapIntrinsics named,
        Expr.eval_mapIntrinsics named]
  | effect e =>
      rw [Statement.mapIntrinsics, exec, exec, Expr.applications_mapIntrinsics named]
  | guarded condition body ih =>
      rw [Statement.mapIntrinsics, exec, exec, Expr.applications_mapIntrinsics named,
        Expr.eval_mapIntrinsics named, ih]
  | ret returnSize extraBytes => rfl
  | nop => rfl
  | invalid => rfl

/-- Statements run alike whichever intrinsics of the same names they show. -/
theorem run_mapIntrinsics (σ : State ρ) (statements : List Statement) :
    σ.run I (statements.map (·.mapIntrinsics f)) = σ.run I statements := by
  induction statements generalizing σ with
  | nil => rfl
  | cons s rest ih =>
      rw [List.map_cons, run, run, exec_mapIntrinsics named]
      cases step : σ.exec I s with
      | mk next exit =>
          cases exit with
          | none => exact ih next
          | some exit => rfl

end Renaming

end State

/-! ## What statements leave alone -/

/-- Some expressions name no register of a family. -/
def Avoid (parts : List Expr) (family : Nat) : Prop :=
  ∀ id, .identifier id ∈ parts → id.Outside family

namespace Avoid

variable {family : Nat}

theorem left {parts more : List Expr} (avoid : Avoid (parts ++ more) family) :
    Avoid parts family :=
  fun id found => avoid id (List.mem_append_left _ found)

theorem right {parts more : List Expr} (avoid : Avoid (parts ++ more) family) :
    Avoid more family :=
  fun id found => avoid id (List.mem_append_right _ found)

theorem tail {e : Expr} {parts : List Expr} (avoid : Avoid (e :: parts) family) :
    Avoid parts family :=
  fun id found => avoid id (List.mem_cons_of_mem _ found)

theorem append {parts more : List Expr} (first : Avoid parts family)
    (second : Avoid more family) : Avoid (parts ++ more) family := by
  intro id found
  rcases List.mem_append.mp found with inFirst | inSecond
  · exact first id inFirst
  · exact second id inSecond

/-- An expression that is no identifier names what its operands name. -/
theorem cons {e : Expr} {parts : List Expr} (compound : e.identifier? = none)
    (avoid : Avoid parts family) : Avoid (e :: parts) family := by
  intro id found
  rcases List.mem_cons.mp found with rfl | inside
  · cases compound
  · exact avoid id inside

theorem identifier {id : Identifier} (outside : id.Outside family) :
    Avoid (Expr.identifier id).parts family := by
  intro other found
  rw [Expr.parts, List.mem_singleton, Expr.identifier.injEq] at found
  rw [found]
  exact outside

theorem constant (c : Constant) : Avoid (Expr.constant c).parts family := by
  intro id found
  rw [Expr.parts, List.mem_singleton] at found
  cases found

theorem binary {l r : Expr} (op : BinaryOp) (t : DataType) (left : Avoid l.parts family)
    (right : Avoid r.parts family) : Avoid (Expr.binary op t l r).parts family := by
  rw [Expr.parts]
  exact cons rfl (left.append right)

theorem addInt {e : Expr} (n : Int) (avoid : Avoid e.parts family) :
    Avoid (e.addInt n).parts family := by
  unfold Expr.addInt
  split
  · exact binary _ _ avoid (constant _)
  · exact binary _ _ avoid (constant _)

theorem memoryIn {segment : Option Expr} {ea : Expr} (t : DataType)
    (inSegment : ∀ s, segment = some s → Avoid s.parts family) (inAddress : Avoid ea.parts family) :
    Avoid (Expr.memoryIn segment t ea).parts family := by
  cases segment with
  | none =>
      rw [Expr.memoryIn, Expr.parts]
      exact cons rfl inAddress
  | some s =>
      rw [Expr.memoryIn, Expr.parts]
      exact cons rfl ((inSegment s rfl).append inAddress)

theorem conditionCodes {e : Expr} (avoid : Avoid e.parts family) :
    Avoid (Expr.conditionCodes e).parts family := by
  rw [Expr.parts]
  exact cons rfl avoid

theorem apply (p : Intrinsic) (t : DataType) {arguments : List Expr}
    (each : ∀ e, e ∈ arguments → Avoid e.parts family) :
    Avoid (Expr.apply p t arguments).parts family := by
  rw [Expr.parts]
  refine cons rfl ?_
  induction arguments with
  | nil => exact fun _ found => by cases found
  | cons e rest ih =>
      rw [Expr.partsList]
      refine (each e List.mem_cons_self).append (ih ?_)
      exact fun e found => each e (List.mem_cons_of_mem _ found)

end Avoid

namespace State

variable {ρ : Type} [RegisterFile ρ] [LawfulRegisterFile ρ] {I : Interpretation}
variable {id : Identifier} (v : Nat)

theorem agree_setRegister {parts : List Expr} (avoid : Avoid parts id.family) (σ : State ρ) :
    Expr.Agree (σ.setRegister id v) σ parts :=
  ⟨fun _ found => get_set_of_outside σ v (avoid _ found), rfl, rfl⟩

theorem put_setRegister (before : State ρ) :
    ∀ (dst : Expr) (value : Nat) (σ : State ρ), Avoid dst.parts id.family →
      put I (before.setRegister id v) dst value (σ.setRegister id v) =
        (put I before dst value σ).setRegister id v
  | .identifier other, value, σ, avoid =>
      set_comm_of_outside σ v value (avoid other (by rw [Expr.parts]; exact List.mem_cons_self))
  | .memory t ea, value, σ, avoid => by
      rw [Expr.parts] at avoid
      rw [put, put, Expr.eval_congr ea (agree_setRegister v avoid.tail before)]
      rfl
  | .segmented t s ea, value, σ, avoid => by
      rw [Expr.parts] at avoid
      rw [put, put, Expr.eval_congr s (agree_setRegister v avoid.tail.left before),
        Expr.eval_congr ea (agree_setRegister v avoid.tail.right before)]
      rfl
  | .concat t high low, value, σ, avoid => by
      rw [Expr.parts] at avoid
      rw [put, put, put_setRegister before low _ _ avoid.tail.right,
        put_setRegister before high _ _ avoid.tail.left]
  | .constant _, _, _, _ | .address _, _, _, _ | .binary .., _, _, _ | .unary .., _, _, _
  | .slice .., _, _, _ | .cast .., _, _, _ | .conditionCodes _, _, _, _ | .test .., _, _, _
  | .apply .., _, _, _ => rfl

theorem assign_setRegister (σ : State ρ) (dst src : Expr)
    (avoid : Avoid (dst.parts ++ src.parts) id.family) :
    (σ.setRegister id v).assign I dst src = (σ.assign I dst src).setRegister id v := by
  have value := Expr.eval_congr (I := I) src (agree_setRegister v avoid.right σ)
  have stored := put_setRegister (I := I) v σ dst (src.eval I σ) σ avoid.left
  unfold assign
  rw [value, stored]
  cases dst.flags? with
  | none => rfl
  | some group =>
      cases codes : src.codes? with
      | none => rfl
      | some e =>
          have inside : Avoid e.parts id.family := by
            cases src with
            | conditionCodes e' =>
                cases codes
                have avoidSrc := avoid.right
                rw [Expr.parts] at avoidSrc
                exact avoidSrc.tail
            | _ => cases codes
          show (σ.setRegister id v).setFlags _ _ _ = (σ.setFlags _ _ _).setRegister id v
          rw [Expr.outcome_congr e (agree_setRegister v inside σ)]
          rfl

theorem exec_setRegister (σ : State ρ) (s : Statement) (avoid : Avoid s.parts id.family) :
    (σ.setRegister id v).exec I s =
      ((σ.exec I s).1.setRegister id v, (σ.exec I s).2) := by
  induction s generalizing σ with
  | assign dst src =>
      rw [exec, exec, assign_setRegister v σ dst src avoid,
        Expr.applications_congr dst (agree_setRegister v avoid.left σ),
        Expr.applications_congr src (agree_setRegister v avoid.right σ)]
      rfl
  | branch condition target =>
      rw [exec, exec, Expr.applications_congr condition (agree_setRegister v avoid σ),
        Expr.eval_congr condition (agree_setRegister v avoid σ)]
      rfl
  | goto target =>
      rw [exec, exec, Expr.applications_congr target (agree_setRegister v avoid σ),
        Expr.eval_congr target (agree_setRegister v avoid σ)]
      rfl
  | call target returnSize =>
      rw [exec, exec, Expr.applications_congr target (agree_setRegister v avoid σ),
        Expr.eval_congr target (agree_setRegister v avoid σ)]
      rfl
  | effect e =>
      rw [exec, exec, Expr.applications_congr e (agree_setRegister v avoid σ)]
      rfl
  | guarded condition body ih =>
      rw [exec, exec, Expr.applications_congr condition (agree_setRegister v avoid.left σ),
        Expr.eval_congr condition (agree_setRegister v avoid.left σ)]
      split
      · rfl
      · exact ih (σ.record (condition.applications I σ)) avoid.right
  | ret returnSize extraBytes => rfl
  | nop => rfl
  | invalid => rfl

/-- Statements that name no register of a family run alike whatever such a register holds, and leave
it as it is. -/
theorem run_setRegister (σ : State ρ) {statements : List Statement}
    (avoid : ∀ s, s ∈ statements → Avoid s.parts id.family) :
    (σ.setRegister id v).run I statements =
      ((σ.run I statements).1.setRegister id v, (σ.run I statements).2) := by
  induction statements generalizing σ with
  | nil => rfl
  | cons s rest ih =>
      rw [run, run, exec_setRegister v σ s (avoid s List.mem_cons_self)]
      cases step : σ.exec I s with
      | mk next exit =>
          cases exit with
          | none => exact ih next fun s found => avoid s (List.mem_cons_of_mem _ found)
          | some exit => rfl

/-- Statements that name no register of a family leave such a register as it is. -/
theorem get_run_of_avoid (register : id.IsRegister) (σ : State ρ) {statements : List Statement}
    (avoid : ∀ s, s ∈ statements → Avoid s.parts id.family) :
    (σ.run I statements).1.get id = σ.get id := by
  have kept := run_setRegister (I := I) (σ.get id) σ avoid
  rw [setRegister_get σ register] at kept
  rw [kept, get_setRegister _ _ register]
  exact Nat.mod_eq_of_lt (get_lt σ register)

/-- Run statements some number of times, whatever control does. -/
def runTimes (I : Interpretation) (statements : List Statement) : Nat → State ρ → State ρ
  | 0, σ => σ
  | n + 1, σ => runTimes I statements n (σ.run I statements).1

theorem runTimes_setRegister (σ : State ρ) {statements : List Statement}
    (avoid : ∀ s, s ∈ statements → Avoid s.parts id.family) (n : Nat) :
    runTimes I statements n (σ.setRegister id v) =
      (runTimes I statements n σ).setRegister id v := by
  induction n generalizing σ with
  | zero => rfl
  | succ n ih =>
      rw [runTimes, run_setRegister v σ avoid]
      exact ih _

end State

/-! ## Statements that do not move control -/

/-- Whether control always goes on after a statement. -/
def Statement.isStraight : Statement → Bool
  | assign .. | effect _ | nop => true
  | guarded _ body => body.isStraight
  | branch .. | goto _ | call .. | ret .. | invalid => false

namespace State

variable {ρ : Type} [RegisterFile ρ] {I : Interpretation}

theorem exec_of_isStraight (σ : State ρ) {s : Statement} (straight : s.isStraight = true) :
    (σ.exec I s).2 = none := by
  induction s generalizing σ with
  | assign dst src => rfl
  | effect e => rfl
  | nop => rfl
  | guarded condition body ih =>
      rw [exec]
      split
      · rfl
      · exact ih _ straight
  | branch | goto | call | ret | invalid => cases straight

theorem run_of_isStraight (σ : State ρ) {statements : List Statement}
    (straight : ∀ s, s ∈ statements → s.isStraight = true) : (σ.run I statements).2 = none := by
  induction statements generalizing σ with
  | nil => rfl
  | cons s rest ih =>
      have falls := exec_of_isStraight (I := I) σ (straight s List.mem_cons_self)
      rw [run_cons_of_falls rest (Prod.ext rfl falls)]
      exact ih _ fun s found => straight s (List.mem_cons_of_mem _ found)

end State

/-! ## Clusters -/

namespace Cluster

variable {ρ : Type} [RegisterFile ρ] (I : Interpretation) (c : Cluster)

/-- Run a cluster.  Control that does not leave it goes to the address after it. -/
def step (σ : State ρ) : State ρ × Exit :=
  match σ.run I c.statements with
  | (τ, none) => (τ, .jump c.endAddress)
  | (τ, some exit) => (τ, exit)

/-- Running a cluster again as long as control comes back to its address, up to the state in which
control goes elsewhere. -/
inductive Repeats : State ρ → State ρ → Exit → Prop
  | leaves {σ τ : State ρ} {exit : Exit} (step : c.step I σ = (τ, exit))
      (elsewhere : exit ≠ .jump c.address) : Repeats σ τ exit
  | again {σ τ υ : State ρ} {exit : Exit} (step : c.step I σ = (τ, .jump c.address))
      (rest : Repeats τ υ exit) : Repeats σ υ exit

variable {I c}

/-- Repetition ends in one way at most. -/
theorem Repeats.unique {σ τ υ : State ρ} {exit exit' : Exit} (one : c.Repeats I σ τ exit)
    (other : c.Repeats I σ υ exit') : τ = υ ∧ exit = exit' := by
  induction one with
  | leaves step elsewhere =>
      cases other with
      | leaves step' _ => exact Prod.mk.inj (step.symm.trans step')
      | again step' _ => exact absurd (Prod.mk.inj (step.symm.trans step')).2 elsewhere
  | again step _ ih =>
      cases other with
      | leaves step' elsewhere =>
          exact absurd (Prod.mk.inj (step'.symm.trans step)).2 elsewhere
      | again step' rest =>
          obtain ⟨rfl, _⟩ := Prod.mk.inj (step.symm.trans step')
          exact ih rest

end Cluster

end RegisterTransfer
