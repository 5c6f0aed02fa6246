/-
# RegisterTransfer.Proofs.Meaning.Frame -- what evaluating reads and what running changes

The value of an expression depends on the identifiers in it, memory and the history
(`Expr.eval_of_identifiers`), and an expression without intrinsics applies none.

On registers that share their bits, writing one leaves alone what has no bit in common with it
(`State.get_setRegister_of_apart`).  On registers that are cells of their own, a register that is no
target of a statement keeps its contents: one transfer, one statement, a list of statements and any
sequence of clusters in turn (`State.get_runEach_of_not_mem`).  Transfers from some registers to others
leave in each target what its source held (`State.run_transfers`).
-/
import RegisterTransfer.Proofs.Expr.Names
import RegisterTransfer.Proofs.Meaning.Execution

namespace RegisterTransfer

set_option autoImplicit false

/-! ## Reading -/

namespace Expr

variable {ρ : Type} [RegisterFile ρ] {I : Interpretation} {σ τ : State ρ}

theorem eval_of_identifiers (e : Expr) (same : ∀ id, id ∈ e.identifiers → σ.get id = τ.get id)
    (memory : σ.memory = τ.memory) (history : σ.history = τ.history) :
    e.eval I σ = e.eval I τ :=
  eval_congr e ⟨fun id inside => same id (mem_identifiers.mpr inside), memory, history⟩

/-- An expression without intrinsics applies none. -/
theorem applications_of_plain (σ : State ρ) : ∀ e : Expr, e.uses = [] → e.applications I σ = []
  | identifier _, _ | constant _, _ | address _, _ => rfl
  | binary _ _ a b, plain | segmented _ a b, plain | concat _ a b, plain => by
      simp only [uses_binary, uses_segmented, uses_concat, List.append_eq_nil_iff] at plain
      rw [applications, applications_of_plain σ a plain.1, applications_of_plain σ b plain.2]
      rfl
  | unary _ _ e, plain | memory _ e, plain | slice _ e _, plain | cast _ e, plain
  | conditionCodes e, plain | test _ e, plain => by
      rw [applications]
      exact applications_of_plain σ e plain
  | apply _ _ _, plain => by simp at plain

end Expr

/-! ## Changing -/

namespace State

section Transfers

variable {ρ : Type} [RegisterFile ρ] {I : Interpretation}

/-- A transfer to plain storage by an expression that applies nothing. -/
theorem exec_assign_of_plain (σ : State ρ) {dst src : Expr} (into : dst.uses = [])
    (plain : src.uses = []) : σ.exec I (.assign dst src) = (σ.assign I dst src, none) := by
  rw [exec, Expr.applications_of_plain σ dst into, Expr.applications_of_plain σ src plain]
  exact congrArg₂ Prod.mk (record_nil _) rfl

end Transfers

/-- Writing a register that shares its bits leaves alone what has none in common with it. -/
theorem get_setRegister_of_apart (σ : State Families) {id other : Identifier} (value : Nat)
    (register : other.IsRegister) (apart : Families.Apart other id) :
    (σ.setRegister id value).get other = σ.get other := by
  rw [get_of_isRegister _ register, get_of_isRegister _ register]
  exact Families.read_write_of_apart σ.registers value apart

/-- Writes to different cells may go in either order. -/
theorem setRegister_comm_of_ne (σ : State Cells) {id other : Identifier} (v w : Nat)
    (different : other ≠ id) :
    (σ.setRegister id v).setRegister other w = (σ.setRegister other w).setRegister id v :=
  congrArg (fun registers => { σ with registers })
    (Cells.write_comm_of_ne σ.registers v w different)

section Cells

variable {I : Interpretation} {id : Identifier} (register : id.IsRegister)

include register

theorem get_setRegister_of_ne {other : Identifier} (σ : State Cells) (value : Nat)
    (different : id ≠ other) : (σ.setRegister other value).get id = σ.get id := by
  rw [get_of_isRegister _ register, get_of_isRegister _ register]
  exact Cells.read_write_of_ne σ.registers value different

theorem get_set_of_ne {other : Identifier} (σ : State Cells) (value : Nat)
    (different : id ≠ other) : (σ.set other value).get id = σ.get id := by
  unfold set
  cases other.storage with
  | register family lowest width => exact get_setRegister_of_ne register σ value different
  | flags name mask => exact get_of_registers register rfl
  | temporary n => exact get_of_registers register rfl

theorem get_put_of_not_mem (before : State Cells) :
    ∀ (dst : Expr) (value : Nat) (σ : State Cells), id ∉ dst.targets →
      (put I before dst value σ).get id = σ.get id
  | .identifier other, value, σ, apart =>
      get_set_of_ne register σ value fun same => apart (same ▸ List.mem_singleton_self other)
  | .memory _ _, _, _, _ => get_of_registers register rfl
  | .segmented _ _ _, _, _, _ => get_of_registers register rfl
  | .concat _ high low, value, σ, apart => by
      rw [Expr.targets, List.mem_append, not_or] at apart
      rw [put, get_put_of_not_mem before high _ _ apart.1,
        get_put_of_not_mem before low _ _ apart.2]
  | .constant _, _, _, _ | .address _, _, _, _ | .binary .., _, _, _ | .unary .., _, _, _
  | .slice .., _, _, _ | .cast .., _, _, _ | .conditionCodes _, _, _, _ | .test .., _, _, _
  | .apply .., _, _, _ => rfl

theorem get_assign_of_not_mem (σ : State Cells) {dst : Expr} (src : Expr)
    (apart : id ∉ dst.targets) : (σ.assign I dst src).get id = σ.get id := by
  unfold assign
  split
  · exact get_of_registers register rfl
  · exact get_put_of_not_mem register σ dst _ σ apart

theorem get_exec_of_not_mem (σ : State Cells) {s : Statement} (apart : id ∉ s.targets) :
    (σ.exec I s).1.get id = σ.get id := by
  have recorded : ∀ (τ : State Cells) (applied : List Application),
      (τ.record applied).get id = τ.get id := fun _ _ => get_of_registers register rfl
  induction s generalizing σ with
  | assign dst src =>
      rw [Statement.targets_assign] at apart
      rw [exec, recorded, get_assign_of_not_mem register σ src apart]
  | guarded condition body ih =>
      rw [exec]
      split
      · exact recorded _ _
      · exact (ih _ apart).trans (recorded _ _)
  | branch | goto | call | effect => exact recorded _ _
  | ret | nop | invalid => rfl

/-- Statements keep every register that is no target of theirs. -/
theorem get_run_of_not_mem (σ : State Cells) {statements : List Statement}
    (apart : ∀ s, s ∈ statements → id ∉ s.targets) :
    (σ.run I statements).1.get id = σ.get id := by
  induction statements generalizing σ with
  | nil => rfl
  | cons s rest ih =>
      have first := get_exec_of_not_mem (I := I) register σ (apart s List.mem_cons_self)
      have later := fun τ => ih τ fun s found => apart s (List.mem_cons_of_mem _ found)
      rw [run]
      cases step : σ.exec I s with
      | mk next exit =>
          rw [step] at first
          cases exit with
          | none => exact (later next).trans first
          | some exit => exact first

end Cells

end State

/-! ## Registers copied to registers -/

/-- One transfer for each pair, from the first register to the second. -/
def transfers (pairs : List (Identifier × Identifier)) : List Statement :=
  pairs.map fun pair => .assign (.identifier pair.2) (.identifier pair.1)

theorem mem_targets_transfers {pairs : List (Identifier × Identifier)} {id : Identifier} {s : Statement}
    (listed : s ∈ transfers pairs) (changed : id ∈ s.targets) : id ∈ pairs.map (·.2) := by
  obtain ⟨pair, among, rfl⟩ := List.mem_map.mp listed
  rw [Statement.targets_assign] at changed
  rw [List.mem_singleton.mp changed]
  exact List.mem_map_of_mem among

namespace State

variable {I : Interpretation}

/-- Transfers between registers of which none is both read and written leave in each target what its
source held. -/
theorem run_transfers (σ : State Cells) (pairs : List (Identifier × Identifier))
    (registers : ∀ pair, pair ∈ pairs → pair.1.IsRegister ∧ pair.2.IsRegister)
    (distinct : (pairs.map (·.2)).Nodup)
    (apart : ∀ pair, pair ∈ pairs → pair.1 ∉ pairs.map (·.2)) :
    ∃ τ, σ.run I (transfers pairs) = (τ, none) ∧
      ∀ pair, pair ∈ pairs → τ.get pair.2 = σ.get pair.1 % 2 ^ pair.2.bits := by
  induction pairs generalizing σ with
  | nil => exact ⟨σ, rfl, fun pair listed => by cases listed⟩
  | cons first rest ih =>
      rw [List.map_cons, List.nodup_cons] at distinct
      obtain ⟨source, target⟩ := registers first List.mem_cons_self
      have step : σ.exec I (.assign (.identifier first.2) (.identifier first.1)) =
          (σ.setRegister first.2 (σ.get first.1), none) := by
        rw [exec_assign_of_plain σ rfl rfl, assign_register σ target]
        rfl
      obtain ⟨τ, ran, copied⟩ := ih (σ.setRegister first.2 (σ.get first.1))
        (fun pair later => registers pair (List.mem_cons_of_mem _ later)) distinct.2
        fun pair later written =>
          apart pair (List.mem_cons_of_mem _ later) (List.mem_cons_of_mem _ written)
      refine ⟨τ, (run_cons_of_falls _ step).trans ran, fun pair listed => ?_⟩
      rcases List.mem_cons.mp listed with rfl | later
      · -- the later transfers go to other registers
        have kept := get_run_of_not_mem (I := I) target (σ.setRegister pair.2 (σ.get pair.1))
          fun s inside changed => distinct.1 (mem_targets_transfers inside changed)
        rw [ran] at kept
        exact kept.trans (get_setRegister σ _ target)
      · have other : pair.1 ≠ first.2 := fun same =>
          apart pair (List.mem_cons_of_mem _ later) (same ▸ List.mem_cons_self)
        have source' := (registers pair (List.mem_cons_of_mem _ later)).1
        have before : (σ.setRegister first.2 (σ.get first.1)).get pair.1 = σ.get pair.1 := by
          rw [← set_of_isRegister σ _ target]
          exact get_set_of_ne source' σ _ other
        rw [copied pair later, before]

end State

/-! ## Clusters in turn -/

/-- The state after some clusters ran one after the other, wherever control went. -/
def State.runEach {ρ : Type} [RegisterFile ρ] (I : Interpretation) (σ : State ρ) :
    List Cluster → State ρ
  | [] => σ
  | c :: rest => runEach I (σ.run I c.statements).1 rest

theorem State.runEach_append {ρ : Type} [RegisterFile ρ] {I : Interpretation} (σ : State ρ)
    (first second : List Cluster) :
    σ.runEach I (first ++ second) = (σ.runEach I first).runEach I second := by
  induction first generalizing σ with
  | nil => rfl
  | cons c rest ih => exact ih _

/-- Clusters that never have a register as a target keep it, in any order and number. -/
theorem State.get_runEach_of_not_mem {I : Interpretation} {id : Identifier}
    (register : id.IsRegister) (σ : State Cells) {order : List Cluster}
    (apart : ∀ c, c ∈ order → ∀ s, s ∈ c.statements → id ∉ s.targets) :
    (σ.runEach I order).get id = σ.get id := by
  induction order generalizing σ with
  | nil => rfl
  | cons c rest ih =>
      rw [runEach, ih _ fun c found => apart c (List.mem_cons_of_mem _ found)]
      exact get_run_of_not_mem register σ (apart c List.mem_cons_self)

end RegisterTransfer
