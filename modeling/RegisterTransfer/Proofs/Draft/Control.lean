/-
# RegisterTransfer.Proofs.Draft.Control -- what the class of a cluster promises

A draft keeps its class in a field that the statements which move control overwrite, and that a
back-end may set by hand.  `Controlled start stop flow statements` says what each class promises of
the statements of a cluster from `start` to `stop`, and `Cluster.Classified` says it of a cluster.

There is one lemma for each shape that a lowering can end in: statements that move no control
(`Controlled.linear`, `Controlled.halt`), one last statement that does (`transfer`, `call`, `ret`,
`branch`), the marker alone (`invalid`), and a loop around the cluster (`loop`).
-/
import RegisterTransfer.Proofs.Meaning.Execution

namespace RegisterTransfer

set_option autoImplicit false

/-! ## What a class promises -/

/-- The ways a statement moves control. -/
inductive Control where
  | branch | goto | call | ret
deriving DecidableEq

namespace Statement

/-- How a statement moves control, if it does.  One under a condition does it as its body does. -/
def control? : Statement → Option Control
  | branch .. => some .branch
  | goto _ => some .goto
  | call .. => some .call
  | ret .. => some .ret
  | guarded _ body => body.control?
  | assign .. | effect _ | nop | invalid => none

theorem control?_of_isStraight {s : Statement} (straight : s.isStraight = true) :
    s.control? = none := by
  induction s with
  | guarded condition body ih => exact ih straight
  | assign | effect | nop => rfl
  | branch | goto | call | ret | invalid => cases straight

@[simp]
theorem control?_mapIntrinsics (f : Intrinsic → Intrinsic) (s : Statement) :
    (s.mapIntrinsics f).control? = s.control? := by
  induction s <;> simp_all [mapIntrinsics, control?]

@[simp]
theorem mapIntrinsics_eq_invalid_iff (f : Intrinsic → Intrinsic) (s : Statement) :
    s.mapIntrinsics f = .invalid ↔ s = .invalid := by
  cases s <;> simp [mapIntrinsics]

end Statement

/-- The class of a cluster from `start` to `stop` agrees with the way its statements move control. -/
structure Controlled (start stop : Nat) (flow : Flow) (statements : List Statement) : Prop where
  invalid_iff : flow = .invalid ↔ statements = [.invalid]
  of_linear : flow = .linear → ∀ s ∈ statements, s.control? = none
  of_transfer : flow = .transfer →
    ∃ front target, statements = front ++ [.goto target] ∧ ∀ s ∈ front, s.control? = none
  of_call : flow = .call →
    ∃ front target size, statements = front ++ [.call target size] ∧ ∀ s ∈ front, s.control? = none
  of_ret : flow = .ret →
    ∃ front size extra, statements = front ++ [.ret size extra] ∧ ∀ s ∈ front, s.control? = none
  of_halt : flow = .halt → ∀ s ∈ statements, s.control? = none
  branches : flow = .conditional → ∃ condition target, .branch condition target ∈ statements
  /-- A jump of a conditional class is the last statement and starts the cluster again. -/
  goes : flow = .conditional → ∀ front s back, statements = front ++ s :: back →
    s.control? = some .goto → back = [] ∧ s = .goto (.address start)
  /-- Control can get to the address behind the cluster unless the class ends a trace. -/
  reaches : flow.endsTrace = false →
    (∀ s, statements.getLast? = some s → s.control? ≠ some .goto ∧ s.control? ≠ some .ret) ∨
      ∃ condition, .branch condition stop ∈ statements

/-- The class of a cluster agrees with its statements. -/
def Cluster.Classified (c : Cluster) : Prop :=
  Controlled c.address c.endAddress c.flow c.statements

namespace Controlled

variable {start stop : Nat} {flow : Flow} {statements front : List Statement}

/-- Statements that add no marker are not the marker alone. -/
theorem ne_marker_of_mem {s : Statement} (found : s ∈ statements) (other : s ≠ .invalid) :
    statements ≠ [.invalid] := by
  rintro rfl
  exact other (List.mem_singleton.mp found)

theorem ne_marker (straight : ∀ s ∈ statements, s.isStraight = true) :
    statements ≠ [.invalid] := by
  rintro rfl
  cases straight _ List.mem_cons_self

theorem control?_of_straight (straight : ∀ s ∈ statements, s.isStraight = true) :
    ∀ s ∈ statements, s.control? = none :=
  fun s found => Statement.control?_of_isStraight (straight s found)

theorem linear (straight : ∀ s ∈ statements, s.isStraight = true) :
    Controlled start stop .linear statements where
  invalid_iff := by simp [ne_marker straight]
  of_linear _ := control?_of_straight straight
  of_transfer := nofun
  of_call := nofun
  of_ret := nofun
  of_halt := nofun
  branches := nofun
  goes := nofun
  reaches _ := by
    left
    intro s last
    have still := control?_of_straight straight s (List.mem_of_getLast? last)
    simp [still]

theorem halt (straight : ∀ s ∈ statements, s.isStraight = true) :
    Controlled start stop .halt statements where
  invalid_iff := by simp [ne_marker straight]
  of_linear := nofun
  of_transfer := nofun
  of_call := nofun
  of_ret := nofun
  of_halt _ := control?_of_straight straight
  branches := nofun
  goes := nofun
  reaches := nofun

theorem invalid : Controlled start stop .invalid [.invalid] where
  invalid_iff := by simp
  of_linear := nofun
  of_transfer := nofun
  of_call := nofun
  of_ret := nofun
  of_halt := nofun
  branches := nofun
  goes := nofun
  reaches := nofun

theorem transfer (straight : ∀ s ∈ front, s.isStraight = true) (target : Expr) :
    Controlled start stop .transfer (front ++ [.goto target]) where
  invalid_iff := by simp [List.append_eq_singleton_iff]
  of_linear := nofun
  of_transfer _ := ⟨front, target, rfl, control?_of_straight straight⟩
  of_call := nofun
  of_ret := nofun
  of_halt := nofun
  branches := nofun
  goes := nofun
  reaches := nofun

theorem call (straight : ∀ s ∈ front, s.isStraight = true) (target : Expr) (size : Nat) :
    Controlled start stop .call (front ++ [.call target size]) where
  invalid_iff := by simp [List.append_eq_singleton_iff]
  of_linear := nofun
  of_transfer := nofun
  of_call _ := ⟨front, target, size, rfl, control?_of_straight straight⟩
  of_ret := nofun
  of_halt := nofun
  branches := nofun
  goes := nofun
  reaches _ := by
    left
    intro s last
    simp only [List.getLast?_concat, Option.some.injEq] at last
    subst last
    simp [Statement.control?]

theorem ret (straight : ∀ s ∈ front, s.isStraight = true) (size extra : Nat) :
    Controlled start stop .ret (front ++ [.ret size extra]) where
  invalid_iff := by simp [List.append_eq_singleton_iff]
  of_linear := nofun
  of_transfer := nofun
  of_call := nofun
  of_ret _ := ⟨front, size, extra, rfl, control?_of_straight straight⟩
  of_halt := nofun
  branches := nofun
  goes := nofun
  reaches := nofun

/-- A class that may go elsewhere, and whose only jump, if there is one, is a last one back to the
start. -/
theorem conditional {condition : Expr} {target : Nat}
    (branches : .branch condition target ∈ statements)
    (goes : ∀ front s back, statements = front ++ s :: back →
      s.control? = some .goto → back = [] ∧ s = .goto (.address start))
    (reaches : (∀ s, statements.getLast? = some s →
        s.control? ≠ some .goto ∧ s.control? ≠ some .ret) ∨
      ∃ condition, .branch condition stop ∈ statements) :
    Controlled start stop .conditional statements where
  invalid_iff := by simp [ne_marker_of_mem branches nofun]
  of_linear := nofun
  of_transfer := nofun
  of_call := nofun
  of_ret := nofun
  of_halt := nofun
  branches _ := ⟨condition, target, branches⟩
  goes _ := goes
  reaches _ := reaches

/-- A branch at the end. -/
theorem branch (straight : ∀ s ∈ front, s.isStraight = true) (condition : Expr) (target : Nat) :
    Controlled start stop .conditional (front ++ [.branch condition target]) := by
  refine conditional (List.mem_append_right _ List.mem_cons_self) ?_ (.inl ?_)
  · intro before s back same jumps
    have found : s ∈ front ++ [.branch condition target] := by
      rw [same]
      exact List.mem_append_right _ List.mem_cons_self
    rcases List.mem_append.mp found with inFront | last
    · rw [control?_of_straight straight s inFront] at jumps
      cases jumps
    · rw [List.mem_singleton.mp last] at jumps
      cases jumps
  · intro s last
    simp only [List.getLast?_concat, Option.some.injEq] at last
    subst last
    simp [Statement.control?]

/-- A loop: some branch leaves to the end of the cluster, and the last statement jumps to its start. -/
theorem loop {condition : Expr} (leaves : .branch condition stop ∈ front)
    (within : ∀ s ∈ front, s.control? ≠ some .goto) :
    Controlled start stop .conditional (front ++ [.goto (.address start)]) := by
  refine conditional (List.mem_append_left _ leaves) ?_
    (.inr ⟨condition, List.mem_append_left _ leaves⟩)
  intro before s back same jumps
  rcases List.eq_nil_or_concat back with rfl | ⟨rest, last, rfl⟩
  · exact ⟨rfl, (List.cons.inj (List.append_inj' same rfl).2).1.symm⟩
  · -- The statement is not the last one, so it is one of those within.
    have inner : front = before ++ s :: rest := by
      rw [List.concat_eq_append, ← List.cons_append, ← List.append_assoc] at same
      exact (List.append_inj' same rfl).1
    have found : s ∈ front := by
      rw [inner]
      exact List.mem_append_right _ List.mem_cons_self
    exact absurd jumps (within s found)

/-- Only the names of intrinsics differ between a draft and its cluster, so the class still agrees. -/
theorem mapIntrinsics (agrees : Controlled start stop flow statements)
    (f : Intrinsic → Intrinsic) :
    Controlled start stop flow (statements.map (·.mapIntrinsics f)) := by
  have still : ∀ {kept : List Statement}, (∀ s ∈ kept, s.control? = none) →
      ∀ s ∈ kept.map (·.mapIntrinsics f), s.control? = none := by
    intro kept none_ s found
    obtain ⟨s', found', rfl⟩ := List.mem_map.mp found
    rw [Statement.control?_mapIntrinsics]
    exact none_ s' found'
  refine ⟨?_, fun is => still (agrees.of_linear is), fun is => ?_, fun is => ?_, fun is => ?_,
    fun is => still (agrees.of_halt is), fun is => ?_, fun is => ?_, fun falls => ?_⟩
  · rw [agrees.invalid_iff, List.map_eq_singleton_iff]
    simp
  · obtain ⟨front, target, rfl, none_⟩ := agrees.of_transfer is
    exact ⟨_, target.mapIntrinsics f, by simp [Statement.mapIntrinsics], still none_⟩
  · obtain ⟨front, target, size, rfl, none_⟩ := agrees.of_call is
    exact ⟨_, target.mapIntrinsics f, size, by simp [Statement.mapIntrinsics], still none_⟩
  · obtain ⟨front, size, extra, rfl, none_⟩ := agrees.of_ret is
    exact ⟨_, size, extra, by simp [Statement.mapIntrinsics], still none_⟩
  · obtain ⟨condition, target, found⟩ := agrees.branches is
    exact ⟨condition.mapIntrinsics f, target, List.mem_map_of_mem found⟩
  · intro front s back same jumps
    obtain ⟨front', rest', rfl, -, same'⟩ := List.map_eq_append_iff.mp same
    obtain ⟨s', back', rfl, rfl, rfl⟩ := List.map_eq_cons_iff.mp same'
    rw [Statement.control?_mapIntrinsics] at jumps
    obtain ⟨rfl, rfl⟩ := agrees.goes is front' s' back' rfl jumps
    exact ⟨rfl, rfl⟩
  · rcases agrees.reaches falls with last | ⟨condition, found⟩
    · left
      intro s ends
      rw [List.getLast?_map] at ends
      obtain ⟨s', ends', rfl⟩ := Option.map_eq_some_iff.mp ends
      rw [Statement.control?_mapIntrinsics]
      exact last s' ends'
    · exact .inr ⟨condition.mapIntrinsics f, List.mem_map_of_mem found⟩

end Controlled

end RegisterTransfer
