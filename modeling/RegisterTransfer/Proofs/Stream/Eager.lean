/-
# RegisterTransfer.Proofs.Stream.Eager -- lazy and eager lowering agree

A cluster stream decodes, looks ahead and lowers in turn.  `Backend.lowerItems` does the same in two
passes: it gets the list of all items and goes through it from the front, showing each instruction
the one after it and leaving out what was absorbed.  `ClusterStream.collect_eq_lowerItems` says that
the two give the same clusters, the same fault and the same table of intrinsics.

The simulation relates a cluster stream to the list of items of its instruction stream.
`ClusterStream.next_of_items_nil`, `next_of_items_fault` and `next_of_items_instruction` are its
steps, one for each shape of the list.
-/
import Mathlib.Algebra.GroupWithZero.Nat
import RegisterTransfer.Proofs.Stream.Items
import RegisterTransfer.Stream.Clusters

namespace RegisterTransfer

set_option autoImplicit false

open InstructionStream

namespace Cluster

/-- The first cluster begins at an address and every other one where the one before it ends. -/
def Tile : Nat → List Cluster → Prop
  | _, [] => True
  | address, c :: rest => c.address = address ∧ Tile c.endAddress rest

/-- The bytes that clusters cover. -/
def covered (clusters : List Cluster) : Nat := (clusters.map (·.length)).sum

end Cluster

variable {ι : Type} [MachineInstruction ι]

namespace Backend

/-- The cluster of an instruction that was lowered with a view of the one after it. -/
def clusterOf (i : ι) (next : Option ι) (lowered : Lowered) : Cluster where
  address := MachineInstruction.address i
  length := MachineInstruction.length i +
    if lowered.absorbed then (next.map MachineInstruction.length).getD 0 else 0
  flow := lowered.flow
  statements := lowered.statements

omit [MachineInstruction ι] in
/-- A lowering that succeeds against a table has a draft whose requests the table granted, and gives its
statements with the table's entries in them. -/
theorem drafted_of_lowered {b : Backend ι} {i : ι} {next : Option ι} {t t' : IntrinsicTable}
    {l : Lowered} (lowered : b.lowerWith i next t = (.ok l, t')) :
    ∃ d, b.draft i next = .ok (l.absorbed, d) ∧ t.ensureAll d.requests = (.ok (), t') ∧
      l.flow = d.flow ∧ l.statements = d.statements.map (·.mapIntrinsics t'.resolve) := by
  unfold lowerWith at lowered
  cases drafted : b.draft i next with
  | error refusal =>
      rw [drafted] at lowered
      cases lowered
  | ok out =>
      obtain ⟨absorbed, d⟩ := out
      rw [drafted] at lowered
      simp only [Draft.settle] at lowered
      cases granted : t.ensureAll d.requests with
      | mk answer table =>
          rw [granted] at lowered
          cases answer with
          | error fault => cases lowered
          | ok _ =>
              cases lowered
              exact ⟨d, rfl, granted, rfl, rfl⟩

/-- Lower a list of items from its front. -/
def lowerItems (b : Backend ι) (t : IntrinsicTable) :
    List (StreamItem ι) → List (Except Fault Cluster) × IntrinsicTable
  | [] => ([], t)
  | .error fault :: _ => ([.error (.decode fault)], t)
  | .ok i :: rest =>
      let next := instruction? rest.head?
      match b.lowerWith i next t with
      | (.error fault, t') => ([.error fault], t')
      | (.ok lowered, t') =>
          let more := lowerItems b t' (if lowered.absorbed then afterInstruction rest else rest)
          (.ok (clusterOf i next lowered) :: more.1, more.2)
termination_by items => items.length
decreasing_by
  have := length_afterInstruction_le rest
  split <;> simp only [List.length_cons] <;> omega

end Backend

namespace ClusterStream

variable {b : Backend ι} {s : ClusterStream ι}

/-! ## One step -/

theorem lowerTaken_of_fault {i : ι} {fault : Fault} {t : IntrinsicTable}
    (lowered : b.lowerWith i (instruction? s.instructions.items.head?) s.table =
      (.error fault, t)) :
    lowerTaken b s i =
      (.error fault, { s with instructions := s.instructions.peekInstruction.2, table := t }) := by
  rw [← peekInstruction_fst] at lowered
  simp only [lowerTaken, lowered]

theorem lowerTaken_of_lowered {i : ι} {l : Backend.Lowered} {t : IntrinsicTable}
    (lowered : b.lowerWith i (instruction? s.instructions.items.head?) s.table = (.ok l, t)) :
    lowerTaken b s i =
      (.ok (Backend.clusterOf i (instruction? s.instructions.items.head?) l),
        { s with
          instructions :=
            if l.absorbed then s.instructions.peekInstruction.2.consumeInstruction.2
            else s.instructions.peekInstruction.2
          table := t }) := by
  rw [← peekInstruction_fst] at lowered ⊢
  simp only [lowerTaken, lowered, Backend.clusterOf]

theorem next_of_items_nil (open_ : s.failed = false) (ended : s.instructions.items = []) :
    s.next b = (none, { s with instructions := s.instructions.next.2 }) := by
  have none_ : s.instructions.next.1 = none := by rw [next_fst, ended]; rfl
  unfold next
  rw [open_]
  cases found : s.instructions.next with
  | mk item rest =>
      rw [found] at none_
      simp only at none_
      subst none_
      rfl

theorem next_of_items_fault (open_ : s.failed = false) {fault : DecodeFault}
    {rest : List (StreamItem ι)} (items : s.instructions.items = .error fault :: rest) :
    s.next b = (some (.error (.decode fault)),
      { s with instructions := s.instructions.next.2, failed := true }) := by
  have some_ : s.instructions.next.1 = some (.error fault) := by rw [next_fst, items]; rfl
  unfold next
  rw [open_]
  cases found : s.instructions.next with
  | mk item rest' =>
      rw [found] at some_
      simp only at some_
      subst some_
      rfl

theorem next_of_items_instruction (open_ : s.failed = false) {i : ι}
    {rest : List (StreamItem ι)} (items : s.instructions.items = .ok i :: rest) :
    s.next b =
      match lowerTaken b { s with instructions := s.instructions.next.2 } i with
      | (.ok cluster, s') => (some (.ok cluster), s')
      | (.error fault, s') => (some (.error fault), { s' with failed := true }) := by
  have some_ : s.instructions.next.1 = some (.ok i) := by rw [next_fst, items]; rfl
  unfold next
  rw [open_]
  cases found : s.instructions.next with
  | mk item rest' =>
      rw [found] at some_
      simp only at some_
      subst some_
      rfl

theorem next_of_unlowered (coherent : s.instructions.Coherent) (open_ : s.failed = false) {i : ι}
    {rest : List (StreamItem ι)} (items : s.instructions.items = .ok i :: rest) {fault : Fault}
    {t : IntrinsicTable}
    (lowered : b.lowerWith i (instruction? rest.head?) s.table = (.error fault, t)) :
    ∃ stream, s.next b = (some (.error fault), ⟨stream, t, true⟩) := by
  have left : s.instructions.next.2.items = rest := by
    rw [items_next coherent, items, List.tail_cons]
  refine ⟨s.instructions.next.2.peekInstruction.2, ?_⟩
  rw [next_of_items_instruction open_ items,
    lowerTaken_of_fault (t := t) (by rw [left]; exact lowered)]

/-- A cluster takes its instruction out of the list, and what the instruction absorbed. -/
theorem next_of_lowered (coherent : s.instructions.Coherent) (open_ : s.failed = false) {i : ι}
    {rest : List (StreamItem ι)} (items : s.instructions.items = .ok i :: rest)
    {l : Backend.Lowered} {t : IntrinsicTable}
    (lowered : b.lowerWith i (instruction? rest.head?) s.table = (.ok l, t)) :
    ∃ stream : InstructionStream ι,
      s.next b = (some (.ok (Backend.clusterOf i (instruction? rest.head?) l)), ⟨stream, t, false⟩) ∧
        stream.Coherent ∧
        stream.items = if l.absorbed then afterInstruction rest else rest := by
  have left : s.instructions.next.2.items = rest := by
    rw [items_next coherent, items, List.tail_cons]
  have looked := coherent_peekInstruction (coherent_next s.instructions)
  refine ⟨if l.absorbed then s.instructions.next.2.peekInstruction.2.consumeInstruction.2
    else s.instructions.next.2.peekInstruction.2, ?_, ?_, ?_⟩
  · rw [next_of_items_instruction open_ items,
      lowerTaken_of_lowered (l := l) (t := t) (by rw [left]; exact lowered)]
    simp only [left, open_]
  · split
    · exact coherent_consumeInstruction looked
    · exact looked
  · split
    · rw [items_consumeInstruction looked, items_peekInstruction, left]
    · rw [items_peekInstruction, left]

/-- What a pull that gave a cluster has done. -/
theorem lowered_of_next (coherent : s.instructions.Coherent) {k : Cluster}
    (pulled : (s.next b).1 = some (.ok k)) :
    ∃ i rest l t, s.instructions.items = .ok i :: rest ∧
      b.lowerWith i (instruction? rest.head?) s.table = (.ok l, t) ∧
      k = Backend.clusterOf i (instruction? rest.head?) l ∧
      (s.next b).2.failed = false ∧ (s.next b).2.instructions.Coherent ∧
      (s.next b).2.instructions.items = if l.absorbed then afterInstruction rest else rest := by
  have open_ : s.failed = false := by
    cases failed : s.failed with
    | false => rfl
    | true =>
        simp only [next, failed, if_true] at pulled
        cases pulled
  cases all : s.instructions.items with
  | nil =>
      rw [next_of_items_nil open_ all] at pulled
      cases pulled
  | cons item rest =>
      cases item with
      | error fault =>
          rw [next_of_items_fault open_ all] at pulled
          cases pulled
      | ok i =>
          cases lowered : b.lowerWith i (instruction? rest.head?) s.table with
          | mk result t =>
              cases result with
              | error fault =>
                  obtain ⟨stream, step⟩ := next_of_unlowered coherent open_ all lowered
                  rw [step] at pulled
                  cases pulled
              | ok l =>
                  obtain ⟨stream, step, coherent', left⟩ :=
                    next_of_lowered coherent open_ all lowered
                  rw [step] at pulled ⊢
                  cases pulled
                  exact ⟨i, rest, l, t, rfl, lowered, rfl, rfl, coherent', left⟩

/-! ## Whole runs -/

theorem collect_of_next_none (ended : (s.next b).1 = none) :
    s.collect b = ([], (s.next b).2.table) := by
  rw [collect]
  split
  · rename_i item found
    rw [ended] at found
    cases found
  · rfl

theorem collect_of_next_some {item : Except Fault Cluster} (found : (s.next b).1 = some item) :
    s.collect b =
      (item :: ((s.next b).2.collect b).1, ((s.next b).2.collect b).2) := by
  rw [collect]
  split
  · rename_i other same
    rw [found] at same
    cases same
    rfl
  · rename_i ended
    rw [found] at ended
    cases ended

/-- Nothing comes after a fault. -/
theorem collect_of_failed (failed : s.failed = true) : s.collect b = ([], s.table) := by
  have step : s.next b = (none, s) := by simp [next, failed]
  rw [collect_of_next_none (by rw [step]), step]

/-- Pulling clusters one at a time is lowering the list of all items from its front. -/
theorem collect_eq_lowerItems (b : Backend ι) (s : ClusterStream ι)
    (coherent : s.instructions.Coherent) (open_ : s.failed = false) :
    s.collect b = b.lowerItems s.table s.instructions.items := by
  cases all : s.instructions.items with
  | nil =>
      have step := next_of_items_nil (b := b) open_ all
      rw [collect_of_next_none (by rw [step]), step, Backend.lowerItems]
  | cons item rest =>
      cases item with
      | error fault =>
          have step := next_of_items_fault (b := b) open_ all
          rw [collect_of_next_some (by rw [step]), step, collect_of_failed rfl, Backend.lowerItems]
      | ok i =>
          rw [Backend.lowerItems]
          cases lowered : b.lowerWith i (instruction? rest.head?) s.table with
          | mk result t =>
              cases result with
              | error fault =>
                  obtain ⟨stream, step⟩ := next_of_unlowered coherent open_ all lowered
                  rw [collect_of_next_some (by rw [step]), step, collect_of_failed rfl]
              | ok l =>
                  obtain ⟨stream, step, coherent', left⟩ :=
                    next_of_lowered coherent open_ all lowered
                  have shorter : (⟨stream, t, false⟩ : ClusterStream ι).budget < s.budget := by
                    have less := budget_next_lt (b := b) (s := s) (by rw [step])
                    rwa [step] at less
                  rw [collect_of_next_some (by rw [step]), step,
                    collect_eq_lowerItems b ⟨stream, t, false⟩ coherent' rfl, left]
termination_by s.budget
decreasing_by exact shorter

end ClusterStream

end RegisterTransfer
