/-
# RegisterTransfer.Stream.Clusters -- lazily lowered clusters

A back-end writes the statements of one instruction, given the instruction after it if that decodes.
It may absorb that instruction, which then belongs to the same cluster.  A cluster stream lowers the
instructions of an instruction stream one cluster at a time against one table of intrinsics; the
first fault is its last item.

The length of a cluster is the sum of one or two lengths.  It is a natural number like all lengths and
addresses of a stream, and that the sum could overflow 32 bits is left out.
-/
import RegisterTransfer.Draft
import RegisterTransfer.Stream

namespace RegisterTransfer

set_option autoImplicit false

/-- The lowering of one machine's instructions. -/
structure Backend (ι : Type) where
  architecture : Architecture
  /-- Write the statements of an instruction.  The answer says whether the instruction after it
  was absorbed. -/
  lower : ι → Option ι → Lowering Bool

namespace Backend

variable {ι : Type}

/-- The finished draft of an instruction and whether the next one was absorbed. -/
def draft (b : Backend ι) (i : ι) (next : Option ι) : Except Refusal (Bool × Draft) :=
  (b.lower i next).run .empty

/-- The statements of an instruction after its requests were put to the table. -/
structure Lowered where
  absorbed : Bool
  flow : Flow
  statements : List Statement

/-- Lower one instruction against a table. -/
def lowerWith (b : Backend ι) (i : ι) (next : Option ι) (t : IntrinsicTable) :
    Except Fault Lowered × IntrinsicTable :=
  match b.draft i next with
  | .error refusal => (.error (refusal.settle t).1, (refusal.settle t).2)
  | .ok (absorbed, d) =>
      match d.settle t with
      | (.error fault, t') => (.error fault, t')
      | (.ok statements, t') => (.ok ⟨absorbed, d.flow, statements⟩, t')

end Backend

/-- The state of a cluster stream. -/
structure ClusterStream (ι : Type) where
  instructions : InstructionStream ι
  table : IntrinsicTable
  /-- Whether a fault was handed out. -/
  failed : Bool := false

namespace ClusterStream

variable {ι : Type} [MachineInstruction ι]

/-- Lower an instruction that was just taken from the stream. -/
def lowerTaken (b : Backend ι) (s : ClusterStream ι) (i : ι) :
    Except Fault Cluster × ClusterStream ι :=
  let (next, looked) := s.instructions.peekInstruction
  match b.lowerWith i next s.table with
  | (.error fault, table) => (.error fault, { s with instructions := looked, table })
  | (.ok lowered, table) =>
      let length (j : ι) := MachineInstruction.length j
      let extra := if lowered.absorbed then (next.map length).getD 0 else 0
      let rest := if lowered.absorbed then looked.consumeInstruction.2 else looked
      (.ok ⟨MachineInstruction.address i, length i + extra, lowered.flow, lowered.statements⟩,
        { s with instructions := rest, table })

/-- Take the next cluster. -/
def next (b : Backend ι) (s : ClusterStream ι) :
    Option (Except Fault Cluster) × ClusterStream ι :=
  if s.failed then (none, s)
  else
    match s.instructions.next with
    | (none, rest) => (none, { s with instructions := rest })
    | (some (.error fault), rest) =>
        (some (.error (.decode fault)), { s with instructions := rest, failed := true })
    | (some (.ok i), rest) =>
        match lowerTaken b { s with instructions := rest } i with
        | (.ok cluster, s') => (some (.ok cluster), s')
        | (.error fault, s') => (some (.error fault), { s' with failed := true })

/-- At most `n` clusters from the front of the stream, and the stream after them. -/
def take (b : Backend ι) : Nat → ClusterStream ι → List (Except Fault Cluster) × ClusterStream ι
  | 0, s => ([], s)
  | n + 1, s =>
      match s.next b with
      | (none, s') => ([], s')
      | (some item, s') =>
          let (rest, last) := take b n s'
          (item :: rest, last)

/-! ## Every stream ends -/

/-- Bounds the number of clusters still to come. -/
def budget (s : ClusterStream ι) : Nat :=
  if s.failed then 0 else s.instructions.budget + 1

theorem budget_lowerTaken_le (b : Backend ι) (s : ClusterStream ι) (i : ι) :
    (lowerTaken b s i).2.instructions.budget ≤ s.instructions.budget := by
  have hpeek := InstructionStream.budget_peekInstruction_le s.instructions
  have htake := InstructionStream.budget_consumeInstruction_le s.instructions.peekInstruction.2
  unfold lowerTaken
  simp only
  split
  · exact hpeek
  · split
    · exact Nat.le_trans htake hpeek
    · exact hpeek

theorem budget_next_lt {b : Backend ι} {s : ClusterStream ι} {item : Except Fault Cluster}
    (h : (s.next b).1 = some item) : (s.next b).2.budget < s.budget := by
  have hf : s.failed = false := by
    cases hs : s.failed <;> simp [next, hs] at h ⊢
  cases hn : s.instructions.next with
  | mk taken rest =>
      cases taken with
      | none => simp [next, hf, hn] at h
      | some found =>
          have htake : s.instructions.next.1 = some found := by rw [hn]
          have hlt := InstructionStream.budget_next_lt htake
          rw [hn] at hlt
          simp only at hlt
          cases found with
          | error fault => simp [next, budget, hf, hn]
          | ok i =>
              have hle := budget_lowerTaken_le b { s with instructions := rest } i
              cases hl : lowerTaken b { s with instructions := rest } i with
              | mk result s' =>
                  rw [hl] at hle
                  simp only at hle
                  cases result with
                  | error fault =>
                      have hs : s.next b = (some (.error fault), { s' with failed := true }) := by
                        simp only [next, hf, hn]
                        rw [hf] at hl
                        simp [hl]
                      simp [hs, budget, hf]
                  | ok cluster =>
                      have hs : s.next b = (some (.ok cluster), s') := by
                        simp only [next, hf, hn]
                        rw [hf] at hl
                        simp [hl]
                      rw [hs]
                      simp only [budget, hf]
                      split
                      · simp
                      · simp only [Bool.false_eq_true, ↓reduceIte]
                        omega

/-- All clusters still to come, and the table of intrinsics at the end. -/
def collect (b : Backend ι) (s : ClusterStream ι) :
    List (Except Fault Cluster) × IntrinsicTable :=
  match _h : (s.next b).1 with
  | some item =>
      let (rest, table) := (s.next b).2.collect b
      (item :: rest, table)
  | none => ([], (s.next b).2.table)
termination_by s.budget
decreasing_by exact budget_next_lt _h

end ClusterStream

end RegisterTransfer
