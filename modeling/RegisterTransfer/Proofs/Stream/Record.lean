/-
# RegisterTransfer.Proofs.Stream.Record -- the table of a run records what its clusters apply

Registering an intrinsic is a side effect of building an expression, and the expression could be dropped:
by a later operand that does not fit, or because the cluster never says it.  Sound back-ends do neither, so
the table of a run is the record of its clusters.

* `Recorded t clusters`: the table knows just the intrinsics that the clusters apply, and every use of one
  shows the table's entry with as many arguments as the entry takes;
* `Backend.Sound.recorded_next`: one pull keeps the record, whether it gives a cluster, fails or ends;
* `Machine.recorded_pulls`: the record of every number of pulls, for both machines, and that a refused
  instruction registers nothing.
-/
import RegisterTransfer.Proofs.Intrinsic.Table
import RegisterTransfer.Proofs.Machine

namespace RegisterTransfer

set_option autoImplicit false

open InstructionStream

/-- A table that started empty and the clusters that were lowered against it. -/
structure Recorded (t : IntrinsicTable) (clusters : List Cluster) : Prop where
  regular : t.Regular
  once : t.names.Nodup
  names : ∀ name, name ∈ t.names ↔ ∃ c ∈ clusters, ∃ u ∈ c.uses, u.intrinsic.name = name
  entries : ∀ c ∈ clusters, ∀ u ∈ c.uses,
    t.lookup? u.intrinsic.name = some u.intrinsic ∧ u.arguments = u.intrinsic.arity

theorem recorded_empty : Recorded .empty [] :=
  ⟨IntrinsicTable.regular_empty, by simp [IntrinsicTable.names, IntrinsicTable.empty],
    by simp [IntrinsicTable.mem_names, IntrinsicTable.empty], nofun⟩

/-! ## One draft -/

/-- Settled statements use what the draft asked for, each under the table's own entry. -/
theorem Draft.uses_settled {d : Draft} (owes : d.Owes []) (t : IntrinsicTable) :
    (d.statements.map (·.mapIntrinsics t.resolve)).flatMap Statement.uses =
      d.requests.map fun p => ⟨t.resolve p, p.arity⟩ := by
  have uses : d.statements.flatMap Statement.uses = d.requests.map Intrinsic.use := by
    rw [owes, List.append_nil]
  calc (d.statements.map (·.mapIntrinsics t.resolve)).flatMap Statement.uses
      = (d.statements.flatMap Statement.uses).map fun u => ⟨t.resolve u.intrinsic, u.arguments⟩ := by
        simp only [List.flatMap_map, List.map_flatMap, Statement.uses_mapIntrinsics]
    _ = d.requests.map fun p => ⟨t.resolve p, p.arity⟩ := by
        rw [uses, List.map_map]
        rfl

/-- The cluster of a draft that a table granted joins the record. -/
theorem Recorded.settled {t t' : IntrinsicTable} {clusters : List Cluster}
    (recorded : Recorded t clusters) {d : Draft} (owes : d.Owes []) (asks : d.Regular)
    (granted : t.ensureAll d.requests = (.ok (), t')) {c : Cluster}
    (statements : c.statements = d.statements.map (·.mapIntrinsics t'.resolve)) :
    Recorded t' (clusters ++ [c]) := by
  obtain ⟨_, again, regular⟩ := IntrinsicTable.ensureAll_of_regular recorded.regular asks
  have once := IntrinsicTable.nodup_names_ensureAll d.requests recorded.once
  have grants := IntrinsicTable.ensureAll_grants granted
  have uses : c.uses = d.requests.map fun p => ⟨t'.resolve p, p.arity⟩ := by
    rw [Cluster.uses, statements]
    exact Draft.uses_settled owes t'
  rw [granted] at again once
  cases again
  refine ⟨regular, once, fun name => ?_, fun c' listed u used => ?_⟩
  · rw [grants.names, recorded.names]
    simp [or_and_right, exists_or, uses, IntrinsicTable.name_resolve]
  · rcases List.mem_append.mp listed with old | new
    · obtain ⟨found, same⟩ := recorded.entries c' old u used
      exact ⟨grants.kept found, same⟩
    · rw [List.mem_singleton.mp new, uses, List.mem_map] at used
      obtain ⟨p, asked, rfl⟩ := used
      obtain ⟨q, found, same⟩ := grants.known p asked
      have entry : t'.resolve p = q := by rw [IntrinsicTable.resolve, found]; rfl
      simp only [entry]
      rw [← entry, IntrinsicTable.name_resolve, entry]
      exact ⟨found, same.symm⟩

/-! ## One pull -/

variable {ι : Type} [MachineInstruction ι] {b : Backend ι}

namespace Backend

omit [MachineInstruction ι] in
/-- A fault of a lowering is that of a refusal, or a clash of arities in the table. -/
theorem refused_or_clashes {i : ι} {next : Option ι} {t : IntrinsicTable} {fault : Fault}
    (lowered : (b.lowerWith i next t).1 = .error fault) :
    (∃ refusal, b.draft i next = .error refusal) ∨
      ∃ name expected actual, fault = .arityMismatch name expected actual := by
  cases drafted : b.draft i next with
  | error refusal => exact .inl ⟨refusal, rfl⟩
  | ok out =>
      obtain ⟨absorbed, d⟩ := out
      simp only [lowerWith, drafted, Draft.settle] at lowered
      cases asked : t.ensureAll d.requests with
      | mk answer t' =>
          rw [asked] at lowered
          cases answer with
          | ok _ => cases lowered
          | error clash =>
              obtain ⟨name, expected, actual, rfl⟩ := IntrinsicTable.mismatch_of_ensureAll asked
              cases lowered
              exact .inr ⟨name, expected, actual, rfl⟩

namespace Sound

/-- A refused instruction registers nothing. -/
theorem table_of_fault (sound : b.Sound) {i : ι} {next : Option ι} {t : IntrinsicTable}
    {fault : Fault} (is : fault.isOfInstruction = true)
    (lowered : (b.lowerWith i next t).1 = .error fault) : (b.lowerWith i next t).2 = t := by
  rcases refused_or_clashes lowered with ⟨refusal, drafted⟩ | ⟨name, expected, actual, rfl⟩
  · rw [sound.lowerWith_of_refused drafted]
  · cases is

/-- No lowering fails with a fault of the decoder. -/
theorem ne_decode (sound : b.Sound) {i : ι} {next : Option ι} {t : IntrinsicTable} {fault : Fault}
    (lowered : (b.lowerWith i next t).1 = .error fault) (f : DecodeFault) : fault ≠ .decode f := by
  rcases refused_or_clashes lowered with ⟨refusal, drafted⟩ | ⟨name, expected, actual, rfl⟩
  · have is := sound.faults drafted
    rw [sound.lowerWith_of_refused drafted] at lowered
    cases lowered
    rintro same
    rw [same] at is
    cases is
  · nofun

/-- Lowering an instruction against the table of a record: its cluster joins the record, or the table
stays. -/
theorem recorded_lowerWith (sound : b.Sound) {t : IntrinsicTable} {clusters : List Cluster}
    (recorded : Recorded t clusters) (i : ι) (next : Option ι) :
    match b.lowerWith i next t with
    | (.ok l, t') => Recorded t' (clusters ++ [clusterOf i next l])
    | (.error _, t') => t' = t := by
  cases drafted : b.draft i next with
  | error refusal => simp [sound.lowerWith_of_refused drafted]
  | ok out =>
      obtain ⟨absorbed, d⟩ := out
      obtain ⟨t', granted, -⟩ :=
        IntrinsicTable.ensureAll_of_regular recorded.regular (sound.regular drafted)
      simp only [lowerWith, drafted, Draft.settle, granted]
      exact recorded.settled (sound.balanced drafted) (sound.regular drafted) granted rfl

end Sound

end Backend

/-- The cluster that a pull gave, if it gave one. -/
def cluster? : Option (Except Fault Cluster) → Option Cluster
  | some (.ok c) => some c
  | _ => none

/-- A pull keeps the record. -/
theorem Backend.Sound.recorded_next (sound : b.Sound) {s : ClusterStream ι} {clusters : List Cluster}
    (recorded : Recorded s.table clusters) :
    Recorded (s.next b).2.table (clusters ++ (cluster? (s.next b).1).toList) := by
  cases failed : s.failed with
  | true =>
      have step : s.next b = (none, s) := by simp [ClusterStream.next, failed]
      rw [step]
      simpa [cluster?] using recorded
  | false =>
      cases all : s.instructions.items with
      | nil =>
          rw [ClusterStream.next_of_items_nil failed all]
          simpa [cluster?] using recorded
      | cons item rest =>
          cases item with
          | error fault =>
              rw [ClusterStream.next_of_items_fault failed all]
              simpa [cluster?] using recorded
          | ok i =>
              have lowered := sound.recorded_lowerWith recorded i
                (instruction? s.instructions.next.2.items.head?)
              rw [ClusterStream.next_of_items_instruction failed all]
              cases ran : b.lowerWith i (instruction? s.instructions.next.2.items.head?) s.table with
              | mk result t =>
                  rw [ran] at lowered
                  cases result with
                  | error fault =>
                      rw [ClusterStream.lowerTaken_of_fault ran]
                      simp only at lowered
                      subst lowered
                      simpa [cluster?] using recorded
                  | ok l =>
                      rw [ClusterStream.lowerTaken_of_lowered ran]
                      exact lowered

/-! ## Any number of pulls -/

namespace ClusterStream

/-- The clusters that the first pulls give. -/
def yielded (b : Backend ι) : Nat → ClusterStream ι → List Cluster
  | 0, _ => []
  | n + 1, s => (cluster? (s.next b).1).toList ++ yielded b n (s.next b).2

end ClusterStream

theorem Backend.Sound.recorded_after (sound : b.Sound) (n : Nat) {s : ClusterStream ι}
    {clusters : List Cluster} (recorded : Recorded s.table clusters) :
    Recorded (s.after b n).table (clusters ++ s.yielded b n) := by
  induction n generalizing s clusters with
  | zero => simpa [ClusterStream.after, ClusterStream.yielded] using recorded
  | succ n ih =>
      have later := ih (sound.recorded_next recorded)
      rwa [List.append_assoc] at later

/-- After any number of pulls from a run that began with an empty table, also such that failed, the table
knows just the names of the intrinsics that the clusters so far apply, each once, and every application in
them is of the table's entry, to as many arguments as it takes.  For an instruction that is refused, be it
for its operands or as an opcode without register transfers, registers nothing in any table. -/
theorem Machine.recorded_pulls (m : Machine) (d : Decoder m.Instruction) (image : List UInt8)
    (base n : Nat) :
    let s : ClusterStream m.Instruction := ⟨ofImage d image base, .empty, false⟩
    let clusters := s.yielded m.backend n
    let table := (s.after m.backend n).table
    (∀ name, name ∈ table.names ↔ ∃ c ∈ clusters, ∃ u ∈ c.uses, u.intrinsic.name = name) ∧
    table.names.Nodup ∧
    (∀ c ∈ clusters, ∀ u ∈ c.uses,
      table.lookup? u.intrinsic.name = some u.intrinsic ∧ u.arguments = u.intrinsic.arity) ∧
    ∀ (i : m.Instruction) (next : Option m.Instruction) (t : IntrinsicTable) (fault : Fault),
      fault.isOfInstruction = true → (m.backend.lowerWith i next t).1 = .error fault →
        (m.backend.lowerWith i next t).2 = t := by
  intro s clusters table
  have recorded : Recorded table clusters :=
    m.sound_backend.recorded_after n (s := s) recorded_empty
  refine ⟨recorded.names, recorded.once, recorded.entries, fun i next t fault is lowered => ?_⟩
  exact m.sound_backend.table_of_fault is lowered

end RegisterTransfer
