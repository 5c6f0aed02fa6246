/-
# RegisterTransfer.Proofs.Sweep.Tracer -- a trace step by step

Traces that run beside each other share one table of intrinsics, and a request is the only thing that one
of them does with it.  A `Tracer` is a trace cut into steps, of which each puts at most one request to
the table: it writes the draft of the next cluster, asks for one intrinsic of the draft, or closes the
cluster with the intrinsics that it was granted.

* `shown_step`: what a step shows does not depend on the table, as long as the table is regular;
* `known_step`: a step adds to the table the names that it is granted;
* `exists_alone`: a tracer alone with a table finds what `Sweep.trace` finds and leaves the same table;
* `Sweep.shown_procedures`: traces one after another on one table show what they show alone.
-/
import Mathlib.Logic.Function.Iterate
import RegisterTransfer.Proofs.Intrinsic.Table
import RegisterTransfer.Proofs.Sweep.Cut

namespace RegisterTransfer

set_option autoImplicit false

open InstructionStream

/-! ## Steps -/

/-- How far a trace is with its next cluster. -/
inductive Tracer.Phase (ι : Type) where
  /-- Nothing of it is done. -/
  | ready (left : InstructionStream ι)
  /-- It is written, and some of its intrinsics are still wanted. -/
  | asking (c : Cluster) (wanted : List Intrinsic) (left : InstructionStream ι)
  /-- There is no next cluster. -/
  | ended (fault : Option Fault)

/-- A trace under way. -/
structure Tracer (ι : Type) where
  entry : Nat
  clusters : List Cluster := []
  /-- What a table granted, in the order it was asked for. -/
  granted : List Intrinsic := []
  phase : Tracer.Phase ι

variable {ι : Type} [MachineInstruction ι]

namespace Tracer.Phase

/-- The draft of the next cluster as one that nothing was asked for yet.  A refused draft ends the trace
at once, for sound back-ends refuse before they ask for anything. -/
def write (b : Backend ι) (left : InstructionStream ι) : Phase ι :=
  match left.next with
  | (none, _) => .ended none
  | (some (.error fault), _) => .ended (some (.decode fault))
  | (some (.ok i), rest) =>
      let (next, looked) := rest.peekInstruction
      match b.draft i next with
      | .error refusal => .ended (some refusal.fault)
      | .ok (absorbed, d) =>
          .asking (Backend.clusterOf i next ⟨absorbed, d.flow, d.statements⟩) d.requests
            (if absorbed then looked.consumeInstruction.2 else looked)

/-- What is still wanted is regular. -/
def Regular : Phase ι → Prop
  | asking _ wanted _ => ∀ p ∈ wanted, p.Regular
  | _ => True

theorem regular_write {b : Backend ι} (sound : b.Sound) (left : InstructionStream ι) :
    (write b left).Regular := by
  unfold write
  split
  · trivial
  · trivial
  · simp only
    split
    · trivial
    · rename_i drafted
      exact sound.regular drafted

end Tracer.Phase

namespace Tracer

/-- A trace that begins at an entry point. -/
def start (d : Decoder ι) (image : List UInt8) (base entry : Nat) : Tracer ι :=
  { entry, phase := .ready (.startingAt d image base entry) }

/-- One step of a trace against the table that it shares with others. -/
def step (b : Backend ι) : Tracer ι × IntrinsicTable → Tracer ι × IntrinsicTable
  | (tracer, t) =>
      match tracer.phase with
      | .ready left => ({ tracer with phase := .write b left }, t)
      | .asking c (p :: wanted) left =>
          match t.ensure p with
          | (.ok known, t') =>
              ({ tracer with
                  granted := tracer.granted ++ [known]
                  phase := .asking c wanted left }, t')
          | (.error fault, t') => ({ tracer with phase := .ended (some fault) }, t')
      | .asking c [] left =>
          let closed := c.mapIntrinsics (IntrinsicTable.resolve ⟨tracer.granted⟩)
          ({ tracer with
              clusters := tracer.clusters ++ [closed]
              phase := if c.flow.endsTrace then .ended none else .ready left }, t)
      | .ended _ => (tracer, t)

/-- What a trace found, once it has ended. -/
def found? (tracer : Tracer ι) : Option (Except Fault Sweep.Trace) :=
  match tracer.phase with
  | .ended none => some (.ok ⟨tracer.entry, tracer.clusters⟩)
  | .ended (some fault) => some (.error fault)
  | _ => none

/-- All of a trace under way but what a table records of intrinsics. -/
structure Shown (ι : Type) where
  entry : Nat
  clusters : List Cluster.Shown
  granted : List String
  phase : Phase ι

def shown (tracer : Tracer ι) : Shown ι :=
  ⟨tracer.entry, tracer.clusters.map Cluster.shown, tracer.granted.map (·.name), tracer.phase⟩

variable {b : Backend ι} {tracer tracer' : Tracer ι} {t t' : IntrinsicTable}

/-- A step keeps a trace and the table regular. -/
theorem regular_step (sound : b.Sound) (asks : tracer.phase.Regular) (regular : t.Regular) :
    (step b (tracer, t)).1.phase.Regular ∧ (step b (tracer, t)).2.Regular := by
  obtain ⟨entry, clusters, granted, phase⟩ := tracer
  cases phase with
  | ready left => exact ⟨Phase.regular_write sound left, regular⟩
  | ended fault => exact ⟨trivial, regular⟩
  | asking c wanted left =>
      cases wanted with
      | nil =>
          refine ⟨?_, regular⟩
          simp only [step]
          split <;> trivial
      | cons p wanted =>
          obtain ⟨known, t', grants, regular', -⟩ :=
            IntrinsicTable.ensure_grants regular (asks p List.mem_cons_self)
          simp only [step, grants]
          exact ⟨fun q listed => asks q (List.mem_cons_of_mem _ listed), regular'⟩

/-- What a step shows does not depend on the table. -/
theorem shown_step (same : tracer.shown = tracer'.shown) (asks : tracer.phase.Regular)
    (regular : t.Regular) (regular' : t'.Regular) :
    (step b (tracer, t)).1.shown = (step b (tracer', t')).1.shown := by
  obtain ⟨entry, clusters, granted, phase⟩ := tracer
  obtain ⟨entry', clusters', granted', phase'⟩ := tracer'
  simp only [shown, Shown.mk.injEq] at same
  obtain ⟨rfl, clustered, named, rfl⟩ := same
  cases phase with
  | ready left => simp [step, shown, clustered, named]
  | ended fault => simp [step, shown, clustered, named]
  | asking c wanted left =>
      cases wanted with
      | nil =>
          simp [step, shown, clustered, named,
            Cluster.shown_mapIntrinsics (IntrinsicTable.name_resolve _)]
      | cons p wanted =>
          have fits := asks p List.mem_cons_self
          obtain ⟨known, _, grants, -, name, -⟩ := IntrinsicTable.ensure_grants regular fits
          obtain ⟨known', _, grants', -, name', -⟩ := IntrinsicTable.ensure_grants regular' fits
          simp [step, shown, grants, grants', clustered, named, name, name']

theorem nodup_step (once : t.names.Nodup) : (step b (tracer, t)).2.names.Nodup := by
  obtain ⟨entry, clusters, granted, phase⟩ := tracer
  cases phase with
  | ready left => exact once
  | ended fault => exact once
  | asking c wanted left =>
      cases wanted with
      | nil => exact once
      | cons p wanted =>
          have kept := IntrinsicTable.nodup_names_ensure once p
          simp only [step]
          split <;> · rename_i asked; rwa [asked] at kept

/-- A step adds to the table the names that it is granted. -/
theorem known_step (asks : tracer.phase.Regular) (regular : t.Regular) :
    ∃ new : List String,
      (step b (tracer, t)).1.granted.map (·.name) = tracer.granted.map (·.name) ++ new ∧
        ∀ name, name ∈ (step b (tracer, t)).2.names ↔ name ∈ t.names ∨ name ∈ new := by
  obtain ⟨entry, clusters, granted, phase⟩ := tracer
  cases phase with
  | ready left => exact ⟨[], by simp [step]⟩
  | ended fault => exact ⟨[], by simp [step]⟩
  | asking c wanted left =>
      cases wanted with
      | nil => exact ⟨[], by simp [step]⟩
      | cons p wanted =>
          obtain ⟨known, t', grants, -, name, knows⟩ :=
            IntrinsicTable.ensure_grants regular (asks p List.mem_cons_self)
          refine ⟨[p.name], ?_, ?_⟩
          · simp [step, grants, name]
          · simp [step, grants, knows]

end Tracer

/-! ## A trace alone -/

/-- A cluster stream takes its next cluster as a tracer does that is alone with the table. -/
theorem ClusterStream.next_eq_write {b : Backend ι} (sound : b.Sound) {t : IntrinsicTable}
    (regular : t.Regular) (left : InstructionStream ι) :
    match Tracer.Phase.write b left with
    | .ended fault => (ClusterStream.next b ⟨left, t, false⟩).1 = fault.map .error ∧
        (ClusterStream.next b ⟨left, t, false⟩).2.table = t
    | .asking c wanted rest => ∃ t', t.ensureAll wanted = (.ok (), t') ∧ t'.Regular ∧
        ClusterStream.next b ⟨left, t, false⟩ =
          (some (.ok (c.mapIntrinsics t'.resolve)), ⟨rest, t', false⟩)
    | .ready _ => False := by
  unfold Tracer.Phase.write ClusterStream.next
  simp only [Bool.false_eq_true, if_false]
  cases taken : left.next with
  | mk item rest =>
      cases item with
      | none => simp
      | some item =>
          cases item with
          | error fault => simp
          | ok i =>
              cases drafted : b.draft i rest.peekInstruction.1 with
              | error refusal => simp [drafted, lowerTaken, sound.lowerWith_of_refused drafted]
              | ok out =>
                  obtain ⟨absorbed, d⟩ := out
                  obtain ⟨t', granted, regular'⟩ :=
                    IntrinsicTable.ensureAll_of_regular regular (sound.regular drafted)
                  simp only [drafted]
                  refine ⟨t', granted, regular', ?_⟩
                  simp [lowerTaken, Backend.lowerWith, drafted, Draft.settle, granted,
                    Cluster.mapIntrinsics, Backend.clusterOf]

/-- What of a trace does not come from the records of a table. -/
def Sweep.Trace.shown (trace : Sweep.Trace) : Nat × List Cluster.Shown :=
  (trace.entry, trace.clusters.map Cluster.shown)

namespace Tracer

variable {b : Backend ι} {tracer tracer' : Tracer ι} {t t' : IntrinsicTable}

/-- The requests of a cluster, one after another. -/
theorem iterate_asking (tracer : Tracer ι) {c : Cluster} {left : InstructionStream ι}
    {wanted : List Intrinsic} (asks : ∀ p ∈ wanted, p.Regular) (regular : t.Regular)
    (asking : tracer.phase = .asking c wanted left) :
    ∃ granted, (step b)^[wanted.length] (tracer, t) =
      ({ tracer with granted, phase := .asking c [] left }, (t.ensureAll wanted).2) := by
  induction wanted generalizing tracer t with
  | nil =>
      refine ⟨tracer.granted, ?_⟩
      rw [← asking]
      rfl
  | cons p wanted ih =>
      obtain ⟨known, t', grants, regular', -⟩ :=
        IntrinsicTable.ensure_grants regular (asks p List.mem_cons_self)
      let next : Tracer ι := { tracer with
        granted := tracer.granted ++ [known]
        phase := .asking c wanted left }
      obtain ⟨granted, later⟩ := ih next
        (fun q listed => asks q (List.mem_cons_of_mem _ listed)) regular' rfl
      refine ⟨granted, ?_⟩
      have first : step b (tracer, t) = (next, t') := by
        simp [step, asking, grants, next]
      rw [List.length_cons, Function.iterate_succ_apply, first, later, IntrinsicTable.ensureAll,
        grants]

/-- A cluster that is written is asked for and closed in a row of steps. -/
theorem iterate_cluster {left rest : InstructionStream ι} {c : Cluster} {wanted : List Intrinsic}
    (ready : tracer.phase = .ready left) (wrote : Phase.write b left = .asking c wanted rest)
    (asks : ∀ p ∈ wanted, p.Regular) (regular : t.Regular) :
    ∃ granted closed, closed.shown = c.shown ∧
      (step b)^[wanted.length + 1 + 1] (tracer, t) =
        ({ tracer with
            granted
            clusters := tracer.clusters ++ [closed]
            phase := if c.flow.endsTrace then .ended none else .ready rest },
          (t.ensureAll wanted).2) := by
  have written : step b (tracer, t) = ({ tracer with phase := .asking c wanted rest }, t) := by
    simp only [step, ready, wrote]
  obtain ⟨granted, asked⟩ := iterate_asking (b := b)
    { tracer with phase := .asking c wanted rest } asks regular rfl
  refine ⟨granted, c.mapIntrinsics (IntrinsicTable.resolve ⟨granted⟩),
    Cluster.shown_mapIntrinsics (IntrinsicTable.name_resolve _) c, ?_⟩
  rw [Function.iterate_succ_apply, written, Function.iterate_succ_apply', asked]
  rfl

omit [MachineInstruction ι] in
theorem found?_of_ended {fault : Option Fault} (ended : tracer.phase = .ended fault) :
    tracer.found?.map (·.map Sweep.Trace.shown) =
      some ((Sweep.outcome tracer.clusters fault).map fun clusters =>
        (tracer.entry, clusters.map Cluster.shown)) := by
  unfold found?
  rw [ended]
  cases fault <;> rfl

/-- A tracer alone with a table ends, finds the clusters of a search for the last one behind those it
has, or the fault of the search, and leaves the table that the search leaves. -/
theorem exists_iterate_step (sound : b.Sound) (tracer : Tracer ι) {t : IntrinsicTable}
    (regular : t.Regular) {left : InstructionStream ι} (ready : tracer.phase = .ready left) :
    let searched := ClusterStream.collectUntil b (fun c => c.flow.endsTrace) ⟨left, t, false⟩
    ∃ n, ((step b)^[n] (tracer, t)).2 = searched.2 ∧
      ((step b)^[n] (tracer, t)).1.found?.map (·.map Sweep.Trace.shown) =
        some (searched.1.map fun later =>
          (tracer.entry, tracer.clusters.map Cluster.shown ++ later.map Cluster.shown)) := by
  intro searched
  have same := ClusterStream.next_eq_write sound regular left
  cases wrote : Phase.write b left with
  | ready other =>
      rw [wrote] at same
      cases same
  | ended fault =>
      rw [wrote] at same
      refine ⟨1, ?_⟩
      have written : step b (tracer, t) = ({ tracer with phase := .ended fault }, t) := by
        simp only [step, ready, wrote]
      have ends : searched = (Sweep.outcome [] fault, t) := by
        rw [← same.2]
        cases fault with
        | none => exact ClusterStream.collectUntil_of_none same.1
        | some fault => exact ClusterStream.collectUntil_of_fault same.1
      rw [Function.iterate_one, written, found?_of_ended rfl, ends]
      refine ⟨rfl, ?_⟩
      cases fault <;> simp [Sweep.outcome, Except.map]
  | asking c wanted rest =>
      have asks : ∀ p ∈ wanted, p.Regular := by
        have kept := Phase.regular_write sound left
        rwa [wrote] at kept
      rw [wrote] at same
      obtain ⟨t', granted, regular', next⟩ := same
      -- The tracer closes the cluster that the search finds, up to the records of the table.
      obtain ⟨known, closed, shows, closes⟩ := iterate_cluster ready wrote asks regular
      rw [granted] at closes
      have search : searched = _ :=
        ClusterStream.collectUntil_of_cluster (c := c.mapIntrinsics t'.resolve) (by rw [next])
      rw [next] at search
      have named : (c.mapIntrinsics t'.resolve).shown = closed.shown := by
        rw [Cluster.shown_mapIntrinsics t'.name_resolve, shows]
      cases ends : c.flow.endsTrace with
      | true =>
          have last : searched = (.ok [c.mapIntrinsics t'.resolve], t') :=
            search.trans (if_pos ends)
          refine ⟨wanted.length + 1 + 1, ?_⟩
          rw [closes, last, ends, if_pos rfl, found?_of_ended rfl]
          simp [Sweep.outcome, Except.map, named]
      | false =>
          have shorter : (⟨rest, t', false⟩ : ClusterStream ι).budget <
              (⟨left, t, false⟩ : ClusterStream ι).budget := by
            have less := ClusterStream.budget_next_lt (b := b) (s := ⟨left, t, false⟩)
              (by rw [next])
            rwa [next] at less
          obtain ⟨n, table, found⟩ := exists_iterate_step sound
            { tracer with
              granted := known
              clusters := tracer.clusters ++ [closed]
              phase := .ready rest } regular' rfl
          have more : searched = _ := search.trans (if_neg (ne_true_of_eq_false ends))
          refine ⟨n + (wanted.length + 1 + 1), ?_⟩
          rw [Function.iterate_add_apply, closes, ends, if_neg Bool.false_ne_true, table, found, more]
          refine ⟨rfl, ?_⟩
          cases (ClusterStream.collectUntil b (fun c => c.flow.endsTrace) ⟨rest, t', false⟩).1 with
          | error fault => rfl
          | ok later => simp [Except.map, named]
termination_by (ClusterStream.mk left t false).budget
decreasing_by exact shorter

/-- From an entry point this is what `Sweep.trace` does. -/
theorem exists_iterate_start (sound : b.Sound) (regular : t.Regular) (d : Decoder ι)
    (image : List UInt8) (base entry : Nat) :
    ∃ n, ((step b)^[n] (start d image base entry, t)).2 =
        (Sweep.trace d b t image base entry).2 ∧
      ((step b)^[n] (start d image base entry, t)).1.found?.map (·.map Sweep.Trace.shown) =
        some ((Sweep.trace d b t image base entry).1.map Sweep.Trace.shown) := by
  obtain ⟨n, table, found⟩ := exists_iterate_step sound (start d image base entry) regular rfl
  refine ⟨n, ?_⟩
  rw [table, found]
  unfold Sweep.trace
  split
  · rename_i searched
    rw [searched]
    exact ⟨rfl, rfl⟩
  · rename_i searched
    rw [searched]
    exact ⟨rfl, rfl⟩

/-- Several steps show the same on every regular table, and keep it regular. -/
theorem shown_iterate (sound : b.Sound) (same : tracer.shown = tracer'.shown)
    (asks : tracer.phase.Regular) (regular : t.Regular) (regular' : t'.Regular) (n : Nat) :
    ((step b)^[n] (tracer, t)).1.shown = ((step b)^[n] (tracer', t')).1.shown ∧
      ((step b)^[n] (tracer, t)).2.Regular := by
  induction n generalizing tracer tracer' t t' with
  | zero => exact ⟨same, regular⟩
  | succ n ih =>
      have asks' : tracer'.phase.Regular := by
        have phases : tracer.phase = tracer'.phase := congrArg Shown.phase same
        rwa [← phases]
      obtain ⟨next, kept⟩ := regular_step sound asks regular
      rw [Function.iterate_succ_apply, Function.iterate_succ_apply]
      exact ih (shown_step same asks regular regular') next kept
        (regular_step sound asks' regular').2

/-- The names that several steps are granted are those that they add to the table. -/
theorem known_iterate (sound : b.Sound) (tracer : Tracer ι) (asks : tracer.phase.Regular)
    (regular : t.Regular) (n : Nat) :
    ∃ new : List String,
      ((step b)^[n] (tracer, t)).1.granted.map (·.name) = tracer.granted.map (·.name) ++ new ∧
        ∀ name, name ∈ ((step b)^[n] (tracer, t)).2.names ↔ name ∈ t.names ∨ name ∈ new := by
  induction n generalizing tracer t with
  | zero => exact ⟨[], by simp⟩
  | succ n ih =>
      obtain ⟨asks', regular'⟩ := regular_step sound asks regular
      obtain ⟨new, granted, knows⟩ := known_step (b := b) asks regular
      obtain ⟨more, granted', knows'⟩ := ih _ asks' regular'
      refine ⟨new ++ more, ?_, fun name => ?_⟩
      · rw [Function.iterate_succ_apply, granted', granted, List.append_assoc]
      · rw [Function.iterate_succ_apply, knows', knows, List.mem_append, or_assoc]

omit [MachineInstruction ι] in
theorem ended_of_found? (found : tracer.found?.isSome = true) :
    ∃ fault, tracer.phase = .ended fault := by
  unfold found? at found
  split at found
  · exact ⟨_, ‹_›⟩
  · exact ⟨_, ‹_›⟩
  · cases found

theorem entry_step : (step b (tracer, t)).1.entry = tracer.entry := by
  simp only [step]
  split
  · rfl
  · split <;> rfl
  · rfl
  · rfl

theorem entry_iterate (n : Nat) : ((step b)^[n] (tracer, t)).1.entry = tracer.entry := by
  induction n generalizing tracer t with
  | zero => rfl
  | succ n ih => rw [Function.iterate_succ_apply, ih, entry_step]

/-- Nothing changes behind the end. -/
theorem iterate_of_found? {x : Tracer ι × IntrinsicTable} {n : Nat}
    (found : ((step b)^[n] x).1.found?.isSome = true) {m : Nat} (later : n ≤ m) :
    (step b)^[m] x = (step b)^[n] x := by
  obtain ⟨fault, ended⟩ := ended_of_found? found
  have still : step b ((step b)^[n] x) = (step b)^[n] x := by
    simp only [step, ended]
  obtain ⟨k, rfl⟩ := Nat.exists_eq_add_of_le' later
  rw [Function.iterate_add_apply]
  exact Function.iterate_fixed still k

/-- Two numbers of steps that both reach the end reach the same. -/
theorem iterate_eq_of_found? {x : Tracer ι × IntrinsicTable} {n m : Nat}
    (found : ((step b)^[n] x).1.found?.isSome = true)
    (found' : ((step b)^[m] x).1.found?.isSome = true) : (step b)^[m] x = (step b)^[n] x := by
  rcases Nat.le_total n m with later | earlier
  · exact iterate_of_found? found later
  · exact (iterate_of_found? found' earlier).symm

omit [MachineInstruction ι] in
/-- What a trace found is part of what it shows. -/
theorem found?_congr (same : tracer.shown = tracer'.shown) :
    tracer.found?.map (·.map Sweep.Trace.shown) = tracer'.found?.map (·.map Sweep.Trace.shown) := by
  obtain ⟨entry, clusters, granted, phase⟩ := tracer
  obtain ⟨entry', clusters', granted', phase'⟩ := tracer'
  simp only [shown, Shown.mk.injEq] at same
  obtain ⟨rfl, clustered, -, rfl⟩ := same
  cases phase with
  | ended fault => cases fault <;> simp [found?, Except.map, Sweep.Trace.shown, clustered]
  | _ => rfl

section Alone

variable {d : Decoder ι} {image : List UInt8} {base entry n : Nat}

/-- A trace that runs alone against an empty table, after some steps. -/
def alone (b : Backend ι) (d : Decoder ι) (image : List UInt8) (base entry n : Nat) :
    Tracer ι × IntrinsicTable :=
  (step b)^[n] (start d image base entry, .empty)

/-- A trace alone finds what `Sweep.trace` finds, and leaves the same table. -/
theorem exists_alone (sound : b.Sound) (d : Decoder ι) (image : List UInt8) (base entry : Nat) :
    ∃ n, (alone b d image base entry n).2 = (Sweep.trace d b .empty image base entry).2 ∧
      (alone b d image base entry n).1.found?.map (·.map Sweep.Trace.shown) =
        some ((Sweep.trace d b .empty image base entry).1.map Sweep.Trace.shown) :=
  exists_iterate_start sound IntrinsicTable.regular_empty d image base entry

/-- However many steps it took to the end. -/
theorem alone_of_found? (sound : b.Sound)
    (ended : (alone b d image base entry n).1.found?.isSome = true) :
    (alone b d image base entry n).2 = (Sweep.trace d b .empty image base entry).2 ∧
      (alone b d image base entry n).1.found?.map (·.map Sweep.Trace.shown) =
        some ((Sweep.trace d b .empty image base entry).1.map Sweep.Trace.shown) := by
  obtain ⟨m, table, found⟩ := exists_alone sound d image base entry
  have ended' : (alone b d image base entry m).1.found?.isSome = true := by
    rw [← Option.isSome_map, found]
    rfl
  have same : alone b d image base entry n = alone b d image base entry m :=
    iterate_eq_of_found? ended' ended
  rw [same]
  exact ⟨table, found⟩

/-- The table of a trace alone knows what the trace was granted. -/
theorem names_alone (sound : b.Sound) (name : String) :
    name ∈ (alone b d image base entry n).2.names ↔
      name ∈ (alone b d image base entry n).1.granted.map (·.name) := by
  obtain ⟨new, granted, knows⟩ := known_iterate sound (start d image base entry) trivial
    IntrinsicTable.regular_empty n
  have none_ : name ∉ IntrinsicTable.empty.names := by
    simp [IntrinsicTable.names, IntrinsicTable.empty]
  rw [alone, knows, granted]
  simp [none_, start]

end Alone

end Tracer

namespace Sweep

variable {b : Backend ι} {t : IntrinsicTable}

/-- A trace shows the same on every regular table as on one that knows nothing, and keeps it regular. -/
theorem shown_trace (sound : b.Sound) (regular : t.Regular) (d : Decoder ι) (image : List UInt8)
    (base entry : Nat) :
    (trace d b t image base entry).1.map Trace.shown =
        (trace d b .empty image base entry).1.map Trace.shown ∧
      (trace d b t image base entry).2.Regular := by
  obtain ⟨n, table, found⟩ := Tracer.exists_iterate_start sound regular d image base entry
  obtain ⟨same, kept⟩ := Tracer.shown_iterate sound
    (rfl : (Tracer.start d image base entry).shown = _) trivial regular
    IntrinsicTable.regular_empty n
  rw [table] at kept
  rw [Tracer.found?_congr same] at found
  have ended : (Tracer.alone b d image base entry n).1.found?.isSome = true := by
    rw [← Option.isSome_map, Tracer.alone, found]
    rfl
  have alone := (Tracer.alone_of_found? sound ended).2
  rw [Tracer.alone, found] at alone
  exact ⟨Option.some.inj alone, kept⟩

/-- Traces one after another on one table show what they show alone, up to the first that fails. -/
theorem shown_procedures (sound : b.Sound) (regular : t.Regular) (d : Decoder ι)
    (image : List UInt8) (base : Nat) (entries : List Nat) :
    (procedures d b t image base entries).1.map (·.map Trace.shown) =
      entries.mapM fun entry => (trace d b .empty image base entry).1.map Trace.shown := by
  induction entries generalizing t with
  | nil => rfl
  | cons entry rest ih =>
      obtain ⟨same, kept⟩ := shown_trace sound regular d image base entry
      rw [List.mapM_cons, ← same]
      unfold procedures
      cases traced : trace d b t image base entry with
      | mk result t' =>
          rw [traced] at kept
          cases result with
          | error fault => rfl
          | ok found =>
              rw [← ih kept]
              cases ran : procedures d b t' image base rest with
              | mk answer t'' => cases answer <;> simp [ran] <;> rfl

end Sweep

end RegisterTransfer
