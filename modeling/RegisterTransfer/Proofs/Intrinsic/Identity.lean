/-
# RegisterTransfer.Proofs.Intrinsic.Identity -- one entry for a name, whoever asks in whatever order

Clients share one table.  A request holds the table from its beginning to its end, so what clients do
beside each other is one request after another, in the order of a schedule: each turn of a client is its
next request.  `Session` is a table with what its clients have still to ask and what was answered.

A table adds entries at its end and never moves or changes one, so an entry is told from others by its
place (`IntrinsicTable.object?`).  `Session.Consistent` ties every answer to the first request for its
name; `consistent_turn` is that one turn keeps it, and `Session.answers_stable` says what follows for every
schedule.
-/
import RegisterTransfer.Proofs.Intrinsic.Table
import Mathlib.Data.List.Dedup

namespace RegisterTransfer

set_option autoImplicit false

/-! ## Entries and their places -/

/-- An entry of a table, and where it stands. -/
structure TableObject where
  place : Nat
  entry : Intrinsic

/-- The answer to a request for the name of an object: the object, unless the numbers of arguments
differ. -/
def TableObject.answer (o : TableObject) (wanted : Intrinsic) : Except Fault TableObject :=
  if o.entry.arity = wanted.arity then .ok o
  else .error (.arityMismatch wanted.name o.entry.arity wanted.arity)

namespace IntrinsicTable

/-- Where the entry of a name stands. -/
def place (t : IntrinsicTable) (name : String) : Nat := t.entries.findIdx (·.name == name)

/-- The entry of a name with its place. -/
def object? (t : IntrinsicTable) (name : String) : Option TableObject :=
  (t.lookup? name).map fun p => ⟨t.place name, p⟩

variable {t : IntrinsicTable} {name : String} {o : TableObject}

theorem object?_eq_some_iff :
    t.object? name = some o ↔ t.lookup? name = some o.entry ∧ t.place name = o.place := by
  obtain ⟨place, entry⟩ := o
  simp [object?, eq_comm]

/-- The entry of an object stands at its place. -/
theorem getElem?_of_object? (found : t.object? name = some o) :
    t.entries[o.place]? = some o.entry := by
  obtain ⟨known, stands⟩ := object?_eq_some_iff.mp found
  rwa [lookup?, List.find?_eq_getElem?_findIdx, ← place, stands] at known

/-- Only a name that the table does not know is added, at the end. -/
theorem ensure_of_unknown {wanted : Intrinsic} (unknown : t.lookup? wanted.name = none) :
    t.ensure wanted = (.ok wanted, ⟨t.entries ++ [wanted]⟩) := by
  rw [ensure, unknown]

theorem lookup?_ensure_eq (t : IntrinsicTable) (wanted : Intrinsic) (name : String) :
    (t.ensure wanted).2.lookup? name =
      (t.lookup? name).or (if wanted.name = name then some wanted else none) := by
  cases known : t.lookup? wanted.name with
  | none =>
      rw [ensure_of_unknown known]
      simp [lookup?, List.find?_append, List.find?_singleton]
  | some p =>
      rw [ensure_of_lookup? known]
      by_cases named : wanted.name = name
      · rw [← named, known]
        rfl
      · simp [named]

/-- A request leaves every entry at its place. -/
theorem object?_ensure (wanted : Intrinsic) (found : t.object? name = some o) :
    (t.ensure wanted).2.object? name = some o := by
  obtain ⟨known, stands⟩ := object?_eq_some_iff.mp found
  refine object?_eq_some_iff.mpr ⟨lookup?_ensure wanted known, ?_⟩
  cases added : t.lookup? wanted.name with
  | some p => rwa [ensure_of_lookup? added]
  | none =>
      rw [ensure_of_unknown added, ← stands]
      obtain ⟨listed, named⟩ := mem_of_lookup? known
      have inside : t.entries.findIdx (·.name == name) < t.entries.length :=
        List.findIdx_lt_length_of_exists ⟨o.entry, listed, by simp [named]⟩
      simp [place, List.findIdx_append, inside]

/-- What a request is answered with: the entry of its name with its place, or a fault. -/
def answer (t : IntrinsicTable) (wanted : Intrinsic) : Except Fault TableObject :=
  (t.ensure wanted).1.map fun p => ⟨(t.ensure wanted).2.place p.name, p⟩

/-- A failed request changes nothing. -/
theorem ensure_of_answer {wanted : Intrinsic} {fault : Fault}
    (failed : t.answer wanted = .error fault) : (t.ensure wanted).2 = t := by
  unfold answer at failed
  cases asked : t.ensure wanted with
  | mk result t' =>
      rw [asked] at failed
      cases result with
      | ok p => cases failed
      | error clash =>
          obtain ⟨_, _, _, _, rfl⟩ := mismatch_of_ensure asked
          rfl

/-- After a request the table has an object of the name asked for, and answers as this object does. -/
theorem exists_object (t : IntrinsicTable) (wanted : Intrinsic) :
    ∃ o, (t.ensure wanted).2.object? wanted.name = some o ∧ t.answer wanted = o.answer wanted := by
  cases known : t.lookup? wanted.name with
  | some p =>
      refine ⟨⟨t.place wanted.name, p⟩, ?_, ?_⟩
      · rw [ensure_of_lookup? known]
        exact object?_eq_some_iff.mpr ⟨known, rfl⟩
      · rw [answer, ensure_fst_of_lookup? known, ensure_of_lookup? known, TableObject.answer]
        split
        · rw [Except.map, (mem_of_lookup? known).2]
        · rfl
  | none =>
      have self : (t.ensure wanted).2.lookup? wanted.name = some wanted :=
        lookup?_ensure_self (by rw [ensure_of_unknown known])
      refine ⟨⟨(t.ensure wanted).2.place wanted.name, wanted⟩, object?_eq_some_iff.mpr ⟨self, rfl⟩, ?_⟩
      rw [TableObject.answer, if_pos rfl, answer, ensure_of_unknown known]
      rfl

theorem mem_names_iff : name ∈ t.names ↔ (t.lookup? name).isSome := by
  rw [mem_names, lookup?, List.find?_isSome]
  simp

theorem length_names (t : IntrinsicTable) : t.names.length = t.size := by
  simp [names, size]

/-- The names of a table come in order. -/
theorem pairwise_names (t : IntrinsicTable) : t.names.Pairwise (· ≤ ·) := by
  have sorted : (List.mergeSort (t.entries.map (·.name)) fun a b => decide (a ≤ b)).Pairwise
      fun a b => decide (a ≤ b) = true := List.pairwise_mergeSort
    (fun a b c => by simpa using String.le_trans) (fun a b => by simpa using String.le_total a b)
    (t.entries.map (·.name))
  simpa [names] using sorted

end IntrinsicTable

/-! ## Clients that share a table -/

/-- A request of a client and what it was answered. -/
structure Answered (κ : Type) where
  client : κ
  wanted : Intrinsic
  result : Except Fault TableObject

/-- A table and its clients. -/
structure Session (κ : Type) where
  table : IntrinsicTable
  /-- What each client has still to ask, in its order. -/
  pending : κ → List Intrinsic
  /-- What was answered, in the order in which the clients held the table. -/
  log : List (Answered κ)

namespace Session

variable {κ : Type} [DecidableEq κ]

/-- Clients at an empty table. -/
def start (calls : κ → List Intrinsic) : Session κ := ⟨.empty, calls, []⟩

/-- A client takes the table for its next request, if it has one. -/
def turn (s : Session κ) (k : κ) : Session κ :=
  match s.pending k with
  | [] => s
  | wanted :: rest =>
      { table := (s.table.ensure wanted).2
        pending := Function.update s.pending k rest
        log := s.log ++ [⟨k, wanted, s.table.answer wanted⟩] }

/-- Clients take the table in the order of a schedule. -/
def run (s : Session κ) (schedule : List κ) : Session κ := schedule.foldl turn s

/-- What a client has asked so far. -/
def askedBy (s : Session κ) (k : κ) : List Intrinsic :=
  (s.log.filter (·.client = k)).map (·.wanted)

omit [DecidableEq κ] in
/-- The earliest request for a name. -/
def earliest? (s : Session κ) (name : String) : Option Intrinsic :=
  (s.log.map (·.wanted)).find? (·.name == name)

/-- The table holds the earliest request for each name, and every answer is that of the object of its
name. -/
structure Consistent (calls : κ → List Intrinsic) (s : Session κ) : Prop where
  ordered : ∀ k, s.askedBy k ++ s.pending k = calls k
  earliest : ∀ name, s.table.lookup? name = s.earliest? name
  answered : ∀ a ∈ s.log, ∃ o,
    s.table.object? a.wanted.name = some o ∧ a.result = o.answer a.wanted
  once : s.table.names.Nodup

variable {calls : κ → List Intrinsic} {s : Session κ}

theorem consistent_start (calls : κ → List Intrinsic) : (start calls).Consistent calls :=
  ⟨fun _ => rfl, fun _ => rfl, by simp [start],
    by simp [start, IntrinsicTable.names, IntrinsicTable.empty]⟩

theorem turn_of_pending {k : κ} {wanted : Intrinsic} {rest : List Intrinsic}
    (waits : s.pending k = wanted :: rest) :
    s.turn k =
      { table := (s.table.ensure wanted).2
        pending := Function.update s.pending k rest
        log := s.log ++ [⟨k, wanted, s.table.answer wanted⟩] } := by
  rw [turn, waits]

/-- A turn moves one request of the client into the log. -/
theorem ordered_turn {k : κ} {wanted : Intrinsic} {rest : List Intrinsic}
    (ordered : ∀ k, s.askedBy k ++ s.pending k = calls k) (waits : s.pending k = wanted :: rest)
    (k' : κ) : (s.turn k).askedBy k' ++ (s.turn k).pending k' = calls k' := by
  rw [← ordered k', turn_of_pending waits]
  by_cases same : k' = k
  · subst same
    simp [askedBy, waits]
  · simp [askedBy, same, Ne.symm same]

theorem consistent_turn (consistent : s.Consistent calls) (k : κ) : (s.turn k).Consistent calls := by
  cases waits : s.pending k with
  | nil =>
      rw [turn, waits]
      exact consistent
  | cons wanted rest =>
      refine ⟨ordered_turn consistent.ordered waits, ?_, ?_, ?_⟩
      · intro name
        rw [turn_of_pending waits]
        simp only [earliest?, List.map_append, List.find?_append]
        rw [IntrinsicTable.lookup?_ensure_eq, consistent.earliest]
        simp [earliest?, List.find?_singleton]
      · rw [turn_of_pending waits]
        intro a listed
        rcases List.mem_append.mp listed with old | new
        · obtain ⟨o, known, same⟩ := consistent.answered a old
          exact ⟨o, IntrinsicTable.object?_ensure wanted known, same⟩
        · rw [List.mem_singleton.mp new]
          exact s.table.exists_object wanted
      · rw [turn_of_pending waits]
        exact IntrinsicTable.nodup_names_ensure consistent.once wanted

theorem consistent_run (consistent : s.Consistent calls) (schedule : List κ) :
    (s.run schedule).Consistent calls := by
  induction schedule generalizing s with
  | nil => exact consistent
  | cons k rest ih => exact ih (consistent_turn consistent k)

/-- Later turns leave every object at its place. -/
theorem object?_run {name : String} {o : TableObject} (known : s.table.object? name = some o)
    (schedule : List κ) : (s.run schedule).table.object? name = some o := by
  induction schedule generalizing s with
  | nil => exact known
  | cons k rest ih =>
      refine ih ?_
      cases waits : s.pending k with
      | nil => rwa [turn, waits]
      | cons wanted more =>
          rw [turn_of_pending waits]
          exact IntrinsicTable.object?_ensure wanted known

/-- What was asked for is what the table knows. -/
theorem Consistent.mem_names (consistent : s.Consistent calls) (name : String) :
    name ∈ s.table.names ↔ name ∈ s.log.map (·.wanted.name) := by
  rw [IntrinsicTable.mem_names_iff, consistent.earliest, earliest?, List.find?_isSome]
  simp

/-- Clients ask one table for intrinsics, each in its own order, and take turns in any order.  Every answer
so far is that of one object for its name: the entry at a fixed place, which is the earliest request for
the name.  It is given to requests with its number of arguments, and the others fail with both numbers.
Turns to come leave the object as it is, a failed turn leaves the table as it is, and the table knows just
the names asked for, each once and in order. -/
theorem answers_stable (calls : κ → List Intrinsic) (schedule : List κ) :
    let s := (start calls).run schedule
    let requested := s.log.map (·.wanted.name)
    (∀ k, s.askedBy k ++ s.pending k = calls k) ∧
    (∀ a ∈ s.log, ∃ o, s.table.object? a.wanted.name = some o ∧
      s.table.entries[o.place]? = some o.entry ∧ s.earliest? a.wanted.name = some o.entry ∧
      a.result =
        if o.entry.arity = a.wanted.arity then .ok o
        else .error (.arityMismatch a.wanted.name o.entry.arity a.wanted.arity)) ∧
    (∀ name o more, s.table.object? name = some o → (s.run more).table.object? name = some o) ∧
    (∀ k wanted rest fault, s.pending k = wanted :: rest → s.table.answer wanted = .error fault →
      (s.turn k).table = s.table) ∧
    s.table.size = requested.dedup.length ∧ s.table.names.Nodup ∧ s.table.names.Pairwise (· ≤ ·) ∧
    ∀ name, name ∈ s.table.names ↔ name ∈ requested := by
  intro s requested
  have consistent : s.Consistent calls := consistent_run (consistent_start calls) schedule
  refine ⟨consistent.ordered, ?_, fun name o more known => object?_run known more, ?_, ?_,
    consistent.once, s.table.pairwise_names, consistent.mem_names⟩
  · intro a listed
    obtain ⟨o, known, same⟩ := consistent.answered a listed
    have earliest := (IntrinsicTable.object?_eq_some_iff.mp known).1
    rw [consistent.earliest] at earliest
    exact ⟨o, known, IntrinsicTable.getElem?_of_object? known, earliest, same⟩
  · intro k wanted rest fault waits failed
    rw [turn_of_pending waits]
    exact IntrinsicTable.ensure_of_answer failed
  · have perm : List.Perm s.table.names requested.dedup :=
      (List.perm_ext_iff_of_nodup consistent.once requested.nodup_dedup).mpr fun name => by
        rw [consistent.mem_names, List.mem_dedup]
    rw [← perm.length_eq, IntrinsicTable.length_names]

end Session

end RegisterTransfer
