/-
# RegisterTransfer.Proofs.Sweep.Schedule -- traces beside each other

Several traces run beside each other and share one table of intrinsics, which grants one request at a
time.  A schedule says whose turn is next; every order in which the requests of the traces can meet at
the table is the order of some schedule.  One after another, as `Sweep.procedures` takes them, is one.

What a trace shows is its own affair: after any schedule it shows what it shows alone after as many
steps as it had turns (`Tracers.shown_run`), and the table knows the names that the traces were granted
(`Tracers.Known`).  So no schedule changes what is found, or which names the table knows in the end
(`Machine.traces_independent`).
-/
import RegisterTransfer.Proofs.Sweep.Tracer

namespace RegisterTransfer

set_option autoImplicit false

/-- Traces beside each other and the table they share. -/
structure Tracers (ι : Type) where
  tracers : List (Tracer ι)
  table : IntrinsicTable

namespace Tracers

variable {ι : Type}

/-- A trace for each entry point, and a table that knows nothing. -/
def start (d : Decoder ι) (image : List UInt8) (base : Nat) (entries : List Nat) : Tracers ι :=
  ⟨entries.map (Tracer.start d image base), .empty⟩

/-- The table and what every trace still wants are regular. -/
structure Regular (s : Tracers ι) : Prop where
  table : s.table.Regular
  tracers : ∀ {k : Nat} {tracer : Tracer ι}, s.tracers[k]? = some tracer → tracer.phase.Regular

/-- The table knows the names that the traces were granted, and each of them once. -/
structure Known (s : Tracers ι) : Prop where
  nodup : s.table.names.Nodup
  names : ∀ name, name ∈ s.table.names ↔
    ∃ (k : Nat) (tracer : Tracer ι), s.tracers[k]? = some tracer ∧
      name ∈ tracer.granted.map (·.name)

section Start

variable {d : Decoder ι} {image : List UInt8} {base : Nat} {entries : List Nat}

theorem tracers_start {k : Nat} {tracer : Tracer ι} :
    (start d image base entries).tracers[k]? = some tracer ↔
      ∃ entry, entries[k]? = some entry ∧ Tracer.start d image base entry = tracer := by
  simp only [start, List.getElem?_map, Option.map_eq_some_iff]

theorem regular_start : (start d image base entries).Regular := by
  refine ⟨IntrinsicTable.regular_empty, ?_⟩
  intro k tracer found
  obtain ⟨entry, -, rfl⟩ := tracers_start.mp found
  trivial

theorem known_start : (start d image base entries).Known := by
  have empty : (start d image base entries).table.names = [] := by
    simp [start, IntrinsicTable.names, IntrinsicTable.empty]
  constructor
  · rw [empty]
    exact List.nodup_nil
  · intro name
    rw [empty]
    constructor
    · intro listed
      cases listed
    · rintro ⟨k, tracer, found, granted⟩
      obtain ⟨entry, -, rfl⟩ := tracers_start.mp found
      cases granted

end Start

/-! ## One turn -/

variable [MachineInstruction ι]

/-- One trace takes a step. -/
def turn (b : Backend ι) (s : Tracers ι) (k : Nat) : Tracers ι :=
  match s.tracers[k]? with
  | none => s
  | some tracer =>
      let (next, t) := Tracer.step b (tracer, s.table)
      ⟨s.tracers.set k next, t⟩

/-- The traces take steps as a schedule says. -/
def run (b : Backend ι) (s : Tracers ι) (schedule : List Nat) : Tracers ι :=
  schedule.foldl (turn b) s

variable {b : Backend ι} {s : Tracers ι} {tracer : Tracer ι} {k j : Nat}

theorem turn_of_some (found : s.tracers[k]? = some tracer) :
    s.turn b k = ⟨s.tracers.set k (Tracer.step b (tracer, s.table)).1,
      (Tracer.step b (tracer, s.table)).2⟩ := by
  simp only [turn, found]

theorem turn_of_none (none_ : s.tracers[k]? = none) : s.turn b k = s := by
  simp only [turn, none_]

/-- The trace whose turn it is takes a step. -/
theorem tracers_turn_self (found : s.tracers[k]? = some tracer) :
    (s.turn b k).tracers[k]? = some (Tracer.step b (tracer, s.table)).1 := by
  obtain ⟨within, -⟩ := List.getElem?_eq_some_iff.mp found
  rw [turn_of_some found]
  simp [within]

/-- The other traces stay as they are. -/
theorem tracers_turn_of_ne (other : k ≠ j) : (s.turn b k).tracers[j]? = s.tracers[j]? := by
  cases found : s.tracers[k]? with
  | none => rw [turn_of_none found]
  | some tracer =>
      rw [turn_of_some found]
      simp [other]

theorem length_turn : (s.turn b k).tracers.length = s.tracers.length := by
  cases found : s.tracers[k]? with
  | none => rw [turn_of_none found]
  | some tracer =>
      rw [turn_of_some found]
      simp

theorem regular_turn (sound : b.Sound) (regular : s.Regular) (k : Nat) :
    (s.turn b k).Regular := by
  cases found : s.tracers[k]? with
  | none => rwa [turn_of_none found]
  | some tracer =>
      obtain ⟨asks, kept⟩ := Tracer.regular_step sound (regular.tracers found) regular.table
      constructor
      · rwa [turn_of_some found]
      · intro j other listed
        by_cases same : k = j
        · subst same
          rw [tracers_turn_self found] at listed
          cases listed
          exact asks
        · rw [tracers_turn_of_ne same] at listed
          exact regular.tracers listed

theorem known_turn (regular : s.Regular) (known : s.Known) (k : Nat) : (s.turn b k).Known := by
  cases found : s.tracers[k]? with
  | none => rwa [turn_of_none found]
  | some tracer =>
      obtain ⟨new, granted, knows⟩ :=
        Tracer.known_step (b := b) (regular.tracers found) regular.table
      have table : (s.turn b k).table = (Tracer.step b (tracer, s.table)).2 := by
        rw [turn_of_some found]
      constructor
      · rw [table]
        exact Tracer.nodup_step known.nodup
      · intro name
        rw [table, knows, known.names]
        constructor
        · rintro (⟨j, other, listed, old⟩ | fresh)
          · by_cases same : k = j
            · subst same
              rw [found] at listed
              cases listed
              refine ⟨k, _, tracers_turn_self found, ?_⟩
              rw [granted]
              exact List.mem_append_left _ old
            · exact ⟨j, other, (tracers_turn_of_ne same).trans listed, old⟩
          · refine ⟨k, _, tracers_turn_self found, ?_⟩
            rw [granted]
            exact List.mem_append_right _ fresh
        · rintro ⟨j, other, listed, old⟩
          by_cases same : k = j
          · subst same
            rw [tracers_turn_self found] at listed
            cases listed
            rw [granted] at old
            rcases List.mem_append.mp old with old | fresh
            · exact .inl ⟨k, tracer, found, old⟩
            · exact .inr fresh
          · rw [tracers_turn_of_ne same] at listed
            exact .inl ⟨j, other, listed, old⟩

/-! ## Whole schedules -/

theorem regular_run (sound : b.Sound) (regular : s.Regular) (schedule : List Nat) :
    (s.run b schedule).Regular := by
  induction schedule generalizing s with
  | nil => exact regular
  | cons k rest ih => exact ih (regular_turn sound regular k)

theorem length_run (schedule : List Nat) : (s.run b schedule).tracers.length = s.tracers.length := by
  induction schedule generalizing s with
  | nil => rfl
  | cons k rest ih => exact ih.trans length_turn

theorem known_run (sound : b.Sound) (regular : s.Regular) (known : s.Known)
    (schedule : List Nat) : (s.run b schedule).Known := by
  induction schedule generalizing s with
  | nil => exact known
  | cons k rest ih => exact ih (regular_turn sound regular k) (known_turn regular known k)

/-- After any schedule a trace shows what it shows alone, with a table of its own, after as many steps as
it had turns. -/
theorem shown_run (sound : b.Sound) (regular : s.Regular) (found : s.tracers[k]? = some tracer)
    {alone : Tracer ι} (same : tracer.shown = alone.shown) {t : IntrinsicTable}
    (regular' : t.Regular) (schedule : List Nat) :
    ∃ out, (s.run b schedule).tracers[k]? = some out ∧
      out.shown = ((Tracer.step b)^[schedule.count k] (alone, t)).1.shown := by
  induction schedule generalizing s tracer alone t with
  | nil => exact ⟨tracer, found, same⟩
  | cons j rest ih =>
      have kept := regular_turn sound regular j
      by_cases turns : j = k
      · subst turns
        have asks := regular.tracers found
        have asks' : alone.phase.Regular := by
          have phases : tracer.phase = alone.phase := congrArg Tracer.Shown.phase same
          rwa [← phases]
        rw [List.count_cons_self, Function.iterate_succ_apply]
        exact ih kept (tracers_turn_self found)
          (Tracer.shown_step same asks regular.table regular')
          (Tracer.regular_step sound asks' regular').2
      · rw [List.count_cons_of_ne turns]
        exact ih kept ((tracers_turn_of_ne turns).trans found) same regular'

/-! ## Against traces alone -/

section Alone

variable {d : Decoder ι} {image : List UInt8} {base entry : Nat} {entries schedule : List Nat}

/-- After any schedule there is a trace for each entry point, and it shows what it shows alone. -/
theorem shown_run_start (sound : b.Sound) (d : Decoder ι) (image : List UInt8) (base : Nat)
    (listed : entries[k]? = some entry) (schedule : List Nat) :
    ∃ out, ((start d image base entries).run b schedule).tracers[k]? = some out ∧
      out.shown = (Tracer.alone b d image base entry (schedule.count k)).1.shown :=
  shown_run sound regular_start (tracers_start.mpr ⟨entry, listed, rfl⟩) rfl
    IntrinsicTable.regular_empty schedule

/-- There are no other traces. -/
theorem exists_entry (sound : b.Sound) {out : Tracer ι}
    (ran : ((start d image base entries).run b schedule).tracers[k]? = some out) :
    ∃ entry, entries[k]? = some entry ∧
      out.shown = (Tracer.alone b d image base entry (schedule.count k)).1.shown := by
  have within : k < entries.length := by
    obtain ⟨within, -⟩ := List.getElem?_eq_some_iff.mp ran
    rw [length_run, start, List.length_map] at within
    exact within
  have listed : entries[k]? = some entries[k] := List.getElem?_eq_getElem within
  obtain ⟨out', ran', same⟩ := shown_run_start sound d image base listed schedule
  rw [ran] at ran'
  cases ran'
  exact ⟨_, listed, same⟩

/-- A trace that has ended found what a trace alone finds, and was granted the names that the table of a
trace alone knows. -/
theorem shown_of_found (sound : b.Sound) {out : Tracer ι} {n : Nat}
    (same : out.shown = (Tracer.alone b d image base entry n).1.shown)
    {found : Except Fault Sweep.Trace} (ended : out.found? = some found) :
    found.map Sweep.Trace.shown =
        (Sweep.trace d b .empty image base entry).1.map Sweep.Trace.shown ∧
      ∀ name, name ∈ out.granted.map (·.name) ↔
        name ∈ (Sweep.trace d b .empty image base entry).2.names := by
  have shows := Tracer.found?_congr same
  rw [ended, Option.map_some] at shows
  have ended' : (Tracer.alone b d image base entry n).1.found?.isSome = true := by
    rw [← Option.isSome_map, ← shows]
    rfl
  obtain ⟨table, traced⟩ := Tracer.alone_of_found? sound ended'
  refine ⟨Option.some.inj (shows.trans traced), fun name => ?_⟩
  have granted : out.granted.map (·.name) =
      (Tracer.alone b d image base entry n).1.granted.map (·.name) :=
    congrArg Tracer.Shown.granted same
  rw [granted, ← Tracer.names_alone sound, table]

/-- Once all traces have ended, the table knows the names that the traces alone leave. -/
theorem names_run (sound : b.Sound)
    (ended : ∀ tracer ∈ ((start d image base entries).run b schedule).tracers,
      tracer.found?.isSome = true) (name : String) :
    name ∈ ((start d image base entries).run b schedule).table.names ↔
      ∃ entry ∈ entries, name ∈ (Sweep.trace d b .empty image base entry).2.names := by
  rw [(known_run sound regular_start known_start schedule).names]
  constructor
  · rintro ⟨k, out, ran, granted⟩
    obtain ⟨entry, listed, same⟩ := exists_entry sound ran
    obtain ⟨found, is⟩ := Option.isSome_iff_exists.mp (ended out (List.mem_of_getElem? ran))
    refine ⟨entry, List.mem_of_getElem? listed, ?_⟩
    rwa [← (shown_of_found sound same is).2]
  · rintro ⟨entry, listed, knows⟩
    obtain ⟨k, listed⟩ := List.mem_iff_getElem?.mp listed
    obtain ⟨out, ran, same⟩ := shown_run_start sound d image base listed schedule
    obtain ⟨found, is⟩ := Option.isSome_iff_exists.mp (ended out (List.mem_of_getElem? ran))
    refine ⟨k, out, ran, ?_⟩
    rwa [(shown_of_found sound same is).2]

/-- Some number of turns is enough for every trace. -/
theorem exists_turns (sound : b.Sound) (d : Decoder ι) (image : List UInt8) (base : Nat)
    (entries : List Nat) :
    ∃ turns, ∀ entry ∈ entries, ∀ n, turns ≤ n →
      (Tracer.alone b d image base entry n).1.found?.isSome = true := by
  induction entries with
  | nil => exact ⟨0, nofun⟩
  | cons entry rest ih =>
      obtain ⟨turns, enough⟩ := ih
      obtain ⟨n, -, found⟩ := Tracer.exists_alone sound d image base entry
      have ended : (Tracer.alone b d image base entry n).1.found?.isSome = true := by
        rw [← Option.isSome_map, found]
        rfl
      refine ⟨max turns n, ?_⟩
      intro other listed k bound
      rcases List.mem_cons.mp listed with rfl | listed
      · have same : Tracer.alone b d image base other k = Tracer.alone b d image base other n :=
          Tracer.iterate_of_found? ended (Nat.le_trans (Nat.le_max_right _ _) bound)
        rw [same]
        exact ended
      · exact enough other listed k (Nat.le_trans (Nat.le_max_left _ _) bound)

end Alone

end Tracers

/-- Tracing procedures beside each other does not depend on the schedule.  For every list of entry points
and whatever the order in which the requests of the traces meet at the table:

* there is a trace for each entry point, and if it has ended it found what a trace alone finds that
  begins with an empty table, but for what a table records of intrinsics;
* once all traces have ended, the table knows the names that the traces alone leave in their tables;
* of one name the table records the same arity in every schedule, so that only the return type that it
  records may differ;
* the traces end if each of them has enough turns. -/
theorem Machine.traces_independent (m : Machine) (d : Decoder m.Instruction) (image : List UInt8)
    (base : Nat) (entries : List Nat) :
    let alone (entry : Nat) := Sweep.trace d m.backend .empty image base entry
    let after (schedule : List Nat) := (Tracers.start d image base entries).run m.backend schedule
    (∀ (schedule : List Nat) (k entry : Nat), entries[k]? = some entry →
      ∃ tracer : Tracer m.Instruction, (after schedule).tracers[k]? = some tracer ∧
        tracer.entry = entry ∧
        ∀ found, tracer.found? = some found →
          found.map Sweep.Trace.shown = (alone entry).1.map Sweep.Trace.shown) ∧
    (∀ schedule, (∀ tracer ∈ (after schedule).tracers, tracer.found?.isSome = true) →
      (after schedule).table.names.Nodup ∧
        ∀ name, name ∈ (after schedule).table.names ↔
          ∃ entry ∈ entries, name ∈ (alone entry).2.names) ∧
    (∀ schedule schedule', ∀ p ∈ (after schedule).table.entries,
      ∀ p' ∈ (after schedule').table.entries, p.name = p'.name → p.arity = p'.arity) ∧
    (∃ turns, ∀ schedule, (∀ k < entries.length, turns ≤ schedule.count k) →
      ∀ tracer ∈ (after schedule).tracers, tracer.found?.isSome = true) := by
  intro alone after
  have sound := m.sound_backend
  have regular (schedule : List Nat) : (after schedule).table.Regular :=
    (Tracers.regular_run sound Tracers.regular_start schedule).table
  refine ⟨?_, ?_, ?_, ?_⟩
  · intro schedule k entry listed
    obtain ⟨out, ran, same⟩ := Tracers.shown_run_start sound d image base listed schedule
    refine ⟨out, ran, ?_, fun found ended => (Tracers.shown_of_found sound same ended).1⟩
    exact (congrArg Tracer.Shown.entry same).trans (Tracer.entry_iterate _)
  · intro schedule ended
    exact ⟨(Tracers.known_run sound Tracers.regular_start Tracers.known_start schedule).nodup,
      Tracers.names_run sound ended⟩
  · intro schedule schedule' p listed p' listed' named
    have fits : IntrinsicName.arity? p.name = some p.arity := regular schedule p listed
    have fits' : IntrinsicName.arity? p'.name = some p'.arity := regular schedule' p' listed'
    rw [named, fits'] at fits
    exact (Option.some.inj fits).symm
  · obtain ⟨turns, enough⟩ := Tracers.exists_turns sound d image base entries
    refine ⟨turns, ?_⟩
    intro schedule fair tracer listed
    obtain ⟨k, ran⟩ := List.mem_iff_getElem?.mp listed
    obtain ⟨entry, listed, same⟩ := Tracers.exists_entry sound ran
    obtain ⟨within, -⟩ := List.getElem?_eq_some_iff.mp listed
    have ended := enough entry (List.mem_of_getElem? listed) _ (fair k within)
    rw [← Option.isSome_map, Tracer.found?_congr same, Option.isSome_map]
    exact ended

end RegisterTransfer
