/-
# RegisterTransfer.Proofs.Intrinsic.Table -- what a table knows

A table only grows, and an entry stays what it was when it was added.

* `mem_names`, `nodup_names_ensure`: the names of a table are those of its entries, each of them once;
* `ensure_grants`: a regular table grants a regular request and then knows its name besides the old ones;
* `ensureAll_grants`: after requests that were all granted the table knows their names besides the old
  ones, each under an entry with the number of arguments asked for, and every old entry is still there.
-/
import RegisterTransfer.Proofs.Intrinsic.Arity

namespace RegisterTransfer

set_option autoImplicit false

namespace IntrinsicTable

/-- What is known of a name is an entry with this name. -/
theorem mem_of_lookup? {t : IntrinsicTable} {name : String} {p : Intrinsic}
    (found : t.lookup? name = some p) : p ∈ t.entries ∧ p.name = name :=
  ⟨List.mem_of_find?_eq_some found, by simpa using List.find?_some found⟩

theorem mem_names {t : IntrinsicTable} {name : String} :
    name ∈ t.names ↔ name ∈ t.entries.map (·.name) := by
  simp [names, List.mem_mergeSort]

/-- A table knows no name twice. -/
theorem nodup_names_ensure {t : IntrinsicTable} (once : t.names.Nodup) (wanted : Intrinsic) :
    (t.ensure wanted).2.names.Nodup := by
  cases found : t.lookup? wanted.name with
  | some known =>
      rw [ensure_of_lookup? found]
      exact once
  | none =>
      have new : wanted.name ∉ t.names := by
        intro listed
        rw [mem_names, List.mem_map] at listed
        obtain ⟨p, listed, named⟩ := listed
        have unlike := List.find?_eq_none.mp found p listed
        simp [named] at unlike
      rw [ensure, found]
      simp only [names, List.map_append, List.map_singleton] at once new ⊢
      rw [(List.mergeSort_perm _ _).nodup_iff] at once ⊢
      rw [(List.mergeSort_perm _ _).mem_iff] at new
      refine List.nodup_append.mpr ⟨once, by simp, ?_⟩
      intro name listed other last same
      rw [List.mem_singleton.mp last] at same
      exact new (same ▸ listed)

/-- A table that refused nothing knows what it was asked for, and has kept what it knew. -/
structure Grants (t : IntrinsicTable) (requests : List Intrinsic) (t' : IntrinsicTable) : Prop where
  names : ∀ name, name ∈ t'.names ↔ name ∈ t.names ∨ ∃ p ∈ requests, p.name = name
  kept : ∀ {name p}, t.lookup? name = some p → t'.lookup? name = some p
  known : ∀ p ∈ requests, ∃ q, t'.lookup? p.name = some q ∧ q.arity = p.arity

theorem lookup?_ensure {t : IntrinsicTable} (wanted : Intrinsic) {name : String} {p : Intrinsic}
    (found : t.lookup? name = some p) : (t.ensure wanted).2.lookup? name = some p := by
  cases known : t.lookup? wanted.name with
  | some q =>
      rw [ensure_of_lookup? known]
      exact found
  | none =>
      have added : (t.ensure wanted).2 = ⟨t.entries ++ [wanted]⟩ := by rw [ensure, known]
      rw [added]
      unfold lookup? at found ⊢
      rw [List.find?_append, found]
      rfl

/-- What a table grants has the name and the number of arguments asked for. -/
theorem ensure_fits {t t' : IntrinsicTable} {wanted p : Intrinsic}
    (granted : t.ensure wanted = (.ok p, t')) : p.name = wanted.name ∧ p.arity = wanted.arity := by
  unfold ensure at granted
  split at granted
  · rename_i known found
    split at granted
    · rename_i same
      cases granted
      exact ⟨(mem_of_lookup? found).2, same⟩
    · cases granted
  · cases granted
    exact ⟨rfl, rfl⟩

theorem mem_names_ensure (t : IntrinsicTable) (wanted : Intrinsic) (name : String) :
    name ∈ (t.ensure wanted).2.names ↔ name ∈ t.names ∨ wanted.name = name := by
  cases found : t.lookup? wanted.name with
  | none =>
      rw [ensure, found]
      simp [mem_names, eq_comm]
  | some known =>
      rw [ensure_of_lookup? found]
      refine ⟨.inl, ?_⟩
      rintro (old | rfl)
      · exact old
      · obtain ⟨listed, named⟩ := mem_of_lookup? found
        rw [mem_names, ← named]
        exact List.mem_map_of_mem listed

theorem grants_ensure {t t' : IntrinsicTable} {wanted p : Intrinsic}
    (granted : t.ensure wanted = (.ok p, t')) : t.Grants [wanted] t' := by
  have self : (t.ensure wanted).2.lookup? wanted.name = some p :=
    lookup?_ensure_self (by rw [granted])
  have names := t.mem_names_ensure wanted
  have kept : ∀ {name q}, t.lookup? name = some q → (t.ensure wanted).2.lookup? name = some q :=
    lookup?_ensure wanted
  rw [granted] at self names kept
  refine ⟨by simpa using names, kept, ?_⟩
  intro q listed
  rw [List.mem_singleton.mp listed]
  exact ⟨p, self, (ensure_fits granted).2⟩

/-- A regular table grants a request under the name asked for, and then knows this name besides those
it knew. -/
theorem ensure_grants {t : IntrinsicTable} (regular : t.Regular) {wanted : Intrinsic}
    (fits : wanted.Regular) :
    ∃ p t', t.ensure wanted = (.ok p, t') ∧ t'.Regular ∧ p.name = wanted.name ∧
      ∀ name, name ∈ t'.names ↔ name ∈ t.names ∨ name = wanted.name := by
  obtain ⟨p, t', granted, regular'⟩ := ensure_of_regular regular fits
  refine ⟨p, t', granted, regular', (ensure_fits granted).1, fun name => ?_⟩
  have grown := t.mem_names_ensure wanted name
  rw [granted] at grown
  rw [grown, eq_comm]

theorem Grants.trans {t t' t'' : IntrinsicTable} {requests more : List Intrinsic}
    (first : t.Grants requests t') (second : t'.Grants more t'') :
    t.Grants (requests ++ more) t'' := by
  refine ⟨fun name => ?_, fun found => second.kept (first.kept found), fun p listed => ?_⟩
  · simp only [second.names, first.names, List.mem_append, or_and_right, exists_or, or_assoc]
  · rcases List.mem_append.mp listed with old | new
    · obtain ⟨q, found, same⟩ := first.known p old
      exact ⟨q, second.kept found, same⟩
    · exact second.known p new

theorem ensureAll_grants {requests : List Intrinsic} :
    ∀ {t t' : IntrinsicTable}, t.ensureAll requests = (.ok (), t') → t.Grants requests t' := by
  induction requests with
  | nil =>
      rintro t _ ⟨⟩
      exact ⟨by simp, id, nofun⟩
  | cons wanted rest ih =>
      intro t t' granted
      unfold ensureAll at granted
      cases asked : t.ensure wanted with
      | mk answer between =>
          rw [asked] at granted
          cases answer with
          | error fault => cases granted
          | ok p => exact (grants_ensure asked).trans (ih granted)

/-- A table refuses nothing but a number of arguments. -/
theorem mismatch_of_ensure {t t' : IntrinsicTable} {wanted : Intrinsic} {fault : Fault}
    (refused : t.ensure wanted = (.error fault, t')) :
    ∃ known, t.lookup? wanted.name = some known ∧ known.arity ≠ wanted.arity ∧
      fault = .arityMismatch wanted.name known.arity wanted.arity ∧ t' = t := by
  unfold ensure at refused
  split at refused
  · rename_i known found
    split at refused
    · cases refused
    · rename_i differ
      cases refused
      exact ⟨known, found, differ, rfl, rfl⟩
  · cases refused

theorem mismatch_of_ensureAll {requests : List Intrinsic} {fault : Fault} :
    ∀ {t t' : IntrinsicTable}, t.ensureAll requests = (.error fault, t') →
      ∃ name expected actual, fault = .arityMismatch name expected actual := by
  induction requests with
  | nil =>
      intro t t' refused
      cases refused
  | cons wanted rest ih =>
      intro t t' refused
      unfold ensureAll at refused
      cases asked : t.ensure wanted with
      | mk answer between =>
          rw [asked] at refused
          cases answer with
          | ok p => exact ih refused
          | error clash =>
              obtain ⟨known, _, _, rfl, _⟩ := mismatch_of_ensure asked
              cases refused
              exact ⟨_, _, _, rfl⟩

theorem nodup_names_ensureAll (requests : List Intrinsic) :
    ∀ {t : IntrinsicTable}, t.names.Nodup → (t.ensureAll requests).2.names.Nodup := by
  induction requests with
  | nil => exact id
  | cons wanted rest ih =>
      intro t once
      have kept := nodup_names_ensure once wanted
      unfold ensureAll
      cases asked : t.ensure wanted with
      | mk answer t' =>
          rw [asked] at kept
          cases answer with
          | error fault => exact kept
          | ok p => exact ih kept

end IntrinsicTable

end RegisterTransfer
