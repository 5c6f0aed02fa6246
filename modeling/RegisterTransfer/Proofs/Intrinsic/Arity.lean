/-
# RegisterTransfer.Proofs.Intrinsic.Arity -- every intrinsic has one arity

The table of intrinsics refuses a request whose number of arguments differs from that of the first
request for the name.  `IntrinsicName.arity?` fixes one number of arguments for each name that a
back-end uses.  A table all of whose entries have these numbers is `Regular`: it grants every regular
request and stays regular (`ensureAll_of_regular`), so no order of regular requests ever clashes.
-/
import RegisterTransfer.Draft
import RegisterTransfer.Intrinsic.Names

namespace RegisterTransfer

set_option autoImplicit false

/-- The names that back-ends use, each with how many arguments it takes. -/
def IntrinsicName.arities : List (String × Nat) :=
  [(daw, 3), (aaa, 1), (aam, 2), (daa, 1), (das, 1), (rlcf, 2), (rrcf, 2), (rol, 2), (ror, 2),
    (rcl, 3), (rcr, 3), (swapf, 1), (shld, 3), (shrd, 3), (bsr, 1), (bswap, 1), (bt, 2), (arpl, 2),
    (sleep, 0), (clrwdt, 0), (reset, 0), (tblrd, 1), (tblwt, 2), (cli, 0), (sti, 0), (hlt, 0),
    (syscall, 1), (portIn, 1), (portOut, 2), (sin, 1), (cos, 1), (sqrt, 1), (atan, 2), (lg2, 1),
    (rndint, 1), (fxam, 1), (fclex, 0)]

/-- How many arguments an intrinsic that back-ends use takes. -/
def IntrinsicName.arity? (name : String) : Option Nat := arities.lookup name

/-- An intrinsic has the number of arguments that its name stands for. -/
def Intrinsic.Regular (p : Intrinsic) : Prop := IntrinsicName.arity? p.name = some p.arity

namespace IntrinsicTable

/-- Every entry has the number of arguments that its name stands for. -/
def Regular (t : IntrinsicTable) : Prop := ∀ p ∈ t.entries, p.Regular

theorem regular_empty : empty.Regular := by
  intro p listed
  cases listed

theorem regular_of_lookup? {t : IntrinsicTable} (regular : t.Regular) {name : String}
    {known : Intrinsic} (found : t.lookup? name = some known) :
    known.Regular ∧ known.name = name := by
  have named := List.find?_some found
  exact ⟨regular known (List.mem_of_find?_eq_some found), by simpa using named⟩

/-- A regular table grants a regular request and stays regular. -/
theorem ensure_of_regular {t : IntrinsicTable} (regular : t.Regular) {wanted : Intrinsic}
    (fits : wanted.Regular) :
    ∃ p t', t.ensure wanted = (.ok p, t') ∧ t'.Regular := by
  cases found : t.lookup? wanted.name with
  | some known =>
      obtain ⟨knownFits, named⟩ := regular_of_lookup? regular found
      have same : known.arity = wanted.arity := by
        rw [Intrinsic.Regular, named, fits] at knownFits
        exact (Option.some.inj knownFits).symm
      refine ⟨known, t, ?_, regular⟩
      rw [ensure, found]
      simp [same]
  | none =>
      refine ⟨wanted, ⟨t.entries ++ [wanted]⟩, ?_, ?_⟩
      · rw [ensure, found]
      · intro p listed
        rcases List.mem_append.mp listed with old | new
        · exact regular p old
        · rw [List.mem_singleton.mp new]
          exact fits

/-- No order of regular requests clashes on a regular table. -/
theorem ensureAll_of_regular {requests : List Intrinsic} :
    ∀ {t : IntrinsicTable}, t.Regular → (∀ p ∈ requests, p.Regular) →
      ∃ t', t.ensureAll requests = (.ok (), t') ∧ t'.Regular := by
  induction requests with
  | nil =>
      intro t regular _
      exact ⟨t, rfl, regular⟩
  | cons wanted rest ih =>
      intro t regular fits
      obtain ⟨p, t', granted, regular'⟩ :=
        ensure_of_regular regular (fits wanted List.mem_cons_self)
      obtain ⟨last, all, regular''⟩ :=
        ih regular' fun q listed => fits q (List.mem_cons_of_mem _ listed)
      refine ⟨last, ?_, regular''⟩
      rw [ensureAll, granted]
      exact all

end IntrinsicTable

/-- Every intrinsic that a draft asks for has the number of arguments that its name stands for. -/
def Draft.Regular (d : Draft) : Prop := ∀ p ∈ d.requests, p.Regular

theorem Draft.regular_empty : Draft.empty.Regular := by
  intro p listed
  cases listed

/-- A regular draft stands on every regular table. -/
theorem Draft.settle_of_regular {d : Draft} (asks : d.Regular) {t : IntrinsicTable}
    (regular : t.Regular) :
    ∃ t', d.settle t = (.ok (d.statements.map (·.mapIntrinsics t'.resolve)), t') ∧ t'.Regular := by
  obtain ⟨t', granted, regular'⟩ := IntrinsicTable.ensureAll_of_regular regular asks
  refine ⟨t', ?_, regular'⟩
  rw [settle, granted]

end RegisterTransfer
