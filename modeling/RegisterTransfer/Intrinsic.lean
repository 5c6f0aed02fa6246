/-
# RegisterTransfer.Intrinsic -- the table of intrinsics

All clusters that are read together share one table of intrinsics.  Asking for a name the table
does not know adds it; asking again gives the entry of the first request, unless the number of
arguments differs, which is a fault and changes nothing.

* `lookup?_ensure_self`: after a request for a name that did not fail, the table knows the name;
* `ensure_of_lookup?`: a known name with the same arity leaves the table as it is;
* `ensure_fst_of_lookup?`: the fault reports the arity of the first request.
-/
import RegisterTransfer.Expr
import RegisterTransfer.Fault

namespace RegisterTransfer

set_option autoImplicit false

/-- The intrinsics known so far, in the order they were first asked for. -/
structure IntrinsicTable where
  entries : List Intrinsic := []

namespace IntrinsicTable

def empty : IntrinsicTable := {}

/-- The entry of a name. -/
def lookup? (t : IntrinsicTable) (name : String) : Option Intrinsic :=
  t.entries.find? (·.name == name)

/-- How many names the table knows. -/
def size (t : IntrinsicTable) : Nat := t.entries.length

def isEmpty (t : IntrinsicTable) : Bool := t.entries.isEmpty

/-- The known names in the order of their characters. -/
def names (t : IntrinsicTable) : List String :=
  (t.entries.map (·.name)).mergeSort (fun a b => decide (a ≤ b))

/-- Ask for an intrinsic.  A new name is added with the type and arity asked for. -/
def ensure (t : IntrinsicTable) (wanted : Intrinsic) :
    Except Fault Intrinsic × IntrinsicTable :=
  match t.lookup? wanted.name with
  | some known =>
      if known.arity = wanted.arity then (.ok known, t)
      else (.error (.arityMismatch wanted.name known.arity wanted.arity), t)
  | none => (.ok wanted, ⟨t.entries ++ [wanted]⟩)

theorem ensure_of_lookup? {t : IntrinsicTable} {wanted known : Intrinsic}
    (h : t.lookup? wanted.name = some known) : (t.ensure wanted).2 = t := by
  unfold ensure
  simp only [h]
  split <;> rfl

theorem ensure_fst_of_lookup? {t : IntrinsicTable} {wanted known : Intrinsic}
    (h : t.lookup? wanted.name = some known) :
    (t.ensure wanted).1 =
      if known.arity = wanted.arity then .ok known
      else .error (.arityMismatch wanted.name known.arity wanted.arity) := by
  unfold ensure
  simp only [h]
  split <;> rfl

theorem lookup?_ensure_self {t : IntrinsicTable} {wanted p : Intrinsic}
    (h : (t.ensure wanted).1 = .ok p) : (t.ensure wanted).2.lookup? wanted.name = some p := by
  cases hl : t.lookup? wanted.name with
  | some known =>
      rw [ensure_fst_of_lookup? hl] at h
      rw [ensure_of_lookup? hl, hl]
      split at h <;> simp_all
  | none =>
      have hp : (t.ensure wanted) = (.ok wanted, ⟨t.entries ++ [wanted]⟩) := by
        unfold ensure
        simp only [hl]
      rw [hp] at h ⊢
      simp only [Except.ok.injEq] at h
      subst h
      unfold lookup? at hl ⊢
      simp [List.find?_append, hl]

/-- Ask for several intrinsics in turn, up to the first that fails. -/
def ensureAll (t : IntrinsicTable) : List Intrinsic → Except Fault Unit × IntrinsicTable
  | [] => (.ok (), t)
  | wanted :: rest =>
      match t.ensure wanted with
      | (.ok _, t') => t'.ensureAll rest
      | (.error fault, t') => (.error fault, t')

/-- The table's own entry for an intrinsic, or the intrinsic itself if the table lacks it. -/
def resolve (t : IntrinsicTable) (p : Intrinsic) : Intrinsic := (t.lookup? p.name).getD p

theorem name_resolve (t : IntrinsicTable) (p : Intrinsic) : (t.resolve p).name = p.name := by
  unfold resolve
  cases h : t.lookup? p.name with
  | none => rfl
  | some known =>
      have := List.find?_some h
      simpa using this

/-- Ask for an intrinsic that fits some arguments and apply it to them.  The application has the
type asked for, whatever return type the table recorded. -/
def call (t : IntrinsicTable) (name : String) (type : DataType) (arguments : List Expr) :
    Except Fault Expr × IntrinsicTable :=
  match t.ensure ⟨name, type, arguments.length⟩ with
  | (.ok p, t') => (.ok (.apply p type arguments), t')
  | (.error fault, t') => (.error fault, t')

end IntrinsicTable

end RegisterTransfer
