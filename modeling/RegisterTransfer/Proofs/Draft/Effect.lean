/-
# RegisterTransfer.Proofs.Draft.Effect -- the effect of a lowering on a state

What a lowering does to a state is what the statements that it writes do.  `Lowering.Performs I σ x τ`
says that the statements of `x`, which are the same wherever it stands, run from `σ` to `τ` and fall
through; the rules follow the way lowerings are put together.  A lowering that uses temporaries `Ends` in a
state apart from these.  Either way the cluster of an instruction does so too (`Backend.lowerWith_of_ends`).
-/
import RegisterTransfer.Proofs.Draft.Emission
import RegisterTransfer.Proofs.Meaning.Frame

namespace RegisterTransfer

set_option autoImplicit false

namespace Lowering

variable {ρ α : Type} [RegisterFile ρ] {I : Interpretation} {σ τ υ : State ρ}

/-- The lowering uses no temporaries, and its statements fall through from a state to another. -/
def Performs (I : Interpretation) (σ : State ρ) (x : Lowering Unit) (τ : State ρ) : Prop :=
  ∃ statements, (∀ k, Emits k x () statements k) ∧ σ.run I statements = (τ, none)

theorem performs_pure (σ : State ρ) : Performs I σ (pure ()) σ :=
  ⟨[], fun _ => emits_pure (), rfl⟩

theorem performs_bind {x : Lowering Unit} {f : Unit → Lowering Unit} (first : Performs I σ x τ)
    (second : Performs I τ (f ()) υ) : Performs I σ (x >>= f) υ := by
  obtain ⟨statements, emits, runs⟩ := first
  obtain ⟨more, emits', runs'⟩ := second
  refine ⟨statements ++ more, fun k => emits_bind (emits k) (emits' k), ?_⟩
  rw [State.run_append_of_falls more runs, runs']

theorem performs_operand {e : Except Fault α} {a : α} {f : α → Lowering Unit} (found : e = .ok a)
    (then_ : Performs I σ (f a) τ) : Performs I σ (liftM e >>= f) τ := by
  obtain ⟨statements, emits, runs⟩ := then_
  exact ⟨statements, fun k => emits_operand found (emits k), runs⟩

theorem performs_apply {name : String} {type : DataType} {arguments : List Expr}
    {f : Expr → Lowering Unit} (fits : IntrinsicName.arity? name = some arguments.length)
    (then_ : Performs I σ (f (.apply ⟨name, type, arguments.length⟩ type arguments)) τ) :
    Performs I σ (apply name type arguments >>= f) τ := by
  obtain ⟨statements, emits, runs⟩ := then_
  exact ⟨statements, fun k => emits_bind (emits_apply name type arguments fits) (emits k), runs⟩

theorem performs_nop (σ : State ρ) : Performs I σ nop σ :=
  ⟨[.nop], fun _ => emits_write (fun _ => rfl) fun _ => ⟨rfl, rfl⟩, rfl⟩

theorem performs_assign {dst src : Expr} (ends : σ.exec I (.assign dst src) = (τ, none)) :
    Performs I σ (assign dst src) τ :=
  ⟨_, fun _ => emits_assign dst src, State.run_cons_of_falls [] ends⟩

/-- The lowering, on an empty draft, writes statements that fall through to a state, whatever they leave
in temporaries. -/
def Ends (I : Interpretation) (σ : State ρ) (x : Lowering Unit) (τ : State ρ) : Prop :=
  ∃ statements k υ, Emits 0 x () statements k ∧ σ.run I statements = (υ, none) ∧
    υ.forget = τ.forget

theorem Performs.ends {x : Lowering Unit} (performs : Performs I σ x τ) : Ends I σ x τ := by
  obtain ⟨statements, emits, runs⟩ := performs
  exact ⟨statements, 0, τ, emits 0, runs, rfl⟩

end Lowering

/-- On a regular table the cluster of an instruction ends as its lowering does. -/
theorem Backend.lowerWith_of_ends {ι ρ : Type} [RegisterFile ρ] {b : Backend ι} {i : ι}
    {next : Option ι} {absorbed : Bool} {I : Interpretation} {σ τ : State ρ} {x : Lowering Unit}
    (lower : b.lower i next = (do
      x
      return absorbed)) (ends : Lowering.Ends I σ x τ) {t : IntrinsicTable} (regular : t.Regular) :
    ∃ cluster t' υ, b.lowerWith i next t = (.ok cluster, t') ∧
      σ.run I cluster.statements = (υ, none) ∧ υ.forget = τ.forget := by
  obtain ⟨statements, k, υ, emits, runs, same⟩ := ends
  have returns : Lowering.Emits 0 (b.lower i next) absorbed statements k := by
    rw [lower]
    exact Lowering.emits_return absorbed emits
  obtain ⟨cluster, t', ran, settled⟩ := runs_of_emits returns regular
  exact ⟨cluster, t', υ, ran, (settled I σ).trans runs, same⟩

end RegisterTransfer
