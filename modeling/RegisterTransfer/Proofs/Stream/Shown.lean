/-
# RegisterTransfer.Proofs.Stream.Shown -- what a run shows whatever table it begins with

The table of intrinsics is the only thing that one lowering hands to the next.  It can refuse a request
and it records a return type and an arity for each name; nothing else of a cluster comes from it.
`Cluster.shown` is a cluster without these records.  A sound back-end never sees a refusal on a regular
table, so a run shows the same on every regular table (`Backend.Sound.shown_lowerAll`), and what follows
the first clusters of a run is a run over the instructions they leave (`Backend.Sound.exists_drop`).
-/
import RegisterTransfer.Proofs.Machine

namespace RegisterTransfer

set_option autoImplicit false

/-! ## Statements without the records of a table -/

/-- An intrinsic with nothing of what a table records of it but the name. -/
def Intrinsic.bare (p : Intrinsic) : Intrinsic := ⟨p.name, .void, 0⟩

mutual

theorem Expr.mapIntrinsics_mapIntrinsics (f g : Intrinsic → Intrinsic) :
    ∀ e : Expr, (e.mapIntrinsics f).mapIntrinsics g = e.mapIntrinsics (g ∘ f)
  | .identifier _ | .constant _ | .address _ => by simp [mapIntrinsics]
  | .unary _ _ e | .cast _ e | .memory _ e | .slice _ e _ | .conditionCodes e | .test _ e => by
      simp [mapIntrinsics, mapIntrinsics_mapIntrinsics f g e]
  | .binary _ _ a b | .segmented _ a b | .concat _ a b => by
      simp [mapIntrinsics, mapIntrinsics_mapIntrinsics f g a, mapIntrinsics_mapIntrinsics f g b]
  | .apply p _ arguments => by
      simp [mapIntrinsics, mapIntrinsicsList_mapIntrinsicsList f g arguments]

theorem Expr.mapIntrinsicsList_mapIntrinsicsList (f g : Intrinsic → Intrinsic) :
    ∀ es : List Expr, mapIntrinsicsList g (mapIntrinsicsList f es) = mapIntrinsicsList (g ∘ f) es
  | [] => rfl
  | e :: rest => by
      simp [mapIntrinsicsList, mapIntrinsics_mapIntrinsics f g e,
        mapIntrinsicsList_mapIntrinsicsList f g rest]

end

@[simp]
theorem Statement.mapIntrinsics_mapIntrinsics (f g : Intrinsic → Intrinsic) (s : Statement) :
    (s.mapIntrinsics f).mapIntrinsics g = s.mapIntrinsics (g ∘ f) := by
  induction s <;> simp_all [mapIntrinsics, Expr.mapIntrinsics_mapIntrinsics]

/-- The records of a table do not show in bare statements. -/
theorem Statement.bare_mapIntrinsics {f : Intrinsic → Intrinsic}
    (named : ∀ p, (f p).name = p.name) (s : Statement) :
    (s.mapIntrinsics f).mapIntrinsics Intrinsic.bare = s.mapIntrinsics Intrinsic.bare := by
  have same : Intrinsic.bare ∘ f = Intrinsic.bare := by
    funext p
    simp [Intrinsic.bare, named]
  rw [mapIntrinsics_mapIntrinsics, same]

/-! ## What a cluster shows -/

/-- All of a cluster but what a table records of its intrinsics. -/
structure Cluster.Shown where
  address : Nat
  length : Nat
  flow : Flow
  rendered : List String
  statements : List Statement

namespace Cluster

def shown (c : Cluster) : Shown :=
  ⟨c.address, c.length, c.flow, c.rendered, c.statements.map (·.mapIntrinsics Intrinsic.bare)⟩

/-- The cluster with `f` applied to every intrinsic in it. -/
def mapIntrinsics (f : Intrinsic → Intrinsic) (c : Cluster) : Cluster :=
  { c with statements := c.statements.map (·.mapIntrinsics f) }

theorem shown_mapIntrinsics {f : Intrinsic → Intrinsic} (named : ∀ p, (f p).name = p.name)
    (c : Cluster) : (c.mapIntrinsics f).shown = c.shown := by
  simp [shown, mapIntrinsics, rendered, Function.comp_def, Statement.text_mapIntrinsics f named,
    Statement.bare_mapIntrinsics named]

end Cluster

namespace Backend

variable {ι : Type} [MachineInstruction ι] {b : Backend ι} {t u : IntrinsicTable}

namespace Sound

/-- Two regular tables refuse nothing, and what is written on them shows the same. -/
theorem shown_lowerWith (sound : b.Sound) (regular : t.Regular) (regular' : u.Regular) (i : ι)
    (next : Option ι) :
    (∃ fault, b.lowerWith i next t = (.error fault, t) ∧
      b.lowerWith i next u = (.error fault, u)) ∨
    ∃ l t' l' u', b.lowerWith i next t = (.ok l, t') ∧ b.lowerWith i next u = (.ok l', u') ∧
      t'.Regular ∧ u'.Regular ∧ l.absorbed = l'.absorbed ∧
      (clusterOf i next l).shown = (clusterOf i next l').shown := by
  cases drafted : b.draft i next with
  | error refusal =>
      left
      exact ⟨refusal.fault, sound.lowerWith_of_refused drafted t, sound.lowerWith_of_refused drafted u⟩
  | ok out =>
      right
      obtain ⟨absorbed, d⟩ := out
      obtain ⟨t', settled, kept⟩ := d.settle_of_regular (sound.regular drafted) regular
      obtain ⟨u', settled', kept'⟩ := d.settle_of_regular (sound.regular drafted) regular'
      let wrote (table : IntrinsicTable) : Lowered :=
        ⟨absorbed, d.flow, d.statements.map (·.mapIntrinsics table.resolve)⟩
      have shows : ∀ table : IntrinsicTable, (clusterOf i next (wrote table)).shown =
          (clusterOf i next ⟨absorbed, d.flow, d.statements⟩).shown :=
        fun table => Cluster.shown_mapIntrinsics table.name_resolve
          (clusterOf i next ⟨absorbed, d.flow, d.statements⟩)
      refine ⟨wrote t', t', wrote u', u', ?_, ?_, kept, kept', rfl, by rw [shows, shows]⟩
      · simp only [lowerWith, drafted, settled]
        rfl
      · simp only [lowerWith, drafted, settled']
        rfl

/-- A run shows the same on every regular table, and ends in the same way. -/
theorem shown_lowerAll (sound : b.Sound) (decoded : List ι) (regular : t.Regular)
    (regular' : u.Regular) :
    (b.lowerAll t decoded).1.map Cluster.shown = (b.lowerAll u decoded).1.map Cluster.shown ∧
      (b.lowerAll t decoded).2.1 = (b.lowerAll u decoded).2.1 := by
  induction decoded using pass_induction generalizing t u with
  | nil => simp [lowerAll]
  | cons i rest ih =>
      rcases sound.shown_lowerWith regular regular' i rest.head? with
        ⟨fault, lowered, lowered'⟩ | ⟨l, t', l', u', lowered, lowered', kept, kept', absorbs, same⟩
      · rw [lowerAll_of_fault lowered, lowerAll_of_fault lowered']
        exact ⟨rfl, rfl⟩
      · obtain ⟨later, ends⟩ := ih l.absorbed kept kept'
        rw [lowerAll_of_lowered lowered, lowerAll_of_lowered lowered', ← absorbs]
        simp only [List.map_cons]
        rw [same, later]
        exact ⟨rfl, ends⟩

/-- What comes after the first clusters of a run is a run over the instructions that the first clusters
leave. -/
theorem exists_drop (sound : b.Sound) (decoded : List ι) (regular : t.Regular) (k : Nat)
    (more : k < (b.lowerAll t decoded).1.length) :
    ∃ n u, n < decoded.length ∧ u.Regular ∧
      ((decoded.take n).map MachineInstruction.length).sum =
        Cluster.covered ((b.lowerAll t decoded).1.take k) ∧
      b.lowerAll u (decoded.drop n) =
        ((b.lowerAll t decoded).1.drop k, (b.lowerAll t decoded).2) := by
  induction decoded using pass_induction generalizing t k with
  | nil => simp [lowerAll] at more
  | cons i rest ih =>
      cases k with
      | zero => exact ⟨0, t, Nat.succ_pos _, regular, by simp [Cluster.covered], by simp⟩
      | succ k =>
          rcases sound.shown_lowerWith regular regular i rest.head? with
            ⟨fault, lowered, -⟩ | ⟨l, t', -, -, lowered, -, kept, -, -, -⟩
          · simp [lowerAll_of_fault lowered] at more
          · rw [lowerAll_of_lowered lowered] at more ⊢
            simp only [List.length_cons, Nat.add_lt_add_iff_right] at more
            obtain ⟨n, u, within, kept', sized, later⟩ := ih l.absorbed kept k more
            -- The first cluster takes a group off the front, and the others come from what is left.
            let group := i :: if l.absorbed then rest.head?.toList else []
            let left := if l.absorbed then rest.tail else rest
            have whole : i :: rest = group ++ left := by
              cases taken : l.absorbed <;> cases rest <;> simp [group, left, taken]
            have made := (madeOf_clusterOf i rest l).2
            refine ⟨group.length + n, u, ?_, kept', ?_, ?_⟩
            · rw [whole, List.length_append]
              exact Nat.add_lt_add_left within _
            · rw [whole, List.take_length_add_append, List.map_append, List.sum_append, sized]
              simp [Cluster.covered, made, group]
            · rw [whole, List.drop_length_add_append, later]
              rfl

end Sound

end Backend

end RegisterTransfer
