/-
# RegisterTransfer.Proofs.Draft.Copying -- a copy means the same with and without a temporary

`Draft.copy` stores a value and derives flags from what it stored.  Without a temporary the flags are
derived from the destination itself, which reads memory again when it is memory; with one they are
derived from the temporary.  `CopyEffect` lists what a copy does to a state, and `Draft.copy_split` says
that both forms do just that, from every state and whatever flags are asked for.

The two forms agree because nothing that is read after the store has changed by then: a store keeps the
registers that the address is made of, and setting flags keeps everything but flags (`Expr.Steady`).
-/
import Mathlib.Tactic.Choose
import RegisterTransfer.Proofs.Draft.Emission
import RegisterTransfer.Proofs.Meaning.Storable

namespace RegisterTransfer

set_option autoImplicit false

/-! ## Groups of flags -/

/-- Whether a bit of a flag register belongs to an identifier. -/
def Identifier.selects (id : Identifier) (register : String) (bit : Nat) : Bool :=
  match id.storage with
  | .flags name mask => register == name && mask.testBit bit
  | _ => false

/-- The flags of an identifier. -/
def Identifier.flagMask (id : Identifier) : Nat :=
  match id.storage with
  | .flags _ mask => mask
  | _ => 0

/-- The group and the carry of a flag model are groups of flags without a common flag, and the carry
has a flag to hold its truth value. -/
structure FlagModel.Disjoint (model : FlagModel) : Prop where
  group : ∃ register mask, model.group.storage = .flags register mask
  carry : ∃ register mask, model.carry.storage = .flags register mask ∧ mask ≠ 0
  apart : ∀ register bit,
    model.group.selects register bit = true → model.carry.selects register bit = false

/-- Groups of flags are disjoint if their masks are. -/
theorem FlagModel.disjoint_of_masks (name name' register register' : String) {mask mask' : Nat}
    (apart : mask &&& mask' = 0) (nonzero : mask' ≠ 0) :
    Disjoint ⟨Identifier.flags name register mask, Identifier.flags name' register' mask'⟩ where
  group := ⟨register, mask, rfl⟩
  carry := ⟨register', mask', rfl, nonzero⟩
  apart register'' bit inside := by
    have own : mask.testBit bit = true := (Bool.and_eq_true _ _ ▸ inside).2
    have other : mask'.testBit bit = false := by
      have both := congrArg (·.testBit bit) apart
      simpa [own] using both
    show (_ && mask'.testBit bit) = false
    rw [other, Bool.and_false]

namespace State

variable {ρ : Type} (σ : State ρ)

/-- Set each flag of a group to a bit of its own. -/
def setGroup (id : Identifier) (f : String → Nat → Bool) : State ρ :=
  { σ with
    flags := fun register bit =>
      if id.selects register bit then f register bit else σ.flags register bit }

theorem setFlags_eq_setGroup {id : Identifier} {register : String} {mask : Nat}
    (storage : id.storage = .flags register mask) (f : String → Nat → Bool) :
    σ.setFlags register mask (f register) = σ.setGroup id f := by
  unfold setFlags setGroup Identifier.selects
  congr 1
  funext name bit
  rw [storage]
  by_cases own : name = register
  · simp [own]
  · simp [own]

theorem flags_setGroup {id : Identifier} {register : String} {bit : Nat}
    (inside : id.selects register bit = true) (f : String → Nat → Bool) :
    (σ.setGroup id f).flags register bit = f register bit := if_pos inside

theorem flags_setGroup_of_not {id : Identifier} {register : String} {bit : Nat}
    (outside : id.selects register bit = false) (f : String → Nat → Bool) :
    (σ.setGroup id f).flags register bit = σ.flags register bit := by
  refine if_neg ?_
  rw [outside]
  exact Bool.false_ne_true

theorem get_setGroup [RegisterFile ρ] {id : Identifier} {register : String} {mask : Nat}
    (storage : id.storage = .flags register mask) (f : String → Nat → Bool) :
    (σ.setGroup id f).get id = Bits.gather mask (f register) := by
  unfold get
  rw [storage]
  refine Bits.gather_congr fun bit inside => σ.flags_setGroup ?_ f
  unfold Identifier.selects
  rw [storage]
  simp [inside]

/-- Set the flags of a group on a condition. -/
def setGroupWhen (condition : Bool) (id : Identifier) (f : String → Nat → Bool) : State ρ :=
  if condition then σ.setGroup id f else σ

/-- Setting a group of flags changes flags alone. -/
theorem setGroupWhen_eq (condition : Bool) (id : Identifier) (f : String → Nat → Bool) :
    σ.setGroupWhen condition id f =
      { σ with flags := (σ.setGroupWhen condition id f).flags } := by
  cases condition <;> rfl

theorem flags_setGroupWhen_of_not {condition : Bool} {id : Identifier} {register : String}
    {bit : Nat} (outside : condition = true → id.selects register bit = false)
    (f : String → Nat → Bool) :
    (σ.setGroupWhen condition id f).flags register bit = σ.flags register bit := by
  cases condition with
  | false => rfl
  | true => exact σ.flags_setGroup_of_not (outside rfl) f

end State

/-! ## Flags of a stored value -/

/-- Whatever the flags are, an expression has a value, condition codes are derived from that value, and
reading it applies nothing. -/
structure Expr.Steady (I : Interpretation) (σ : State Cells) (e : Expr) (value : Nat) : Prop where
  eval : ∀ τ : State Cells, τ.SameContents σ → e.eval I τ = value
  outcome : ∀ τ : State Cells, τ.SameContents σ → e.outcome I τ = .value e.type.bits value
  silent : ∀ τ : State Cells, e.applications I τ = []

section Steady

variable {I : Interpretation} {σ : State Cells} {value : Nat}

theorem Expr.steady_identifier {id : Identifier}
    (unflagged : ∀ register mask, id.storage ≠ .flags register mask) (held : σ.get id = value) :
    (identifier id).Steady I σ value := by
  have eval : ∀ τ : State Cells, τ.SameContents σ → τ.get id = value :=
    fun τ same => (same.get unflagged).trans held
  exact ⟨eval, fun τ same => congrArg (Outcome.value id.bits) (eval τ same), fun _ => rfl⟩

/-- What a destination holds can be read again. -/
theorem Storable.steady (dst : Storable) (fits : value < 2 ^ dst.expr.type.bits) :
    dst.expr.Steady I ((dst.spot I σ).write value σ) value := by
  have held := (dst.read_write (I := I) σ value σ).trans (Nat.mod_eq_of_lt fits)
  cases dst with
  | identifier id unflagged => exact Expr.steady_identifier unflagged held
  | memory segment type ea inSegment inAddress wide =>
      let stored := σ.store (segment.map (·.eval I σ)) ea.type.bits (ea.eval I σ) type.bytes value
      have eval : ∀ τ : State Cells, τ.SameContents stored →
          (Expr.memoryIn segment type ea).eval I τ = value := by
        intro τ same
        -- the store keeps the registers, so the address is the one that was stored at
        rw [Expr.eval_memoryIn_of_registers (σ := σ) same.registers inSegment type inAddress,
          State.load_congr same.memory]
        exact held
      have silent := fun τ : State Cells =>
        Expr.applications_memoryIn (I := I) τ inSegment type inAddress
      refine ⟨eval, fun τ same => ?_, silent⟩
      cases segment with
      | none => exact congrArg (Outcome.value type.bits) (eval τ same)
      | some s => exact congrArg (Outcome.value type.bits) (eval τ same)

variable {e : Expr} (steady : e.Steady I σ value) {τ : State Cells} (same : τ.SameContents σ)
variable {id : Identifier} (group : ∃ register mask, id.storage = .flags register mask)

include steady same group

theorem State.exec_codes_of_steady :
    τ.exec I (.assign (.identifier id) (.conditionCodes e)) =
      (τ.setGroup id fun register bit => I.flag register bit (.value e.type.bits value), none) := by
  obtain ⟨register, mask, storage⟩ := group
  rw [State.exec, State.assign_conditionCodes τ storage, steady.outcome τ same,
    State.setFlags_eq_setGroup τ storage fun register bit =>
      I.flag register bit (.value e.type.bits value),
    Expr.applications, Expr.applications, steady.silent]
  exact congrArg₂ Prod.mk (State.record_nil _) rfl

theorem State.exec_isZero_of_steady :
    τ.exec I (.assign (.identifier id) e.isZero) =
      (τ.setGroup id fun _ bit => (value == 0).toNat.testBit (Bits.rank id.flagMask bit),
        none) := by
  obtain ⟨register, mask, storage⟩ := group
  have own : id.flagMask = mask := by
    unfold Identifier.flagMask
    rw [storage]
  have set : τ.set id (value == 0).toNat =
      τ.setGroup id fun _ bit => (value == 0).toNat.testBit (Bits.rank id.flagMask bit) := by
    rw [← State.setFlags_eq_setGroup τ storage, own]
    unfold State.set
    rw [storage]
  rw [State.exec, State.assign_identifier τ id rfl, Expr.eval_isZero, steady.eval τ same, set,
    Expr.applications, Expr.applications_isZero, steady.silent]
  exact congrArg₂ Prod.mk (State.record_nil _) rfl

end Steady

/-- The flags that a copy in a mode sets when it left a value of some width. -/
def FlagModel.flagged (I : Interpretation) (model : FlagModel) (mode : CopyMode) (bits value : Nat)
    (σ : State Cells) : State Cells :=
  (σ.setGroupWhen mode.conditionCodes model.group fun register bit =>
      I.flag register bit (.value bits value)).setGroupWhen mode.carryIfZero model.carry fun _ bit =>
    (value == 0).toNat.testBit (Bits.rank model.carry.flagMask bit)

section Flagged

variable (I : Interpretation) {model : FlagModel} {mode : CopyMode} (bits value : Nat)
variable (σ : State Cells) {register : String} {bit : Nat}

/-- Deriving flags changes flags alone. -/
theorem FlagModel.flagged_eq :
    model.flagged I mode bits value σ =
      { σ with flags := (model.flagged I mode bits value σ).flags } := by
  rw [flagged, State.setGroupWhen_eq, State.setGroupWhen_eq]

theorem FlagModel.flagged_setTemporary (n v : Nat) :
    model.flagged I mode bits value (σ.setTemporary n v) =
      (model.flagged I mode bits value σ).setTemporary n v := by
  unfold flagged State.setGroupWhen
  cases mode.conditionCodes <;> cases mode.carryIfZero <;> rfl

theorem FlagModel.flags_flagged_of_not
    (group : mode.conditionCodes = true → model.group.selects register bit = false)
    (carry : mode.carryIfZero = true → model.carry.selects register bit = false) :
    (model.flagged I mode bits value σ).flags register bit = σ.flags register bit := by
  rw [flagged, State.flags_setGroupWhen_of_not _ carry, State.flags_setGroupWhen_of_not _ group]

variable (disjoint : model.Disjoint)

include disjoint

/-- Each flag of the group is derived from the value; the carry is none of them. -/
theorem FlagModel.flags_flagged (codes : mode.conditionCodes = true)
    (inside : model.group.selects register bit = true) :
    (model.flagged I mode bits value σ).flags register bit =
      I.flag register bit (.value bits value) := by
  rw [flagged, State.flags_setGroupWhen_of_not _ fun _ => disjoint.apart register bit inside, codes]
  exact σ.flags_setGroup inside _

/-- The carry says whether the value is zero. -/
theorem FlagModel.get_flagged (carry : mode.carryIfZero = true) :
    (model.flagged I mode bits value σ).get model.carry = (value == 0).toNat := by
  obtain ⟨register, mask, storage, nonzero⟩ := disjoint.carry
  have own : model.carry.flagMask = mask := by
    unfold Identifier.flagMask
    rw [storage]
  have fits : (value == 0).toNat < 2 ^ (Bits.positions mask).length :=
    calc
      (value == 0).toNat < 2 ^ 1 := Bool.toNat_lt _
      _ ≤ 2 ^ (Bits.positions mask).length :=
        Nat.pow_le_pow_right (by decide) (Bits.length_positions_pos nonzero)
  rw [flagged, carry, own]
  refine (State.get_setGroup _ storage _).trans ?_
  rw [Bits.gather_rank, Nat.mod_eq_of_lt fits]

end Flagged

/-- The end of a copy derives flags from an expression that holds the value. -/
theorem State.run_flagging {I : Interpretation} {model : FlagModel} (disjoint : model.Disjoint)
    (mode : CopyMode) {σ τ : State Cells} {e : Expr} {value : Nat} (steady : e.Steady I σ value)
    (same : τ.SameContents σ) :
    τ.run I (Lowering.flagging model mode e) =
      (model.flagged I mode e.type.bits value τ, none) := by
  obtain ⟨register, mask, storage, -⟩ := disjoint.carry
  have codes := exec_codes_of_steady steady same disjoint.group
  have carry : ∀ υ : State Cells, υ.SameContents σ →
      υ.exec I (.assign (.identifier model.carry) e.isZero) = _ :=
    fun υ same => exec_isZero_of_steady steady same ⟨register, mask, storage⟩
  unfold Lowering.flagging FlagModel.flagged
  cases mode.conditionCodes with
  | false =>
      cases mode.carryIfZero with
      | false => rfl
      | true => exact run_cons_of_falls [] (carry τ same)
  | true =>
      refine (run_cons_of_falls _ codes).trans ?_
      cases mode.carryIfZero with
      | false => rfl
      | true =>
          exact run_cons_of_falls [] (carry _ ⟨same.registers, same.temporaries, same.memory⟩)

/-! ## Copies -/

section Runs

variable {I : Interpretation} {model : FlagModel} (disjoint : model.Disjoint) (dst : Storable)
variable {src : Expr} (sized : src.type.bits = dst.expr.type.bits)
variable (typed : ∀ id, id ∈ src.identifiers → id.Typed) (mode : CopyMode) (k : Nat)
variable (σ : State Cells)

/-- The state after a value of the source was stored and flags were derived from it, apart from the
temporary. -/
def Storable.stored (I : Interpretation) (model : FlagModel) (mode : CopyMode) (src : Expr)
    (σ : State Cells) : State Cells :=
  model.flagged I mode dst.expr.type.bits (src.eval I σ % 2 ^ src.type.bits)
    (((dst.spot I σ).write (src.eval I σ % 2 ^ src.type.bits) σ).record (src.applications I σ))

include disjoint sized

/-- A copy through a temporary ends in the same state except for the temporary, which holds the
value. -/
theorem Storable.run_kept (memory : ¬dst.expr.isIdentifier = true) :
    let value := src.eval I σ % 2 ^ src.type.bits
    let t := Expr.identifier (.temporary k src.type)
    let after := (dst.stored I model mode src σ).setTemporary k value
    σ.run I (.assign t src :: .assign dst.expr t :: Lowering.flagging model mode t) = (after, none) ∧
      t.eval I after = value := by
  intro value t after
  have cut : value % 2 ^ src.type.bits = value := Nat.mod_mod _ _
  have holds : ∀ τ : State Cells, τ.temporaries k = value →
      τ.get (.temporary k src.type) = value := by
    intro τ same
    show τ.temporaries k % 2 ^ src.type.bits = value
    rw [same, cut]
  let kept := (σ.setTemporary k value).record (src.applications I σ)
  have keep : σ.exec I (.assign t src) = (kept, none) :=
    (identifier (.temporary k src.type) nofun).exec_assign σ src
  cases dst with
  | identifier id unflagged => exact absurd rfl memory
  | memory segment type ea inSegment inAddress wide =>
      let dst := Storable.memory segment type ea inSegment inAddress wide
      let written := (dst.spot I σ).write value kept
      -- keeping the value in the temporary leaves the registers, and with them the address
      have registers : kept.registers = σ.registers := rfl
      have same : dst.spot I kept = dst.spot I σ := dst.spot_of_registers registers
      have store : kept.exec I (.assign dst.expr t) = (written, none) := by
        rw [dst.exec_assign, same, show t.eval I kept = value from holds kept (if_pos rfl)]
        exact congrArg₂ Prod.mk (State.record_nil _) rfl
      have steady : t.Steady I written value :=
        Expr.steady_identifier nofun (holds written (if_pos rfl))
      have flags := State.run_flagging disjoint mode steady ⟨rfl, rfl, rfl⟩
      have last : model.flagged I mode t.type.bits value written = after := by
        rw [show t.type.bits = dst.expr.type.bits from sized]
        exact FlagModel.flagged_setTemporary I _ value
          (((dst.spot I σ).write value σ).record (src.applications I σ)) k value
      rw [last] at flags
      exact ⟨(State.run_cons_of_falls _ keep).trans ((State.run_cons_of_falls _ store).trans flags),
        holds after (if_pos rfl)⟩

include typed

omit disjoint in
/-- What is stored is the value of the source, cut to its bits. -/
theorem Storable.write_eval (τ : State Cells) :
    (dst.spot I σ).write (src.eval I σ) τ =
      (dst.spot I σ).write (src.eval I σ % 2 ^ src.type.bits) τ := by
  rw [sized]
  refine (dst.write_mod σ (fun truth => ?_) τ).symm
  have own : src.type = .bool := by
    rw [truth] at sized
    cases type : src.type <;> simp [type, DataType.bits] at sized
    rfl
  exact Expr.eval_lt_two σ typed own

/-- A copy without a temporary stores the value, and the destination holds it. -/
theorem Storable.run_direct :
    σ.run I (.assign dst.expr src :: Lowering.flagging model mode dst.expr) =
        (dst.stored I model mode src σ, none) ∧
      dst.expr.eval I (dst.stored I model mode src σ) = src.eval I σ % 2 ^ src.type.bits := by
  have fits : src.eval I σ % 2 ^ src.type.bits < 2 ^ dst.expr.type.bits := by
    rw [← sized]
    exact Nat.mod_lt _ (Nat.two_pow_pos _)
  have steady := dst.steady (I := I) (σ := σ) fits
  have step := dst.exec_assign (I := I) σ src
  rw [dst.write_eval sized typed] at step
  refine ⟨(State.run_cons_of_falls _ step).trans
    (State.run_flagging disjoint mode steady ⟨rfl, rfl, rfl⟩), steady.eval _ ?_⟩
  rw [Storable.stored, FlagModel.flagged_eq]
  exact ⟨rfl, rfl, rfl⟩

end Runs

/-- What a copy of a value to a spot does: the spot holds the value, the flags that were asked for are
set by it, and nothing else changes except for the temporary of a copy that takes one. -/
structure CopyEffect (I : Interpretation) (model : FlagModel) (mode : CopyMode) (fresh : Nat)
    (spot : Spot) (value : Nat) (applied : List Application) (σ τ : State Cells) : Prop where
  held : spot.read τ = value
  conditionCodes : mode.conditionCodes = true → ∀ register bit,
    model.group.selects register bit = true →
      τ.flags register bit = I.flag register bit (.value spot.type.bits value)
  carry : mode.carryIfZero = true → τ.get model.carry = (value == 0).toNat
  flags : ∀ register bit, (mode.conditionCodes = true → model.group.selects register bit = false) →
    (mode.carryIfZero = true → model.carry.selects register bit = false) →
      τ.flags register bit = σ.flags register bit
  registers : ∀ id, id.IsRegister → spot ≠ .identifier id → τ.get id = σ.get id
  temporaries : ∀ n, ¬spot.IsTemporary n → (mode.split = true → n ≠ fresh) →
    τ.temporaries n = σ.temporaries n
  memory : ∀ segment address, ¬spot.HasByte segment address →
    τ.memory segment address = σ.memory segment address
  history : τ.history = σ.history ++ applied

section Copies

variable {I : Interpretation} {model : FlagModel} (disjoint : model.Disjoint) (dst : Storable)
variable {src : Expr} (sized : src.type.bits = dst.expr.type.bits) (mode : CopyMode) (k : Nat)
variable (σ : State Cells)

include disjoint sized

/-- The state after a value was stored and flags were derived from it is that after a copy. -/
theorem Storable.copied_stored :
    CopyEffect I model mode k (dst.spot I σ) (src.eval I σ % 2 ^ src.type.bits)
      (src.applications I σ) σ (dst.stored I model mode src σ) := by
  let value := src.eval I σ % 2 ^ src.type.bits
  let written := (dst.spot I σ).write value σ
  let recorded := written.record (src.applications I σ)
  have fits : value < 2 ^ dst.expr.type.bits := by
    rw [← sized]
    exact Nat.mod_lt _ (Nat.two_pow_pos _)
  have same : dst.stored I model mode src σ = { recorded with flags := _ } :=
    FlagModel.flagged_eq I _ value recorded
  have contents : (dst.stored I model mode src σ).SameContents written := by
    rw [same]
    exact ⟨rfl, rfl, rfl⟩
  refine {
    held := ?_
    conditionCodes := fun codes register bit inside => ?_
    carry := FlagModel.get_flagged I _ value recorded disjoint
    flags := fun register bit group carry => ?_
    registers := fun id register other => ?_
    temporaries := fun n other _ => ?_
    memory := fun segment address other => ?_
    history := ?_ }
  · rw [dst.read_of_same σ contents, dst.read_write σ value σ]
    exact Nat.mod_eq_of_lt fits
  · rw [dst.type_spot]
    exact FlagModel.flags_flagged I _ value recorded disjoint codes inside
  · refine (FlagModel.flags_flagged_of_not I _ value recorded group carry).trans ?_
    exact congrFun (congrFun (dst.flags_write σ σ value) register) bit
  · rw [State.get_of_registers register contents.registers]
    exact dst.get_write σ σ value register other
  · rw [contents.temporaries]
    exact dst.temporaries_write σ σ value other
  · rw [contents.memory]
    exact dst.memory_write σ σ value other
  · rw [same]
    exact congrArg (· ++ src.applications I σ) (dst.history_write σ σ value)

end Copies

/-- The temporary of a copy is no part of what the copy does. -/
theorem CopyEffect.setTemporary {I : Interpretation} {model : FlagModel} (disjoint : model.Disjoint)
    {mode : CopyMode} {k : Nat} {spot : Spot} {value : Nat} {applied : List Application}
    {σ τ : State Cells} (copied : CopyEffect I model mode k spot value applied σ τ)
    (split : mode.split = true) (memory : ∀ id, spot ≠ .identifier id) (v : Nat) :
    CopyEffect I model mode k spot value applied σ (τ.setTemporary k v) where
  held := by
    cases spot with
    | identifier id => exact absurd rfl (memory id)
    | memory => exact copied.held
  conditionCodes := copied.conditionCodes
  carry set := by
    obtain ⟨register, mask, storage, -⟩ := disjoint.carry
    rw [← copied.carry set]
    unfold State.get
    rw [storage]
    rfl
  flags := copied.flags
  registers id register other := by
    rw [← copied.registers id register other]
    exact State.get_of_registers register rfl
  temporaries n other fresh :=
    (if_neg (fresh split)).trans (copied.temporaries n other fresh)
  memory := copied.memory
  history := copied.history

theorem State.setTemporary_self {ρ : Type} (σ : State ρ) (n : Nat) :
    σ.setTemporary n (σ.temporaries n) = σ := by
  unfold setTemporary
  congr 1
  funext k
  by_cases own : k = n
  · rw [if_pos own, own]
  · rw [if_neg own]

/-- A copy in a mode writes statements that store the value, set the flags, and leave at most the
temporary of the copy besides. -/
theorem Draft.exists_copied (I : Interpretation) {model : FlagModel} (disjoint : model.Disjoint)
    (d : Draft) (dst : Storable) {src : Expr} (sized : src.type.bits = dst.expr.type.bits)
    (typed : ∀ id, id ∈ src.identifiers → id.Typed) (mode : CopyMode) (σ : State Cells) :
    ∃ written after,
      (d.copy model mode dst.expr src).2.statements = d.statements ++ written ∧
      σ.run I written = (after, none) ∧
      CopyEffect I model mode d.temporaries (dst.spot I σ) (src.eval I σ % 2 ^ src.type.bits)
        (src.applications I σ) σ after ∧
      (d.copy model mode dst.expr src).1.eval I after = src.eval I σ % 2 ^ src.type.bits ∧
      (mode.split = false → after = dst.stored I model mode src σ) ∧
      ∃ v, after = (dst.stored I model mode src σ).setTemporary d.temporaries v := by
  obtain ⟨holds, writes, -⟩ := Lowering.copy_eq_copied d model mode dst.expr src
  have copied := dst.copied_stored (I := I) disjoint sized mode d.temporaries σ
  rw [holds, writes]
  by_cases plain : (dst.expr.isIdentifier || !mode.split) = true
  · obtain ⟨ran, value⟩ := dst.run_direct (I := I) disjoint sized typed mode σ
    rw [Lowering.copied_of_direct plain]
    exact ⟨_, _, rfl, ran, copied, value, fun _ => rfl, _, (State.setTemporary_self _ _).symm⟩
  · have split : mode.split = true := by
      cases split : mode.split with
      | false => exact absurd (by rw [split, Bool.not_false, Bool.or_true]) plain
      | true => rfl
    have memory : ¬dst.expr.isIdentifier = true := fun identifier =>
      plain (by rw [identifier, Bool.true_or])
    have elsewhere : ∀ id, dst.spot I σ ≠ .identifier id := by
      cases dst with
      | identifier => exact absurd rfl memory
      | memory => exact nofun
    obtain ⟨ran, value⟩ := dst.run_kept (I := I) disjoint sized mode d.temporaries σ memory
    rw [Lowering.copied_of_kept plain]
    refine ⟨_, _, rfl, ran, copied.setTemporary disjoint split elsewhere _, value, ?_, _, rfl⟩
    intro direct
    rw [split] at direct
    cases direct

/-- A copy through a temporary means the same as one without.  From every state, and whatever flags are
asked for, the statements of both fall through to states that differ in the temporary alone.  Each of
these shows a `CopyEffect`: the destination, addressed in the state before, holds the value of the
source at its width, the group and the carry are set by that value if they are asked for, and nothing
else has changed.  The expression that the copy returns evaluates to the value. -/
theorem Draft.copy_split (I : Interpretation) {model : FlagModel} (disjoint : model.Disjoint)
    (d : Draft) (dst : Storable) {src : Expr} (sized : src.type.bits = dst.expr.type.bits)
    (typed : ∀ id, id ∈ src.identifiers → id.Typed) (conditionCodes carryIfZero : Bool)
    (σ : State Cells) :
    let copy := fun split => d.copy model { split, conditionCodes, carryIfZero } dst.expr src
    let value := src.eval I σ % 2 ^ src.type.bits
    ∃ (written : Bool → List Statement) (after : Bool → State Cells),
      (∀ split,
        (copy split).2.statements = d.statements ++ written split ∧
        σ.run I (written split) = (after split, none) ∧
        CopyEffect I model { split, conditionCodes, carryIfZero } d.temporaries (dst.spot I σ) value
          (src.applications I σ) σ (after split) ∧
        (copy split).1.eval I (after split) = value) ∧
      ∃ v, after true = (after false).setTemporary d.temporaries v := by
  intro copy value
  choose written after writes runs copied holds direct kept using fun split =>
    d.exists_copied I disjoint dst sized typed { split, conditionCodes, carryIfZero } σ
  refine ⟨written, after, fun split => ⟨writes split, runs split, copied split, holds split⟩, ?_⟩
  obtain ⟨v, same⟩ := kept true
  refine ⟨v, ?_⟩
  rw [direct false rfl]
  exact same

/-- A register is stored behind a pointer and every flag is asked for.  Without a temporary memory is
read twice more, and the state is the same. -/
theorem Draft.copy_split_pointer :
    let pointer := Identifier.register "p" .ptr16 0
    let r := Identifier.register "r" .byte 2
    let model : FlagModel := ⟨.flags "SZ" "F" 3, .flags "C" "F" 4⟩
    let copy := fun split : Bool => Draft.empty.copy model
      { split, conditionCodes := true, carryIfZero := true } (.memory .byte (.identifier pointer))
      (.identifier r)
    (copy false).2.statements.map (·.text) =
        ["Mem[p:byte] = r", "SZ = cond(Mem[p:byte])", "C = Mem[p:byte] == 0x00"] ∧
      (copy true).2.statements.map (·.text) =
        ["v0 = r", "Mem[p:byte] = v0", "SZ = cond(v0)", "C = v0 == 0x00"] ∧
      ∀ (I : Interpretation) (σ : State Cells), ∃ after : Bool → State Cells,
        (∀ split,
          σ.run I (copy split).2.statements = (after split, none) ∧
          (copy split).1.eval I (after split) = σ.get r ∧
          (after split).get model.carry = (σ.get r == 0).toNat) ∧
        ∃ v, after true = (after false).setTemporary 0 v := by
  intro pointer r model copy
  refine ⟨by decide +kernel, by decide +kernel, fun I σ => ?_⟩
  let dst : Storable := .memory none .byte (.identifier pointer) nofun ⟨0, 0, 16, rfl⟩ (by decide)
  have disjoint : model.Disjoint :=
    FlagModel.disjoint_of_masks "SZ" "C" "F" "F" (by decide) (by decide)
  have typed : ∀ id, id ∈ (Expr.identifier r).identifiers → id.Typed := by
    intro id listed
    rw [Expr.identifiers_identifier, List.mem_singleton] at listed
    rw [listed]
    exact nofun
  have sized : (Expr.identifier r).type.bits = dst.expr.type.bits := rfl
  obtain ⟨written, after, each, same⟩ :=
    Draft.copy_split I disjoint .empty dst sized typed true true σ
  have fits : σ.get r % 2 ^ 8 = σ.get r := Nat.mod_eq_of_lt (σ.get_lt ⟨2, 0, 8, rfl⟩)
  refine ⟨after, fun split => ?_, same⟩
  obtain ⟨writes, ran, effect, value⟩ := each split
  have all : (copy split).2.statements = written split := writes
  rw [← all] at ran
  exact ⟨ran, value.trans fits,
    (effect.carry rfl).trans (congrArg (fun v => (v == 0).toNat) fits)⟩

end RegisterTransfer
