/-
# RegisterTransfer.Proofs.Pic18.Store -- storing a byte and its flags

A lowering stores a result in a place and may derive flags of STATUS from it.  `run_copied` says what
the statements of a copy do: the place holds the value, the flags are those of what the place holds,
and a place in memory takes the value through a temporary.
-/
import RegisterTransfer.Proofs.Pic18.FileCell

namespace RegisterTransfer.Pic18

set_option autoImplicit false

variable {I : Interpretation} {σ : State Cells}

/-! ## Transfers to places, temporaries and flags -/

/-- A transfer to a place writes the place. -/
theorem exec_place {dst src : Expr} {p : Place} (denotes : Denotes I σ.registers dst p)
    (silent : src.applications I σ = []) :
    σ.exec I (.assign dst src) = (p.write (src.eval I σ) σ, none) := by
  have stored : σ.assign I dst src = p.write (src.eval I σ) σ := by
    rw [← denotes.put rfl]
    unfold State.assign
    rw [denotes.flags?]
  rw [State.exec, stored, denotes.silent, silent]
  exact congrArg₂ Prod.mk (State.record_nil _) rfl

theorem exec_temporary (k : Nat) (t : DataType) {src : Expr}
    (silent : src.applications I σ = []) :
    σ.exec I (.assign (.identifier (.temporary k t)) src) =
      (σ.setTemporary k (src.eval I σ % 2 ^ t.bits), none) := by
  rw [State.exec, silent]
  exact congrArg₂ Prod.mk (State.record_nil _) rfl

/-- Derive the flags of a mask from a value of some width. -/
def flagged (I : Interpretation) (mask bits value : Nat) (σ : State Cells) : State Cells :=
  σ.setFlags "STATUS" mask fun bit => I.flag "STATUS" bit (.value bits value)

theorem exec_codes (mask : Nat) {e : Expr} {bits value : Nat}
    (outcome : e.outcome I σ = .value bits value) (silent : e.applications I σ = []) :
    σ.exec I (.assign (.identifier (Status.group mask)) (.conditionCodes e)) =
      (flagged I mask bits value σ, none) := by
  unfold flagged
  rw [State.exec, State.assign_conditionCodes σ rfl, outcome, Expr.applications, Expr.applications,
    silent]
  exact congrArg₂ Prod.mk (State.record_nil _) rfl

/-- A transfer to one flag of STATUS. -/
theorem exec_flag (bit : Nat) {src : Expr} {b : Bool} (value : src.eval I σ = b.toNat)
    (silent : src.applications I σ = []) (notCodes : src.codes? = none) :
    σ.exec I (.assign (.identifier (Status.group (2 ^ bit))) src) =
      (σ.setFlags "STATUS" (2 ^ bit) fun _ => b, none) := by
  have stored : σ.assign I (.identifier (Status.group (2 ^ bit))) src =
      σ.setFlags "STATUS" (2 ^ bit) fun _ => b := by
    have single : σ.set (Status.group (2 ^ bit)) b.toNat =
        σ.setFlags "STATUS" (2 ^ bit) fun _ => b := by
      show σ.setFlags "STATUS" (2 ^ bit) (fun k => b.toNat.testBit (Bits.rank (2 ^ bit) k)) = _
      refine σ.setFlags_congr fun k inside => ?_
      have own : k = bit := by
        rw [Nat.testBit_two_pow, decide_eq_true_eq] at inside
        exact inside.symm
      rw [own, Bits.rank, Bits.positions_two_pow, List.idxOf_cons_self]
      cases b <;> rfl
    rw [State.assign_identifier σ _ notCodes, value, single]
  rw [State.exec, stored, Expr.applications, silent]
  exact congrArg₂ Prod.mk (State.record_nil _) rfl

/-! ## Copies -/

/-- A place in memory takes its value through a temporary. -/
def Place.scratch (p : Place) (k value : Nat) (σ : State Cells) : State Cells :=
  match p with
  | .register _ => σ
  | .data _ => σ.setTemporary k value

/-- The flags that a copy in a mode sets when it left a value of some width. -/
def copyFlags (I : Interpretation) (mask : Nat) (mode : CopyMode) (bits value : Nat)
    (σ : State Cells) : State Cells :=
  let σ := if mode.conditionCodes then flagged I mask bits value σ else σ
  if mode.carryIfZero then σ.setFlags "STATUS" Status.c fun _ => value == 0 else σ

/-- The end of a copy derives flags from the expression that holds the value. -/
theorem run_copyFlags (mask : Nat) (mode : CopyMode) {id : Identifier} {value : Nat}
    (held : ∀ τ : State Cells, τ.registers = σ.registers → τ.temporaries = σ.temporaries →
      τ.get id = value) :
    σ.run I ((if mode.conditionCodes then
        [.assign (.identifier (Status.group mask)) (.conditionCodes (.identifier id))] else []) ++
      if mode.carryIfZero then
        [.assign (.identifier (Status.group Status.c)) (Expr.identifier id).isZero] else []) =
      (copyFlags I mask mode id.bits value σ, none) := by
  have codes : σ.exec I (.assign (.identifier (Status.group mask))
      (.conditionCodes (.identifier id))) = (flagged I mask id.bits value σ, none) :=
    exec_codes mask (congrArg (Outcome.value id.bits) (held σ rfl rfl)) rfl
  have carry : ∀ τ : State Cells, τ.registers = σ.registers → τ.temporaries = σ.temporaries →
      τ.exec I (.assign (.identifier (Status.group Status.c)) (Expr.identifier id).isZero) =
        (τ.setFlags "STATUS" Status.c fun _ => value == 0, none) := by
    intro τ registers temporaries
    refine exec_flag 0 ?_ (Expr.applications_isZero _) rfl
    rw [Expr.eval_isZero]
    exact congrArg (fun v => (v == 0).toNat) (held τ registers temporaries)
  unfold copyFlags
  cases mode.conditionCodes with
  | false =>
      cases mode.carryIfZero with
      | false => rfl
      | true => exact State.run_cons_of_falls [] (carry σ rfl rfl)
  | true =>
      refine (State.run_cons_of_falls _ codes).trans ?_
      cases mode.carryIfZero with
      | false => rfl
      | true => exact State.run_cons_of_falls [] (carry _ rfl rfl)

/-- A copy leaves the value in its place, cut to the width of the place, and sets flags by it. -/
theorem run_copied (mask : Nat) {mode : CopyMode} (split : mode.split = true) (k : Nat)
    {dst src : Expr} {p : Place} (denotes : Denotes I σ.registers dst p)
    (silent : src.applications I σ = []) (byte : src.type.bits = 8)
    (small : src.eval I σ < 256) :
    let value := src.eval I σ
    σ.run I (Lowering.copied (Status.model mask) mode k dst src).statements =
      (copyFlags I mask mode p.bits (value % 2 ^ p.bits) (p.write value (p.scratch k value σ)),
        none) := by
  intro value
  cases denotes with
  | @register id isRegister =>
      have store := exec_place (.register isRegister) silent (p := .register id)
      simp only [Lowering.copied, Expr.isIdentifier, Expr.identifier?, Option.isSome_some,
        Bool.true_or, if_true, List.cons_append, List.nil_append]
      refine (State.run_cons_of_falls _ store).trans ?_
      refine run_copyFlags mask mode fun τ registers _ => ?_
      rw [State.get_of_registers isRegister registers]
      exact State.get_setRegister _ _ isRegister
  | @data ea address points quiet =>
      have keep := exec_temporary (σ := σ) k src.type silent
      have whole : src.eval I σ % 2 ^ 8 = src.eval I σ := Nat.mod_eq_of_lt small
      rw [byte, whole] at keep
      have held : ∀ τ : State Cells, τ.temporaries = (σ.setTemporary k value).temporaries →
          τ.get (.temporary k src.type) = value := by
        intro τ temporaries
        show τ.temporaries k % 2 ^ src.type.bits = value
        rw [temporaries, byte]
        show (if k = k then value else _) % 2 ^ 8 = value
        rw [if_pos rfl]
        exact Nat.mod_eq_of_lt small
      have store : (σ.setTemporary k value).exec I
          (.assign (.memory .byte ea) (.identifier (.temporary k src.type))) =
            ((Place.data address).write value (σ.setTemporary k value), none) := by
        have nothing : (Expr.identifier (.temporary k src.type)).applications I
            (σ.setTemporary k value) = [] := rfl
        have written :=
          exec_place (I := I) (σ := σ.setTemporary k value) (.data points quiet) nothing
        have read := held (σ.setTemporary k value) rfl
        rw [show (Expr.identifier (.temporary k src.type)).eval I (σ.setTemporary k value) = value
          from read] at written
        exact written
      simp only [Lowering.copied, Expr.isIdentifier, Expr.identifier?, Option.isSome_none, split,
        Bool.not_true, Bool.or_self, Bool.false_eq_true, if_false, List.cons_append,
        List.nil_append]
      refine (State.run_cons_of_falls _ keep).trans ((State.run_cons_of_falls _ store).trans ?_)
      have flags := @run_copyFlags I ((Place.data address).write value (σ.setTemporary k value))
        mask mode (.temporary k src.type) value fun τ _ temporaries => held τ temporaries
      rw [show (Identifier.temporary k src.type).bits = 8 from byte] at flags
      rw [show (Place.data address).bits = 8 from rfl,
        show value % 2 ^ 8 = value from Nat.mod_eq_of_lt small]
      exact flags

end RegisterTransfer.Pic18
