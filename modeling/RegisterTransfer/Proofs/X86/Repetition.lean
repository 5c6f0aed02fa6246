/-
# RegisterTransfer.Proofs.X86.Repetition -- repetitions run their string instruction

A repetition is a loop over one string instruction: it leaves when the count is zero, does a step,
counts down, leaves if a comparison says so, and starts again at its own address.  Run again as long
as control comes back to it, its cluster does what the instruction without the repetition does, as
often as the count and the zero flag ask for (`lowerTaken_repeats`).

The loop is followed on its statements (`Loop`).  A round is a step of the loop that either leaves or
comes back with the count one less; the run is an induction on the count, and what carries it is that
the step and the count do not touch each other.
-/
import RegisterTransfer.Proofs.Stream.Eager
import RegisterTransfer.Proofs.X86.StringStep

namespace RegisterTransfer.X86

set_option autoImplicit false

open InstructionStream

/-! ## The loop -/

/-- The zero flag. -/
def zeroFlag {ρ : Type} (σ : State ρ) : Bool := σ.flags "eflags" 6

/-- The zero flag at which a repetition of comparisons ends. -/
def Repetition.last : Repetition → Bool
  | .whileEqual => false
  | .whileDifferent => true

/-- The operations that compare or scan.  A repetition of any other ends with its count. -/
def comparisons : List StringOp := [.cmps, .cmpsb, .scas, .scasb]

/-- A repetition is over after a step that leaves the zero flag as in a state. -/
def Stops {ρ : Type} (op : StringOp) (repetition : Repetition) (σ : State ρ) : Prop :=
  op ∈ comparisons ∧ zeroFlag σ = repetition.last

theorem isComparison_iff (op : StringOp) : op.isComparison = true ↔ op ∈ comparisons := by
  cases op <;> decide

/-- `t` is how many rounds a loop makes that is allowed `n` and stops after the first round that
says so. -/
structure Rounds (stops : Nat → Prop) (n t : Nat) : Prop where
  within : t ≤ n
  first : ∀ k, 1 ≤ k → k < t → ¬stops k
  stopped : t < n → 1 ≤ t ∧ stops t

/-- The statements of a loop around a body. -/
structure Loop where
  count : Register
  start : Nat
  exit : Nat
  body : List Statement
  /-- The condition on the zero flag that ends the loop after a step. -/
  condition : Option Condition

namespace Loop

def statements (l : Loop) : List Statement :=
  .branch l.count.value.isZero l.exit ::
    (l.body ++ (.assign l.count.value (l.count.value.addInt (-1)) ::
      ((l.condition.map fun c => .branch (Lower.zeroFlag c) l.exit).toList ++
        [.goto (.address l.start)])))

variable {ρ : Type} [RegisterFile ρ] {I : Interpretation} {l : Loop} {σ : State ρ}

theorem eval_zeroFlag (c : Condition) (σ : State ρ) :
    (Lower.zeroFlag c).eval I σ = (c.holds (zeroFlag σ).toNat).toNat := by
  have gathered : σ.get (Flag.group Flag.zero) = (zeroFlag σ).toNat :=
    Bits.gather_two_pow 6 (σ.flags "eflags")
  show (c.holds (σ.get (Flag.group Flag.zero))).toNat = _
  rw [gathered]

/-- A loop that is not allowed another round leaves. -/
theorem run_of_zero (done : σ.get l.count.identifier = 0) :
    σ.run I l.statements = (σ, some (.jump l.exit)) := by
  have zero : l.count.value.isZero.eval I σ = 1 := by
    rw [Expr.eval_isZero]
    show (σ.get l.count.identifier == 0).toNat = 1
    rw [done]
    rfl
  refine State.run_cons_of_leaves _ ?_
  rw [State.exec, zero, Expr.applications_isZero]
  exact congrArg₂ Prod.mk σ.record_nil rfl

/-- Whether the loop ends after a step that leaves a state. -/
def stops (l : Loop) (σ : State ρ) : Bool :=
  match l.condition with
  | some c => c.holds (zeroFlag σ).toNat
  | none => false

/-- The end of a round: the loop leaves or starts again. -/
theorem run_end (l : Loop) (σ : State ρ) :
    σ.run I ((l.condition.map fun c => .branch (Lower.zeroFlag c) l.exit).toList ++
        [.goto (.address l.start)]) =
      (σ, some (.jump (if l.stops σ then l.exit else l.start))) := by
  have back : σ.run I [.goto (.address l.start)] = (σ, some (.jump l.start)) :=
    State.run_cons_of_leaves _ (congrArg₂ Prod.mk σ.record_nil rfl)
  unfold stops
  cases l.condition with
  | none => exact back
  | some c =>
      show σ.run I (.branch (Lower.zeroFlag c) l.exit :: [.goto (.address l.start)]) =
        (σ, some (.jump (if c.holds (zeroFlag σ).toNat = true then l.exit else l.start)))
      by_cases holds : c.holds (zeroFlag σ).toNat = true
      · rw [if_pos holds]
        refine State.run_cons_of_leaves _ ?_
        rw [State.exec, eval_zeroFlag, holds]
        exact congrArg₂ Prod.mk σ.record_nil rfl
      · rw [if_neg holds, State.run_cons_of_falls (τ := σ) _ ?_, back]
        rw [State.exec, eval_zeroFlag, Bool.eq_false_iff.mpr holds]
        exact congrArg₂ Prod.mk σ.record_nil rfl

variable [LawfulRegisterFile ρ]

/-- Counting down puts the number below the count into its register. -/
theorem exec_countDown {n : Nat} (counted : σ.get l.count.identifier = n + 1) :
    σ.exec I (.assign l.count.value (l.count.value.addInt (-1))) =
      (σ.setRegister l.count.identifier n, none) := by
  have inside := σ.get_lt l.count.isRegister_identifier
  have less : Bits.ofInt l.count.identifier.bits (σ.get l.count.identifier + -1) = n := by
    rw [counted, show (((n + 1 : Nat) : Int) + -1) = (n : Nat) by omega]
    exact Bits.ofInt_of_lt (by omega)
  show σ.exec I (.assign (.identifier _) ((Expr.identifier _).addInt (-1))) = _
  rw [σ.exec_addInt l.count.isRegister_identifier (by decide), less]

/-- A round: the step, the count one less, and the end of the round. -/
theorem run_of_pos (uncounted : Lower.Uncounted l.body)
    (family : l.count.identifier.family = Lower.countFamily) {n : Nat}
    (counted : σ.get l.count.identifier = n + 1) :
    let τ := (σ.run I l.body).1.setRegister l.count.identifier n
    σ.run I l.statements = (τ, some (.jump (if l.stops τ then l.exit else l.start))) := by
  intro τ
  have nonzero : l.count.value.isZero.eval I σ = 0 := by
    rw [Expr.eval_isZero]
    show (σ.get l.count.identifier == 0).toNat = 0
    rw [counted]
    rfl
  have enter : σ.exec I (.branch l.count.value.isZero l.exit) = (σ, none) := by
    rw [State.exec, nonzero, Expr.applications_isZero]
    exact congrArg₂ Prod.mk σ.record_nil rfl
  have step : σ.run I l.body = ((σ.run I l.body).1, none) :=
    Prod.ext rfl (State.run_of_isStraight σ fun s found => (uncounted s found).1)
  have kept : (σ.run I l.body).1.get l.count.identifier = n + 1 := by
    rw [State.get_run_of_avoid l.count.isRegister_identifier, counted]
    rw [family]
    exact fun s found => (uncounted s found).2
  rw [statements, State.run_cons_of_falls _ enter, State.run_append_of_falls _ step,
    State.run_cons_of_falls _ (exec_countDown kept)]
  exact run_end l τ

/-- A cluster with the statements of a loop. -/
structure Runs (I : Interpretation) (l : Loop) (c : Cluster) : Prop where
  statements : ∀ σ : State ρ, σ.run I c.statements = σ.run I l.statements
  start : c.address = l.start
  exit : c.endAddress = l.exit
  sized : 0 < c.length

/-- The rounds of a loop, by induction on its count. -/
theorem repeats {c : Cluster} (runs : l.Runs (ρ := ρ) I c) (uncounted : Lower.Uncounted l.body)
    (family : l.count.identifier.family = Lower.countFamily) (n : Nat) (σ : State ρ)
    (counted : σ.get l.count.identifier = n) :
    ∃ t, Rounds (fun k => l.stops (State.runTimes I l.body k σ) = true) n t ∧
      c.Repeats I σ ((State.runTimes I l.body t σ).setRegister l.count.identifier (n - t))
        (.jump c.endAddress) := by
  have elsewhere : Exit.jump c.endAddress ≠ .jump c.address := by
    intro same
    have sized := runs.sized
    rw [Exit.jump.injEq, Cluster.endAddress] at same
    omega
  induction n generalizing σ with
  | zero =>
      refine ⟨0, ⟨Nat.le_refl 0, fun k _ less => absurd less (Nat.not_lt_zero k),
        fun less => absurd less (Nat.lt_irrefl 0)⟩, ?_⟩
      have same : σ.setRegister l.count.identifier 0 = σ := by
        rw [← counted]
        exact σ.setRegister_get l.count.isRegister_identifier
      show c.Repeats I σ (σ.setRegister l.count.identifier 0) _
      rw [same]
      refine .leaves ?_ elsewhere
      rw [Cluster.step, runs.statements, run_of_zero counted, runs.exit]
  | succ n ih =>
      have round := run_of_pos (I := I) uncounted family counted
      generalize state : (σ.run I l.body).1.setRegister l.count.identifier n = τ at round
      have avoid : ∀ s, s ∈ l.body → Avoid s.parts l.count.identifier.family := by
        rw [family]
        exact fun s found => (uncounted s found).2
      -- What the step leaves differs from the round's state in the count alone.
      have later : ∀ k, State.runTimes I l.body k τ =
          (State.runTimes I l.body (k + 1) σ).setRegister l.count.identifier n := by
        intro k
        rw [← state]
        exact State.runTimes_setRegister n _ avoid k
      by_cases finished : l.stops τ = true
      · refine ⟨1, ⟨by omega, fun k _ _ => by omega, fun _ => ⟨Nat.le_refl 1, ?_⟩⟩, ?_⟩
        · rw [← state] at finished
          exact finished
        · show c.Repeats I σ ((σ.run I l.body).1.setRegister l.count.identifier n) _
          rw [state]
          refine .leaves ?_ elsewhere
          rw [Cluster.step, runs.statements, round, if_pos finished, runs.exit]
      · have fewer : τ.get l.count.identifier = n := by
          have inside := σ.get_lt l.count.isRegister_identifier
          rw [← state, State.get_setRegister _ _ l.count.isRegister_identifier]
          exact Nat.mod_eq_of_lt (by omega)
        obtain ⟨t, rounds, repeats⟩ := ih τ fewer
        refine ⟨t + 1, ⟨Nat.succ_le_succ rounds.within, ?_, ?_⟩, ?_⟩
        · intro k positive less
          cases k with
          | zero => omega
          | succ k =>
              cases k with
              | zero =>
                  rw [← state] at finished
                  exact finished
              | succ k =>
                  have not_yet := rounds.first (k + 1) (by omega) (by omega)
                  rw [later] at not_yet
                  exact not_yet
        · intro less
          have stopped := (rounds.stopped (by omega)).2
          rw [later] at stopped
          exact ⟨by omega, stopped⟩
        · rw [later, State.setRegister_setRegister] at repeats
          rw [show n + 1 - (t + 1) = n - t by omega]
          refine .again ?_ repeats
          rw [Cluster.step, runs.statements, round, if_neg finished, runs.start]

end Loop

/-! ## The lowering of a repetition -/

/-- The loop of a repeated string instruction around the statements of its step. -/
def Loop.ofString (start : Nat) (s : Instruction) (op : StringOp) (repetition : Repetition)
    (body : List Statement) : Loop where
  count := Lower.countRegister s
  start
  exit := s.nextAddress
  body
  condition := if op.isComparison then some (Lower.stopCondition repetition) else none

theorem Loop.stops_ofString {ρ : Type} (start : Nat) (s : Instruction) (op : StringOp)
    (repetition : Repetition) (body : List Statement) (σ : State ρ) :
    (ofString start s op repetition body).stops σ = true ↔ Stops op repetition σ := by
  unfold stops ofString Stops
  rw [← isComparison_iff]
  cases op.isComparison <;> cases repetition <;> cases zeroFlag σ <;>
    simp [Lower.stopCondition, Condition.holds, Repetition.last]

theorem Lower.emits_repeated (m : Mode) (start : Nat) (s : Instruction) (op : StringOp)
    (repetition : Repetition) {body : List Statement}
    (step : ∀ k, Lowering.Emits k (stringStep m s op) () body k) :
    Lowering.Emits 0 (repeated m start s op repetition) ()
      (Loop.ofString start s op repetition body).statements 0 := by
  have back : Lowering.Emits 0 (do
      Lowering.goto (.address start)
      Lowering.setFlow .conditional) () [.goto (.address start)] 0 :=
    Lowering.emits_bind (Lowering.emits_goto _) (Lowering.emits_setFlow _)
  refine Lowering.emits_bind (Lowering.emits_branch _ _) ?_
  refine Lowering.emits_bind (step 0) ?_
  refine Lowering.emits_bind (Lowering.emits_assign _ _) ?_
  unfold Loop.ofString
  by_cases compares : op.isComparison = true
  · simp only [compares, if_true]
    exact Lowering.emits_bind (Lowering.emits_branch _ _) back
  · simp only [compares]
    exact back

/-- The instruction that a separate repetition is decoded as. -/
def Repetition.opcode : Repetition → Opcode
  | .whileEqual => .rep
  | .whileDifferent => .repne

/-- `Repeated s repetition i next` says that `i`, which shows `next` behind it, is the string
instruction `s` with a repetition: as part of it, or decoded on its own right before it. -/
inductive Repeated (s : Instruction) (repetition : Repetition) :
    Instruction → Option Instruction → Prop
  | attached {next : Option Instruction} (own : s.repetition = some repetition) :
      Repeated s repetition s next
  | separate {i : Instruction} (opcode : i.opcode = repetition.opcode)
      (follows : s.address = i.nextAddress) : Repeated s repetition i (some s)

section Lowered

variable {m : Mode} {s i : Instruction} {op : StringOp} {repetition : Repetition}
variable {next : Option Instruction} {body : List Statement}

theorem emits_of_repeated (string : s.opcode = .string op) (repeated : Repeated s repetition i next)
    (step : ∀ k, Lowering.Emits k (Lower.stringStep m s op) () body k) :
    ∃ absorbed, Lowering.Emits 0 ((backend m).lower i next) absorbed
        (Loop.ofString i.address s op repetition body).statements 0 ∧
      ∀ lowered : Backend.Lowered, lowered.absorbed = absorbed →
        (Backend.clusterOf i next lowered).endAddress = s.nextAddress := by
  have loop := fun start => Lower.emits_repeated m start s op repetition step
  cases repeated with
  | attached own =>
      refine ⟨false, ?_, ?_⟩
      · have lower : (backend m).lower s next = (do
            Lower.repeated m s.address s op repetition
            return false) := by
          simp only [backend, string, Lower.instruction, Lower.string, own]
        rw [lower]
        exact Lowering.emits_return false (loop s.address)
      · intro lowered kept
        simp only [Backend.clusterOf, Cluster.endAddress, kept]
        rfl
  | separate opcode follows =>
      refine ⟨true, ?_, ?_⟩
      · have lower : (backend m).lower i (some s) = (do
            Lower.repeated m i.address s op repetition
            return true) := by
          cases repetition <;>
            simp only [backend, opcode, Repetition.opcode, Lower.repeatNext, string]
        rw [lower]
        exact Lowering.emits_return true (loop i.address)
      · intro lowered taken
        simp only [Backend.clusterOf, Cluster.endAddress, taken]
        show i.address + (i.length + s.length) = s.address + s.length
        rw [follows, Instruction.nextAddress, Nat.add_assoc]

/-- Without its repetition a string instruction is lowered to the statements of its step. -/
theorem emits_of_unrepeated (string : s.opcode = .string op)
    (step : ∀ k, Lowering.Emits k (Lower.stringStep m s op) () body k) :
    Lowering.Emits 0 ((backend m).lower { s with repetition := none } next) false body 0 := by
  have lower : (backend m).lower { s with repetition := none } next = (do
      Lower.stringStep m s op
      return false) := by
    simp only [backend, string, Lower.instruction, Lower.string]
    rfl
  rw [lower]
  exact Lowering.emits_return false (step 0)

end Lowered

/-! ## Repetitions -/

/-- The cluster of a repeated string instruction, run again as long as control comes back to it, does
what the instruction without its repetition does `t` times, takes `t` off the count and goes to the
address after it.  For `movs`, `stos`, `lods`, `ins` and `outs` the number `t` is the count `n`; for
comparisons it is the first `k` after which the zero flag says to stop, or `n` if there is none.
Nothing changes if the count is zero. -/
theorem lowerTaken_repeats {ρ : Type} [RegisterFile ρ] [LawfulRegisterFile ρ] (m : Mode)
    {s i : Instruction} {op : StringOp} {repetition : Repetition}
    (stream : ClusterStream Instruction) (string : s.opcode = .string op)
    (repeated : Repeated s repetition i (instruction? stream.instructions.items.head?))
    (sized : 0 < i.length) (regular : stream.table.Regular) :
    ∃ cluster stream' plain t',
      ClusterStream.lowerTaken (backend m) stream i = (.ok cluster, stream') ∧
      (backend m).lowerWith { s with repetition := none } none stream.table = (.ok plain, t') ∧
      cluster.address = i.address ∧ cluster.endAddress = s.nextAddress ∧
      ∀ (I : Interpretation) (σ : State ρ),
        let count := (Lower.countRegister s).identifier
        let after := fun k => State.runTimes I plain.statements k σ
        ∃ t τ, Rounds (fun k => Stops op repetition (after k)) (σ.get count) t ∧
          (op ∉ comparisons → t = σ.get count) ∧
          τ = (after t).setRegister count (σ.get count - t) ∧
          τ.get count = σ.get count - t ∧
          (σ.get count = 0 → τ = σ) ∧
          cluster.Repeats I σ τ (.jump cluster.endAddress) := by
  obtain ⟨body, uncounted, step⟩ := Lower.steps_stringStep m s op
  obtain ⟨absorbed, emits, ends⟩ := emits_of_repeated string repeated step
  obtain ⟨flow, table, lowered, _⟩ := Backend.lowerWith_of_emits emits regular
  have emits' : Lowering.Emits 0 ((backend m).lower { s with repetition := none } none) false
      body 0 := emits_of_unrepeated string step
  obtain ⟨flow', table', plain, _⟩ := Backend.lowerWith_of_emits emits' regular
  refine ⟨_, _, _, _, ClusterStream.lowerTaken_of_lowered lowered, plain, rfl,
    ends ⟨absorbed, flow, _⟩ rfl, ?_⟩
  intro I σ count after
  let l := Loop.ofString i.address s op repetition body
  have unsettled : ∀ k, after k = State.runTimes I l.body k σ := fun k =>
    State.runTimes_settled table' body k σ
  have inside : σ.get count < 2 ^ count.bits := σ.get_lt (Register.isRegister_identifier _)
  have runs : l.Runs (ρ := ρ) I (Backend.clusterOf i (instruction? stream.instructions.items.head?)
      ⟨absorbed, flow, l.statements.map (·.mapIntrinsics table.resolve)⟩) :=
    ⟨fun τ => τ.run_settled table l.statements, rfl, ends ⟨absorbed, flow, _⟩ rfl,
      Nat.lt_of_lt_of_le sized (Nat.le_add_right _ _)⟩
  obtain ⟨t, rounds, repeats⟩ :=
    Loop.repeats runs uncounted (Lower.family_countRegister s) (σ.get count) σ rfl
  have exact_ : Rounds (fun k => Stops op repetition (after k)) (σ.get count) t := by
    refine ⟨rounds.within, fun k positive less stops => ?_, fun less => ?_⟩
    · rw [unsettled] at stops
      exact rounds.first k positive less ((Loop.stops_ofString _ _ _ _ _ _).mpr stops)
    · obtain ⟨positive, stops⟩ := rounds.stopped less
      rw [unsettled]
      exact ⟨positive, (Loop.stops_ofString _ _ _ _ _ _).mp stops⟩
  refine ⟨t, (after t).setRegister count (σ.get count - t), exact_, ?_, rfl, ?_, ?_, ?_⟩
  · intro moves
    by_contra different
    exact moves (exact_.stopped (by have := exact_.within; omega)).2.1
  · rw [State.get_setRegister _ _ (Register.isRegister_identifier _)]
    exact Nat.mod_eq_of_lt (Nat.lt_of_le_of_lt (Nat.sub_le _ _) inside)
  · intro zero
    have noRound : t = 0 := by
      have := exact_.within
      omega
    have same : (after t).setRegister count (σ.get count - t) =
        σ.setRegister count (σ.get count) := by
      rw [noRound, zero]
      rfl
    rw [same]
    exact σ.setRegister_get (Register.isRegister_identifier _)
  · rw [unsettled]
    exact repeats

/-- A `rep` on its own with a `movsb` behind it. -/
def rep : Instruction := .of 0x1000 1 .rep [] .word32

def movsb : Instruction := .of 0x1001 1 (.string .movsb) [] .word32

def afterRep : ClusterStream Instruction :=
  ⟨.ofImage ⟨fun _ _ => .ok (some movsb)⟩ [0xA4] 0x1001, .empty, false⟩

/-- A `scasb` with its own `repne`, behind which the code ends. -/
def repneScasb : Instruction :=
  { Instruction.of 0x1000 2 (.string .scasb) [] .word32 with repetition := some .whileDifferent }

def atEnd : ClusterStream Instruction := ⟨.ofImage ⟨fun _ _ => .ok none⟩ [] 0x1002, .empty, false⟩

/-- Whatever ecx holds, the cluster of `rep` and `movsb` counts it down to zero and goes on behind both.  A
repetition of `scasb` whose first step finds its byte counts once and goes on behind it. -/
theorem lowerTaken_repeats_movsb_scasb :
    (∃ cluster stream', ClusterStream.lowerTaken (backend .protectedMode) afterRep rep =
        (.ok cluster, stream') ∧
      ∀ (I : Interpretation) (σ : State Families), ∃ τ, τ.get Register.ecx.identifier = 0 ∧
        cluster.Repeats I σ τ (.jump 0x1002)) ∧
    ∃ cluster stream' plain t',
      ClusterStream.lowerTaken (backend .protectedMode) atEnd repneScasb = (.ok cluster, stream') ∧
      (backend .protectedMode).lowerWith { repneScasb with repetition := none } none .empty =
        (.ok plain, t') ∧
      ∀ (I : Interpretation) (σ : State Families), 0 < σ.get Register.ecx.identifier →
        zeroFlag (σ.run I plain.statements).1 = true →
          ∃ τ, τ.get Register.ecx.identifier = σ.get Register.ecx.identifier - 1 ∧
            cluster.Repeats I σ τ (.jump 0x1002) := by
  refine ⟨?moves, ?scans⟩
  case moves =>
    have shown : instruction? afterRep.instructions.items.head? = some movsb := by
      show instruction? (ofImage _ _ _).items.head? = _
      rw [items_ofImage_instruction (by decide) rfl (by decide)]
      rfl
    have repeated : Repeated movsb .whileEqual rep
        (instruction? afterRep.instructions.items.head?) := shown ▸ .separate rfl rfl
    obtain ⟨cluster, stream', _, _, lowered, _, _, ends, loops⟩ :=
      lowerTaken_repeats (ρ := Families) .protectedMode afterRep rfl repeated (by decide)
        IntrinsicTable.regular_empty
    refine ⟨cluster, stream', lowered, fun I σ => ?_⟩
    obtain ⟨t, τ, _, all, _, counted, _, repeats⟩ := loops I σ
    refine ⟨τ, ?_, ?_⟩
    · rw [all (by decide), Nat.sub_self] at counted
      exact counted
    · rw [ends] at repeats
      exact repeats
  case scans =>
    obtain ⟨cluster, stream', plain, t', lowered, single, _, ends, loops⟩ :=
      lowerTaken_repeats (ρ := Families) .protectedMode (s := repneScasb) atEnd rfl (.attached rfl)
        (by decide) IntrinsicTable.regular_empty
    refine ⟨cluster, stream', plain, t', lowered, single, fun I σ positive found => ?_⟩
    obtain ⟨t, τ, rounds, -, -, counted, -, repeats⟩ := loops I σ
    have stops : Stops .scasb .whileDifferent (State.runTimes I plain.statements 1 σ) :=
      ⟨by decide, found⟩
    have once : t = 1 := by
      have early := rounds.first 1 (Nat.le_refl 1)
      have late := rounds.stopped
      have count : 0 < σ.get (Lower.countRegister repneScasb).identifier := positive
      by_contra other
      by_cases more : 1 < t
      · exact early more stops
      · have := late (by omega)
        omega
    refine ⟨τ, ?_, ?_⟩
    · rw [once] at counted
      exact counted
    · rw [ends] at repeats
      exact repeats

end RegisterTransfer.X86
