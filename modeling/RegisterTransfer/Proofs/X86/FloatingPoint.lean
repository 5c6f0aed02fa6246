/-
# RegisterTransfer.Proofs.X86.FloatingPoint -- the unit works on a stack

What the instructions of the floating-point unit do is said by rules on its stack (`RealOp.Does`): a load
pushes its operand, a store writes the top and may pop it, arithmetic combines two registers, a comparison
sets the condition codes and may pop, and so on.  The rules name registers by their distance from the top
as the instruction finds it, and have a table of their own for what each operation is between which operands
(`RealArithmetic.result`); operations on reals are left open.

The lowering moves Top in the middle of a cluster, and names mean another slot from there on.  Yet every
cluster leaves the state that its rule says, so all slots that the rule does not name keep their value
(`lowerWith_real`).
-/
import RegisterTransfer.Proofs.Draft.Effect
import RegisterTransfer.Proofs.X86.FloatingStack
import RegisterTransfer.Proofs.X86.RealOperand

namespace RegisterTransfer.X86

set_option autoImplicit false

/-! ## Rules -/

section Values

variable (I : Interpretation)

/-- What arithmetic makes of a destination and a source.  The reversed forms subtract the destination from
the source, or divide the source by it. -/
def RealArithmetic.result (op : RealArithmetic) (dst src : Nat) : Nat :=
  (match op with
    | .add => I.real .fadd .real80 dst src
    | .sub => I.real .fsub .real80 dst src
    | .subReversed => I.real .fsub .real80 src dst
    | .mul => I.real .fmul .real80 dst src
    | .div => I.real .fdiv .real80 dst src
    | .divReversed => I.real .fdiv .real80 src dst) % 2 ^ 80

/-- The value of an intrinsic of the unit. -/
def realIntrinsic {ρ : Type} (σ : State ρ) (name : String) (arguments : List Nat) : Nat :=
  I.intrinsic σ.history name arguments % 2 ^ 80

end Values

section Rules

variable {ρ : Type} [RegisterFile ρ] (I : Interpretation) (m : Mode) (i : Instruction)
variable (σ : State (Stacked ρ))

/-- The state after the top was compared with a number: the condition codes, which are four bits of the
status word, are derived from the difference. -/
def comparedReal (value : Nat) : State (Stacked ρ) :=
  σ.setFlags "fpusw" (2 ^ 8 + 2 ^ 9 + 2 ^ 10 + 2 ^ 14) fun bit =>
    I.flag "fpusw" bit (.operation .fsub 80 (σ.st 0) value)

/-- An operand as a source: a register of the stack, or a real or an integer in memory. -/
inductive Source : Bool → Operand → Nat → Prop
  | register (n : Fin 8) : Source false (.register (.stack n)) (σ.st n)
  | memory {ref : MemoryOperand} {integer : Bool} {t : DataType} (proper : ref.Proper i)
      (number : NumberType integer ref.type.bits t) :
      Source integer (.memory ref) (extended I t ((i.numberPlace m σ ref t).read σ))

/-- What an instruction of the unit does to a state.  A number of its own is pushed as a literal in double
precision. -/
inductive RealOp.Does : RealOp → List Operand → State (Stacked ρ) → Prop
  | load {o : Operand} {value : Nat} (source : Source I m i σ false o value) :
      Does .load [o] (σ.push value)
  | loadInteger {o : Operand} {value : Nat} (source : Source I m i σ true o value) :
      Does .loadInteger [o] (σ.push value)
  | loadOne : Does .loadOne [] (σ.push (nearestDouble 1))
  | loadZero : Does .loadZero [] (σ.push (nearestDouble 0))
  | loadPi : Does .loadPi [] (σ.push (nearestDouble Real.pi))
  | storeRegister (n : Fin 8) (pops : Bool) :
      Does (.store false pops) [.register (.stack n)] ((σ.place n (σ.st 0)).pop pops.toNat)
  | storeMemory {ref : MemoryOperand} {integer : Bool} {t : DataType} (pops : Bool)
      (proper : ref.Proper i) (number : NumberType integer ref.type.bits t) :
      Does (.store integer pops) [.memory ref]
        (((i.numberPlace m σ ref t).write (narrowed I t (σ.st 0)) σ).pop pops.toNat)
  /-- Without operands the register below the top is the destination. -/
  | arithmetic (op : RealArithmetic) (pops : Bool) :
      Does (.arithmetic op pops) []
        ((σ.place 1 (op.result I (σ.st 1) (σ.st 0))).pop pops.toNat)
  | arithmeticSource (op : RealArithmetic) {o : Operand} {value : Nat}
      (source : Source I m i σ false o value) :
      Does (.arithmetic op false) [o] (σ.place 0 (op.result I (σ.st 0) value))
  | arithmeticDestination (op : RealArithmetic) (n : Fin 8) :
      Does (.arithmetic op true) [.register (.stack n)]
        ((σ.place n (op.result I (σ.st n) (σ.st 0))).pop 1)
  | arithmeticBoth (op : RealArithmetic) (pops : Bool) (n : Fin 8) {o : Operand} {value : Nat}
      (source : Source I m i σ false o value) :
      Does (.arithmetic op pops) [.register (.stack n), o]
        ((σ.place n (op.result I (σ.st n) value)).pop pops.toNat)
  | integerArithmetic (op : RealArithmetic) {o : Operand} {value : Nat}
      (source : Source I m i σ true o value) :
      Does (.integerArithmetic op) [o] (σ.place 0 (op.result I (σ.st 0) value))
  | compare (pops : Fin 3) :
      Does (.compare pops) [] ((comparedReal I σ (σ.st 1)).pop pops)
  | compareSource (pops : Fin 3) {operands : List Operand} {o : Operand} {value : Nat}
      (last : operands.getLast? = some o) (source : Source I m i σ false o value) :
      Does (.compare pops) operands ((comparedReal I σ value).pop pops)
  | compareInteger (pops : Bool) {o : Operand} {value : Nat} (source : Source I m i σ true o value) :
      Does (.compareInteger pops) [o] ((comparedReal I σ value).pop pops.toNat)
  | exchange : Does .exchange [] ((σ.place 0 (σ.st 1)).place 1 (σ.st 0))
  | exchangeWith (n : Fin 8) {operands : List Operand}
      (last : operands.getLast? = some (.register (.stack n))) :
      Does .exchange operands ((σ.place 0 (σ.st n)).place n (σ.st 0))
  | arctangent :
      Does .arctangent []
        (((σ.place 1 (realIntrinsic I σ "atan" [σ.st 1, σ.st 0])).pop 1).record
          [⟨"atan", [σ.st 1, σ.st 0]⟩])
  | logarithm :
      Does .logarithm []
        (((σ.place 1 (RealArithmetic.mul.result I (σ.st 1)
            (realIntrinsic I σ "lg2" [σ.st 0]))).pop 1).record [⟨"lg2", [σ.st 0]⟩])
  | sineCosine :
      Does .sineCosine []
        (let sine := realIntrinsic I σ "sin" [σ.st 0]
          let between := σ.record [⟨"sin", [σ.st 0]⟩]
          let cosine := realIntrinsic I between "cos" [σ.st 0]
          ((between.place 0 sine).push cosine).record [⟨"cos", [σ.st 0]⟩])

end Rules

/-! ## Steps -/

namespace Lower

open Lowering

variable {ρ : Type} [RegisterFile ρ] {I : Interpretation} {m : Mode} {i : Instruction}
variable {σ τ : State (Stacked ρ)} {o : Operand} {integer : Bool} {value : Nat}

theorem eval_stack (σ : State (Stacked ρ)) (n : Fin 8) :
    (Register.stack n).value.eval I σ = σ.st n := σ.get_stack n

theorem eval_st0 (σ : State (Stacked ρ)) : st0.eval I σ = σ.st 0 := σ.get_stack 0

theorem eval_st1 (σ : State (Stacked ρ)) : st1.eval I σ = σ.st 1 := σ.get_stack 1

/-- A register of the stack is assigned to, and what the source applies is remembered. -/
theorem exec_stack (σ : State (Stacked ρ)) (n : Fin 8) (src : Expr) :
    σ.exec I (.assign (Register.stack n).value src) =
      ((σ.place n (src.eval I σ)).record (src.applications I σ), none) := by
  rw [State.exec, Register.value, σ.assign_register (Register.isRegister_identifier _),
    σ.setRegister_stack]
  rfl

theorem exec_stack_of_plain (σ : State (Stacked ρ)) (n : Fin 8) (src : Expr)
    (plain : src.uses = []) :
    σ.exec I (.assign (Register.stack n).value src) = (σ.place n (src.eval I σ), none) := by
  rw [exec_stack, Expr.applications_of_plain σ src plain, State.record_nil]

theorem performs_stack (n : Fin 8) (src : Expr) (plain : src.uses = []) :
    Performs I σ (assign (Register.stack n).value src) (σ.place n (src.eval I σ)) :=
  performs_assign (exec_stack_of_plain σ n src plain)

theorem exec_turn (σ : State (Stacked ρ)) {k : Int} (short : k.natAbs < 2 ^ 64) :
    σ.exec I (.assign Register.top.value (Register.top.value.addInt k)) = (σ.turn k, none) :=
  σ.exec_addInt Register.top.isRegister_identifier short

theorem performs_turn {k : Int} (short : k.natAbs < 2 ^ 64) :
    Performs I σ (moveTop k) (σ.turn k) :=
  performs_assign (exec_turn σ short)

theorem performs_popTopIf (pops : Bool) : Performs I σ (popTopIf pops) (σ.pop pops.toNat) := by
  cases pops with
  | true => exact performs_turn (by decide)
  | false => exact performs_pure σ

/-! ## Values -/

theorem eval_realResult (op : RealArithmetic) (dst src : Expr) (σ : State (Stacked ρ)) :
    (realResult op dst src).eval I σ = op.result I (dst.eval I σ) (src.eval I σ) := by
  cases op <;> rfl

/-! ## Loads and stores -/

theorem operand_of_cons {rest : List Operand} (taken : i.operands = o :: rest) :
    i.operand 0 = .ok o := by
  simp [Instruction.operand, taken]

theorem performs_loadConstant {bits : Nat} (short : bits < 2 ^ 64) :
    Performs I σ (loadConstant bits) (σ.push bits) := by
  have value : (Expr.constant (.real64 bits)).eval I (σ.turn (-1)) = bits := by
    show bits % 2 ^ 64 % 2 ^ 64 = bits
    rw [Nat.mod_mod, Nat.mod_eq_of_lt short]
  have assigns := performs_stack (I := I) (σ := σ.turn (-1)) 0
    (.constant (.real64 bits)) rfl
  rw [value] at assigns
  exact performs_bind (performs_turn (by decide)) assigns

theorem performs_storeRegister (n : Fin 8) (pops : Bool)
    (taken : i.operands = [.register (.stack n)]) :
    Performs I σ (storeReal m i false pops) ((σ.place n (σ.st 0)).pop pops.toNat) := by
  have writes : Performs I σ
      (if Register.stack n ≠ .st0 then do
        assign (Register.stack n).value st0
        popTopIf pops
      else popTopIf pops) ((σ.place n (σ.st 0)).pop pops.toNat) := by
    split
    · have assigns := performs_stack (I := I) (σ := σ) n st0 rfl
      rw [eval_st0] at assigns
      exact performs_bind (f := fun _ => popTopIf pops) assigns (performs_popTopIf pops)
    · rename_i top
      have same : n = 0 := Register.stack.inj (not_not.mp top)
      have kept : σ.place n (σ.st 0) = σ := by
        rw [same]
        exact σ.place_st 0
      rw [kept]
      exact performs_popTopIf pops
  exact performs_operand (operand_of_cons taken) writes

/-! ## Arithmetic -/

/-- Arithmetic on a register of the stack and a source. -/
theorem performs_result (op : RealArithmetic) (n : Fin 8) (src : Expr) (direct : src.Direct)
    (pops : Bool) :
    Performs I σ
      (do
        assign (Register.stack n).value (realResult op (Register.stack n).value src)
        popTopIf pops)
      ((σ.place n (op.result I (σ.st n) (src.eval I σ))).pop pops.toNat) := by
  have plain := (direct_realResult op (direct_register (.stack n)) direct).plain
  have assigns := performs_stack (I := I) (σ := σ) n _ plain
  rw [eval_realResult, eval_stack] at assigns
  exact performs_bind assigns (performs_popTopIf pops)

theorem performs_arithmetic (op : RealArithmetic) (pops : Bool) (taken : i.operands = []) :
    Performs I σ (realArithmetic m i op pops)
      ((σ.place 1 (op.result I (σ.st 1) (σ.st 0))).pop pops.toNat) := by
  have found : realOperands m i pops = .ok (st1, st0) := by
    simp [realOperands, taken]
    rfl
  have result := performs_result (I := I) (σ := σ) op 1 st0 direct_st0 pops
  rw [eval_st0] at result
  exact performs_operand found result

theorem performs_arithmeticDestination (op : RealArithmetic) (n : Fin 8)
    (taken : i.operands = [.register (.stack n)]) :
    Performs I σ (realArithmetic m i op true)
      ((σ.place n (op.result I (σ.st n) (σ.st 0))).pop 1) := by
  have found : realOperands m i true = .ok ((Register.stack n).value, st0) := by
    simp [realOperands, taken, Operand.register?]
    rfl
  have result := performs_result (I := I) (σ := σ) op n st0 direct_st0 true
  rw [eval_st0] at result
  exact performs_operand found result

theorem performs_arctangent :
    Performs I σ arctangent
      (((σ.place 1 (realIntrinsic I σ "atan" [σ.st 1, σ.st 0])).pop 1).record
        [⟨"atan", [σ.st 1, σ.st 0]⟩]) := by
  let p : Intrinsic := ⟨"atan", .real80, 2⟩
  have arguments : Expr.evalList I σ [st1, st0] = [σ.st 1, σ.st 0] :=
    congrArg₂ (fun a b => [a, b]) (eval_st1 σ) (eval_st0 σ)
  have applies : (Expr.apply p .real80 [st1, st0]).applications I σ =
      [⟨"atan", Expr.evalList I σ [st1, st0]⟩] := rfl
  have assigns := exec_stack (I := I) σ 1 (.apply p .real80 [st1, st0])
  rw [applies, Expr.eval, arguments] at assigns
  exact performs_apply rfl
    (performs_bind (performs_assign assigns) (performs_turn (k := 1) (by decide)))

theorem performs_logarithm :
    Performs I σ logarithm
      (((σ.place 1 (RealArithmetic.mul.result I (σ.st 1)
        (realIntrinsic I σ "lg2" [σ.st 0]))).pop 1).record
          [⟨"lg2", [σ.st 0]⟩]) := by
  let log := Expr.apply ⟨"lg2", .real80, 1⟩ .real80 [st0]
  have arguments : Expr.evalList I σ [st0] = [σ.st 0] :=
    congrArg (fun a => [a]) (eval_st0 σ)
  have applies : (Expr.binary .fmul .real80 st1 log).applications I σ =
      [⟨"lg2", Expr.evalList I σ [st0]⟩] := rfl
  have value : (Expr.binary .fmul .real80 st1 log).eval I σ = RealArithmetic.mul.result I (σ.st 1)
      (I.intrinsic σ.history "lg2" (Expr.evalList I σ [st0]) % 2 ^ 80) :=
    congrArg (RealArithmetic.mul.result I · _) (eval_st1 σ)
  have assigns := exec_stack (I := I) σ 1 (.binary .fmul .real80 st1 log)
  rw [applies, value, arguments] at assigns
  exact performs_apply rfl
    (performs_bind (performs_assign assigns) (performs_turn (k := 1) (by decide)))

/-! ## Comparisons -/

theorem exec_compareTop {e : Expr} (plain : e.uses = []) (σ : State (Stacked ρ)) :
    σ.exec I (.assign (.identifier Flag.fpuGroup)
      (.conditionCodes (.binary .fsub .real80 st0 e))) =
        (comparedReal I σ (e.eval I σ), none) := by
  rw [σ.exec_assign_of_plain rfl (by simp [plain, st0])]
  show (σ.setFlags _ _ (fun bit => I.flag _ bit (.operation .fsub 80
    (st0.eval I σ) (e.eval I σ))), none) = _
  rw [eval_st0]
  rfl

/-! ## Steps through a temporary -/

theorem exec_keep (σ : State (Stacked ρ)) (k : Nat) :
    σ.exec I (.assign (.identifier (.temporary k .real80)) st0) =
      (σ.setTemporary k (σ.st 0), none) := by
  have inside : σ.st 0 < 2 ^ 80 := BitVec.isLt _
  rw [σ.exec_assign_of_plain rfl rfl]
  show (σ.setTemporary k (st0.eval I σ % 2 ^ 80), none) = _
  rw [eval_st0, Nat.mod_eq_of_lt inside]

theorem eval_kept {σ : State (Stacked ρ)} {k value : Nat} (kept : σ.temporaries k = value)
    (inside : value < 2 ^ 80) : (Expr.identifier (.temporary k .real80)).eval I σ = value := by
  show σ.temporaries k % 2 ^ 80 = value
  rw [kept, Nat.mod_eq_of_lt inside]

/-- Two registers change places through a temporary. -/
theorem ends_exchange (n : Fin 8)
    (other : (i.operands.getLast?.bind Operand.register?).getD .st1 = .stack n) :
    Ends I σ (exchangeReal i) ((σ.place 0 (σ.st n)).place n (σ.st 0)) := by
  by_cases top : n = 0
  · subst top
    have kept : (σ.place 0 (σ.st 0)).place 0 (σ.st 0) = σ := by
      rw [σ.place_st]
      exact σ.place_st 0
    have stays : exchangeReal i = nop := by
      unfold exchangeReal
      rw [other]
      rfl
    rw [stays]
    show Ends I σ nop ((σ.place 0 (σ.st 0)).place 0 (σ.st 0))
    rw [kept]
    exact (performs_nop σ).ends
  · have apart : Register.stack n ≠ .st0 := fun same => top (Register.stack.inj same)
    let kept := Expr.identifier (.temporary 0 .real80)
    have emits : Emits 0 (exchangeReal i) ()
        [.assign kept st0, .assign st0 (Register.stack n).value,
          .assign (Register.stack n).value kept] 1 := by
      unfold exchangeReal
      rw [other]
      simp only [apart, if_false]
      refine emits_bind (emits_temporary _) (emits_bind (emits_assign _ _) ?_)
      exact emits_bind (emits_assign _ _) (emits_assign _ _)
    let first := σ.setTemporary 0 (σ.st 0)
    let second := first.place 0 (σ.st n)
    have keeps : σ.exec I (.assign kept st0) = (first, none) := exec_keep σ 0
    have raises : first.exec I (.assign st0 (Register.stack n).value) = (second, none) := by
      have assigns := exec_stack_of_plain (I := I) first 0 (Register.stack n).value rfl
      rw [eval_stack] at assigns
      exact assigns
    have lowers : second.exec I (.assign (Register.stack n).value kept) =
        (second.place n (σ.st 0), none) := by
      have assigns := exec_stack_of_plain (I := I) second n kept rfl
      rw [eval_kept rfl (BitVec.isLt _)] at assigns
      exact assigns
    refine ⟨_, 1, second.place n (σ.st 0), emits, ?_, rfl⟩
    rw [State.run_cons_of_falls _ keeps, State.run_cons_of_falls _ raises,
      State.run_cons_of_falls _ lowers]
    rfl

/-! ## Numbers from memory -/

variable [LawfulRegisterFile ρ]

theorem inWidth_of_proper {ref : MemoryOperand} (proper : ref.Proper i) (σ : State (Stacked ρ)) :
    ref.InWidth σ :=
  fun r named => σ.get_lt_of_outside (proper.ordinary r (.inr named))

theorem eval_source (source : Source I m i σ integer o value) :
    (realValue m i o integer).eval I σ = value := by
  cases source with
  | register n => exact eval_stack σ n
  | memory proper number => exact eval_realValue proper number (inWidth_of_proper proper σ)

/-- A proper reference points to the same place when the top has moved. -/
theorem numberPlace_turn {ref : MemoryOperand} (proper : ref.Proper i) (k : Int)
    (σ : State (Stacked ρ)) (t : DataType) :
    i.numberPlace m (σ.turn k) ref t = i.numberPlace m σ ref t := by
  have kept : ∀ r, ref.segment = some r ∨ ref.base = some r ∨ ref.index = some r →
      (σ.turn k).get r.identifier = σ.get r.identifier :=
    fun r named => σ.get_turn (proper.ordinary r named) k
  have segment : (ref.segmentFor m).map (fun r => (σ.turn k).get r.identifier) =
      (ref.segmentFor m).map fun r => σ.get r.identifier := by
    refine Option.map_congr fun r found => ?_
    rcases ref.eq_segment_of_segmentFor found with named | ⟨s, rfl⟩
    · exact kept r (.inl named)
    · exact σ.get_turn (by show 16 + s.index < 24; cases s <;> decide) k
  have base : numberIn (σ.turn k) ref.base = numberIn σ ref.base :=
    numberIn_congr fun r named => kept r (.inr (.inl named))
  have index : numberIn (σ.turn k) ref.index = numberIn σ ref.index :=
    numberIn_congr fun r named => kept r (.inr (.inr named))
  rw [Instruction.numberPlace, Instruction.numberPlace, segment, Instruction.pointsTo,
    Instruction.pointsTo, base, index]

/-- The operand of a load is read below a top that has moved. -/
theorem performs_loadReal (source : Source I m i σ integer o value) (taken : i.operands = [o]) :
    Performs I σ (loadReal m i integer) (σ.push value) := by
  refine performs_operand (operand_of_cons taken) (performs_bind (performs_turn (by decide)) ?_)
  cases source with
  | register n =>
      let below : Fin 8 := ⟨(n.val + 1) % 8, Nat.mod_lt _ (by decide)⟩
      have deeper : (Register.stack below).value.eval I (σ.turn (-1)) = σ.st n := by
        rw [eval_stack]
        refine σ.st_turn ?_
        show (((n.val + 1) % 8 : Nat) + (-1) : Int) % 8 = n.val % 8
        omega
      have assigns := performs_stack (I := I) (σ := σ.turn (-1)) 0
        (Register.stack below).value rfl
      rw [deeper] at assigns
      exact assigns
  | @memory ref integer t proper number =>
      have assigns := performs_stack (I := I) (σ := σ.turn (-1)) 0
        (realValue m i (.memory ref) integer) (plain_realValue ..)
      rw [eval_realValue proper number (inWidth_of_proper proper _), numberPlace_turn proper] at assigns
      exact assigns

theorem performs_storeMemory {ref : MemoryOperand} {t : DataType} (pops : Bool)
    (proper : ref.Proper i) (number : NumberType integer ref.type.bits t)
    (taken : i.operands = [.memory ref]) :
    Performs I σ (storeReal m i integer pops)
      (((i.numberPlace m σ ref t).write (narrowed I t (σ.st 0)) σ).pop pops.toNat) := by
  have stores := exec_storeNumber (m := m) (I := I) proper number (inWidth_of_proper proper σ)
  rw [eval_st0] at stores
  exact performs_operand (operand_of_cons taken)
    (performs_bind (performs_assign stores) (performs_popTopIf pops))

theorem performs_arithmeticSource (op : RealArithmetic) (source : Source I m i σ false o value)
    (taken : i.operands = [o]) :
    Performs I σ (realArithmetic m i op false) (σ.place 0 (op.result I (σ.st 0) value)) := by
  have found : realOperands m i false = .ok (st0, realValue m i o false) := by
    simp [realOperands, taken]
    rfl
  have result := performs_result (I := I) (σ := σ) op 0 _ (direct_realValue m i o false) false
  rw [eval_source source] at result
  exact performs_operand found result

theorem performs_arithmeticBoth (op : RealArithmetic) (pops : Bool) (n : Fin 8)
    (source : Source I m i σ false o value) (taken : i.operands = [.register (.stack n), o]) :
    Performs I σ (realArithmetic m i op pops)
      ((σ.place n (op.result I (σ.st n) value)).pop pops.toNat) := by
  have found : realOperands m i pops = .ok ((Register.stack n).value, realValue m i o false) := by
    simp [realOperands, taken]
    rfl
  have result := performs_result (I := I) (σ := σ) op n _ (direct_realValue m i o false) pops
  rw [eval_source source] at result
  exact performs_operand found result

theorem performs_integerArithmetic (op : RealArithmetic) (source : Source I m i σ true o value)
    (taken : i.operands = [o]) :
    Performs I σ (integerArithmetic m i op) (σ.place 0 (op.result I (σ.st 0) value)) := by
  have plain := (direct_realResult op (direct_register (.stack 0)) (direct_realValue m i o true)).plain
  have assigns := performs_stack (I := I) (σ := σ) 0 _ plain
  rw [eval_realResult, eval_stack, eval_source source] at assigns
  exact performs_operand (operand_of_cons taken) assigns

/-! ## Comparisons and what follows them -/

/-- Popping several registers moves the top once. -/
theorem performs_pops {n : Nat} (short : n < 2 ^ 64) :
    Performs I σ (if n > 0 then moveTop n else pure ()) (σ.pop n) := by
  split
  · rename_i positive
    rw [σ.pop_eq_turn positive]
    exact performs_turn (by omega)
  · rename_i none_
    rw [Nat.eq_zero_of_not_pos none_]
    exact performs_pure σ

theorem performs_compared {e : Expr} (plain : e.uses = []) {pops : Nat} (short : pops < 2 ^ 64) :
    Performs I σ
      (do
        compareTop e
        if pops > 0 then moveTop pops)
      ((comparedReal I σ (e.eval I σ)).pop pops) :=
  performs_bind (performs_assign (exec_compareTop plain σ)) (performs_pops short)

theorem performs_compare {pops : Nat} (short : pops < 2 ^ 64) (taken : i.operands = []) :
    Performs I σ (compareReal m i integer pops) ((comparedReal I σ (σ.st 1)).pop pops) := by
  have compares := performs_compared (I := I) (σ := σ) (e := st1) rfl short
  rw [eval_st1] at compares
  simp only [compareReal, taken]
  exact compares

theorem performs_compareSource {pops : Nat} (short : pops < 2 ^ 64)
    (last : i.operands.getLast? = some o) (source : Source I m i σ integer o value) :
    Performs I σ (compareReal m i integer pops) ((comparedReal I σ value).pop pops) := by
  have compares := performs_compared (I := I) (σ := σ) (plain_realValue m i o integer) short
  rw [eval_source source] at compares
  simp only [compareReal, last]
  exact compares

theorem ends_sineCosine :
    let sine := realIntrinsic I σ "sin" [σ.st 0]
    let between := σ.record [⟨"sin", [σ.st 0]⟩]
    let cosine := realIntrinsic I between "cos" [σ.st 0]
    Ends I σ sineCosine
      (((between.place 0 sine).push cosine).record [⟨"cos", [σ.st 0]⟩]) := by
  intro sine between cosine
  let angle := Expr.identifier (.temporary 0 .real80)
  let sin := Expr.apply ⟨"sin", .real80, 1⟩ .real80 [angle]
  let cos := Expr.apply ⟨"cos", .real80, 1⟩ .real80 [angle]
  have emits : Emits 0 sineCosine ()
      [.assign angle st0, .assign Register.top.value (Register.top.value.addInt (-1)),
        .assign st1 sin, .assign st0 cos] 1 := by
    refine emits_bind (emits_temporary _) (emits_bind (emits_assign _ _) ?_)
    refine emits_bind (emits_assign _ _) (emits_bind (emits_apply _ _ _ rfl) ?_)
    refine emits_bind (emits_assign _ _) (emits_bind (emits_apply _ _ _ rfl) ?_)
    exact emits_assign _ _
  have inside : σ.st 0 < 2 ^ 80 := BitVec.isLt _
  let first := σ.setTemporary 0 (σ.st 0)
  let second := first.turn (-1)
  let third := (second.place 1 sine).record [⟨"sin", [σ.st 0]⟩]
  have keeps : σ.exec I (.assign angle st0) = (first, none) := exec_keep σ 0
  have moves : first.exec I (.assign Register.top.value (Register.top.value.addInt (-1))) =
      (second, none) := exec_turn first (by decide)
  have argument : ∀ τ : State (Stacked ρ), τ.temporaries 0 = σ.st 0 →
      Expr.evalList I τ [angle] = [σ.st 0] := fun τ kept =>
    congrArg (fun a => [a]) (eval_kept kept inside)
  have sines : second.exec I (.assign st1 sin) = (third, none) := by
    have assigns := exec_stack (I := I) second 1 sin
    rw [show sin.applications I second = [⟨"sin", Expr.evalList I second [angle]⟩]
      from rfl, Expr.eval, argument second rfl] at assigns
    exact assigns
  have cosines : third.exec I (.assign st0 cos) =
      ((third.place 0 cosine).record [⟨"cos", [σ.st 0]⟩], none) := by
    have assigns := exec_stack (I := I) third 0 cos
    rw [show cos.applications I third = [⟨"cos", Expr.evalList I third [angle]⟩]
      from rfl, Expr.eval, argument third rfl] at assigns
    exact assigns
  refine ⟨_, 1, (third.place 0 cosine).record [⟨"cos", [σ.st 0]⟩], emits, ?_, ?_⟩
  · rw [State.run_cons_of_falls _ keeps, State.run_cons_of_falls _ moves,
      State.run_cons_of_falls _ sines, State.run_cons_of_falls _ cosines]
    rfl
  · -- The register below the new top is the old top.
    have renamed : (σ.turn (-1)).place 1 sine = (σ.place 0 sine).turn (-1) :=
      σ.place_turn (by decide) sine
    have apart : third = (((σ.turn (-1)).place 1 sine).record
        [⟨"sin", [σ.st 0]⟩]).setTemporary 0 (σ.st 0) := rfl
    rw [apart, renamed]
    rfl

/-- The lowering of every instruction of the unit does what its rule says. -/
theorem ends_real {op : RealOp} {operands : List Operand} (taken : i.operands = operands)
    (does : RealOp.Does I m i σ op operands τ) : Ends I σ (real m i op) τ := by
  cases does with
  | load source => exact (performs_loadReal source taken).ends
  | loadInteger source => exact (performs_loadReal source taken).ends
  | loadOne =>
      rw [nearestDouble_one]
      exact (performs_loadConstant (by decide)).ends
  | loadZero =>
      rw [nearestDouble_zero]
      exact (performs_loadConstant (by decide)).ends
  | loadPi =>
      rw [nearestDouble_pi]
      exact (performs_loadConstant (by decide)).ends
  | storeRegister n pops => exact (performs_storeRegister n pops taken).ends
  | storeMemory pops proper number => exact (performs_storeMemory pops proper number taken).ends
  | arithmetic op pops => exact (performs_arithmetic op pops taken).ends
  | arithmeticSource op source => exact (performs_arithmeticSource op source taken).ends
  | arithmeticDestination op n => exact (performs_arithmeticDestination op n taken).ends
  | arithmeticBoth op pops n source => exact (performs_arithmeticBoth op pops n source taken).ends
  | integerArithmetic op source => exact (performs_integerArithmetic op source taken).ends
  | compare pops => exact (performs_compare (by omega) taken).ends
  | compareSource pops last source =>
      rw [← taken] at last
      exact (performs_compareSource (by omega) last source).ends
  | compareInteger pops source =>
      have last : i.operands.getLast? = some _ := (congrArg List.getLast? taken).trans rfl
      have small := pops.toNat_lt
      exact (performs_compareSource (by omega) last source).ends
  | exchange => exact ends_exchange 1 (by rw [taken]; rfl)
  | exchangeWith n last =>
      rw [← taken] at last
      exact ends_exchange n (by rw [last]; rfl)
  | arctangent => exact performs_arctangent.ends
  | logarithm => exact performs_logarithm.ends
  | sineCosine => exact ends_sineCosine

end Lower

/-- The cluster of an instruction of the unit is lifted in every mode, and from every state it falls
through to the state that the instruction's rule says, apart from temporaries. -/
theorem lowerWith_real {ρ : Type} [RegisterFile ρ] [LawfulRegisterFile ρ] (m : Mode)
    {i : Instruction} {op : RealOp} (next : Option Instruction) {t : IntrinsicTable}
    (opcode : i.opcode = .real op) (regular : t.Regular) {I : Interpretation}
    {σ τ : State (Stacked ρ)} (does : RealOp.Does I m i σ op i.operands τ) :
    ∃ cluster t' υ, (backend m).lowerWith i next t = (.ok cluster, t') ∧
      σ.run I cluster.statements = (υ, none) ∧ υ.forget = τ.forget := by
  have lower : (backend m).lower i next = (do
      Lower.real m i op
      return false) := by
    simp only [backend, opcode, Lower.instruction]
  exact Backend.lowerWith_of_ends lower (Lower.ends_real rfl does) regular

/-- An instruction of the unit, at no address in particular. -/
def realOf (op : RealOp) (operands : List Operand) : Instruction :=
  .of 0x1000 2 (.real op) operands .word32

/-- The number that ebx points to. -/
def atEbx (type : DataType) : MemoryOperand := { type, base := some .ebx }

section AtEbx

variable (op : RealOp) (type t : DataType)

theorem proper_atEbx : (atEbx type).Proper (realOf op [.memory (atEbx type)]) := by
  refine ⟨show 32 ≤ 64 by decide, show (-2 ^ 63 : Int) ≤ 0 by decide,
    show (0 : Int) < 2 ^ 63 by decide, fun _ => ⟨?_, nofun, show 1 ∈ [1, 2, 4, 8] by decide⟩, ?_⟩
  · rintro r ⟨⟩
    rfl
  · rintro r (⟨⟨⟩⟩ | ⟨⟨⟩⟩ | ⟨⟨⟩⟩)
    decide

theorem numberPlace_atEbx (σ : State (Stacked Cells)) :
    (realOf op [.memory (atEbx type)]).numberPlace .protectedMode σ (atEbx type) t =
      .memory none 32 (σ.get Register.ebx.identifier) t := by
  have inside : σ.get Register.ebx.identifier < 2 ^ 32 := σ.get_lt_of_outside (by decide)
  have points : (realOf op [.memory (atEbx type)]).pointsTo σ (atEbx type) =
      Bits.ofInt 32 (σ.get Register.ebx.identifier + (0 : Nat) * (1 : Nat) + 0) := rfl
  rw [Instruction.numberPlace, points, Int.natCast_zero, Int.zero_mul, Int.add_zero, Int.add_zero,
    Bits.ofInt_of_lt inside]
  rfl

end AtEbx

/-- Lowered in protected mode, the instruction takes every state to one that it is related to. -/
def Leads (i : Instruction)
    (related : Interpretation → State (Stacked Cells) → State (Stacked Cells) → Prop) : Prop :=
  ∃ cluster t', (backend .protectedMode).lowerWith i none .empty = (.ok cluster, t') ∧
    ∀ (I : Interpretation) (σ : State (Stacked Cells)), ∃ υ,
      σ.run I cluster.statements = (υ, none) ∧ related I σ υ

/-- A load of the third register puts it on top of all others, and it is then the fourth.  A reversed
subtraction of a real in memory takes the top from that.  A store of an integer that pops leaves the top in
memory and all others one higher. -/
theorem lowerWith_real_fld_fsubr_fistp :
    Leads (realOf .load [.register (.stack 2)]) (fun _ σ υ =>
      υ.st 0 = σ.st 2 ∧ ∀ n, n < 7 → υ.st (n + 1) = σ.st n) ∧
    Leads (realOf (.arithmetic .subReversed false) [.memory (atEbx .word32)]) (fun I σ υ =>
      let source := σ.load none 32 (σ.get Register.ebx.identifier) 4
      υ.st 0 = I.real .fsub .real80 (I.convert .real32 .real80 source % 2 ^ 80) (σ.st 0) % 2 ^ 80 ∧
        ∀ n, 0 < n → n < 8 → υ.st n = σ.st n) ∧
    Leads (realOf (.store true true) [.memory (atEbx .word16)]) (fun I σ υ =>
      υ.load none 32 (σ.get Register.ebx.identifier) 2 =
          I.convert .real80 .int16 (σ.st 0) % 2 ^ 16 ∧
        ∀ n, n < 7 → υ.st n = σ.st (n + 1)) := by
  refine ⟨?load, ?subtraction, ?store⟩
  case load =>
    refine ⟨_, _, rfl, fun I σ => ?_⟩
    obtain ⟨_, _, υ, ran, runs, same⟩ := lowerWith_real (ρ := Cells) .protectedMode
      (i := realOf .load [.register (.stack 2)]) (I := I) (σ := σ) none rfl
      IntrinsicTable.regular_empty (.load (.register 2))
    cases ran
    refine ⟨υ, runs, ?_, fun n less => ?_⟩
    · rw [← υ.st_forget 0, same, State.st_forget, σ.st_push_zero]
      exact Nat.mod_eq_of_lt (BitVec.isLt _)
    · rw [← υ.st_forget (n + 1), same, State.st_forget, σ.st_push_succ less]
  case subtraction =>
    refine ⟨_, _, rfl, fun I σ => ?_⟩
    obtain ⟨_, _, υ, ran, runs, same⟩ := lowerWith_real (ρ := Cells) .protectedMode
      (i := realOf (.arithmetic .subReversed false) [.memory (atEbx .word32)]) (I := I) (σ := σ) none
      rfl IntrinsicTable.regular_empty (.arithmeticSource .subReversed (.memory (proper_atEbx _ _) .real32))
    cases ran
    rw [numberPlace_atEbx] at same
    have source : (Place.memory none 32 (σ.get Register.ebx.identifier) .real32).read σ =
        σ.load none 32 (σ.get Register.ebx.identifier) 4 := Nat.mod_eq_of_lt (σ.load_lt ..)
    rw [source] at same
    refine ⟨υ, runs, ?_, fun n positive less => ?_⟩
    · rw [← υ.st_forget 0, same, State.st_forget, σ.st_place_self]
      exact Nat.mod_mod _ _
    · rw [← υ.st_forget n, same, State.st_forget, σ.st_place_of_ne (by omega)]
  case store =>
    refine ⟨_, _, rfl, fun I σ => ?_⟩
    obtain ⟨_, _, υ, ran, runs, same⟩ := lowerWith_real (ρ := Cells) .protectedMode
      (i := realOf (.store true true) [.memory (atEbx .word16)]) (I := I) (σ := σ) none
      rfl IntrinsicTable.regular_empty (.storeMemory true (proper_atEbx _ _) .int16)
    cases ran
    rw [numberPlace_atEbx] at same
    let stored := σ.store none 32 (σ.get Register.ebx.identifier) 2 (narrowed I .int16 (σ.st 0))
    have same : υ.forget = (stored.turn 1).forget := same
    have memory : υ.memory = stored.memory := congrArg (fun τ => τ.memory) same
    refine ⟨υ, runs, ?_, fun n less => ?_⟩
    · rw [State.load_congr memory, σ.load_store _ _ _ (by decide)]
      exact Nat.mod_mod _ _
    · rw [← υ.st_forget n, same, State.st_forget]
      exact State.st_turn _ (by omega)

end RegisterTransfer.X86
