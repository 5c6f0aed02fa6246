/-
# RegisterTransfer.Proofs.Meaning.Storable -- what a value can be stored to

A `Storable` is a destination whose place is known before the value is: an identifier other than a group
of flags, or memory at an address made of registers and constants.  Its `Spot` in a state is that place,
and a transfer writes it (`Storable.exec_assign`).  What was written is read back, and everything
that is no part of the spot keeps its contents.

A value takes the bits of its type only.  `Expr.eval_lt_two` says so of truth values, which are narrower
than the byte that memory holds them in.
-/
import RegisterTransfer.Proofs.Meaning.Frame
import RegisterTransfer.Proofs.Meaning.Memory

namespace RegisterTransfer

set_option autoImplicit false

/-! ## Expressions of registers -/

namespace Expr

/-- Whether an expression is built from registers and constants only. -/
def OfRegisters : Expr → Prop
  | identifier id => id.IsRegister
  | constant _ | address _ => True
  | binary _ _ a b | concat _ a b => a.OfRegisters ∧ b.OfRegisters
  | unary _ _ e | slice _ e _ | cast _ e | conditionCodes e | test _ e => e.OfRegisters
  | memory .. | segmented .. | apply .. => False

variable {ρ : Type} [RegisterFile ρ] {I : Interpretation}

/-- Such an expression has the same value wherever the registers are the same. -/
theorem eval_of_registers {σ τ : State ρ} (same : σ.registers = τ.registers) :
    ∀ e : Expr, e.OfRegisters → e.eval I σ = e.eval I τ
  | identifier _, register => State.get_of_registers register same
  | constant _, _ | address _, _ | conditionCodes _, _ => by rw [eval, eval]
  | binary _ _ a b, inside | concat _ a b, inside => by
      rw [OfRegisters] at inside
      rw [eval, eval, eval_of_registers same a inside.1, eval_of_registers same b inside.2]
  | unary _ _ e, inside | slice _ e _, inside | cast _ e, inside | test _ e, inside => by
      rw [OfRegisters] at inside
      rw [eval, eval, eval_of_registers same e inside]

theorem applications_of_registers (σ : State ρ) :
    ∀ e : Expr, e.OfRegisters → e.applications I σ = []
  | identifier _, _ | constant _, _ | address _, _ => rfl
  | binary _ _ a b, inside | concat _ a b, inside => by
      rw [OfRegisters] at inside
      rw [applications, applications_of_registers σ a inside.1,
        applications_of_registers σ b inside.2]
      rfl
  | unary _ _ e, inside | slice _ e _, inside | cast _ e, inside | conditionCodes e, inside
  | test _ e, inside => by
      rw [OfRegisters] at inside
      rw [applications, applications_of_registers σ e inside]

/-- Memory at an address made of registers is read where it was before, as long as the registers are the
same. -/
theorem eval_memoryIn_of_registers {σ τ : State ρ} (same : τ.registers = σ.registers)
    {segment : Option Expr} (inSegment : ∀ s, segment = some s → s.OfRegisters) (type : DataType)
    {ea : Expr} (inAddress : ea.OfRegisters) :
    (memoryIn segment type ea).eval I τ =
      τ.load (segment.map (·.eval I σ)) ea.type.bits (ea.eval I σ) type.bytes % 2 ^ type.bits := by
  rw [eval_memoryIn, eval_of_registers same ea inAddress]
  cases segment with
  | none => rfl
  | some s => rw [Option.map_some, eval_of_registers same s (inSegment s rfl), Option.map_some]

theorem applications_memoryIn (σ : State ρ) {segment : Option Expr}
    (inSegment : ∀ s, segment = some s → s.OfRegisters) (type : DataType) {ea : Expr}
    (inAddress : ea.OfRegisters) : (memoryIn segment type ea).applications I σ = [] := by
  cases segment with
  | none => exact applications_of_registers σ ea inAddress
  | some s =>
      rw [memoryIn, applications, applications_of_registers σ ea inAddress,
        applications_of_registers σ s (inSegment s rfl)]
      rfl

end Expr

/-! ## Truth values -/

/-- A group of flags has the type that `Identifier.flags` gives it, which makes all of them. -/
def Identifier.Typed (id : Identifier) : Prop :=
  ∀ register mask, id.storage = .flags register mask →
    id.type = (Identifier.flags id.name register mask).type

/-- A mask of a single bit is a power of two. -/
theorem Identifier.exists_of_isSingleBit {mask : Nat} (single : isSingleBit mask = true) :
    ∃ bit, mask = 2 ^ bit := by
  rw [isSingleBit, Bool.and_eq_true, decide_eq_true_eq, decide_eq_true_eq] at single
  obtain ⟨nonzero, shared⟩ := single
  have low := Nat.log2_self_le nonzero
  have high : mask < 2 ^ (mask.log2 + 1) := Nat.lt_log2_self
  refine ⟨mask.log2, ?_⟩
  by_contra other
  -- otherwise the number below the mask has the mask's highest bit too
  have top : mask.testBit mask.log2 = true :=
    Nat.testBit_of_two_pow_le_and_two_pow_add_one_gt low high
  have below : (mask - 1).testBit mask.log2 = true :=
    Nat.testBit_of_two_pow_le_and_two_pow_add_one_gt (by omega) (by omega)
  have both := congrArg (·.testBit mask.log2) shared
  simp [top, below] at both

/-- An identifier that is a truth value holds one. -/
theorem State.get_lt_two (σ : State Cells) {id : Identifier} (typed : id.Typed)
    (truth : id.type = .bool) : σ.get id < 2 := by
  have one : id.bits = 1 := congrArg DataType.bits truth
  unfold State.get
  cases storage : id.storage with
  | register family lowest width =>
      have bound : σ.get id < 2 ^ id.bits := σ.get_lt ⟨family, lowest, width, storage⟩
      rw [σ.get_of_isRegister ⟨family, lowest, width, storage⟩, one] at bound
      exact bound
  | flags register mask =>
      have given := typed register mask storage
      rw [truth, Identifier.flags] at given
      split at given
      · rename_i single
        obtain ⟨bit, rfl⟩ := Identifier.exists_of_isSingleBit single
        show Bits.gather _ _ < 2
        rw [Bits.gather_two_pow]
        exact Bool.toNat_lt _
      · cases given
  | temporary n =>
      show _ % 2 ^ id.bits < 2
      rw [one]
      exact Nat.mod_lt _ (by decide)

theorem BinaryOp.value_lt_two (I : Interpretation) (op : BinaryOp)
    (leftBits rightBits left right : Nat) :
    op.value I .bool leftBits rightBits left right < 2 := by
  cases op <;> first
    | exact Nat.mod_lt _ (by decide)
    | exact Bits.ofInt_lt 1 _
    | exact Bool.toNat_lt _

theorem UnaryOp.value_lt_two (I : Interpretation) (op : UnaryOp) (operand : Nat) :
    op.value I .bool operand < 2 := by
  cases op with
  | not => exact Bool.toNat_lt _
  | complement =>
      show 2 ^ 1 - 1 - _ < 2
      omega
  | negate => exact Bits.ofInt_lt 1 _

/-- An expression that is a truth value evaluates to one. -/
theorem Expr.eval_lt_two {I : Interpretation} (σ : State Cells) {e : Expr}
    (typed : ∀ id, id ∈ e.identifiers → id.Typed) (truth : e.type = .bool) : e.eval I σ < 2 := by
  cases e with
  | identifier id => exact σ.get_lt_two (typed id (List.mem_singleton_self id)) truth
  | constant c =>
      rw [eval, show c.type = .bool from truth]
      exact Nat.mod_lt _ (by decide)
  | address a => cases truth
  | binary op t l r =>
      rw [eval, show t = .bool from truth]
      exact op.value_lt_two I _ _ _ _
  | unary op t e =>
      rw [eval, show t = .bool from truth]
      exact op.value_lt_two I _
  | memory t ea | segmented t s ea | concat t high low | slice t e offset | apply p t arguments =>
      rw [eval, show t = .bool from truth]
      exact Nat.mod_lt _ (by decide)
  | cast t e =>
      rw [eval, show t = .bool from truth]
      unfold DataType.castValue
      split
      · exact Nat.mod_lt _ (by decide)
      · split
        · exact Bits.ofInt_lt 1 _
        · exact Nat.mod_lt _ (by decide)
  | conditionCodes e => cases truth
  | test c e => exact Bool.toNat_lt _

/-- Every type but that of truth values fills its bytes. -/
theorem DataType.two_pow_bits_eq {t : DataType} (number : t ≠ .bool) :
    2 ^ t.bits = 256 ^ t.bytes := by
  cases t with
  | bool => exact absurd rfl number
  | _ => decide

/-! ## Places for values -/

/-- Where a value is stored: an identifier's cell, or the bytes of a value in memory. -/
inductive Spot where
  | identifier (id : Identifier)
  | memory (segment : Option Nat) (width address : Nat) (type : DataType)

namespace Spot

def type : Spot → DataType
  | identifier id => id.type
  | memory _ _ _ type => type

def read (p : Spot) (σ : State Cells) : Nat :=
  match p with
  | identifier id => σ.get id
  | memory segment width address type => σ.load segment width address type.bytes % 2 ^ type.bits

def write (p : Spot) (value : Nat) (σ : State Cells) : State Cells :=
  match p with
  | identifier id => σ.set id value
  | memory segment width address type => σ.store segment width address type.bytes value

/-- Whether a spot is a temporary. -/
def IsTemporary (p : Spot) (n : Nat) : Prop :=
  match p with
  | identifier id => id.storage = .temporary n
  | memory .. => False

/-- Whether a byte of memory belongs to a spot. -/
def HasByte (p : Spot) (segment : Option Nat) (address : Nat) : Prop :=
  match p with
  | identifier _ => False
  | memory s width first type =>
      segment = s ∧ ∃ k, k < type.bytes ∧ address = (first + k) % 2 ^ width

end Spot

/-- What a value can be stored to: an identifier other than a group of flags, or memory at an address,
and in a segment, made of registers.  The bytes of the value are cells of their own, as they are at
every address of eight bits or more. -/
inductive Storable where
  | identifier (id : Identifier) (unflagged : ∀ register mask, id.storage ≠ .flags register mask)
  | memory (segment : Option Expr) (type : DataType) (ea : Expr)
      (inSegment : ∀ s, segment = some s → s.OfRegisters) (inAddress : ea.OfRegisters)
      (wide : type.bytes ≤ 2 ^ ea.type.bits)

namespace Storable

def expr : Storable → Expr
  | identifier id _ => .identifier id
  | memory segment type ea _ _ _ => .memoryIn segment type ea

/-- The spot that a destination stands for in a state. -/
def spot (I : Interpretation) (σ : State Cells) : Storable → Spot
  | identifier id _ => .identifier id
  | memory segment type ea _ _ _ =>
      .memory (segment.map (·.eval I σ)) ea.type.bits (ea.eval I σ) type

/-- Where the registers are the same, a destination stands for the same spot. -/
theorem spot_of_registers {I : Interpretation} {τ σ : State Cells} (same : τ.registers = σ.registers)
    (dst : Storable) : dst.spot I τ = dst.spot I σ := by
  cases dst with
  | identifier => rfl
  | memory segment type ea inSegment inAddress =>
      rw [spot, spot, Expr.eval_of_registers same ea inAddress]
      cases segment with
      | none => rfl
      | some s => rw [Option.map_some, Option.map_some, Expr.eval_of_registers same s (inSegment s rfl)]

theorem type_spot (I : Interpretation) (σ : State Cells) (dst : Storable) :
    (dst.spot I σ).type = dst.expr.type := by
  cases dst with
  | identifier => rfl
  | memory segment type ea => exact (Expr.type_memoryIn segment type ea).symm

end Storable

/-! ## Storing -/

/-- A cell keeps of a number what fits into it. -/
theorem Cells.write_mod (r : Cells) (id : Identifier) (value : Nat) :
    RegisterFile.write r id (value % 2 ^ id.bits) = RegisterFile.write r id value := by
  have same : BitVec.ofNat id.bits (value % 2 ^ id.bits) = BitVec.ofNat id.bits value :=
    BitVec.eq_of_toNat_eq (by simp)
  exact congrArg (fun cell => (⟨Function.update r.contents id cell⟩ : Cells)) same

namespace State

variable {σ : State Cells} {id : Identifier}

/-- An identifier other than a group of flags keeps of a number what fits into it. -/
theorem set_mod (unflagged : ∀ register mask, id.storage ≠ .flags register mask) (value : Nat) :
    σ.set id (value % 2 ^ id.bits) = σ.set id value := by
  unfold set
  cases storage : id.storage with
  | register family lowest width =>
      show { σ with registers := _ } = { σ with registers := _ }
      rw [Cells.write_mod]
  | flags register mask => exact absurd storage (unflagged register mask)
  | temporary n =>
      show σ.setTemporary n _ = σ.setTemporary n _
      rw [Nat.mod_mod]

theorem get_set (unflagged : ∀ register mask, id.storage ≠ .flags register mask) (value : Nat) :
    (σ.set id value).get id = value % 2 ^ id.bits := by
  cases storage : id.storage with
  | register family lowest width =>
      rw [σ.set_of_isRegister value ⟨family, lowest, width, storage⟩]
      exact σ.get_setRegister value ⟨family, lowest, width, storage⟩
  | flags register mask => exact absurd storage (unflagged register mask)
  | temporary n =>
      unfold set get
      rw [storage]
      show (if n = n then _ else _) % 2 ^ id.bits = _
      rw [if_pos rfl, Nat.mod_mod]

end State

namespace Storable

variable {I : Interpretation} (dst : Storable) (σ : State Cells)

/-- What is written is read back, cut to the bits of the destination. -/
theorem read_write (value : Nat) (τ : State Cells) :
    (dst.spot I σ).read ((dst.spot I σ).write value τ) = value % 2 ^ dst.expr.type.bits := by
  cases dst with
  | identifier id unflagged => exact State.get_set unflagged value
  | memory segment type ea inSegment inAddress wide =>
      show (State.store τ _ _ _ _ value).load _ _ _ _ % 2 ^ type.bits = _
      rw [Storable.expr, Expr.type_memoryIn, State.load_store _ _ _ _ wide,
        Nat.mod_mod_of_dvd _ type.two_pow_bits_dvd]

/-- Four bytes at addresses of one bit share two cells, and the lowest of them is lost. -/
example (τ : State Cells) : (τ.store none 1 0 4 1).load none 1 0 4 = 0 := rfl

/-- A destination keeps of a number what fits into it. -/
theorem write_mod {value : Nat} (truth : dst.expr.type = .bool → value < 2) (τ : State Cells) :
    (dst.spot I σ).write (value % 2 ^ dst.expr.type.bits) τ = (dst.spot I σ).write value τ := by
  cases dst with
  | identifier id unflagged => exact State.set_mod unflagged value
  | memory segment type ea inSegment inAddress wide =>
      rw [Storable.expr, Expr.type_memoryIn] at truth ⊢
      by_cases number : type = .bool
      · have fits : value < 2 ^ type.bits := by
          rw [number]
          exact truth number
        rw [Nat.mod_eq_of_lt fits]
      · show { τ with memory := _ } = { τ with memory := _ }
        rw [DataType.two_pow_bits_eq number, storeBytes_mod]

/-- A transfer to a destination writes its spot. -/
theorem exec_assign (src : Expr) :
    σ.exec I (.assign dst.expr src) =
      (((dst.spot I σ).write (src.eval I σ) σ).record (src.applications I σ), none) := by
  cases dst with
  | identifier id unflagged =>
      have flags : (Expr.identifier id).flags? = none := by
        obtain ⟨name, type, storage⟩ := id
        cases storage with
        | flags register mask => exact absurd rfl (unflagged register mask)
        | register | temporary => rfl
      have stored : σ.assign I (.identifier id) src = σ.set id (src.eval I σ) := by
        unfold State.assign
        rw [flags]
        rfl
      rw [Storable.expr, State.exec, stored]
      rfl
  | memory segment type ea inSegment inAddress wide =>
      rw [Storable.expr, State.exec, State.assign_memoryIn,
        Expr.applications_memoryIn σ inSegment type inAddress]
      rfl

end Storable

/-! ## What a write keeps -/

namespace Storable

variable {I : Interpretation} (dst : Storable) (σ τ : State Cells) (value : Nat)

theorem flags_write : ((dst.spot I σ).write value τ).flags = τ.flags := by
  cases dst with
  | identifier id unflagged =>
      show (τ.set id value).flags = τ.flags
      unfold State.set
      cases storage : id.storage with
      | flags register mask => exact absurd storage (unflagged register mask)
      | register | temporary => rfl
  | memory => rfl

theorem history_write : ((dst.spot I σ).write value τ).history = τ.history := by
  cases dst with
  | identifier id unflagged =>
      show (τ.set id value).history = τ.history
      unfold State.set
      cases id.storage <;> rfl
  | memory => rfl

theorem get_write {id : Identifier} (register : id.IsRegister)
    (other : dst.spot I σ ≠ .identifier id) : ((dst.spot I σ).write value τ).get id = τ.get id := by
  cases dst with
  | identifier own unflagged =>
      refine State.get_set_of_ne register τ value fun same => other ?_
      exact congrArg Spot.identifier same.symm
  | memory => exact State.get_of_registers register rfl

theorem temporaries_write {n : Nat} (other : ¬(dst.spot I σ).IsTemporary n) :
    ((dst.spot I σ).write value τ).temporaries n = τ.temporaries n := by
  cases dst with
  | identifier id unflagged =>
      show (τ.set id value).temporaries n = τ.temporaries n
      unfold State.set
      cases storage : id.storage with
      | register | flags => rfl
      | temporary own =>
          refine if_neg fun same => other ?_
          rw [same]
          exact storage
  | memory => rfl

theorem memory_write {segment : Option Nat} {address : Nat}
    (other : ¬(dst.spot I σ).HasByte segment address) :
    ((dst.spot I σ).write value τ).memory segment address = τ.memory segment address := by
  cases dst with
  | identifier id unflagged =>
      show (τ.set id value).memory segment address = τ.memory segment address
      unfold State.set
      cases id.storage <;> rfl
  | memory inside type ea inSegment inAddress wide =>
      by_cases same : segment = inside.map (·.eval I σ)
      · refine (congrFun (if_pos same) address).trans ?_
        rw [same]
        refine storeBytes_of_apart _ _ _ _ _ _ fun k less own => other ⟨same, k, less, own⟩
      · exact congrFun (if_neg same) address

end Storable

/-! ## States with the same contents -/

/-- Two states differ in their flags and history at most. -/
structure State.SameContents (τ σ : State Cells) : Prop where
  registers : τ.registers = σ.registers
  temporaries : τ.temporaries = σ.temporaries
  memory : τ.memory = σ.memory

theorem State.SameContents.get {τ σ : State Cells} (same : τ.SameContents σ) {id : Identifier}
    (unflagged : ∀ register mask, id.storage ≠ .flags register mask) : τ.get id = σ.get id := by
  unfold State.get
  cases storage : id.storage with
  | register => exact congrArg (RegisterFile.read · id) same.registers
  | flags register mask => exact absurd storage (unflagged register mask)
  | temporary n => exact congrArg (· n % 2 ^ id.bits) same.temporaries

theorem Storable.read_of_same {I : Interpretation} (dst : Storable) (σ : State Cells)
    {τ υ : State Cells} (same : τ.SameContents υ) :
    (dst.spot I σ).read τ = (dst.spot I σ).read υ := by
  cases dst with
  | identifier id unflagged => exact same.get unflagged
  | memory segment type ea inSegment inAddress wide =>
      exact congrArg (· % 2 ^ type.bits) (State.load_congr same.memory _ _ _ _)

end RegisterTransfer
