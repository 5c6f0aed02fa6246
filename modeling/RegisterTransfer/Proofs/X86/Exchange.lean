/-
# RegisterTransfer.Proofs.X86.Exchange -- what an exchange leaves in two places

An exchange keeps the first operand in a temporary, copies the second operand to the first and the
temporary to the second.  The second operand is read and written by the same expression, so it is written
to the place that it stands for once the first has been written (`lowerWith_exchange`).

That is the place it was read from unless the first operand is a register and the second is memory
addressed through a part of it.  Then the register takes the value, and what it held goes to another
address (`xchg_eax_misses`).
-/
import RegisterTransfer.Proofs.Draft.Emission
import RegisterTransfer.Proofs.X86.Place

namespace RegisterTransfer.X86

set_option autoImplicit false

def Operand.isMemory : Operand → Bool
  | memory _ => true
  | register _ | immediate .. | address _ => false

/-! ## Two places -/

/-- Two places hold what was written to them, one after the other, if they are apart or it was the same
number and they always hold the same. -/
theorem Place.read_of_written {p q : Place} {v w : Nat} (fitsP : p.Fits) (fitsQ : q.Fits)
    (insideP : v < 2 ^ p.type.bits) (insideQ : w < 2 ^ q.type.bits)
    (related : p.Apart q ∨ (v = w ∧ ∀ υ : State Families, p.read υ = q.read υ))
    (σ : State Families) :
    p.read (q.write w (p.write v σ)) = v ∧ q.read (q.write w (p.write v σ)) = w := by
  have inQ : q.read (q.write w (p.write v σ)) = w :=
    (q.read_write fitsQ _ _).trans (Nat.mod_eq_of_lt insideQ)
  refine ⟨?_, inQ⟩
  rcases related with apart | ⟨rfl, same⟩
  · rw [Place.read_write_of_apart apart, p.read_write fitsP, Nat.mod_eq_of_lt insideP]
  · rw [same, inQ]

section Places

variable {I : Interpretation} {m : Mode} {i : Instruction} {a b : Operand} {p q q' : Place}
variable {σ τ : State Families}

/-- Of two operands that are equally wide and not both in memory, the places are apart, or they hold the
same whatever the state. -/
theorem related_places (once : ¬(a.isMemory = true ∧ b.isMemory = true))
    (width : a.type.bits = b.type.bits) (first : i.place? m I σ a = some p)
    (second : i.place? m I σ b = some q) (later : i.place? m I τ b = some q') :
    p.Apart q' ∨ (q.read σ = p.read σ ∧ ∀ υ : State Families, p.read υ = q'.read υ) := by
  cases a with
  | register r =>
      cases first
      cases b with
      | register s =>
          cases second
          cases later
          by_cases apart : Families.Apart r.identifier s.identifier
          · exact .inl apart
          · have same := get_of_overlap (by rwa [← r.bits_type, ← s.bits_type]) apart
            exact .inr ⟨(same σ).symm, same⟩
      | memory => cases later; exact .inl trivial
      | immediate | address => cases second
  | memory =>
      cases first
      cases b with
      | register s => cases later; exact .inl trivial
      | memory => exact absurd ⟨rfl, rfl⟩ once
      | immediate | address => cases second
  | immediate | address => cases first

/-- Whether writing the first of two operands leaves the second in its place: a register that is written
is no part of the address. -/
def Operand.LeavesInPlace (m : Mode) (a b : Operand) : Prop :=
  ∀ r ref, a = register r → b = memory ref → ∀ s, s ∈ (memory ref).registers m →
    Families.Apart s.identifier r.identifier

theorem Operand.LeavesInPlace.place? (leaves : a.LeavesInPlace m b)
    (first : i.place? m I σ a = some p) (value : Nat) :
    i.place? m I (p.write value σ) b = i.place? m I σ b := by
  cases b with
  | register | immediate | address => rfl
  | memory ref =>
      refine i.place?_congr fun s named => ?_
      cases a with
      | register r =>
          cases first
          exact σ.get_setRegister_of_apart value s.isRegister_identifier (leaves r ref rfl rfl s named)
      | memory =>
          cases first
          exact State.get_of_registers s.isRegister_identifier rfl
      | immediate | address => cases first

end Places

/-! ## The statements of an exchange -/

/-- The statements that exchange two operands which differ. -/
def exchanged (type : DataType) (a b : Expr) : List Statement :=
  let kept := Expr.identifier (.temporary 0 type)
  [.assign kept a, .assign a b, .assign b kept]

section Run

variable {ρ : Type} [RegisterFile ρ] [LawfulRegisterFile ρ] {I : Interpretation} {m : Mode}
variable {i : Instruction} {a b : Operand} {p q q' : Place}

theorem Lower.emits_exchange (first : i.operands[0]? = some a) (second : i.operands[1]? = some b)
    (different : a ≠ b) :
    Lowering.Emits 0 (exchange m i) ()
      (exchanged a.type (i.read m a a.type) (i.read m b a.type)) 1 := by
  refine Lowering.emits_operand (Instruction.operand_of_getElem? first) ?_
  refine Lowering.emits_operand (Instruction.operand_of_getElem? second) ?_
  rw [if_neg different]
  refine Lowering.emits_bind (Lowering.emits_temporary _) ?_
  refine Lowering.emits_bind (Lowering.emits_assign _ _) ?_
  exact Lowering.emits_bind (Lowering.emits_assign _ _) (Lowering.emits_assign _ _)

theorem Lower.emits_exchange_self (first : i.operands[0]? = some a)
    (second : i.operands[1]? = some a) : Lowering.Emits 0 (exchange m i) () [.nop] 0 := by
  refine Lowering.emits_operand (Instruction.operand_of_getElem? first) ?_
  refine Lowering.emits_operand (Instruction.operand_of_getElem? second) ?_
  rw [if_pos rfl]
  exact Lowering.emits_write (fun _ => rfl) fun _ => ⟨rfl, rfl⟩

/-- The second operand is written where it is once the first has been written. -/
theorem run_exchanged {σ : State ρ} (first : i.place? m I σ a = some p)
    (second : i.place? m I σ b = some q)
    (later : i.place? m I (p.write (q.read σ) σ) b = some q') :
    σ.run I (exchanged a.type (i.read m a a.type) (i.read m b a.type)) =
      ((q'.write (p.read σ) (p.write (q.read σ) σ)).setTemporary 0 (p.read σ), none) := by
  have inside : p.read σ % 2 ^ a.type.bits = p.read σ := by
    rw [← i.type_place first]
    exact Nat.mod_eq_of_lt (p.read_lt σ)
  -- a temporary is part of no address
  have unmoved : ∀ (υ : State ρ) (o : Operand),
      i.place? m I (υ.setTemporary 0 (p.read σ)) o = i.place? m I υ o :=
    fun υ o => i.place?_congr fun r _ => State.get_of_registers r.isRegister_identifier rfl
  have keeps : σ.exec I (.assign (.identifier (.temporary 0 a.type)) (i.read m a a.type)) =
      (σ.setTemporary 0 (p.read σ), none) := by
    rw [σ.exec_assign_of_plain rfl (i.plain_read m a a.type)]
    show (σ.setTemporary 0 (Expr.eval I σ _ % 2 ^ a.type.bits), none) = _
    rw [i.eval_read_place first, inside]
  have copies : (σ.setTemporary 0 (p.read σ)).exec I
      (.assign (i.read m a a.type) (i.read m b a.type)) =
        ((p.write (q.read σ) σ).setTemporary 0 (p.read σ), none) := by
    rw [i.exec_assign_place ((unmoved σ a).trans first) _ (i.plain_read m b a.type),
      i.eval_read_place ((unmoved σ b).trans second), Place.write_setTemporary,
      q.read_of_forget (show (σ.setTemporary 0 (p.read σ)).forget = σ.forget from rfl)]
  have returns : ((p.write (q.read σ) σ).setTemporary 0 (p.read σ)).exec I
      (.assign (i.read m b a.type) (.identifier (.temporary 0 a.type))) =
        ((q'.write (p.read σ) (p.write (q.read σ) σ)).setTemporary 0 (p.read σ), none) := by
    rw [i.exec_assign_place ((unmoved _ b).trans later) _ rfl, Place.write_setTemporary]
    show ((q'.write (p.read σ % 2 ^ a.type.bits) _).setTemporary 0 (p.read σ), none) = _
    rw [inside]
  rw [exchanged, State.run_cons_of_falls _ keeps, State.run_cons_of_falls _ copies,
    State.run_cons_of_falls _ returns]
  rfl

/-- The cluster of an exchange, and the state it leaves. -/
theorem lowered_exchange (next : Option Instruction) {t : IntrinsicTable}
    (opcode : i.opcode = .xchg) (first : i.operands[0]? = some a) (second : i.operands[1]? = some b)
    (once : ¬(a.isMemory = true ∧ b.isMemory = true)) (regular : t.Regular) :
    ∃ cluster t', (backend m).lowerWith i next t = (.ok cluster, t') ∧
      ∀ (I : Interpretation) (σ : State ρ) (p q q' : Place), i.place? m I σ a = some p →
        i.place? m I σ b = some q → i.place? m I (p.write (q.read σ) σ) b = some q' →
        ∃ τ, σ.run I cluster.statements = (τ, none) ∧
          τ.forget = (q'.write (p.read σ) (p.write (q.read σ) σ)).forget := by
  by_cases same : a = b
  · subst same
    have emits : Lowering.Emits 0 ((backend m).lower i next) false [.nop] 0 := by
      simp only [backend, opcode, Lower.instruction]
      exact Lowering.emits_return false (Lower.emits_exchange_self first second)
    obtain ⟨cluster, t', ran, settled⟩ := Backend.runs_of_emits emits regular
    refine ⟨cluster, t', ran, fun I σ p q q' atFirst atSecond later => ⟨σ, ?_, ?_⟩⟩
    · exact (settled I σ).trans rfl
    · cases a with
      | register r =>
          cases atFirst
          cases atSecond
          cases later
          have kept : (Place.register r).write ((Place.register r).read σ) σ = σ :=
            σ.setRegister_get r.isRegister_identifier
          rw [kept, kept]
      | memory => exact absurd ⟨rfl, rfl⟩ once
      | immediate | address => cases atFirst
  · have emits : Lowering.Emits 0 ((backend m).lower i next) false
        (exchanged a.type (i.read m a a.type) (i.read m b a.type)) 1 := by
      simp only [backend, opcode, Lower.instruction]
      exact Lowering.emits_return false (Lower.emits_exchange first second same)
    obtain ⟨cluster, t', ran, settled⟩ := Backend.runs_of_emits emits regular
    exact ⟨cluster, t', ran, fun I σ p q q' atFirst atSecond later =>
      ⟨_, (settled I σ).trans (run_exchanged atFirst atSecond later), rfl⟩⟩

end Run

/-! ## Exchanges -/

/-- An exchange writes the second operand's value to the place of the first, and the first operand's value
to the place that the second then stands for, and changes nothing else but a temporary.  Both places hold
these values afterwards.  The second place is the one from before the instruction if writing the first
operand leaves the second in place. -/
theorem lowerWith_exchange (m : Mode) {i : Instruction} {a b : Operand} (next : Option Instruction)
    {t : IntrinsicTable} (opcode : i.opcode = .xchg) (first : i.operands[0]? = some a)
    (second : i.operands[1]? = some b) (storedA : a.isStored = true) (storedB : b.isStored = true)
    (once : ¬(a.isMemory = true ∧ b.isMemory = true)) (width : a.type.bits = b.type.bits)
    (wide : 8 ≤ i.addressType.bits) (regular : t.Regular) :
    ∃ cluster t', (backend m).lowerWith i next t = (.ok cluster, t') ∧
      ∀ (I : Interpretation) (σ : State Families),
        ∃ p q q' τ, i.place? m I σ a = some p ∧ i.place? m I σ b = some q ∧
          i.place? m I (p.write (q.read σ) σ) b = some q' ∧
          σ.run I cluster.statements = (τ, none) ∧
          τ.forget = (q'.write (p.read σ) (p.write (q.read σ) σ)).forget ∧
          p.read τ = q.read σ ∧ q'.read τ = p.read σ ∧ (a.LeavesInPlace m b → q' = q) := by
  obtain ⟨cluster, t', ran, runs⟩ :=
    lowered_exchange (ρ := Families) (m := m) next opcode first second once regular
  refine ⟨cluster, t', ran, fun I σ => ?_⟩
  obtain ⟨p, atFirst⟩ := i.exists_place m I σ storedA
  obtain ⟨q, atSecond⟩ := i.exists_place m I σ storedB
  obtain ⟨q', later⟩ := i.exists_place m I (p.write (q.read σ) σ) storedB
  obtain ⟨τ, run, same⟩ := runs I σ p q q' atFirst atSecond later
  have widths : p.type.bits = q.type.bits ∧ q'.type.bits = p.type.bits := by
    rw [i.type_place atFirst, i.type_place atSecond, i.type_place later]
    exact ⟨width, width.symm⟩
  have insideP : q.read σ < 2 ^ p.type.bits := widths.1 ▸ q.read_lt σ
  have insideQ : p.read σ < 2 ^ q'.type.bits := widths.2 ▸ p.read_lt σ
  obtain ⟨inP, inQ⟩ := Place.read_of_written (i.fits_place wide atFirst) (i.fits_place wide later)
    insideP insideQ (related_places once width atFirst atSecond later) σ
  refine ⟨p, q, q', τ, atFirst, atSecond, later, run, same, ?_, ?_, fun leaves => ?_⟩
  · exact (p.read_of_forget same).trans inP
  · exact (q'.read_of_forget same).trans inQ
  · exact Option.some.inj (later.symm.trans ((leaves.place? atFirst _).trans atSecond))

/-- The instruction that exchanges two operands, at no address in particular. -/
def exchangeOf (a b : Operand) : Instruction := .of 0x1000 2 .xchg [a, b] .word32

/-- A register and a word that another register points to swap their contents. -/
theorem lowerWith_exchange_ebx :
    ∃ cluster t', (backend .protectedMode).lowerWith (exchangeOf (.register .eax)
        (.memory { type := .word32, base := some .ebx })) none .empty = (.ok cluster, t') ∧
      ∀ (I : Interpretation) (σ : State Families), ∃ τ, σ.run I cluster.statements = (τ, none) ∧
        τ.get Register.eax.identifier =
          σ.load none 32 (σ.get Register.ebx.identifier) 4 % 2 ^ 32 ∧
        τ.load none 32 (σ.get Register.ebx.identifier) 4 % 2 ^ 32 =
          σ.get Register.eax.identifier := by
  obtain ⟨cluster, t', ran, runs⟩ := lowerWith_exchange .protectedMode
    (i := exchangeOf (.register .eax) (.memory { type := .word32, base := some .ebx })) none rfl rfl
    rfl rfl rfl (by decide) rfl (by decide) IntrinsicTable.regular_empty
  refine ⟨cluster, t', ran, fun I σ => ?_⟩
  obtain ⟨p, q, q', τ, first, second, _, run, _, inFirst, inSecond, unmoved⟩ := runs I σ
  have leaves : (Operand.register .eax).LeavesInPlace .protectedMode
      (.memory { type := .word32, base := some .ebx }) := by
    rintro r ref named named'
    cases named
    cases named'
    decide
  have atFirst : p = .register .eax := (Option.some.inj first).symm
  have atSecond : q = .memory none 32 (σ.get Register.ebx.identifier) .word32 :=
    (Option.some.inj second).symm
  rw [unmoved leaves] at inSecond
  rw [atFirst, atSecond] at inFirst inSecond
  exact ⟨τ, run, inFirst, inSecond⟩

/-- A state where eax is zero, and so is memory except for an eight at address zero. -/
def eightAtZero : State Families :=
  ⟨⟨fun _ _ => false⟩, fun _ _ => false, fun _ => 0, fun _ a => if a = 0 then 8 else 0, []⟩

/-- The eight that eax, which is zero, points to goes to eax, and then the zero goes to address eight: the
word at address zero is still the eight. -/
theorem xchg_eax_misses :
    ∃ cluster t', (backend .protectedMode).lowerWith (exchangeOf (.register .eax)
        (.memory { type := .word32, base := some .eax })) none .empty = (.ok cluster, t') ∧
      eightAtZero.get Register.eax.identifier = 0 ∧
      ∀ I : Interpretation, ∃ τ, eightAtZero.run I cluster.statements = (τ, none) ∧
        τ.get Register.eax.identifier = 8 ∧ τ.load none 32 8 4 = 0 ∧ τ.load none 32 0 4 = 8 ∧
        τ.load none 32 0 4 ≠ eightAtZero.get Register.eax.identifier := by
  let b : Operand := .memory { type := .word32, base := some .eax }
  obtain ⟨cluster, t', ran, runs⟩ := lowered_exchange (ρ := Families) (m := .protectedMode)
    (i := exchangeOf (.register .eax) b) none rfl rfl rfl (by decide) IntrinsicTable.regular_empty
  refine ⟨cluster, t', ran, by decide, fun I => ?_⟩
  have placed : ∀ σ : State Families, (exchangeOf (.register .eax) b).place? .protectedMode I σ b =
      some (.memory none 32 (σ.get Register.eax.identifier) .word32) := fun _ => rfl
  let loaded := eightAtZero.setRegister Register.eax.identifier 8
  have zero : eightAtZero.get Register.eax.identifier = 0 := by decide
  have eight : (Place.memory none 32 0 .word32).read eightAtZero = 8 := by decide
  have address : loaded.get Register.eax.identifier = 8 := by decide
  have second := placed eightAtZero
  have later := placed loaded
  rw [zero] at second
  rw [address] at later
  obtain ⟨τ, run, same⟩ := runs I eightAtZero (.register .eax) _ _ rfl second (by rw [eight]; exact later)
  have ends : τ.forget = (loaded.store none 32 8 4 0).forget := by
    rw [same, eight]
    show State.forget (State.store loaded none 32 8 4 (eightAtZero.get Register.eax.identifier)) = _
    rw [zero]
  have memory := congrArg State.memory ends
  have inRegister : τ.get Register.eax.identifier = 8 :=
    (Place.read_of_forget (.register .eax) ends).trans (by decide)
  have atEight : τ.load none 32 8 4 = 0 := (State.load_congr memory none 32 8 4).trans (by decide)
  have atZero : τ.load none 32 0 4 = 8 := (State.load_congr memory none 32 0 4).trans (by decide)
  exact ⟨τ, run, inRegister, atEight, atZero, by rw [atZero, zero]; decide⟩

end RegisterTransfer.X86
