/-
# RegisterTransfer.Proofs.Pic18.InterruptEnable -- a return from an interrupt sets one bit

A return from an interrupt restores the shadow registers if it is a fast one, sets the
interrupt-enable bit, and returns (`Lifts.run_returnFromInterrupt`).  The bit is the first field of its
name that a device lists (`interruptEnable?_eq_some_iff`).  The description has to fit a field into its
register, but the bit is set by an operation on bytes, with a mask that is a one shifted inside a byte.

* `setsEnable_iff`: the bit is set and all others kept, in every state, exactly if the register has
  at most 8 bits, or if a fast return has just filled it from a shadow, which is a byte, and the bit is
  one of the low 8.
* `interrupts_enabled`: what the statements of the return do on every device that names the bit.
* `wide_enable_misses`: a device with a register of 16 bits, which loses the high ones.
-/
import RegisterTransfer.Proofs.Pic18.Shadow

namespace RegisterTransfer.Pic18

set_option autoImplicit false

open Lowering

/-! ## The field of a name -/

namespace Catalog

variable {c : Catalog} {name : String} {r : Register} {f : BitField}

/-- The first field of a name: no register before its own has one, and none comes before it there. -/
def FirstField (c : Catalog) (name : String) (r : Register) (f : BitField) : Prop :=
  f.name = name ∧
    (∃ before after, c.registers = before ++ r :: after ∧
      ∀ q ∈ before, ∀ g ∈ q.fields, g.name ≠ name) ∧
    ∃ front back, r.fields = front ++ f :: back ∧ ∀ g ∈ front, g.name ≠ name

/-- The field that enables interrupts: `GIE`, or `GIEH` on a device that has none. -/
def InterruptEnable (c : Catalog) (r : Register) (f : BitField) : Prop :=
  c.FirstField "GIE" r f ∨
    (∀ q ∈ c.registers, ∀ g ∈ q.fields, g.name ≠ "GIE") ∧ c.FirstField "GIEH" r f

theorem find?_name_eq_none_iff {fields : List BitField} :
    fields.find? (·.name == name) = none ↔ ∀ g ∈ fields, g.name ≠ name := by
  simp [List.find?_eq_none]

theorem fieldNamed?_eq_none_iff :
    c.fieldNamed? name = none ↔ ∀ q ∈ c.registers, ∀ g ∈ q.fields, g.name ≠ name := by
  simp [fieldNamed?, List.findSome?_eq_none_iff]

theorem fieldNamed?_eq_some_iff :
    c.fieldNamed? name = some (r, f) ↔ c.FirstField name r f := by
  rw [fieldNamed?, List.findSome?_eq_some_iff]
  constructor
  · rintro ⟨before, q, after, split, found, none_⟩
    obtain ⟨g, first, same⟩ := Option.map_eq_some_iff.mp found
    obtain ⟨rfl, rfl⟩ : q = r ∧ g = f := by simpa using same
    obtain ⟨named, front, back, split', others⟩ := List.find?_eq_some_iff_append.mp first
    refine ⟨by simpa using named, ⟨before, after, split, ?_⟩, front, back, split', ?_⟩
    · intro p listed
      exact find?_name_eq_none_iff.mp (Option.map_eq_none_iff.mp (none_ p listed))
    · intro g listed
      simpa using others g listed
  · rintro ⟨named, ⟨before, after, split, none_⟩, front, back, split', others⟩
    refine ⟨before, r, after, split, ?_, ?_⟩
    · refine Option.map_eq_some_iff.mpr ⟨f, List.find?_eq_some_iff_append.mpr ?_, rfl⟩
      exact ⟨by simpa using named, front, back, split', by simpa using others⟩
    · intro p listed
      exact Option.map_eq_none_iff.mpr (find?_name_eq_none_iff.mpr (none_ p listed))

theorem interruptEnable?_eq_some_iff :
    Lower.interruptEnable? c = some (r, f) ↔ c.InterruptEnable r f := by
  rw [Lower.interruptEnable?, InterruptEnable, ← fieldNamed?_eq_none_iff,
    ← fieldNamed?_eq_some_iff, ← fieldNamed?_eq_some_iff]
  cases c.fieldNamed? "GIE" with
  | none => simp
  | some enable => simp

/-- A device that has a field of either name enables interrupts by one. -/
theorem exists_interruptEnable
    (defined : ∃ q ∈ c.registers, ∃ g ∈ q.fields, g.name = "GIE" ∨ g.name = "GIEH") :
    ∃ r f, Lower.interruptEnable? c = some (r, f) := by
  obtain ⟨q, listed, g, field, named⟩ := defined
  have known : ∀ name, c.fieldNamed? name = none → g.name ≠ name := fun name none_ =>
    fieldNamed?_eq_none_iff.mp none_ q listed g field
  cases first : c.fieldNamed? "GIE" with
  | some enable => exact ⟨enable.1, enable.2, by rw [Lower.interruptEnable?, first]; rfl⟩
  | none =>
      have high : g.name = "GIEH" := named.resolve_left (known _ first)
      cases second : c.fieldNamed? "GIEH" with
      | some enable =>
          exact ⟨enable.1, enable.2, by rw [Lower.interruptEnable?, first]; exact second⟩
      | none => exact absurd high (known _ second)

end Catalog

/-! ## The statements of the return -/

variable {I : Interpretation} {c : Catalog} {i : Instruction} {cluster : Cluster}

/-- The state that a return has restored before it sets the interrupt-enable bit. -/
def restored (I : Interpretation) (c : Catalog) (i : Instruction) (σ : State Cells) :
    State Cells :=
  (σ.run I (Lower.restoring c i)).1

theorem run_restoring (σ : State Cells) :
    σ.run I (Lower.restoring c i) = (restored I c i σ, none) := by
  refine Prod.ext rfl (State.run_of_isStraight σ fun s listed => ?_)
  unfold Lower.restoring at listed
  split at listed
  · obtain ⟨pair, -, rfl⟩ := List.mem_map.mp listed
    rfl
  · cases listed

/-- A return from an interrupt restores, sets the bit and returns.  The bit's number counts modulo 8,
and the result is a byte. -/
theorem Lifts.run_returnFromInterrupt (lifted : Lifts c i cluster) (interrupt : i.opcode = .retfie)
    {r : Register} {f : BitField} (enable : Lower.interruptEnable? c = some (r, f))
    (σ : State Cells) :
    σ.run I cluster.statements =
      ((restored I c i σ).setRegister r.identifier
        (((restored I c i σ).get r.identifier ||| 2 ^ (f.bit % 8)) % 2 ^ 8), some (.ret 0 0)) := by
  obtain ⟨next, t, t', l, lowered, rfl⟩ := lifted
  have emits : Emits 0 ((backend c).lower i next) false _ 0 :=
    emits_return false (Lower.emits_returnFromInterrupt interrupt)
  have register : r.identifier.IsRegister := ⟨_, _, _, rfl⟩
  have value : (Lower.withBit r f).eval I (restored I c i σ) =
      ((restored I c i σ).get r.identifier ||| 2 ^ (f.bit % 8)) % 2 ^ 8 := by
    rw [← Catalog.toNat_bitMask_mod, ← Expr.eval_byte (I := I) (σ := restored I c i σ)]
    rfl
  rw [Backend.clusterOf, Backend.statements_of_emits emits lowered, State.run_settled,
    State.run_append_of_falls _ (run_restoring σ), Lower.enabling, enable]
  have step : (restored I c i σ).exec I (.assign (.identifier r.identifier) (Lower.withBit r f)) =
      ((restored I c i σ).setRegister r.identifier ((Lower.withBit r f).eval I (restored I c i σ)),
        none) := by
    rw [State.exec_assign_of_plain _ rfl rfl, State.assign_register _ register]
  rw [← value]
  exact State.run_cons_of_falls _ step

/-! ## When it is the bit that is set -/

/-- In every state a return sets the bit of a field, keeps all others and everything else that it
restored, and returns. -/
def SetsEnable (I : Interpretation) (c : Catalog) (i : Instruction) (cluster : Cluster)
    (r : Register) (f : BitField) : Prop :=
  ∀ σ : State Cells,
    let run := σ.run I cluster.statements
    run.1.get r.identifier = (restored I c i σ).get r.identifier ||| 2 ^ f.bit ∧
      run.1 = (restored I c i σ).setRegister r.identifier (run.1.get r.identifier) ∧
      run.2 = some (.ret 0 0)

/-- A shadow is a byte, so what a fast return restores is one. -/
theorem get_restored_lt {device : Option Device} (loaded : Catalog.load device = .ok c)
    (fast : i.isFast 0 = true) {id : Identifier} (live : id ∈ c.context) (σ : State Cells) :
    (restored I c i σ).get id < 2 ^ 8 := by
  have accepted := Catalog.accepted_of_load loaded
  have addressed := Catalog.addressed_of_load loaded
  have sound : ∀ back, back ∈ Lower.unshadowed c →
      back.1 ∈ shadow.toList ∧ back.2 ∈ c.context := by
    intro back listed
    obtain ⟨pair, among, rfl⟩ := List.mem_map.mp listed
    exact ⟨Catalog.saved_of_shadowed among, Catalog.live_of_shadowed among⟩
  obtain ⟨τ, ran, copied⟩ := σ.run_transfers (I := I) (Lower.unshadowed c)
    (fun back listed => ⟨(Catalog.shadow_facts (sound back listed).1).1,
      accepted.isRegister_context (sound back listed).2⟩)
    accepted.nodup_context
    fun back listed live => addressed.not_shadow live (sound back listed).1
  have is : restored I c i σ = τ := by
    rw [restored, Lower.restoring, if_pos fast, ran]
  have among : id ∈ (Lower.unshadowed c).map Prod.snd := live
  obtain ⟨back, listed, rfl⟩ := List.mem_map.mp among
  obtain ⟨saved, byte, -⟩ := Catalog.shadow_facts (sound back listed).1
  have small : σ.get back.1 < 2 ^ 8 := byte ▸ State.get_lt σ saved
  rw [is, copied back listed]
  exact Nat.lt_of_le_of_lt (Nat.mod_le _ _) small

/-- What a return does not restore stays. -/
theorem get_restored_of_not_live {id : Identifier} (register : id.IsRegister)
    (kept : ¬(i.isFast 0 = true ∧ id ∈ c.context)) (σ : State Cells) :
    (restored I c i σ).get id = σ.get id := by
  refine State.get_run_of_not_mem register σ fun s listed changed => kept ?_
  unfold Lower.restoring at listed
  split at listed
  · exact ⟨‹_›, mem_targets_transfers listed changed⟩
  · cases listed

/-- A field that a device accepts ends within its register. -/
theorem Catalog.bit_lt_width {device : Option Device} (loaded : load device = .ok c) {r : Register}
    {f : BitField} (listed : r ∈ c.registers) (field : f ∈ r.fields) : f.bit < r.width := by
  obtain ⟨d, -, checked⟩ := checked_of_load loaded
  rw [checked.registers] at listed
  have fits := ((registersProblem_eq_none_iff.mp checked.sound).1 _ listed).2.1 _ field
  omega

theorem Register.bits_le {r : Register} (narrow : r.width ≤ 8) : r.identifier.bits ≤ 8 := by
  show (DataType.word r.width).bits ≤ 8
  rw [DataType.word]
  by_cases single : r.width ≤ 1
  · rw [if_pos single]
    decide
  · rw [if_neg single, if_pos narrow]
    decide

theorem Register.bits_ge {r : Register} (wide : 8 < r.width) : 16 ≤ r.identifier.bits := by
  show 16 ≤ (DataType.word r.width).bits
  rw [DataType.word, if_neg (by omega), if_neg (by omega)]
  repeat' split
  all_goals decide

/-- The mask is that of the bit if the shift stays inside a byte, and of another bit if not. -/
theorem Catalog.toNat_bitMask_eq_iff {bit : Nat} : (bitMask bit).toNat = 2 ^ bit ↔ bit < 8 := by
  rw [toNat_bitMask_mod]
  constructor
  · intro same
    have counted : bit % 8 = bit := Nat.pow_right_injective (Nat.le_refl 2) same
    omega
  · intro low
    rw [Nat.mod_eq_of_lt low]

section

variable {device : Option Device} (loaded : Catalog.load device = .ok c)
  (lifted : Lifts c i cluster) (interrupt : i.opcode = .retfie) {r : Register} {f : BitField}
  (enable : Lower.interruptEnable? c = some (r, f))

include loaded lifted interrupt enable

/-- The bit is set if the register holds a byte and the bit is one of a byte's. -/
theorem setsEnable_of_byte (low : f.bit < 8)
    (byte : ∀ σ, (restored I c i σ).get r.identifier < 2 ^ 8) : SetsEnable I c i cluster r f := by
  intro σ
  have register : r.identifier.IsRegister := ⟨_, _, _, rfl⟩
  obtain ⟨listed, field⟩ := Catalog.mem_of_interruptEnable enable
  have mask : 2 ^ (f.bit % 8) = 2 ^ f.bit := by rw [Nat.mod_eq_of_lt low]
  have room : 2 ^ f.bit < 2 ^ r.identifier.bits := by
    rw [← mask, ← Catalog.toNat_bitMask_mod]
    exact Catalog.bitMask_lt (Catalog.bit_lt_width loaded listed field)
  have small : (restored I c i σ).get r.identifier ||| 2 ^ f.bit < 2 ^ 8 :=
    Nat.or_lt_two_pow (byte σ) (Nat.pow_lt_pow_right (by decide) low)
  have short : (restored I c i σ).get r.identifier ||| 2 ^ f.bit < 2 ^ r.identifier.bits :=
    Nat.or_lt_two_pow (State.get_lt _ register) room
  have held : ((restored I c i σ).setRegister r.identifier
      ((restored I c i σ).get r.identifier ||| 2 ^ f.bit)).get r.identifier =
        (restored I c i σ).get r.identifier ||| 2 ^ f.bit := by
    rw [State.get_setRegister _ _ register, Nat.mod_eq_of_lt short]
  show _ ∧ _ ∧ _
  rw [lifted.run_returnFromInterrupt interrupt enable, mask, Nat.mod_eq_of_lt small]
  exact ⟨held, by rw [held], rfl⟩

/-- The bit is set and all others are kept exactly if nothing above the low byte is in play. -/
theorem setsEnable_iff : SetsEnable I c i cluster r f ↔
    r.width ≤ 8 ∨ i.isFast 0 = true ∧ r.identifier ∈ c.context ∧ f.bit < 8 := by
  have register : r.identifier.IsRegister := ⟨_, _, _, rfl⟩
  obtain ⟨listed, field⟩ := Catalog.mem_of_interruptEnable enable
  have inside : f.bit < r.width := Catalog.bit_lt_width loaded listed field
  constructor
  · intro sets
    by_contra neither
    obtain ⟨wide, others⟩ := not_or.mp neither
    -- The result is a byte, whatever the register held.
    have byte : ∀ σ : State Cells,
        (restored I c i σ).get r.identifier ||| 2 ^ f.bit < 2 ^ 8 := by
      intro σ
      rw [← (sets σ).1, lifted.run_returnFromInterrupt interrupt enable,
        State.get_setRegister _ _ register]
      exact Nat.lt_of_le_of_lt (Nat.mod_le _ _) (Nat.mod_lt _ (by decide))
    have low : f.bit < 8 := by
      have bit := Nat.lt_of_le_of_lt Nat.right_le_or (byte (oddOneOut r.identifier 0 0 0))
      exact (Nat.pow_lt_pow_iff_right (by decide)).mp bit
    have kept : ¬(i.isFast 0 = true ∧ r.identifier ∈ c.context) := fun ⟨fast, live⟩ =>
      others ⟨fast, live, low⟩
    have held : (oddOneOut r.identifier 256 0 0).get r.identifier = 256 := by
      rw [State.get_of_isRegister _ register]
      refine (LawfulRegisterFile.read_write _ _ _).trans (Nat.mod_eq_of_lt ?_)
      have sixteen := Register.bits_ge (Nat.lt_of_not_le wide)
      exact (Nat.pow_lt_pow_right (by decide) (by omega) : 2 ^ 8 < 2 ^ r.identifier.bits)
    have high := Nat.lt_of_le_of_lt Nat.left_le_or (byte (oddOneOut r.identifier 256 0 0))
    rw [get_restored_of_not_live register kept, held] at high
    exact absurd high (by decide)
  · rintro (narrow | ⟨fast, live, low⟩)
    · refine setsEnable_of_byte loaded lifted interrupt enable (by omega) fun σ => ?_
      exact Nat.lt_of_lt_of_le (State.get_lt _ register)
        (Nat.pow_le_pow_right (by decide) (Register.bits_le narrow))
    · exact setsEnable_of_byte loaded lifted interrupt enable low
        fun σ => get_restored_lt loaded fast live σ

end

/-- On a loaded device that names an interrupt-enable bit, a return from an interrupt has a cluster.  It
restores the shadow registers if it is a fast one, replaces the register of the first such field, and
returns.  In a register of at most 8 bits the mask is shifted inside a byte, and the register gets
exactly that bit, whatever the state is.  A wider register does so only if a fast return has just
restored it and the bit is one of the low 8: else there is a state in which the return misses, and past
the low 8 the shift overflows. -/
theorem interrupts_enabled {device : Option Device} (loaded : Catalog.load device = .ok c)
    (defined : ∃ q ∈ c.registers, ∃ g ∈ q.fields, g.name = "GIE" ∨ g.name = "GIEH")
    (interrupt : i.opcode = .retfie) :
    ∃ r f, c.InterruptEnable r f ∧
      ((bitMask f.bit).toNat = 2 ^ f.bit ↔ f.bit < 8) ∧
      (r.width ≤ 8 → f.bit < 8) ∧
      (∀ next (t : IntrinsicTable), t.Regular →
        ∃ l t', (backend c).lowerWith i next t = (.ok l, t')) ∧
      ∀ cluster, Lifts c i cluster → ∀ I,
        (∀ σ : State Cells, σ.run I cluster.statements =
          ((restored I c i σ).setRegister r.identifier
            (((restored I c i σ).get r.identifier ||| 2 ^ (f.bit % 8)) % 2 ^ 8),
              some (.ret 0 0))) ∧
        (SetsEnable I c i cluster r f ↔
          r.width ≤ 8 ∨ i.isFast 0 = true ∧ r.identifier ∈ c.context ∧ f.bit < 8) := by
  obtain ⟨r, f, enable⟩ := Catalog.exists_interruptEnable defined
  obtain ⟨listed, field⟩ := Catalog.mem_of_interruptEnable enable
  have inside : f.bit < r.width := Catalog.bit_lt_width loaded listed field
  refine ⟨r, f, Catalog.interruptEnable?_eq_some_iff.mp enable, Catalog.toNat_bitMask_eq_iff, ?_,
    ?_, ?_⟩
  · intro narrow
    exact Nat.lt_of_lt_of_le inside narrow
  · intro next t regular
    have emits : Emits 0 ((backend c).lower i next) false _ 0 :=
      emits_return false (Lower.emits_returnFromInterrupt interrupt)
    obtain ⟨flow, t', lowered, -⟩ := Backend.lowerWith_of_emits emits regular
    exact ⟨_, t', lowered⟩
  · intro cluster lifted I
    exact ⟨lifted.run_returnFromInterrupt interrupt enable,
      setsEnable_iff loaded lifted interrupt enable⟩

/-- Return from an interrupt, and restore the registers if it was a fast one. -/
def retfie (fast : Bool) : Instruction := ⟨0, 2, .retfie, [.fast fast]⟩

/-- On a PIC18F4620 the bit is the top one of `INTCON`. -/
theorem interrupts_enabled_intcon :
    ∃ c, Catalog.load (some Devices.Pic18f4620.device) = .ok c ∧
      ∃ cluster, Lifts c (retfie true) cluster ∧ ∃ r f, r.name = "INTCON" ∧ f.bit = 7 ∧
        ∀ I, SetsEnable I c (retfie true) cluster r f := by
  obtain ⟨c, loaded, q, g, known, name, bit, narrow⟩ :
      ∃ c, Catalog.load (some Devices.Pic18f4620.device) = .ok c ∧
        ∃ q g, Lower.interruptEnable? c = some (q, g) ∧ q.name = "INTCON" ∧ g.bit = 7 ∧
          q.width ≤ 8 := ⟨_, rfl, _, _, rfl, rfl, rfl, by decide⟩
  obtain ⟨cluster, lifted⟩ := exists_lifts c (i := retfie true) rfl
  obtain ⟨listed, field⟩ := Catalog.mem_of_interruptEnable known
  have first := Catalog.interruptEnable?_eq_some_iff.mp known
  have named : g.name = "GIE" ∨ g.name = "GIEH" := first.imp (·.1) (·.2.1)
  obtain ⟨r, f, enable, -, -, -, statements⟩ :=
    interrupts_enabled (i := retfie true) loaded ⟨q, listed, g, field, named⟩ rfl
  rw [← Catalog.interruptEnable?_eq_some_iff, known] at enable
  cases enable
  exact ⟨c, loaded, cluster, lifted, q, g, name, bit, fun I =>
    (statements cluster lifted I).2.mpr (.inl narrow)⟩

/-- A PIC18F4620 whose register with the interrupt-enable bit has 16 bits. -/
def wideIntcon (bit : Nat) : Device :=
  { Devices.Pic18f4620.device with
    registers := Devices.Pic18f4620.device.registers.filter (·.name != "INTCON") ++
      [⟨"INTCON", 0xFF2, 16, [⟨"GIE", bit, 1⟩]⟩] }

/-- A wide register loses its high bits, and the mask of a bit among these does not fit into a byte. -/
theorem wide_enable_misses :
    (∃ c, Catalog.load (some (wideIntcon 7)) = .ok c ∧
      ∃ r f, c.InterruptEnable r f ∧ f.bit = 7 ∧
        ∃ cluster, Lifts c (retfie false) cluster ∧
          ∀ I, ∃ σ : State Cells, σ.get r.identifier = 0x100 ∧
            (σ.run I cluster.statements).1.get r.identifier = 0x80) ∧
      ∃ c, Catalog.load (some (wideIntcon 9)) = .ok c ∧
        ∃ r f, c.InterruptEnable r f ∧ (bitMask f.bit).toNat ≠ 2 ^ f.bit := by
  constructor
  · obtain ⟨c, loaded, q, g, known, bit, wide⟩ :
        ∃ c, Catalog.load (some (wideIntcon 7)) = .ok c ∧
          ∃ q g, Lower.interruptEnable? c = some (q, g) ∧ g.bit = 7 ∧ q.identifier.bits = 16 :=
      ⟨_, rfl, _, _, rfl, rfl, rfl⟩
    obtain ⟨cluster, lifted⟩ := exists_lifts c (i := retfie false) rfl
    refine ⟨c, loaded, q, g, Catalog.interruptEnable?_eq_some_iff.mp known, bit, cluster, lifted,
      fun I => ⟨oddOneOut q.identifier 0x100 0 0, ?_⟩⟩
    have register : q.identifier.IsRegister := ⟨_, _, _, rfl⟩
    have held : (oddOneOut q.identifier 0x100 0 0).get q.identifier = 0x100 := by
      rw [State.get_of_isRegister _ register]
      refine (LawfulRegisterFile.read_write _ _ _).trans ?_
      rw [wide]
    refine ⟨held, ?_⟩
    have kept := get_restored_of_not_live (I := I) (c := c) (i := retfie false) register
      (fun both => by cases both.1) (oddOneOut q.identifier 0x100 0 0)
    rw [lifted.run_returnFromInterrupt rfl known, State.get_setRegister _ _ register, kept, held,
      bit, wide]
    decide
  · obtain ⟨c, loaded, q, g, known, bit⟩ : ∃ c, Catalog.load (some (wideIntcon 9)) = .ok c ∧
        ∃ q g, Lower.interruptEnable? c = some (q, g) ∧ g.bit = 9 :=
      ⟨_, rfl, _, _, rfl, rfl⟩
    refine ⟨c, loaded, q, g, Catalog.interruptEnable?_eq_some_iff.mp known, ?_⟩
    intro same
    have low := Catalog.toNat_bitMask_eq_iff.mp same
    omega

end RegisterTransfer.Pic18
