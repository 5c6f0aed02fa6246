/-
# RegisterTransfer.Proofs.Pic18.FarMove -- the byte that a far move copies

A far move copies a byte between any two places of data memory, and either may be a window.  The
pointers that move before an access are moved first, that of the source and then that of the
destination, and only then is the source read (`lowerWith_farMove`).

So the byte is the one that the source denoted unless the destination moves a pointer before the access
that the source is read through, or that it is (`FarMove.Overtaken`).  Then it is the byte behind the
moved pointer, and in some state that is another; `movff_indf0_preInc0_misses` is such a move and state.
Registers are cells of their own here, apart from data memory and from each other.
-/
import RegisterTransfer.Proofs.Meaning.Frame
import RegisterTransfer.Proofs.Pic18.FileResult

namespace RegisterTransfer.Pic18

set_option autoImplicit false

/-! ## What a location depends on -/

namespace Catalog

variable (c : Catalog)

/-- The registers that the byte at a location is found through, or is. -/
def consulted (location : DataLocation) : List Identifier :=
  match c.window? location with
  | some (.plusW, n) => [c.core.fsr n, c.core.wreg]
  | some (_, n) => [c.core.fsr n]
  | none =>
      match location with
      | .indexed _ => [c.core.fsr2]
      | .banked _ => [c.core.bsr]
      | .absolute address => ((c.lookup? address 8).map (·.identifier)).toList

variable {c} {location : DataLocation} {σ τ : State Cells}

theorem isRegister_of_consulted (accepted : c.Accepted) {id : Identifier}
    (listed : id ∈ c.consulted location) : id.IsRegister := by
  unfold consulted at listed
  split at listed
  · rcases List.mem_cons.mp listed with rfl | working
    · exact accepted.isRegister_fsr _
    · rw [List.mem_singleton.mp working]
      exact accepted.isRegister_wreg
  · rw [List.mem_singleton.mp listed]
    exact accepted.isRegister_fsr _
  · split at listed
    · rw [List.mem_singleton.mp listed]
      exact accepted.isRegister_fsr 2
    · rw [List.mem_singleton.mp listed]
      exact accepted.isRegister_bsr
    · obtain ⟨r, _, rfl⟩ := Option.map_eq_some_iff.mp (Option.mem_toList.mp listed)
      exact ⟨_, _, _, rfl⟩

/-- A location denotes the same byte wherever memory and the registers it is found through are the
same. -/
theorem read_denotes_congr
    (same : ∀ id, id ∈ c.consulted location → σ.get id = τ.get id)
    (memory : σ.memory = τ.memory) :
    (c.denotes σ location).read σ = (c.denotes τ location).read τ := by
  unfold consulted at same
  unfold denotes
  cases window : c.window? location with
  | some found =>
      obtain ⟨kind, n⟩ := found
      simp only [window] at same
      have address : c.windowAddress σ kind n = c.windowAddress τ kind n := by
        cases kind <;> simp [windowAddress, same]
      simp only [Place.read, address, memory]
  | none =>
      simp only [window] at same
      cases location with
      | indexed k =>
          have pointer := same _ (List.mem_singleton_self _)
          simp only [plainPlace, Place.read, pointer, memory]
      | banked k =>
          have bank := same _ (List.mem_singleton_self _)
          simp only [plainPlace, Place.read, bank, memory]
      | absolute address =>
          cases found : c.lookup? address 8 with
          | none => simp only [plainPlace, found, Place.read, memory]
          | some r =>
              simp only [plainPlace, found, Place.read]
              exact same _ (by simp [found])

/-! ## Pointers that move first -/

theorem entered_of_preInc {n : Fin 3} (window : c.window? location = some (.preInc, n))
    (σ : State Cells) :
    c.entered location σ = σ.setRegister (c.core.fsr n)
      (Bits.ofInt (c.core.fsr n).bits (σ.get (c.core.fsr n) + 1)) := by
  simp only [entered, move, window]
  rfl

theorem entered_of_not_preInc (still : ∀ n, c.window? location ≠ some (.preInc, n))
    (σ : State Cells) : c.entered location σ = σ := by
  unfold entered
  split
  · rename_i n window
    exact absurd window (still n)
  · rfl

/-- A register that is not the pointer that moves before an access keeps its contents. -/
theorem get_entered {id : Identifier} (register : id.IsRegister) (σ : State Cells)
    (apart : ∀ n, c.window? location = some (.preInc, n) → id ≠ c.core.fsr n) :
    (c.entered location σ).get id = σ.get id := by
  by_cases moves : ∃ n, c.window? location = some (.preInc, n)
  · obtain ⟨n, window⟩ := moves
    rw [entered_of_preInc window]
    exact State.get_setRegister_of_ne register σ _ (apart n window)
  · rw [entered_of_not_preInc (not_exists.mp moves)]

theorem memory_entered (location : DataLocation) (σ : State Cells) :
    (c.entered location σ).memory = σ.memory := by
  by_cases moves : ∃ n, c.window? location = some (.preInc, n)
  · obtain ⟨n, window⟩ := moves
    rw [entered_of_preInc window]
    rfl
  · rw [entered_of_not_preInc (not_exists.mp moves)]

theorem memory_left (location : DataLocation) (σ : State Cells) :
    (c.left location σ).memory = σ.memory := by
  unfold left move
  split
  · rfl
  · split <;> rfl

/-- Pointers that move first may move in either order. -/
theorem entered_comm (accepted : c.Accepted) (first second : DataLocation) (σ : State Cells) :
    c.entered second (c.entered first σ) = c.entered first (c.entered second σ) := by
  by_cases one : ∃ n, c.window? first = some (.preInc, n)
  · by_cases other : ∃ n, c.window? second = some (.preInc, n)
    · obtain ⟨n, window⟩ := one
      obtain ⟨k, window'⟩ := other
      simp only [entered_of_preInc window, entered_of_preInc window']
      by_cases same : c.core.fsr k = c.core.fsr n
      · rw [same]
      · have firstKept := State.get_setRegister_of_ne (accepted.isRegister_fsr k) σ
          (Bits.ofInt (c.core.fsr n).bits (σ.get (c.core.fsr n) + 1)) same
        have secondKept := State.get_setRegister_of_ne (accepted.isRegister_fsr n) σ
          (Bits.ofInt (c.core.fsr k).bits (σ.get (c.core.fsr k) + 1)) (Ne.symm same)
        rw [firstKept, secondKept, State.setRegister_comm_of_ne σ _ _ same]
    · simp only [entered_of_not_preInc (not_exists.mp other)]
  · simp only [entered_of_not_preInc (not_exists.mp one)]

end Catalog

/-! ## Far moves -/

/-- The location that a far move reads, and the address that it writes. -/
structure FarMove where
  source : DataLocation
  address : Nat

def Operand.farLocation? : Operand → Option DataLocation
  | data12 a | data14 a => some (.absolute a)
  | index k => some (.indexed k)
  | _ => none

def Operand.farAddress? : Operand → Option Nat
  | data12 a | data14 a => some a
  | _ => none

/-- What the operands of a far move stand for. -/
def Instruction.farOperands? (i : Instruction) : Option FarMove := do
  let source ← i.operands[0]?.bind Operand.farLocation?
  let address ← i.operands[1]?.bind Operand.farAddress?
  return { source, address }

/-- The far move that an instruction makes. -/
def Instruction.farMove? (i : Instruction) : Option FarMove :=
  match i.opcode with
  | .movff | .movffl | .movsf | .movsfl => i.farOperands?
  | _ => none

namespace FarMove

variable (move : FarMove) (c : Catalog) (σ : State Cells)

def destination : DataLocation := .absolute move.address

/-- Whether the addresses are addresses of data memory, which have 16 bits. -/
def Bounded : Prop := move.address < 2 ^ 16 ∧ ∀ a, move.source = .absolute a → a < 2 ^ 16

/-- The byte that the source denotes. -/
def addressed : Nat := (c.denotes σ move.source).read σ

/-- The byte that is moved: the one that the source denotes once the pointer of the destination has
moved. -/
def byte : Nat := move.addressed c (c.entered move.destination σ)

/-- The place that the byte is moved to. -/
def target : Place := c.denotes (c.entered move.source σ) move.destination

/-- The state after a far move. -/
def apply : State Cells :=
  let entered := c.entered move.destination (c.entered move.source σ)
  c.left move.destination
    (c.left move.source ((move.target c σ).write (move.byte c σ) entered))

/-- Whether the destination moves a pointer, before the access, that the source is read through or that
it is. -/
def Overtaken : Prop :=
  ∃ n, c.window? move.destination = some (.preInc, n) ∧
    c.core.fsr n ∈ c.consulted move.source

end FarMove

namespace Instruction

variable {i : Instruction} {move : FarMove}

theorem expect_of_farOperands? (found : i.farOperands? = some move) (c : Catalog) :
    Lower.farSource c i = .ok (c.cellAt move.source) ∧ i.farDestination = .ok move.address := by
  obtain ⟨source, first, found⟩ := Option.bind_eq_some_iff.mp found
  obtain ⟨address, second, found⟩ := Option.bind_eq_some_iff.mp found
  cases found
  obtain ⟨o, listed, reads⟩ := Option.bind_eq_some_iff.mp first
  obtain ⟨o', listed', reads'⟩ := Option.bind_eq_some_iff.mp second
  refine ⟨expect_of_read listed ?_, expect_of_read listed' ?_⟩
  · cases o with
    | data12 | data14 | index => cases reads; rfl
    | _ => cases reads
  · cases o' with
    | data12 | data14 => cases reads'; rfl
    | _ => cases reads'

theorem lower_of_farMove? (found : i.farMove? = some move) (c : Catalog)
    (next : Option Instruction) :
    Lower.instruction c i next = Lower.farMove c i ∧ i.farOperands? = some move := by
  unfold farMove? at found
  unfold Lower.instruction
  split at found
  case h_5 => cases found
  all_goals
    rename_i opcode
    simp only [opcode]
    exact ⟨trivial, found⟩

end Instruction

/-! ## The statements of a far move -/

section Run

variable {c : Catalog} {i : Instruction} {move : FarMove}

/-- What a far move writes: both pointers that move first are moved before the source is read. -/
def FarMove.statements (move : FarMove) (c : Catalog) : List Statement :=
  let source := c.cellAt move.source
  let destination := c.cellAt move.destination
  source.entering ++ (destination.entering ++
    ([.assign destination.place source.place] ++ (source.leaving ++ destination.leaving)))

theorem emits_farMove (found : i.farOperands? = some move)
    (allowed : c.isForbidden move.address = false) :
    Lowering.Emits 0 (Lower.farMove c i) () (move.statements c) 0 := by
  obtain ⟨source, address⟩ := Instruction.expect_of_farOperands? found c
  refine Lowering.emits_operand address ?_
  rw [allowed, if_neg Bool.false_ne_true]
  refine Lowering.emits_operand source ?_
  refine Lowering.emits_bind (Cell.emits_enter _ _) ?_
  refine Lowering.emits_bind (Cell.emits_enter _ _) ?_
  refine Lowering.emits_bind (Lowering.emits_assign _ _) ?_
  exact Lowering.emits_bind (Cell.emits_exit _ _) (Cell.emits_exit _ _)

theorem run_farMove (accepted : c.Accepted) (bounded : move.Bounded) (I : Interpretation)
    (σ : State Cells) : σ.run I (move.statements c) = (move.apply c σ, none) := by
  let entered := c.entered move.destination (c.entered move.source σ)
  have inDestination : ∀ a, move.destination = .absolute a → a < 2 ^ 16 := by
    rintro a absolute
    cases absolute
    exact bounded.1
  have target : Denotes I entered.registers (c.cellAt move.destination).place (move.target c σ) :=
    Catalog.denotes_place accepted move.destination inDestination _
  -- the source is read when both pointers have moved, so for it the destination's moved before
  have source : Denotes I entered.registers (c.cellAt move.source).place
      (c.denotes (c.entered move.destination σ) move.source) := by
    have place := Catalog.denotes_place (I := I) accepted move.source bounded.2
      (c.entered move.destination σ)
    rwa [← Catalog.entered_comm accepted] at place
  have byte : (c.cellAt move.source).place.eval I entered = move.byte c σ := by
    rw [source.eval rfl]
    show Place.read _ (c.entered move.destination (c.entered move.source σ)) = _
    rw [Catalog.entered_comm accepted, Catalog.read_entered]
    rfl
  have moves := exec_place target (source.silent entered)
  rw [byte] at moves
  have copies : entered.run I
      [.assign (c.cellAt move.destination).place (c.cellAt move.source).place] =
        ((move.target c σ).write (move.byte c σ) entered, none) :=
    State.run_cons_of_falls [] moves
  rw [FarMove.statements,
    State.run_append_of_falls _ (Catalog.run_entering accepted move.source σ),
    State.run_append_of_falls _ (Catalog.run_entering accepted move.destination _),
    State.run_append_of_falls _ copies,
    State.run_append_of_falls _ (Catalog.run_leaving accepted move.source _),
    Catalog.run_leaving accepted move.destination]
  rfl

/-- A destination in memory holds the byte that was moved. -/
theorem FarMove.read_apply {σ : State Cells} {address : Nat}
    (goes : move.target c σ = .data address) :
    (Place.data address).read (move.apply c σ) = move.byte c σ % 2 ^ 8 := by
  rw [apply, goes, Place.read, Catalog.memory_left, Catalog.memory_left]
  exact (congrArg UInt8.toNat (if_pos ⟨rfl, rfl⟩)).trans UInt8.toNat_ofNat'

end Run

/-! ## When the byte is the one that the source denoted -/

namespace FarMove

variable {c : Catalog} {move : FarMove}

theorem byte_of_not_overtaken (accepted : c.Accepted) (straight : ¬move.Overtaken c)
    (σ : State Cells) : move.byte c σ = move.addressed c σ := by
  refine Catalog.read_denotes_congr (fun id listed => ?_) (Catalog.memory_entered _ σ)
  refine Catalog.get_entered (Catalog.isRegister_of_consulted accepted listed) σ ?_
  intro n window same
  rw [same] at listed
  exact straight ⟨n, window, listed⟩

/-- A state where all registers are zero, and every byte of memory is the lowest bit of its address. -/
def lowestBits : State Cells where
  registers := ⟨fun _ => 0⟩
  flags _ _ := false
  temporaries _ := 0
  memory _ address := UInt8.ofNat (address % 2)
  history := []

theorem get_lowestBits {id : Identifier} (register : id.IsRegister) : lowestBits.get id = 0 := by
  rw [State.get_of_isRegister _ register]
  rfl

theorem read_lowestBits {τ : State Cells} (memory : τ.memory = lowestBits.memory) (address : Nat) :
    (Place.data address).read τ = address % 2 := by
  rw [Place.read, memory]
  show (UInt8.ofNat (address % 2)).toNat = _
  rw [UInt8.toNat_ofNat']
  omega

/-- The pointer that moves first is one up from zero. -/
theorem get_entered_lowestBits (accepted : c.Accepted) {location : DataLocation} {n : Fin 3}
    (window : c.window? location = some (.preInc, n)) :
    (c.entered location lowestBits).get (c.core.fsr n) = 1 := by
  have room : 2 ^ 1 ≤ 2 ^ (c.core.fsr n).bits :=
    Nat.pow_le_pow_right (by decide) (accepted.bits_pos (Catalog.fsr_mem n))
  have up : ((0 : Nat) : Int) + 1 = (1 : Nat) := rfl
  rw [Catalog.entered_of_preInc window, State.get_setRegister _ _ (accepted.isRegister_fsr n),
    get_lowestBits (accepted.isRegister_fsr n), up, Bits.ofInt_natCast, Nat.mod_mod]
  exact Nat.mod_eq_of_lt room

/-- Without an offset, whether the address behind a window is odd is a matter of its pointer. -/
theorem windowAddress_mod_two (accepted : c.Accepted) {τ : State Cells}
    (idle : τ.get c.core.wreg = 0) (kind : Indirect) (n : Fin 3) :
    c.windowAddress τ kind n % 2 =
      (τ.get (c.core.fsr n) + if kind = .preInc then 1 else 0) % 2 := by
  have even : 2 ^ 1 ∣ 2 ^ (c.core.fsr n).bits :=
    Nat.pow_dvd_pow 2 (accepted.bits_pos (Catalog.fsr_mem n))
  cases kind with
  | indf | postInc | postDec => rfl
  | preInc => exact Nat.mod_mod_of_dvd _ even
  | plusW =>
      refine (Nat.mod_mod_of_dvd _ even).trans ?_
      rw [idle]
      simp [Bits.signed, Bits.ofInt]

/-- The pointer of a destination that overtakes its source is the one that the source goes through. -/
theorem pointer_of_consulted (accepted : c.Accepted) {source : DataLocation} {n k : Fin 3}
    {kind : Indirect} (found : c.window? source = some (kind, k))
    (listed : c.core.fsr n ∈ c.consulted source) : c.core.fsr n = c.core.fsr k := by
  unfold Catalog.consulted at listed
  cases kind with
  | plusW =>
      simp only [found, List.mem_cons, List.not_mem_nil, or_false] at listed
      exact listed.resolve_right (accepted.wreg_ne_fsr n).symm
  | indf | postInc | postDec | preInc =>
      simp only [found, List.mem_singleton] at listed
      exact listed

/-- A source that is overtaken is another byte in some state. -/
theorem differs_of_overtaken (accepted : c.Accepted) (overtaken : move.Overtaken c) :
    ∃ σ, move.byte c σ ≠ move.addressed c σ := by
  obtain ⟨n, window, listed⟩ := overtaken
  let τ := c.entered move.destination lowestBits
  have memory : τ.memory = lowestBits.memory := Catalog.memory_entered _ _
  have zero : lowestBits.get (c.core.fsr n) = 0 := get_lowestBits (accepted.isRegister_fsr n)
  have one : τ.get (c.core.fsr n) = 1 := get_entered_lowestBits accepted window
  have working : lowestBits.get c.core.wreg = 0 := get_lowestBits accepted.isRegister_wreg
  have idle : τ.get c.core.wreg = 0 :=
    (Catalog.get_entered accepted.isRegister_wreg _ fun k _ => accepted.wreg_ne_fsr k).trans working
  refine ⟨lowestBits, ?_⟩
  show (c.denotes τ move.source).read τ ≠ (c.denotes lowestBits move.source).read lowestBits
  cases found : c.window? move.source with
  | some through =>
      obtain ⟨kind, k⟩ := through
      have same := pointer_of_consulted accepted found listed
      simp only [Catalog.denotes, found]
      rw [read_lowestBits memory, read_lowestBits rfl, windowAddress_mod_two accepted idle,
        windowAddress_mod_two accepted working, ← same, one, zero]
      omega
  | none =>
      simp only [Catalog.consulted, found] at listed
      simp only [Catalog.denotes, found]
      cases source : move.source with
      | indexed k =>
          rw [source] at listed
          have same : c.core.fsr n = c.core.fsr2 := List.mem_singleton.mp listed
          have even : 2 ^ 1 ∣ 2 ^ (c.core.fsr n).bits :=
            Nat.pow_dvd_pow 2 (accepted.bits_pos (Catalog.fsr_mem n))
          simp only [Catalog.plainPlace]
          rw [read_lowestBits memory, read_lowestBits rfl, ← same, one, zero]
          have odd := Nat.mod_mod_of_dvd (1 + k.toNat) even
          have plain := Nat.mod_mod_of_dvd (0 + k.toNat) even
          omega
      | banked k =>
          rw [source] at listed
          exact absurd (List.mem_singleton.mp listed).symm (accepted.bsr_ne_fsr n)
      | absolute address =>
          rw [source] at listed
          obtain ⟨r, held, same⟩ := Option.map_eq_some_iff.mp (Option.mem_toList.mp listed)
          simp only [Catalog.plainPlace, held, Place.read]
          rw [same, one, zero]
          decide

end FarMove

/-! ## Clusters -/

/-- The cluster of a far move to a destination that is not forbidden, and the state it leaves. -/
theorem lowered_farMove {c : Catalog} (accepted : c.Accepted) {i : Instruction} {move : FarMove}
    (found : i.farMove? = some move) (bounded : move.Bounded)
    (allowed : c.isForbidden move.address = false) (next : Option Instruction)
    {t : IntrinsicTable} (regular : t.Regular) :
    ∃ flow statements t',
      (backend c).lowerWith i next t = (.ok ⟨false, flow, statements⟩, t') ∧
        ∀ I σ, σ.run I statements = (move.apply c σ, none) := by
  obtain ⟨lowers, operands⟩ := Instruction.lower_of_farMove? found c next
  have writes : Lowering.Writes (Lower.instruction c i next) fun statements =>
      ∀ I σ, σ.run I statements = (move.apply c σ, none) := by
    rw [lowers]
    exact ⟨_, _, emits_farMove operands allowed, run_farMove accepted bounded⟩
  obtain ⟨flow, settled, t', statements, lowered, runs, same⟩ := lowerWith_of_writes writes regular
  exact ⟨flow, settled, t', lowered, fun I σ => (same I σ).trans (runs I σ)⟩

/-- On a loaded device the cluster of a far move to a destination that is not forbidden moves the byte
that the source denotes once the pointer of the destination has moved.  That is the byte that the source
denoted before unless it is overtaken; if it is, they differ in some state. -/
theorem lowerWith_farMove {device : Option Device} {c : Catalog}
    (loaded : Catalog.load device = .ok c) {i : Instruction} {move : FarMove}
    (found : i.farMove? = some move) (bounded : move.Bounded)
    (allowed : c.isForbidden move.address = false) (next : Option Instruction)
    {t : IntrinsicTable} (regular : t.Regular) :
    ∃ flow statements t',
      (backend c).lowerWith i next t = (.ok ⟨false, flow, statements⟩, t') ∧
        (∀ I σ, σ.run I statements = (move.apply c σ, none)) ∧
        (¬move.Overtaken c → ∀ σ, move.byte c σ = move.addressed c σ) ∧
        (move.Overtaken c → ∃ σ, move.byte c σ ≠ move.addressed c σ) := by
  have accepted := Catalog.accepted_of_load loaded
  obtain ⟨flow, statements, t', lowered, runs⟩ :=
    lowered_farMove accepted found bounded allowed next regular
  exact ⟨flow, statements, t', lowered, runs, FarMove.byte_of_not_overtaken accepted,
    FarMove.differs_of_overtaken accepted⟩

/-- The windows of a built-in device that the moves below go through. -/
theorem windows_pic18f4620 : ∃ c, Catalog.load (some Devices.Pic18f4620.device) = .ok c ∧
    c.core.fsr0.bits = 16 ∧ c.core.fsr1.bits = 16 ∧ c.core.fsr1 ≠ c.core.fsr0 ∧
    c.window? (.absolute 0xFEE) = some (.postInc, 0) ∧
    c.window? (.absolute 0xFEF) = some (.indf, 0) ∧
    c.window? (.absolute 0xFEC) = some (.preInc, 0) ∧
    c.window? (.absolute 0xFE4) = some (.preInc, 1) ∧
    c.isForbidden 0xFEC = false ∧ c.isForbidden 0xFE4 = false :=
  ⟨_, rfl, rfl, rfl, by decide, rfl, rfl, rfl, rfl, rfl, rfl⟩

/-- A move between two data addresses, at no address in particular. -/
def movff (source destination : Nat) : Instruction :=
  ⟨0x200, 4, .movff, [.data12 source, .data12 destination]⟩

/-- The byte behind the first pointer is moved to above the second one. -/
theorem lowerWith_farMove_postInc0 :
    ∃ c, Catalog.load (some Devices.Pic18f4620.device) = .ok c ∧
      ∃ flow statements t',
        (backend c).lowerWith (movff 0xFEE 0xFE4) none .empty =
          (.ok ⟨false, flow, statements⟩, t') ∧
        ∀ I (σ : State Cells), ∃ τ, σ.run I statements = (τ, none) ∧
          (Place.data ((σ.get c.core.fsr1 + 1) % 2 ^ 16)).read τ =
            (Place.data (σ.get c.core.fsr0)).read σ := by
  obtain ⟨c, loaded, _, wide, different, postInc0, _, _, preInc1, _, allowed⟩ := windows_pic18f4620
  let move : FarMove := ⟨.absolute 0xFEE, 0xFE4⟩
  have bounded : move.Bounded := ⟨by decide, fun a absolute => by cases absolute; decide⟩
  obtain ⟨flow, statements, t', lowered, runs, straight, _⟩ :=
    lowerWith_farMove loaded (i := movff 0xFEE 0xFE4) rfl bounded allowed none
      IntrinsicTable.regular_empty
  refine ⟨c, loaded, flow, statements, t', lowered, fun I σ => ⟨_, runs I σ, ?_⟩⟩
  have still : c.entered move.source σ = σ := Catalog.entered_of_not_preInc (by simp [move, postInc0]) σ
  have goes : move.target c σ = .data ((σ.get c.core.fsr1 + 1) % 2 ^ 16) := by
    rw [FarMove.target, still]
    simp only [Catalog.denotes, FarMove.destination, move, preInc1, Catalog.windowAddress]
    rw [← wide]
    rfl
  have apart : ¬move.Overtaken c := by
    rintro ⟨n, window, listed⟩
    have second : n = 1 := by
      have same := preInc1.symm.trans window
      cases same
      rfl
    rw [second, Catalog.consulted] at listed
    simp only [postInc0, List.mem_singleton] at listed
    exact different listed
  have addressed : move.addressed c σ = (Place.data (σ.get c.core.fsr0)).read σ := by
    simp only [FarMove.addressed, Catalog.denotes, move, postInc0]
    rfl
  rw [FarMove.read_apply goes, straight apart, addressed]
  exact Nat.mod_eq_of_lt (UInt8.toNat_lt _)

/-- The byte at the first pointer is zero, and the one above it is moved onto itself. -/
theorem movff_indf0_preInc0_misses :
    ∃ c, Catalog.load (some Devices.Pic18f4620.device) = .ok c ∧
      ∃ flow statements t',
        (backend c).lowerWith (movff 0xFEF 0xFEC) none .empty =
          (.ok ⟨false, flow, statements⟩, t') ∧
        ∃ σ : State Cells, σ.get c.core.fsr0 = 0 ∧ (Place.data 0).read σ = 0 ∧
          ∀ I, ∃ τ, σ.run I statements = (τ, none) ∧ (Place.data 1).read τ = 1 := by
  obtain ⟨c, loaded, wide, _, _, _, indf0, preInc0, _, allowed, _⟩ := windows_pic18f4620
  have accepted := Catalog.accepted_of_load loaded
  let move : FarMove := ⟨.absolute 0xFEF, 0xFEC⟩
  have bounded : move.Bounded := ⟨by decide, fun a absolute => by cases absolute; decide⟩
  have is : (movff 0xFEF 0xFEC).farMove? = some move := rfl
  obtain ⟨flow, statements, t', lowered, runs⟩ :=
    lowered_farMove accepted is bounded allowed none IntrinsicTable.regular_empty
  have pointer : FarMove.lowestBits.get c.core.fsr0 = 0 :=
    FarMove.get_lowestBits (accepted.isRegister_fsr 0)
  refine ⟨c, loaded, flow, statements, t', lowered, FarMove.lowestBits, pointer, rfl, fun I =>
    ⟨_, runs I _, ?_⟩⟩
  have still : c.entered move.source FarMove.lowestBits = FarMove.lowestBits :=
    Catalog.entered_of_not_preInc (by simp [move, indf0]) _
  have goes : move.target c FarMove.lowestBits = .data 1 := by
    rw [FarMove.target, still]
    simp only [Catalog.denotes, FarMove.destination, move, preInc0, Catalog.windowAddress]
    show Place.data ((FarMove.lowestBits.get c.core.fsr0 + 1) % 2 ^ c.core.fsr0.bits) = _
    rw [pointer, wide]
  have moved : (c.entered move.destination FarMove.lowestBits).get c.core.fsr0 = 1 :=
    FarMove.get_entered_lowestBits accepted preInc0
  have byte : move.byte c FarMove.lowestBits = 1 := by
    simp only [FarMove.byte, FarMove.addressed, Catalog.denotes, move, indf0]
    rw [FarMove.read_lowestBits (Catalog.memory_entered _ _)]
    exact congrArg (· % 2) moved
  rw [FarMove.read_apply goes, byte]

end RegisterTransfer.Pic18
