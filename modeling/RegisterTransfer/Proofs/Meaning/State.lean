/-
# RegisterTransfer.Proofs.Meaning.State -- what register transfers act on

A state holds the registers, the flags, the temporaries of a cluster and memory, each apart from the
others, and the intrinsics that were applied so far.  Flags are bits of a flag register, so groups
that overlap share them.  Memory is addressed in bytes within a segment, or without one; a value of
several bytes has its lowest byte first and wraps at the width of its address.

Writing a register commutes with reading and writing anything outside its family
(`get_set_of_outside`, `set_comm_of_outside`).
-/
import RegisterTransfer.Bytes
import RegisterTransfer.Proofs.Meaning.RegisterFile
import RegisterTransfer.Proofs.Meaning.Value

namespace RegisterTransfer

set_option autoImplicit false

/-- Whether an identifier names a register. -/
def Identifier.IsRegister (id : Identifier) : Prop :=
  ∃ family lowest width, id.storage = .register family lowest width

/-- Whether an identifier names no register of a family. -/
def Identifier.Outside (id : Identifier) (family : Nat) : Prop :=
  id.IsRegister → id.family ≠ family

/-! ## Bytes -/

/-- Some bytes from an address on, which wraps at a width. -/
def bytesAt (m : Nat → UInt8) (width address : Nat) : Nat → List UInt8
  | 0 => []
  | n + 1 => m (address % 2 ^ width) :: bytesAt m width (address + 1) n

/-- Memory after a number was stored in some bytes from an address on. -/
def storeBytes (m : Nat → UInt8) (width address value : Nat) : Nat → Nat → UInt8
  | 0 => m
  | n + 1 =>
      storeBytes (fun a => if a = address % 2 ^ width then UInt8.ofNat value else m a) width
        (address + 1) (value / 256) n

/-- What register transfers act on. -/
structure State (ρ : Type) where
  registers : ρ
  /-- The bits of every flag register. -/
  flags : String → Nat → Bool
  temporaries : Nat → Nat
  /-- The bytes of every segment, and those without one. -/
  memory : Option Nat → Nat → UInt8
  /-- The intrinsics applied so far. -/
  history : List Application

namespace State

variable {ρ : Type}

/-- The number in some bytes of a segment. -/
def load (σ : State ρ) (segment : Option Nat) (width address count : Nat) : Nat :=
  ByteOrder.littleNumber (bytesAt (σ.memory segment) width address count)

theorem load_congr {σ τ : State ρ} (memory : σ.memory = τ.memory) (segment : Option Nat)
    (width address count : Nat) :
    σ.load segment width address count = τ.load segment width address count := by
  rw [load, load, memory]

/-- Store a number in some bytes of a segment. -/
def store (σ : State ρ) (segment : Option Nat) (width address count value : Nat) : State ρ :=
  { σ with
    memory := fun s =>
      if s = segment then storeBytes (σ.memory segment) width address value count
      else σ.memory s }

/-- Store one byte outside of every segment. -/
def setByte (σ : State ρ) (address value : Nat) : State ρ :=
  { σ with
    memory := fun s a =>
      if s = none ∧ a = address then UInt8.ofNat value else σ.memory s a }

theorem store_one (σ : State ρ) (width address value : Nat) :
    σ.store none width address 1 value = σ.setByte (address % 2 ^ width) value := by
  unfold store setByte
  congr 1
  funext s a
  cases s with
  | none => simp [storeBytes]
  | some segment => simp

theorem load_one (σ : State ρ) (segment : Option Nat) (width address : Nat) :
    σ.load segment width address 1 = (σ.memory segment (address % 2 ^ width)).toNat := rfl

/-- Set the flags of a mask, each to a bit of its own. -/
def setFlags (σ : State ρ) (register : String) (mask : Nat) (f : Nat → Bool) : State ρ :=
  { σ with
    flags := fun r bit => if r = register ∧ mask.testBit bit then f bit else σ.flags r bit }

theorem setFlags_congr (σ : State ρ) {register : String} {mask : Nat} {f g : Nat → Bool}
    (same : ∀ bit, mask.testBit bit = true → f bit = g bit) :
    σ.setFlags register mask f = σ.setFlags register mask g := by
  unfold setFlags
  congr 1
  funext r bit
  by_cases inside : r = register ∧ mask.testBit bit = true
  · rw [if_pos inside, if_pos inside, same bit inside.2]
  · rw [if_neg inside, if_neg inside]

/-- An empty mask sets nothing. -/
theorem setFlags_zero (σ : State ρ) (register : String) (f : Nat → Bool) :
    σ.setFlags register 0 f = σ := by
  unfold setFlags
  simp

/-- Put a number into a temporary. -/
def setTemporary (σ : State ρ) (n value : Nat) : State ρ :=
  { σ with temporaries := fun k => if k = n then value else σ.temporaries k }

/-- A state apart from its temporaries. -/
def forget (σ : State ρ) : State ρ := { σ with temporaries := fun _ => 0 }

/-- Remember the intrinsics that were applied. -/
def record (σ : State ρ) (applied : List Application) : State ρ :=
  { σ with history := σ.history ++ applied }

theorem record_nil (σ : State ρ) : σ.record [] = σ := by
  rw [record, List.append_nil]

variable [RegisterFile ρ]

/-- Put a number into a register. -/
def setRegister (σ : State ρ) (id : Identifier) (value : Nat) : State ρ :=
  { σ with registers := RegisterFile.write σ.registers id value }

/-- The number that an identifier holds. -/
def get (σ : State ρ) (id : Identifier) : Nat :=
  match id.storage with
  | .register .. => RegisterFile.read σ.registers id
  | .flags register mask => Bits.gather mask (σ.flags register)
  | .temporary n => σ.temporaries n % 2 ^ id.bits

/-- Put a number into an identifier. -/
def set (σ : State ρ) (id : Identifier) (value : Nat) : State ρ :=
  match id.storage with
  | .register .. => σ.setRegister id value
  | .flags register mask => σ.setFlags register mask fun bit => value.testBit (Bits.rank mask bit)
  | .temporary n => σ.setTemporary n (value % 2 ^ id.bits)

/-! ## Registers -/

section Registers

variable {id other : Identifier} (σ : State ρ) (v w : Nat)

theorem get_of_isRegister (register : id.IsRegister) :
    σ.get id = RegisterFile.read σ.registers id := by
  obtain ⟨_, _, _, storage⟩ := register
  rw [get, storage]

/-- What a register holds is a matter of the register file. -/
theorem get_of_registers {σ τ : State ρ} (register : id.IsRegister)
    (same : σ.registers = τ.registers) : σ.get id = τ.get id := by
  rw [get_of_isRegister σ register, get_of_isRegister τ register, same]

theorem set_of_isRegister (register : id.IsRegister) : σ.set id v = σ.setRegister id v := by
  obtain ⟨_, _, _, storage⟩ := register
  rw [set, storage]

variable [LawfulRegisterFile ρ]

theorem get_lt (register : id.IsRegister) : σ.get id < 2 ^ id.bits := by
  rw [get_of_isRegister σ register]
  exact LawfulRegisterFile.read_lt _ _

theorem get_setRegister (register : id.IsRegister) :
    (σ.setRegister id v).get id = v % 2 ^ id.bits := by
  rw [get_of_isRegister _ register]
  exact LawfulRegisterFile.read_write _ _ _

theorem setRegister_get (register : id.IsRegister) : σ.setRegister id (σ.get id) = σ := by
  rw [get_of_isRegister σ register, setRegister, LawfulRegisterFile.write_read]

theorem setRegister_setRegister : (σ.setRegister id v).setRegister id w = σ.setRegister id w := by
  rw [setRegister, setRegister, setRegister, LawfulRegisterFile.write_write]

/-- Writing a register changes nothing outside its family. -/
theorem get_set_of_outside (outside : other.Outside id.family) :
    (σ.setRegister id v).get other = σ.get other := by
  unfold get
  cases storage : other.storage with
  | register family lowest width =>
      refine LawfulRegisterFile.read_write_of_family_ne _ _ ?_
      exact (outside ⟨family, lowest, width, storage⟩).symm
  | flags register mask => rfl
  | temporary n => rfl

theorem set_comm_of_outside (outside : other.Outside id.family) :
    (σ.setRegister id v).set other w = (σ.set other w).setRegister id v := by
  unfold set
  cases storage : other.storage with
  | register family lowest width =>
      have apart : id.family ≠ other.family :=
        (outside ⟨family, lowest, width, storage⟩).symm
      show setRegister _ _ _ = setRegister _ _ _
      rw [setRegister, setRegister, setRegister, setRegister]
      simp only [LawfulRegisterFile.write_comm σ.registers v w apart]
  | flags register mask => rfl
  | temporary n => rfl

end Registers

end State

end RegisterTransfer
