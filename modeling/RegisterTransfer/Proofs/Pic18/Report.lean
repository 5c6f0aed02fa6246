/-
# RegisterTransfer.Proofs.Pic18.Report -- what the report of an operand leaves out

An operand reports what it reads and writes (`Operand.access`), and lowering builds a cell for the byte
that it names (`Catalog.cellAt`).  Both start from the same location, but each asks the device about it
for itself, and only lowering asks whether a register is a window.

* `Operand.Reports`: a report names the registers that the address of a cell is made of, and the pointers
  that an access to the cell moves;
* `reports_iff_plain`: an operand reports its cell just if it names no window.  The report of a window has
  the register that stands for it, and never the pointer behind it (`pointer_unreported`).
-/
import RegisterTransfer.Pic18.Operand.Access
import RegisterTransfer.Proofs.Pic18.Movement

namespace RegisterTransfer.Pic18

set_option autoImplicit false

/-! ## What an access depends on -/

namespace Cell

/-- The registers that the address of a byte in memory is made of. -/
def addressed (cell : Cell) : List Identifier :=
  match cell.place with
  | .memory _ ea | .segmented _ _ ea => ea.identifiers
  | _ => []

/-- The registers that an access changes before and after the byte is used. -/
def moved (cell : Cell) : List Identifier :=
  (cell.entering ++ cell.leaving).flatMap Statement.targets

theorem moved_of_still {cell : Cell} (before : cell.before = none) (after : cell.after = none) :
    cell.moved = [] := by
  rw [moved, entering, leaving, before, after]
  rfl

end Cell

/-- The registers that can select an address. -/
def CoreRegisters.addressing (core : CoreRegisters) : List Identifier :=
  [core.bsr, core.fsr0, core.fsr1, core.fsr2, core.wreg]

theorem CoreRegisters.fsr_mem_addressing (core : CoreRegisters) (n : Fin 3) :
    core.fsr n ∈ core.addressing := by
  obtain rfl | rfl | rfl := Catalog.pointer_cases n <;> simp [fsr, addressing]

/-- The report of an operand names what selects the address of a cell, and the pointers that an access
to the cell moves. -/
structure Operand.Reports (o : Operand) (c : Catalog) (cell : Cell) : Prop where
  reads : ∀ id ∈ c.core.addressing, id ∈ cell.addressed → .register id ∈ (o.access c).reads
  writes : ∀ n, c.core.fsr n ∈ cell.moved → .register (c.core.fsr n) ∈ (o.access c).writes

/-! ## Operands that are no window -/

section Plain

variable {c : Catalog} {o : Operand} {location : DataLocation}

/-- The register that selects a location. -/
def Catalog.selector? (c : Catalog) : DataLocation → Option Identifier
  | .indexed _ => some c.core.fsr2
  | .banked _ => some c.core.bsr
  | .absolute _ => none

/-- Outside the windows an address is made of the register that selects it. -/
theorem addressed_of_plain (plain : c.window? location = none) :
    (c.cellAt location).addressed = (c.selector? location).toList := by
  cases location with
  | indexed k => exact Expr.identifiers_addInt _ _
  | banked k => rfl
  | absolute address =>
      have none_ : c.indirect? address = none := plain
      rw [Catalog.cellAt, Catalog.absoluteCell, none_]
      cases c.lookup? address 8 with
      | none => rfl
      | some r => rfl

/-- A file operand reports the register that selects its location. -/
theorem selectors_eq (f : FileOperand) (c : Catalog) :
    f.selectors c = (c.selector? (f.location c)).toList.map .register := by
  unfold FileOperand.selectors
  cases f.location c <;> rfl

/-- So does every operand that names a location. -/
theorem selector_reported (named : o.location? c = some location) {id : Identifier}
    (selects : id ∈ (c.selector? location).toList) : .register id ∈ (o.access c).reads := by
  have listed : ∀ f : FileOperand, f.location c = location →
      OperandStorage.register id ∈ f.selectors c := by
    intro f same
    rw [selectors_eq, same]
    exact List.mem_map_of_mem selects
  cases o with
  | file f | fileBit f bit => exact listed f (Option.some.inj named)
  | fileDest f dest => exact List.mem_append_left _ (listed f (Option.some.inj named))
  | index k =>
      cases named
      rw [List.mem_singleton.mp selects]
      exact List.mem_singleton_self _
  | data12 a | data14 a =>
      cases named
      cases selects
  | _ => cases named

theorem reports_of_plain (plain : c.window? location = none)
    (named : o.location? c = some location) : o.Reports c (c.cellAt location) where
  reads id _ addressed := by
    rw [addressed_of_plain plain] at addressed
    exact selector_reported named addressed
  writes n moves := by
    obtain ⟨before, after⟩ := Catalog.still_of_plain plain
    rw [Cell.moved_of_still before after] at moves
    cases moves

end Plain

/-! ## Windows -/

section Window

variable {c : Catalog} {o : Operand} {location : DataLocation} {kind : Indirect} {n : Fin 3}

/-- The name of a window is no name of a core register. -/
theorem not_core_of_ofName? {name : String} {window : Indirect × Fin 3}
    (found : Indirect.ofName? name = some window) : name ∉ coreNames := by
  have apart : ∀ p ∈ Indirect.windows, p.1 ∉ coreNames := by decide
  obtain ⟨before, after, listed, -⟩ := List.lookup_eq_some_iff.mp found
  exact apart (name, window) (listed ▸ List.mem_append_right _ List.mem_cons_self)

/-- A window has a name of its own on its device. -/
theorem register_of_window (window : c.window? location = some (kind, n)) :
    ∃ address r, location = .absolute address ∧ c.lookup? address 8 = some r ∧
      r.name ∉ coreNames := by
  cases location with
  | indexed k | banked k => cases window
  | absolute address =>
      obtain ⟨r, found, named⟩ := Option.bind_eq_some_iff.mp window
      exact ⟨address, r, rfl, found, not_core_of_ofName? named⟩

/-- The address behind a window has the pointer in it. -/
theorem pointer_addressed (window : c.window? location = some (kind, n)) :
    c.core.fsr n ∈ (c.cellAt location).addressed := by
  rw [Catalog.cellAt_of_window window]
  cases kind <;> exact List.mem_cons_self

/-- No operand that names a window reports the pointer. -/
theorem pointer_unreported (accepted : c.Accepted) (window : c.window? location = some (kind, n))
    (named : o.location? c = some location) :
    .register (c.core.fsr n) ∉ (o.access c).reads := by
  obtain ⟨address, r, rfl, found, own⟩ := register_of_window window
  have selects : ∀ f : FileOperand, f.location c = .absolute address → f.selectors c = [] := by
    intro f same
    rw [selectors_eq, same]
    rfl
  cases o with
  | file f | fileBit f bit =>
      show _ ∉ f.selectors c
      rw [selects f (Option.some.inj named)]
      exact List.not_mem_nil
  | fileDest f dest =>
      have same : f.location c = .absolute address := Option.some.inj named
      show _ ∉ f.selectors c ++ [f.storage c]
      rw [selects f same, FileOperand.storage, same, Catalog.storageAt, found]
      intro listed
      have pointer := congrArg Identifier.name
        (OperandStorage.register.inj (List.mem_singleton.mp listed))
      apply own
      rw [← accepted.names]
      exact List.mem_map.mpr ⟨_, Catalog.fsr_mem n, pointer⟩
  | data12 a | data14 a => exact List.not_mem_nil
  | index k => cases named
  | _ => cases named

end Window

/-- On a loaded device the report of a file operand, a data address or an index names the registers that
the address of its cell is made of, and the pointers that move, just if the operand names no window. -/
theorem reports_iff_plain {device : Option Device} {c : Catalog}
    (loaded : Catalog.load device = .ok c) {o : Operand} {location : DataLocation}
    (named : o.location? c = some location) :
    o.Reports c (c.cellAt location) ↔ c.window? location = none := by
  constructor
  · intro reports
    cases window : c.window? location with
    | none => rfl
    | some found =>
        obtain ⟨kind, n⟩ := found
        have reported := reports.reads _ (c.core.fsr_mem_addressing n) (pointer_addressed window)
        exact absurd reported
          (pointer_unreported (Catalog.accepted_of_load loaded) window named)
  · exact fun plain => reports_of_plain plain named

/-- A banked operand reports its bank. -/
theorem reports_iff_plain_banked :
    ∃ c, Catalog.load (some Devices.Pic18f4620.device) = .ok c ∧
      (Operand.file ⟨0x20, false, .traditional⟩).Reports c (c.cellAt (.banked 0x20)) := by
  obtain ⟨c, loaded⟩ : ∃ c, Catalog.load (some Devices.Pic18f4620.device) = .ok c := ⟨_, rfl⟩
  exact ⟨c, loaded, (reports_iff_plain loaded rfl).mpr rfl⟩

/-- `POSTINC0` reads and moves the first pointer, and its report names neither. -/
theorem postInc0_unreported :
    ∃ c, Catalog.load (some Devices.Pic18f4620.device) = .ok c ∧
      ∃ o cell, o = Operand.file ⟨0xEE, true, .traditional⟩ ∧
        (o.location? c).map c.cellAt = some cell ∧
          c.core.fsr0 ∈ cell.addressed ∧ (o.access c).reads = [] ∧
          c.core.fsr0 ∈ cell.moved ∧ (o.access c).writes = [] ∧ ¬o.Reports c cell := by
  refine ⟨_, rfl, _, _, rfl, rfl, by decide, rfl, by decide, rfl, fun reports => ?_⟩
  cases reports.writes 0 (by decide)

end RegisterTransfer.Pic18
