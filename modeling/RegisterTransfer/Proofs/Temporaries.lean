/-
# RegisterTransfer.Proofs.Temporaries -- temporaries of clusters have one definition

A cluster may use temporaries `v0`, `v1` and so on, which live only within it.  `SingleAssignment` says what
users of a cluster rely on: there are as many as a list has types, each occurs with its type only, and has
one unconditional assignment that stands before every use.  `singleAssignment_lowerWith` says it of every
cluster of either machine.

A device's registers are not temporaries because its catalog was loaded (`Machine.Loaded`): nothing else
makes a catalog, and a core register that was a temporary would be used without a definition.
-/
import RegisterTransfer.Pic18.Devices
import RegisterTransfer.Proofs.Machine
import RegisterTransfer.Proofs.Pic18.Scope
import RegisterTransfer.Proofs.X86.Scope

namespace RegisterTransfer.Machine

set_option autoImplicit false

/-- The catalog of the machine, if it has one, was loaded from a description. -/
def Loaded : Machine → Prop
  | pic18 catalog => ∃ device, Pic18.Catalog.load device = .ok catalog
  | x86 _ => True

theorem delimits_backend (m : Machine) (loaded : m.Loaded) (i : m.Instruction)
    (next : Option m.Instruction) : Lowering.Delimits (m.backend.lower i next) := by
  cases m with
  | pic18 catalog =>
      obtain ⟨device, loaded⟩ := loaded
      exact Pic18.delimits_backend (Pic18.Catalog.accepted_of_load loaded) i next
  | x86 mode => exact X86.delimits_backend mode i next

/-- Whatever instruction is lowered, whatever stands behind it and whatever the table knows: the temporaries
of its cluster are numbered from zero without a gap, and each is defined once and before it is used. -/
theorem singleAssignment_lowerWith (m : Machine) (loaded : m.Loaded) (i : m.Instruction)
    (next : Option m.Instruction) {t t' : IntrinsicTable} {l : Backend.Lowered}
    (lowered : m.backend.lowerWith i next t = (.ok l, t')) :
    ∃ types, SingleAssignment types l.statements :=
  Backend.singleAssignment_of_lowered (m.delimits_backend loaded i next) lowered

/-- Sine and cosine of the top of the x86 floating-point stack. -/
def sincos : (x86 .protectedMode).Instruction :=
  X86.Instruction.of 0x1000 2 (.real .sineCosine) [] .word32

/-- A byte of a PIC18 bank counted up. -/
def countUp (c : Pic18.Catalog) : (pic18 c).Instruction :=
  (⟨0, 2, .incf, [.fileDest ⟨0x20, false, .traditional⟩ .f]⟩ : Pic18.Instruction)

/-- The clusters of both have a temporary. -/
theorem singleAssignment_lowerWith_temporary :
    (∃ l t', (x86 .protectedMode).backend.lowerWith sincos none .empty = (.ok l, t') ∧
      (∃ s ∈ l.statements, s.Names 0) ∧ ∃ types, SingleAssignment types l.statements) ∧
    ∃ c, (pic18 c).Loaded ∧
      ∃ l t', (pic18 c).backend.lowerWith (countUp c) none .empty = (.ok l, t') ∧
        (∃ s ∈ l.statements, s.Names 0) ∧ ∃ types, SingleAssignment types l.statements := by
  constructor
  · obtain ⟨l, t', lowered, named⟩ : ∃ l t',
        (x86 .protectedMode).backend.lowerWith sincos none .empty = (.ok l, t') ∧
          ∃ s ∈ l.statements, s.Names 0 :=
      ⟨_, _, rfl, _, List.mem_cons_self, _, List.mem_cons_self, rfl⟩
    exact ⟨l, t', lowered, named,
      singleAssignment_lowerWith (x86 .protectedMode) trivial sincos none lowered⟩
  · obtain ⟨c, loaded⟩ : ∃ c, Pic18.Catalog.load (some Pic18.Devices.Pic18f4620.device) = .ok c :=
      ⟨_, rfl⟩
    obtain ⟨l, t', lowered, named⟩ : ∃ l t',
        (pic18 c).backend.lowerWith (countUp c) none .empty = (.ok l, t') ∧
          ∃ s ∈ l.statements, s.Names 0 :=
      ⟨_, _, rfl, _, List.mem_cons_self, _, List.mem_cons_self, rfl⟩
    exact ⟨c, ⟨_, loaded⟩, l, t', lowered, named,
      singleAssignment_lowerWith (pic18 c) ⟨_, loaded⟩ (countUp c) none lowered⟩

end RegisterTransfer.Machine
