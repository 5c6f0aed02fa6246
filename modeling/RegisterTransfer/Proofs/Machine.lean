/-
# RegisterTransfer.Proofs.Machine -- what the back-ends of both machines promise

`Machine` is either back-end: of a PIC18 device or of an x86 mode.  Both are `Backend.Sound`: they
refuse an instruction with a fault of its own, before they ask for an intrinsic, or write a draft that
asks for regular intrinsics only, applies just those, and whose class agrees with its statements.  Two
results follow.

* `classified_lowerTaken`: the class of every cluster agrees with its statements, and so it does in
  every run over an image (`Backend.Sound.classified_collect`);
* `Site.lowerAll_arities`: no order in which instructions of any machines are lowered against one
  table makes a request clash with an earlier one.
-/
import RegisterTransfer.Proofs.Pic18.Classification
import RegisterTransfer.Proofs.Pic18.Ledger
import RegisterTransfer.Proofs.Stream.TwoPass
import RegisterTransfer.Proofs.X86.Classification
import RegisterTransfer.Proofs.X86.Ledger

namespace RegisterTransfer

set_option autoImplicit false

open InstructionStream

/-! ## Sound back-ends -/

section Sound

variable {ι : Type} [MachineInstruction ι]

/-- What a back-end makes of an instruction: a fault of the instruction before anything is asked for, or a
regular draft that applies what it asks for and whose class agrees with its statements if the next
instruction starts where this one ends. -/
structure Backend.Sound (b : Backend ι) : Prop where
  faults : ∀ {i next refusal}, b.draft i next = .error refusal →
    refusal.fault.isOfInstruction = true
  silent : ∀ {i next refusal}, b.draft i next = .error refusal → refusal.requests = []
  regular : ∀ {i next absorbed d}, b.draft i next = .ok (absorbed, d) → d.Regular
  balanced : ∀ {i next absorbed d}, b.draft i next = .ok (absorbed, d) → d.Owes []
  controlled : ∀ {i next absorbed d}, b.draft i next = .ok (absorbed, d) →
    (∀ j ∈ next,
      MachineInstruction.address j =
        MachineInstruction.address i + MachineInstruction.length i) →
    Controlled (MachineInstruction.address i) (Lowering.clusterEnd i next absorbed) d.flow
      d.statements

theorem Backend.sound_of_classifies {b : Backend ι}
    (all : ∀ i next, Lowering.ClassifiesCluster i next (b.lower i next))
    (settles : ∀ i next, Lowering.Settles (b.lower i next) fun _ => True) : b.Sound := by
  constructor
  · intro i next refusal drafted
    exact (all i next).refused Draft.extends_empty drafted
  · intro i next refusal drafted
    exact (settles i next).refused Draft.silent_empty drafted
  · intro i next absorbed d drafted
    exact ((all i next).holds Draft.extends_empty drafted).1
  · intro i next absorbed d drafted
    exact ((settles i next).holds Draft.silent_empty drafted).2
  · intro i next absorbed d drafted
    exact ((all i next).holds Draft.extends_empty drafted).2

namespace Backend.Sound

variable {b : Backend ι} {i : ι} {next : Option ι} {t t' : IntrinsicTable}

/-- A refusal leaves the table alone. -/
theorem lowerWith_of_refused (sound : b.Sound) {refusal : Refusal}
    (drafted : b.draft i next = .error refusal) (t : IntrinsicTable) :
    b.lowerWith i next t = (.error refusal.fault, t) := by
  simp only [lowerWith, drafted, Refusal.settle, sound.silent drafted, IntrinsicTable.ensureAll]

/-- On a regular table every draft stands, and the table stays regular. -/
theorem lowerWith_of_regular (sound : b.Sound) (regular : t.Regular) (i : ι) (next : Option ι) :
    (b.lowerWith i next t).2.Regular ∧
      ∀ fault, (b.lowerWith i next t).1 = .error fault → fault.isOfInstruction = true := by
  cases drafted : b.draft i next with
  | error refusal =>
      rw [sound.lowerWith_of_refused drafted]
      refine ⟨regular, ?_⟩
      rintro _ ⟨⟩
      exact sound.faults drafted
  | ok out =>
      obtain ⟨absorbed, d⟩ := out
      obtain ⟨t', settled, kept⟩ := d.settle_of_regular (sound.regular drafted) regular
      simp only [lowerWith, drafted, settled]
      exact ⟨kept, fun _ failed => by cases failed⟩

/-- The cluster of an instruction, on whatever table it was lowered. -/
theorem classified_clusterOf (sound : b.Sound) {l : Lowered}
    (behind : ∀ j ∈ next,
      MachineInstruction.address j = MachineInstruction.address i + MachineInstruction.length i)
    (lowered : b.lowerWith i next t = (.ok l, t')) : (clusterOf i next l).Classified := by
  obtain ⟨d, drafted, -, flow, statements⟩ := drafted_of_lowered lowered
  have agrees := (sound.controlled drafted behind).mapIntrinsics t'.resolve
  rwa [← flow, ← statements] at agrees

theorem classified_lowerAll (sound : b.Sound) {decoded : List ι} {address : Nat}
    (adjacent : Adjacent address decoded) (t : IntrinsicTable) :
    ∀ c ∈ (b.lowerAll t decoded).1, c.Classified := by
  induction decoded using pass_induction generalizing address t with
  | nil => simp [lowerAll]
  | cons i rest ih =>
      cases lowered : b.lowerWith i rest.head? t with
      | mk result t' =>
          cases result with
          | error fault => simp [lowerAll_of_fault lowered]
          | ok l =>
              obtain ⟨_, adjacent'⟩ := adjacent.left l.absorbed
              rw [lowerAll_of_lowered lowered]
              intro c listed
              rcases List.mem_cons.mp listed with rfl | listed
              · exact sound.classified_clusterOf adjacent.behind lowered
              · exact ih l.absorbed adjacent' t' c listed

/-- Every cluster of a run over an image. -/
theorem classified_collect (sound : b.Sound) {d : Decoder ι} (located : d.Located)
    (image : List UInt8) (base : Nat) (t : IntrinsicTable) {c : Cluster}
    (found : .ok c ∈ (ClusterStream.collect b ⟨ofImage d image base, t, false⟩).1) :
    c.Classified := by
  rw [ClusterStream.collect_ofImage] at found
  refine sound.classified_lowerAll (Decoder.adjacent_decodeAll located image base) t c ?_
  simpa [itemsOfRun] using found

end Backend.Sound

end Sound

/-! ## Either machine -/

/-- A machine that there is a back-end for. -/
inductive Machine where
  | pic18 (catalog : Pic18.Catalog)
  | x86 (mode : X86.Mode)

namespace Machine

def Instruction : Machine → Type
  | pic18 _ => Pic18.Instruction
  | x86 _ => X86.Instruction

instance : (m : Machine) → MachineInstruction m.Instruction
  | pic18 _ => inferInstanceAs (MachineInstruction Pic18.Instruction)
  | x86 _ => inferInstanceAs (MachineInstruction X86.Instruction)

def backend : (m : Machine) → Backend m.Instruction
  | pic18 catalog => Pic18.backend catalog
  | x86 mode => X86.backend mode

theorem sound_backend (m : Machine) : m.backend.Sound := by
  cases m with
  | pic18 catalog =>
      exact Backend.sound_of_classifies (Pic18.classifiesCluster_backend catalog)
        (Pic18.settles_backend catalog)
  | x86 mode =>
      exact Backend.sound_of_classifies (X86.classifiesCluster_backend mode)
        (X86.settles_backend mode)

/-- Whatever instruction is lowered and whatever stands behind it: if what the stream shows next starts
where the instruction ends, the class of the cluster agrees with its statements. -/
theorem classified_lowerTaken (m : Machine) (s : ClusterStream m.Instruction) (i : m.Instruction)
    (behind : ∀ j ∈ s.instructions.peekInstruction.1,
      MachineInstruction.address j = MachineInstruction.address i + MachineInstruction.length i)
    {c : Cluster} (lowered : (s.lowerTaken m.backend i).1 = .ok c) : c.Classified := by
  rw [peekInstruction_fst] at behind
  cases ran : m.backend.lowerWith i (instruction? s.instructions.items.head?) s.table with
  | mk result t =>
      cases result with
      | error fault =>
          rw [ClusterStream.lowerTaken_of_fault ran] at lowered
          cases lowered
      | ok l =>
          rw [ClusterStream.lowerTaken_of_lowered ran] at lowered
          cases lowered
          exact m.sound_backend.classified_clusterOf behind ran

/-- A repetition with the `movsb` behind it branches to the end of both. -/
theorem classified_lowerTaken_rep :
    let s : ClusterStream (Machine.x86 .protectedMode).Instruction :=
      ⟨ofImage ClusterStream.copyDecoder [0xA4] 0x1001, .empty, false⟩
    let rep : X86.Instruction := .of 0x1000 1 .rep [] .word32
    ∃ c, (s.lowerTaken (Machine.x86 .protectedMode).backend rep).1 = .ok c ∧
      c.address = 0x1000 ∧ c.length = 2 ∧ c.flow = .conditional ∧ c.Classified := by
  intro s rep
  refine ⟨_, rfl, rfl, rfl, rfl, ?_⟩
  refine classified_lowerTaken (Machine.x86 .protectedMode) s rep ?_ rfl
  intro j shown
  cases shown
  rfl

/-! ## One table for all machines -/

/-- An instruction of some machine, with the one behind it if that decodes. -/
structure Site where
  machine : Machine
  instruction : machine.Instruction
  next : Option machine.Instruction

namespace Site

/-- Lower the instruction against a table. -/
def lower (s : Site) (t : IntrinsicTable) : Except Fault Backend.Lowered × IntrinsicTable :=
  s.machine.backend.lowerWith s.instruction s.next t

/-- The intrinsics that the instruction asks for, in order. -/
def requests (s : Site) : List Intrinsic :=
  match s.machine.backend.draft s.instruction s.next with
  | .ok (_, d) => d.requests
  | .error refusal => refusal.requests

/-- Lower instructions one after another against one table.  A fault does not keep the others from
being lowered. -/
def lowerAll (t : IntrinsicTable) :
    List Site → List (Except Fault Backend.Lowered) × IntrinsicTable
  | [] => ([], t)
  | s :: rest =>
      let later := lowerAll (s.lower t).2 rest
      ((s.lower t).1 :: later.1, later.2)

theorem regular_of_requests (s : Site) {p : Intrinsic} (asked : p ∈ s.requests) : p.Regular := by
  unfold requests at asked
  cases drafted : s.machine.backend.draft s.instruction s.next with
  | error refusal =>
      rw [drafted] at asked
      simp only [s.machine.sound_backend.silent drafted] at asked
      cases asked
  | ok out =>
      rw [drafted] at asked
      exact s.machine.sound_backend.regular drafted p asked

theorem lowerAll_of_regular (sites : List Site) {t : IntrinsicTable} (regular : t.Regular) :
    (lowerAll t sites).2.Regular ∧
      ∀ fault, .error fault ∈ (lowerAll t sites).1 → fault.isOfInstruction = true := by
  induction sites generalizing t with
  | nil => exact ⟨regular, nofun⟩
  | cons s rest ih =>
      obtain ⟨regular', own⟩ :=
        s.machine.sound_backend.lowerWith_of_regular regular s.instruction s.next
      obtain ⟨regular'', later⟩ := ih regular'
      refine ⟨regular'', fun fault listed => ?_⟩
      rcases List.mem_cons.mp listed with here | listed
      · exact own fault here.symm
      · exact later fault listed

/-- No arity clash can be reached.  Instructions of any devices and modes, with any operands, are
lowered in any order against one table that starts empty, and no request is refused for the number of
its arguments; for there are no two requests of one name with different numbers of arguments. -/
theorem lowerAll_arities (sites : List Site) :
    (∀ name expected actual,
      .error (.arityMismatch name expected actual) ∉ (lowerAll .empty sites).1) ∧
    ∀ s s' : Site, ∀ p ∈ s.requests, ∀ p' ∈ s'.requests, p.name = p'.name → p.arity = p'.arity := by
  constructor
  · intro name expected actual listed
    cases (lowerAll_of_regular sites IntrinsicTable.regular_empty).2 _ listed
  · intro s s' p asked p' asked' named
    have fits : IntrinsicName.arity? p.name = some p.arity := s.regular_of_requests asked
    have fits' : IntrinsicName.arity? p'.name = some p'.arity := s'.regular_of_requests asked'
    rw [named, fits'] at fits
    exact (Option.some.inj fits).symm

end Site

end Machine

end RegisterTransfer
