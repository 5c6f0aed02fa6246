/-
# RegisterTransfer.Proofs.Pic18.Landing -- where skips land

A skip looks at the instruction behind it to know how long that is, and branches past it.  What it sees
is kept by the stream, and the next pull makes a cluster of it.  So the address that one cluster branches
to is settled by a cluster that comes later, and they agree.

* `lands_instruction`: the statements of a skip end in one branch, to the end of what was shown;
* `length_of_decode`: a skip that was decoded is one word;
* `skip_lands`: the branch of every skip of a run goes to the end of the next cluster, where the one
  after that begins, or past one word if nothing more decodes.
-/
import RegisterTransfer.Proofs.Pic18.Compatibility
import RegisterTransfer.Proofs.Stream.Record

namespace RegisterTransfer.Pic18

set_option autoImplicit false

open InstructionStream Lowering

/-! ## The branch of a skip -/

/-- Statements that move no control but for a last one, which branches to an address. -/
def EndsInBranch (target : Nat) (statements : List Statement) : Prop :=
  ∃ front condition, statements = front ++ [.branch condition target] ∧
    ∀ s ∈ front, s.control? = none

theorem EndsInBranch.mapIntrinsics {target : Nat} {statements : List Statement}
    (ends : EndsInBranch target statements) (f : Intrinsic → Intrinsic) :
    EndsInBranch target (statements.map (·.mapIntrinsics f)) := by
  obtain ⟨front, condition, rfl, still⟩ := ends
  refine ⟨front.map (·.mapIntrinsics f), condition.mapIntrinsics f, by simp [Statement.mapIntrinsics],
    fun s listed => ?_⟩
  obtain ⟨s', listed', rfl⟩ := List.mem_map.mp listed
  rw [Statement.control?_mapIntrinsics]
  exact still s' listed'

/-- The lowering, begun with an empty draft, ends in a branch to an address. -/
def Lands (target : Nat) (x : Lowering Unit) : Prop :=
  Leaves (Draft.Extends [] .linear) x fun _ d => EndsInBranch target d.statements

namespace Lower

variable {c : Catalog} {i : Instruction} {next : Option Instruction} {target : Nat}

theorem lands_branch {x : Lowering Expr} (straight : Straight x) :
    Lands target (x >>= fun condition => .branch condition target) := by
  refine leaves_bind (straight [] .linear) fun condition => leaves_write fun d open_ => ?_
  obtain ⟨more, same, all⟩ := open_.statements
  exact ⟨d.statements, condition, rfl, by simpa [same] using Controlled.control?_of_straight all⟩

theorem lands_countAndSkip {delta : Int} {onZero : Bool} :
    Lands (skipTarget i next) (countAndSkip c i next delta onZero) := by
  refine leaves_operand (i.reads_expect _ _ _) fun (operand, dest) => lands_branch ?_
  refine (operand.cell c).straight_access fun place => ?_
  exact straight_bind (straight_store _ _ _) fun _ => straight_pure _

theorem lands_testAndSkip {test : Expr → Expr} :
    Lands (skipTarget i next) (testAndSkip c i next test) :=
  lands_branch (straight_onFile fun _ => straight_pure _)

theorem lands_bitTestAndSkip {ifSet : Bool} :
    Lands (skipTarget i next) (bitTestAndSkip c i next ifSet) := by
  refine leaves_operand (i.reads_expect _ _ _) fun (operand, bit) => lands_branch ?_
  exact (operand.cell c).straight_access fun _ => straight_pure _

/-- The statements of a skip end in a branch past the instruction that was shown. -/
theorem lands_instruction (c : Catalog) {i : Instruction} (next : Option Instruction)
    (skips : i.opcode.isSkip = true) : Lands (skipTarget i next) (instruction c i next) := by
  unfold instruction
  generalize i.opcode = opcode at skips ⊢
  cases opcode with
  | decfsz | dcfsnz | incfsz | infsnz => exact lands_countAndSkip
  | cpfseq | cpfsgt | cpfslt | tstfsz => exact lands_testAndSkip
  | btfsc | btfss => exact lands_bitTestAndSkip
  | _ => cases skips

end Lower

/-! ## Clusters -/

variable {c : Catalog} {i : Instruction} {next : Option Instruction} {t t' : IntrinsicTable}

theorem absorbed_of_lowered {l : Backend.Lowered}
    (lowered : (backend c).lowerWith i next t = (.ok l, t')) : l.absorbed = false := by
  obtain ⟨d, drafted, -⟩ := Backend.drafted_of_lowered lowered
  exact (lowered_of_draft drafted).1

theorem endsInBranch_of_lowered {l : Backend.Lowered} (skips : i.opcode.isSkip = true)
    (lowered : (backend c).lowerWith i next t = (.ok l, t')) :
    EndsInBranch (Lower.skipTarget i next) l.statements := by
  obtain ⟨d, drafted, -, -, same⟩ := Backend.drafted_of_lowered lowered
  rw [same]
  exact ((Lower.lands_instruction c next skips).holds Draft.extends_empty
    (lowered_of_draft drafted).2).mapIntrinsics _

/-! ## Skips in code -/

variable {family : Family} {mode : Mode}

/-- A skip takes one word. -/
theorem code_of_isSkip {address : Nat} {body : Body} (encodable : body.Encodable family mode address)
    (skips : body.1.isSkip = true) : body.code.2 = [] := by
  cases encodable <;> first
    | rfl
    | cases skips

theorem length_of_isSkip {bytes : List UInt8} {address : Nat}
    (decoded : decode family mode bytes address = .ok (some i)) (skips : i.opcode.isSkip = true) :
    i.length = 2 := by
  have valid : i.opcode ≠ .invalid := by
    intro marker
    rw [marker] at skips
    cases skips
  obtain ⟨encodable, -⟩ := encodable_of_decode decoded valid
  have alone : i.body.code.2 = [] := code_of_isSkip encodable.body skips
  rw [encodable.long, Instruction.encode, length_codeBytes, alone]
  rfl

/-- An instruction that a stream over an image comes to was decoded from some of the bytes. -/
theorem decoded_of_mem_items {image : List UInt8} {base n : Nat}
    (listed : .ok i ∈ (ClusterStream.after (backend c) n
      ⟨ofImage (decoder family mode) image base, t, false⟩).instructions.items) :
    ∃ bytes address, decode family mode bytes address = .ok (some i) := by
  have first := (ClusterStream.items_after_suffix (coherent_ofImage _ _ _) n).mem listed
  simp only [items_ofImage, itemsOf, List.mem_append, List.mem_map, Except.ok.injEq,
    exists_eq_right, reduceCtorEq, and_false, exists_false, or_false] at first
  exact Decoder.decoded_of_mem_decodeAll first

/-! ## Two pulls -/

section Pulls

variable {s : ClusterStream Instruction}

/-- The pull of a skip shows the instruction behind it and leaves that in the stream. -/
theorem next_of_skip (coherent : s.instructions.Coherent)
    (taken : s.instructions.items.head? = some (.ok i)) (skips : i.opcode.isSkip = true) {k : Cluster}
    (pulled : (s.next (backend c)).1 = some (.ok k)) :
    let s' := (s.next (backend c)).2
    k.address = i.address ∧ k.length = i.length ∧
      EndsInBranch (Lower.skipTarget i (instruction? s'.instructions.items.head?)) k.statements ∧
      s'.instructions.items = s.instructions.items.tail ∧
      s'.failed = false ∧ s'.instructions.Coherent := by
  obtain ⟨j, rest, l, t, items, lowered, rfl, open_, coherent', left⟩ :=
    ClusterStream.lowered_of_next coherent pulled
  rw [items] at taken ⊢
  cases taken
  have alone := absorbed_of_lowered lowered
  rw [alone] at left
  simp only [Bool.false_eq_true, if_false] at left
  intro s'
  refine ⟨rfl, ?_, ?_, left, open_, coherent'⟩
  · simp only [Backend.clusterOf, alone]
    rfl
  · rw [left]
    exact endsInBranch_of_lowered skips lowered

/-- What the stream shows is what the next pull makes its cluster of. -/
theorem skipTarget_of_next (coherent : s.instructions.Coherent) (i : Instruction) {d : Cluster}
    (pulled : (s.next (backend c)).1 = some (.ok d)) :
    Lower.skipTarget i (instruction? s.instructions.items.head?) = d.endAddress := by
  obtain ⟨j, rest, l, t, items, lowered, rfl, -⟩ := ClusterStream.lowered_of_next coherent pulled
  rw [items]
  simp only [Cluster.endAddress, Backend.clusterOf, absorbed_of_lowered lowered]
  rfl

/-- Nothing is shown at the end of the code and before bytes that do not decode. -/
theorem skipTarget_of_ended (coherent : s.instructions.Coherent) (open_ : s.failed = false)
    (i : Instruction)
    (ended : (s.next (backend c)).1 = none ∨
      ∃ fault, (s.next (backend c)).1 = some (.error (.decode fault))) :
    Lower.skipTarget i (instruction? s.instructions.items.head?) = i.nextAddress + 2 := by
  cases all : s.instructions.items with
  | nil => rfl
  | cons item rest =>
      cases item with
      | error fault => rfl
      | ok j =>
          exfalso
          cases lowered : (backend c).lowerWith j (instruction? rest.head?) s.table with
          | mk result t =>
              cases result with
              | error fault =>
                  obtain ⟨stream, step⟩ :=
                    ClusterStream.next_of_unlowered coherent open_ all lowered
                  have other := (Machine.sound_backend (.pic18 c)).ne_decode
                    (congrArg Prod.fst lowered)
                  rw [step] at ended
                  rcases ended with none_ | ⟨f, same⟩
                  · cases none_
                  · cases same
                    exact other f rfl
              | ok l =>
                  obtain ⟨stream, step, -⟩ := ClusterStream.next_of_lowered coherent open_ all lowered
                  rw [step] at ended
                  rcases ended with none_ | ⟨f, same⟩
                  · cases none_
                  · cases same

end Pulls

/-! ## Runs over an image -/

/-- Every skip of a run over an image lands on a boundary of the run.  The statements of its cluster end
in a branch, and move no control before.  If the next pull gives a cluster, the branch goes to the end of
that, which is where the cluster behind that begins; if the stream ends there or the bytes do not decode,
it goes past one word.  The skip takes one word from the stream, itself, and nothing of what it looks
at. -/
theorem skip_lands (c : Catalog) (family : Family) (mode : Mode) (image : List UInt8) (base : Nat)
    (t : IntrinsicTable) (n : Nat) {i : Instruction} {k : Cluster} :
    let stream (m : Nat) : ClusterStream Instruction :=
      .after (backend c) m ⟨ofImage (decoder family mode) image base, t, false⟩
    let pull (m : Nat) := ((stream m).next (backend c)).1
    (stream n).instructions.next.1 = some (.ok i) → i.opcode.isSkip = true →
      pull n = some (.ok k) →
    k.address = i.address ∧ k.length = 2 ∧
      (stream (n + 1)).instructions.items = (stream n).instructions.items.tail ∧
      ∃ target, EndsInBranch target k.statements ∧
        (∀ d, pull (n + 1) = some (.ok d) → target = d.address + d.length ∧
          ∀ e, pull (n + 2) = some (.ok e) → e.address = target) ∧
        (pull (n + 1) = none ∨ (∃ fault, pull (n + 1) = some (.error (.decode fault))) →
          target = k.address + 4) := by
  intro stream pull taken skips pulled
  have coherent : (stream n).instructions.Coherent :=
    ClusterStream.coherent_after (coherent_ofImage _ _ _) n
  rw [next_fst] at taken
  obtain ⟨bytes, address, decoded⟩ := decoded_of_mem_items (List.mem_of_mem_head? taken)
  have word := length_of_isSkip decoded skips
  obtain ⟨placed, long, ends, left, open_, coherent'⟩ := next_of_skip coherent taken skips pulled
  have later : ((stream n).next (backend c)).2 = stream (n + 1) :=
    (ClusterStream.after_succ n).symm
  rw [later] at ends left open_ coherent'
  refine ⟨placed, long.trans word, left, _, ends, fun d pulled' => ?_, fun ended => ?_⟩
  · have target := skipTarget_of_next coherent' i pulled'
    refine ⟨target, fun e pulled'' => ?_⟩
    rw [target]
    exact ClusterStream.contiguous_pulls (backend c) (located_decoder family mode) image base t (n + 1)
      pulled' pulled''
  · rw [skipTarget_of_ended coherent' open_ i ended, Instruction.nextAddress, word, placed]

/-- Skip if the zero flag is clear. -/
def btfscZero : Instruction := ⟨0x100, 2, .btfsc, [.fileBit ⟨0xD8, true, .traditional⟩ 2]⟩

/-- A skip before a `goto` lands behind both words of that. -/
theorem skip_lands_btfsc :
    ∃ c, Catalog.load (some Devices.Pic18f4620.device) = .ok c ∧
      let stream (m : Nat) : ClusterStream Instruction :=
        .after (backend c) m ⟨ofImage (decoder .traditional .traditional)
          [0xD8, 0xB4, 0x00, 0xEF, 0x08, 0xF0] 0x100, .empty, false⟩
      let pull (m : Nat) := ((stream m).next (backend c)).1
      (stream 0).instructions.next.1 = some (.ok btfscZero) ∧ btfscZero.opcode.isSkip = true ∧
        ∃ k d, pull 0 = some (.ok k) ∧ pull 1 = some (.ok d) ∧ EndsInBranch 0x106 k.statements := by
  refine ⟨_, rfl, ?_⟩
  intro stream pull
  obtain ⟨k, pulled⟩ : ∃ k, pull 0 = some (.ok k) := ⟨_, rfl⟩
  obtain ⟨d, pulled', stop⟩ : ∃ d, pull 1 = some (.ok d) ∧ d.address + d.length = 0x106 :=
    ⟨_, rfl, rfl⟩
  obtain ⟨-, -, -, target, ends, lands, -⟩ :=
    skip_lands _ .traditional .traditional _ 0x100 .empty 0 (i := btfscZero) rfl rfl pulled
  rw [(lands d pulled').1, stop] at ends
  exact ⟨rfl, rfl, k, d, pulled, pulled', ends⟩

end RegisterTransfer.Pic18
