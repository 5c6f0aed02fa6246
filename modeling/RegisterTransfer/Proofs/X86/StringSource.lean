/-
# RegisterTransfer.Proofs.X86.StringSource -- the segment of a string instruction's source

A string instruction reads its source at the source index, and its operands say through which segment.
Lowering does not look at these operands: it builds references of its own (`Lower.indexed`), with the data
segment for every source in real mode and none in the flat modes.

* `Lower.emits_stringStep`: the references of one step, for every instruction and mode;
* `source_reached`: a cluster reaches its source through the segment that an operand without an override
  has.  That is the operand's own segment just if it has no override that counts (`Overrides`).
-/
import RegisterTransfer.Proofs.X86.Repetition

namespace RegisterTransfer

set_option autoImplicit false

/-! ## References to memory -/

/-- A place in memory: a segment, if there is one, and the address within it. -/
structure Reference where
  segment : Option Expr
  address : Expr

def Reference.mapIntrinsics (f : Intrinsic → Intrinsic) (r : Reference) : Reference :=
  ⟨r.segment.map (·.mapIntrinsics f), r.address.mapIntrinsics f⟩

namespace Expr

/-- The place that an expression stands for, if it stands for one in memory. -/
def reference? : Expr → Option Reference
  | memory _ ea => some ⟨none, ea⟩
  | segmented _ segment ea => some ⟨some segment, ea⟩
  | _ => none

/-- The places in memory that an expression refers to. -/
def references (e : Expr) : List Reference := e.parts.filterMap reference?

theorem reference?_mapIntrinsics (f : Intrinsic → Intrinsic) (e : Expr) :
    (e.mapIntrinsics f).reference? = e.reference?.map (·.mapIntrinsics f) := by
  cases e <;> rfl

@[simp]
theorem references_binary (op : BinaryOp) (t : DataType) (a b : Expr) :
    (binary op t a b).references = a.references ++ b.references :=
  List.filterMap_append ..

@[simp]
theorem references_addInt (a : Expr) (n : Int) : (a.addInt n).references = a.references := by
  unfold addInt
  split <;> exact (references_binary ..).trans (List.append_nil _)

@[simp]
theorem references_sub (a b : Expr) : (a.sub b).references = a.references ++ b.references :=
  references_binary ..

@[simp]
theorem references_conditionCodes (a : Expr) : (conditionCodes a).references = a.references := rfl

@[simp]
theorem references_test (c : Condition) (a : Expr) : (test c a).references = a.references := rfl

@[simp]
theorem references_isZero (a : Expr) : a.isZero.references = a.references :=
  (references_binary ..).trans (List.append_nil _)

@[simp]
theorem references_apply (p : Intrinsic) (t : DataType) (es : List Expr) :
    (apply p t es).references = es.flatMap references := by
  show (partsList es).filterMap reference? = _
  induction es with
  | nil => rfl
  | cons e rest ih => simp [partsList, references, ih]

end Expr

namespace Statement

/-- The places in memory that a statement refers to. -/
def references (s : Statement) : List Reference := s.parts.filterMap Expr.reference?

@[simp]
theorem references_assign (dst src : Expr) :
    (assign dst src).references = dst.references ++ src.references :=
  List.filterMap_append ..

@[simp]
theorem references_effect (e : Expr) : (effect e).references = e.references := rfl

@[simp]
theorem references_branch (condition : Expr) (target : Nat) :
    (branch condition target).references = condition.references := rfl

@[simp]
theorem references_goto_address (a : Nat) : (goto (.address a)).references = [] := rfl

theorem references_mapIntrinsics (f : Intrinsic → Intrinsic) (s : Statement) :
    (s.mapIntrinsics f).references = s.references.map (·.mapIntrinsics f) := by
  simp only [references, parts_mapIntrinsics, List.filterMap_map, Function.comp_def,
    Expr.reference?_mapIntrinsics, List.map_filterMap]

end Statement

namespace X86

/-- The place at an index register, within a segment if there is one. -/
def referenceAt (segment : Option Register) (index : Register) : Reference :=
  ⟨segment.map Register.value, index.value⟩

theorem mapIntrinsics_referenceAt (f : Intrinsic → Intrinsic) (segment : Option Register)
    (index : Register) : (referenceAt segment index).mapIntrinsics f = referenceAt segment index := by
  cases segment <;> rfl

namespace Lower

variable {m : Mode} {i : Instruction}

/-! ## One step -/

/-- The register at which a string instruction reads its source. -/
def sourceIndex (i : Instruction) : Register := Register.esi.resize i.addressType.bits

/-- The register at which it writes, or reads the second operand of a comparison. -/
def destinationIndex (i : Instruction) : Register := Register.edi.resize i.addressType.bits

/-- The segment that a string instruction goes through by itself. -/
def stringSegment (m : Mode) (segment : Segment) : Option Register :=
  if m.isSegmented then some (.segment segment) else none

/-- The references of one step, in the order of its statements. -/
def stepReferences (m : Mode) (i : Instruction) (op : StringOp) : List Reference :=
  let source := referenceAt (stringSegment m .ds) (sourceIndex i)
  let destination := referenceAt (stringSegment m .es) (destinationIndex i)
  match op with
  | .movs | .movsb => [destination, source]
  | .cmps | .cmpsb => [source, destination]
  | .lods | .lodsb | .outs => [source]
  | .stos | .stosb | .scas | .scasb | .ins => [destination]

/-- What a table puts into an intrinsic changes none of them. -/
theorem mapIntrinsics_stepReferences (f : Intrinsic → Intrinsic) (op : StringOp) :
    (stepReferences m i op).map (·.mapIntrinsics f) = stepReferences m i op := by
  cases op <;> simp only [stepReferences, List.map_cons, List.map_nil, mapIntrinsics_referenceAt]

@[simp]
theorem references_register (r : Register) : r.value.references = [] := rfl

@[simp]
theorem references_flags (mask : Nat) : (Flag.value mask).references = [] := rfl

@[simp]
theorem references_indexed (type : DataType) (index : Register) (segment : Segment) :
    (indexed m type index segment).references = [referenceAt (stringSegment m segment) index] := by
  cases m <;> rfl

/-- Every string instruction refers to memory at its index registers, through segments that depend on the
mode alone. -/
theorem emits_stringStep (m : Mode) (i : Instruction) (op : StringOp) :
    ∃ body, (∀ k, Lowering.Emits k (stringStep m i op) () body k) ∧
      body.flatMap Statement.references = stepReferences m i op := by
  have two : ∀ k (r r' : Register) (n n' : Int), Lowering.Emits k (adjust r n >>= fun _ => adjust r' n')
      () [.assign r.value (r.value.addInt n), .assign r'.value (r'.value.addInt n')] k :=
    fun k r r' n n' => Lowering.emits_bind (Lowering.emits_assign _ _) (Lowering.emits_assign _ _)
  cases op with
  | movs | movsb =>
      refine ⟨_, fun k => Lowering.emits_bind (Lowering.emits_assign _ _) (two k _ _ _ _), ?_⟩
      simp [stepReferences, sourceIndex, destinationIndex]
  | cmps | cmpsb =>
      refine ⟨_, fun k => Lowering.emits_bind (Lowering.emits_assign _ _) (two k _ _ _ _), ?_⟩
      simp [stepReferences, sourceIndex, destinationIndex]
  | stos | stosb | lods | lodsb | scas | scasb =>
      refine ⟨_, fun k => Lowering.emits_bind (Lowering.emits_assign _ _) (Lowering.emits_assign _ _), ?_⟩
      simp [stepReferences, sourceIndex, destinationIndex]
  | ins =>
      refine ⟨_, fun k => Lowering.emits_bind (Lowering.emits_apply _ _ _ rfl)
        (Lowering.emits_bind (Lowering.emits_assign _ _) (Lowering.emits_assign _ _)), ?_⟩
      simp [stepReferences, destinationIndex]
  | outs =>
      refine ⟨_, fun k => Lowering.emits_bind (Lowering.emits_bind (Lowering.emits_apply _ _ _ rfl)
        (Lowering.emits_effect _)) (Lowering.emits_assign _ _), ?_⟩
      simp [stepReferences, sourceIndex]

end Lower

/-- A loop refers to memory as its body does. -/
theorem Loop.references_ofString (start : Nat) (s : Instruction) (op : StringOp)
    (repetition : Repetition) (body : List Statement) :
    (Loop.ofString start s op repetition body).statements.flatMap Statement.references =
      body.flatMap Statement.references := by
  unfold Loop.statements Loop.ofString
  cases op.isComparison <;> simp [Lower.zeroFlag]

/-! ## Clusters -/

/-- `Executes s i next` says that the cluster of `i`, which shows `next` behind it, stands for the string
instruction `s`, once or repeated. -/
def Executes (s i : Instruction) (next : Option Instruction) : Prop :=
  (i = s ∧ s.repetition = none) ∨ ∃ repetition, Repeated s repetition i next

/-- The references of a cluster are those of one step. -/
theorem references_of_executes (m : Mode) {s i : Instruction} {op : StringOp}
    (string : s.opcode = .string op) {next : Option Instruction} (executes : Executes s i next)
    {t : IntrinsicTable} (regular : t.Regular) :
    ∃ l t', (backend m).lowerWith i next t = (.ok l, t') ∧
      l.statements.flatMap Statement.references = Lower.stepReferences m s op := by
  obtain ⟨body, step, references⟩ := Lower.emits_stringStep m s op
  obtain ⟨absorbed, statements, emits, same⟩ : ∃ absorbed statements,
      Lowering.Emits 0 ((backend m).lower i next) absorbed statements 0 ∧
        statements.flatMap Statement.references = body.flatMap Statement.references := by
    rcases executes with ⟨rfl, alone⟩ | ⟨repetition, repeated⟩
    · have plain : { i with repetition := none } = i := by rw [← alone]
      exact ⟨false, body, plain ▸ emits_of_unrepeated string step, rfl⟩
    · obtain ⟨absorbed, emits, -⟩ := emits_of_repeated string repeated step
      exact ⟨absorbed, _, emits, Loop.references_ofString ..⟩
  obtain ⟨flow, t', lowered, -⟩ := Backend.lowerWith_of_emits emits regular
  refine ⟨_, t', lowered, ?_⟩
  simp only [List.flatMap_map, Statement.references_mapIntrinsics]
  rw [← List.map_flatMap, same, references, Lower.mapIntrinsics_stepReferences]

/-! ## The source -/

/-- The string instructions that read memory at the source index. -/
def StringOp.hasSource : StringOp → Bool
  | movs | movsb | lods | lodsb | cmps | cmpsb | outs => true
  | stos | stosb | scas | scasb | ins => false

namespace MemoryOperand

/-- Whether a reference is addressed through the source index, at some width. -/
def isSource (ref : MemoryOperand) : Bool :=
  [Width.bits16, .bits32, .bits64].any fun w => ref.base = some (.general 6 w)

/-- A reference whose own segment counts in a mode, and is not the one it has by default. -/
def Overrides (ref : MemoryOperand) : Mode → Prop
  | .realMode => ref.segment ≠ none ∧ ref.segment ≠ some (.segment .ds)
  | .protectedMode | .longMode =>
      ref.segment = some (.segment .fs) ∨ ref.segment = some (.segment .gs)

/-- Without an override the source is in the data segment. -/
theorem defaultSegment_of_isSource {ref : MemoryOperand} (source : ref.isSource = true) (m : Mode) :
    ref.defaultSegment m = Lower.stringSegment m .ds := by
  have base : ref.isStackBased = false := by
    simp only [isSource, List.any_cons, List.any_nil, Bool.or_false, Bool.or_eq_true,
      decide_eq_true_eq] at source
    rcases source with same | same | same <;> rw [isStackBased, same] <;> rfl
  cases m <;> simp [defaultSegment, Lower.stringSegment, Mode.isSegmented, base]

theorem segmentIn_eq_default_iff {ref : MemoryOperand} (source : ref.isSource = true) (m : Mode) :
    ref.segmentIn m = Lower.stringSegment m .ds ↔ ¬ref.Overrides m := by
  unfold segmentIn
  rw [defaultSegment_of_isSource source]
  cases m with
  | realMode =>
      cases own : ref.segment <;>
        simp [own, Lower.stringSegment, Mode.isSegmented, honours, Overrides]
  | protectedMode | longMode =>
      cases own : ref.segment with
      | none => simp [own, Lower.stringSegment, Mode.isSegmented, Overrides]
      | some r => simp [own, Lower.stringSegment, Mode.isSegmented, honours, Overrides]

end MemoryOperand

/-- The operands of a string instruction that are addressed through the source index. -/
def Instruction.sources (s : Instruction) : List MemoryOperand :=
  s.operands.filterMap fun
    | .memory ref => if ref.isSource then some ref else none
    | _ => none

theorem Instruction.isSource_of_mem {s : Instruction} {ref : MemoryOperand}
    (carried : ref ∈ s.sources) : ref.isSource = true := by
  obtain ⟨o, -, found⟩ := List.mem_filterMap.mp carried
  cases o with
  | memory other =>
      obtain ⟨source, same⟩ := Option.ite_none_right_eq_some.mp found
      cases same
      exact source
  | _ => cases found

/-- Some statements refer to memory at an index register, and always through one segment or none. -/
structure Reaches (statements : List Statement) (index : Register) (segment : Option Register) :
    Prop where
  found : referenceAt segment index ∈ statements.flatMap Statement.references
  only : ∀ r ∈ statements.flatMap Statement.references,
    r.address = index.value → r.segment = segment.map Register.value

/-- No other register shares a family with the data segment. -/
theorem Register.eq_ds_of_value {r : Register} (same : r.value = (Register.segment .ds).value) :
    r = .segment .ds := by
  have family : r.family = 19 := congrArg Identifier.family (Expr.identifier.inj same)
  cases r with
  | segment s => cases s <;> first | rfl | cases family
  | general n w => exact absurd family (Nat.ne_of_lt (by simp [Register.family]; omega))
  | highByte n => exact absurd family (Nat.ne_of_lt (by simp [Register.family]; omega))
  | stack n => exact absurd family (Nat.ne_of_gt (by simp [Register.family]; omega))
  | _ => cases family

/-- A segment is told from the one that a string instruction goes through by its expression. -/
theorem eq_of_map_value {m : Mode} {segment : Option Register}
    (same : segment.map Register.value = (Lower.stringSegment m .ds).map Register.value) :
    segment = Lower.stringSegment m .ds := by
  cases segment with
  | none => cases m <;> first | rfl | cases same
  | some r =>
      cases m with
      | realMode => rw [Register.eq_ds_of_value (Option.some.inj same)]; rfl
      | protectedMode | longMode => cases same

/-- The two index registers are of different families. -/
theorem Lower.destinationIndex_ne (i : Instruction) :
    (destinationIndex i).value ≠ (sourceIndex i).value := by
  intro same
  have family : (destinationIndex i).family = (sourceIndex i).family :=
    congrArg Identifier.family (Expr.identifier.inj same)
  rw [destinationIndex, sourceIndex, Register.family_resize, Register.family_resize] at family
  cases family

/-- One step reaches its source through the segment that it goes through by itself. -/
theorem reaches_of_references {m : Mode} {s : Instruction} {op : StringOp}
    (reads : op.hasSource = true) {statements : List Statement}
    (references : statements.flatMap Statement.references = Lower.stepReferences m s op) :
    Reaches statements (Lower.sourceIndex s) (Lower.stringSegment m .ds) := by
  have listed : referenceAt (Lower.stringSegment m .ds) (Lower.sourceIndex s) ∈
      Lower.stepReferences m s op := by
    cases op with
    | movs | movsb => exact List.mem_cons_of_mem _ List.mem_cons_self
    | lods | lodsb | cmps | cmpsb | outs => exact List.mem_cons_self
    | stos | stosb | scas | scasb | ins => cases reads
  have known : ∀ r ∈ Lower.stepReferences m s op,
      r = referenceAt (Lower.stringSegment m .ds) (Lower.sourceIndex s) ∨
        r = referenceAt (Lower.stringSegment m .es) (Lower.destinationIndex s) := by
    cases op <;> simp [Lower.stepReferences]
  rw [← references] at listed known
  refine ⟨listed, fun r found there => ?_⟩
  rcases known r found with rfl | rfl
  · rfl
  · exact absurd there (Lower.destinationIndex_ne s)

/-- A string instruction, once or repeated, in any mode, reaches its source through the segment that an
operand has by default.  It is the segment of an operand that it carries just if that has no override. -/
theorem source_reached (m : Mode) {s i : Instruction} {op : StringOp} (string : s.opcode = .string op)
    (reads : op.hasSource = true) {next : Option Instruction} (executes : Executes s i next)
    {ref : MemoryOperand} (carried : ref ∈ s.sources) {t : IntrinsicTable} (regular : t.Regular) :
    ∃ l t', (backend m).lowerWith i next t = (.ok l, t') ∧
      Reaches l.statements (Lower.sourceIndex s) (ref.defaultSegment m) ∧
      (Reaches l.statements (Lower.sourceIndex s) (ref.segmentIn m) ↔ ¬ref.Overrides m) := by
  have source := Instruction.isSource_of_mem carried
  obtain ⟨l, t', lowered, references⟩ := references_of_executes m string executes regular
  have reaches := reaches_of_references reads references
  refine ⟨l, t', lowered, ?_, ?_⟩
  · rw [MemoryOperand.defaultSegment_of_isSource source]
    exact reaches
  · rw [← MemoryOperand.segmentIn_eq_default_iff source]
    constructor
    · intro own
      exact eq_of_map_value (reaches.only _ own.found rfl)
    · intro same
      rw [same]
      exact reaches

/-- A source operand at `si`, with a segment of its own or none. -/
def sourceAtSi (segment : Option Register) : MemoryOperand :=
  ⟨.byte, segment, some (.general 6 .bits16), none, 1, 0⟩

/-- `rep movsb` with its two operands. -/
def repMovsb (segment : Option Register) : Instruction :=
  { Instruction.of 0x1000 2 (.string .movsb)
      [.memory ⟨.byte, some (.segment .es), some (.general 7 .bits16), none, 1, 0⟩,
        .memory (sourceAtSi segment)] .word16 with
    repetition := some .whileEqual }

theorem executes_repMovsb (segment : Option Register) :
    Executes (repMovsb segment) (repMovsb segment) none := .inr ⟨.whileEqual, .attached rfl⟩

/-- Without an override the source is where its operand says. -/
theorem source_reached_movsb :
    ∃ l t', (backend .realMode).lowerWith (repMovsb none) none .empty = (.ok l, t') ∧
      (sourceAtSi none).segmentIn .realMode = some (.segment .ds) ∧
        Reaches l.statements (.general 6 .bits16) (some (.segment .ds)) := by
  have string : (repMovsb none).opcode = .string .movsb := rfl
  have carried : sourceAtSi none ∈ (repMovsb none).sources := by decide
  obtain ⟨l, t', lowered, -, honoured⟩ := source_reached .realMode string rfl
    (executes_repMovsb none) carried IntrinsicTable.regular_empty
  exact ⟨l, t', lowered, rfl, honoured.mpr fun overrides => overrides.1 rfl⟩

/-- With an override the source is in the data segment all the same. -/
theorem movsb_es_misses :
    ∃ l t', (backend .realMode).lowerWith (repMovsb (some (.segment .es))) none .empty = (.ok l, t') ∧
      sourceAtSi (some (.segment .es)) ∈ (repMovsb (some (.segment .es))).sources ∧
        (sourceAtSi (some (.segment .es))).segmentIn .realMode = some (.segment .es) ∧
          Reaches l.statements (.general 6 .bits16) (some (.segment .ds)) ∧
            ¬Reaches l.statements (.general 6 .bits16) (some (.segment .es)) := by
  have string : (repMovsb (some (.segment .es))).opcode = .string .movsb := rfl
  obtain ⟨l, t', lowered, references⟩ := references_of_executes .realMode string
    (executes_repMovsb _) IntrinsicTable.regular_empty
  have reaches := reaches_of_references rfl references
  refine ⟨l, t', lowered, by decide, rfl, reaches, fun other => ?_⟩
  have same : some (.segment .es) = Lower.stringSegment .realMode .ds :=
    eq_of_map_value (reaches.only _ other.found rfl)
  cases same

end X86

end RegisterTransfer
