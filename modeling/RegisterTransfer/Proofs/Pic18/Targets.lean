/-
# RegisterTransfer.Proofs.Pic18.Targets -- what PIC18 instructions may change

The registers that a device description lists have addresses in data memory, and the shadow registers
stand past its end.  Every register that a lowering assigns comes from the description: it is the register
of a data address, or one of the core registers.  Only a fast call assigns anything else.

There is one lemma for each family of lowerings, up to `inData_instruction`; statements that move control,
calls for an effect and accesses to memory change no register, so most of them have nothing to show.
-/
import RegisterTransfer.Proofs.Draft.Additions
import RegisterTransfer.Proofs.Expr.Names
import RegisterTransfer.Proofs.Pic18.Classification
import RegisterTransfer.Proofs.Pic18.Description
import RegisterTransfer.Proofs.Stream.Eager

namespace RegisterTransfer.Pic18

set_option autoImplicit false

open Lowering

/-- A call that saves the shadow registers. -/
def Instruction.IsFastCall (i : Instruction) : Prop :=
  (i.opcode = .call ∨ i.opcode = .rcall) ∧ i.isFast 1 = true

/-! ## Registers of a device -/

/-- The registers that lowerings assign lie in data memory. -/
structure Catalog.Addressed (c : Catalog) : Prop where
  core : ∀ id, id ∈ c.core.toList → id.family < 2 ^ 16
  registers : ∀ r, r ∈ c.registers → r.identifier.family < 2 ^ 16

theorem Catalog.addressed_of_load {device : Option Device} {c : Catalog}
    (loaded : load device = .ok c) : c.Addressed := by
  obtain ⟨d, -, checked⟩ := checked_of_load loaded
  have limit : addressLimit d ≤ 2 ^ 16 :=
    Nat.pow_le_pow_right (by decide) (Nat.min_le_right _ _)
  have below : ∀ r, r ∈ d.registers → r.address < 2 ^ 16 := fun r listed =>
    Nat.lt_of_lt_of_le ((registersProblem_eq_none_iff.mp checked.sound).1 r listed).1 limit
  refine ⟨fun id listed => ?_, fun r listed => below r (checked.registers ▸ listed)⟩
  have found : .ok id ∈ c.core.toList.map (Except.ok (ε := DeviceProblem)) :=
    List.mem_map_of_mem listed
  rw [← coreRegisters_ok checked.core] at found
  obtain ⟨name, -, same⟩ := List.mem_map.mp found
  unfold coreRegister at same
  split at same
  case h_1 r named =>
    cases same
    exact below r (List.mem_of_find?_eq_some named)
  case h_2 => cases same

/-- A bit-field found by its name is one of a listed register. -/
theorem Catalog.mem_of_fieldNamed {c : Catalog} {name : String} {field : Register × BitField}
    (found : c.fieldNamed? name = some field) :
    field.1 ∈ c.registers ∧ field.2 ∈ field.1.fields := by
  obtain ⟨r, listed, inside⟩ := List.exists_of_findSome?_eq_some found
  rw [Option.map_eq_some_iff] at inside
  obtain ⟨f, named, rfl⟩ := inside
  exact ⟨listed, List.mem_of_find?_eq_some named⟩

theorem Catalog.mem_of_interruptEnable {c : Catalog} {enable : Register × BitField}
    (found : Lower.interruptEnable? c = some enable) :
    enable.1 ∈ c.registers ∧ enable.2 ∈ enable.1.fields := by
  unfold Lower.interruptEnable? at found
  cases first : c.fieldNamed? "GIE" with
  | none =>
      rw [first] at found
      exact mem_of_fieldNamed found
  | some field =>
      rw [first] at found
      cases found
      exact mem_of_fieldNamed first

namespace Lower

variable {α : Type} {c : Catalog} {i : Instruction} {next : Option Instruction}

/-! ## Statements that stay in data memory -/

/-- No register past the end of data memory changes if the expression is assigned. -/
def PlaceInData (e : Expr) : Prop := ∀ id, id ∈ e.targets → id.family < 2 ^ 16

/-- The statement changes no register past the end of data memory. -/
def InData (s : Statement) : Prop := ∀ id, id ∈ s.targets → id.family < 2 ^ 16

/-- Nothing that a lowering adds changes a register past the end of data memory. -/
abbrev StaysInData (x : Lowering α) : Prop := Adds InData x fun _ => True

theorem inData_of_quiet {s : Statement} (quiet : s.targets = []) : InData s := by
  intro id listed
  rw [quiet] at listed
  cases listed

theorem placeInData_of_quiet {e : Expr} (quiet : e.targets = []) : PlaceInData e := by
  intro id listed
  rw [quiet] at listed
  cases listed

theorem placeInData_identifier {id : Identifier} (inside : id.family < 2 ^ 16) :
    PlaceInData (.identifier id) := by
  intro other listed
  rw [List.mem_singleton.mp listed]
  exact inside

/-- Flags and temporaries belong to no family. -/
theorem placeInData_of_unfamiliar {id : Identifier} (none_ : id.family = 0) :
    PlaceInData (.identifier id) :=
  placeInData_identifier (lt_of_eq_of_lt none_ (by decide))

theorem inData_transfer {dst : Expr} (place : PlaceInData dst) (src : Expr) :
    InData (.assign dst src) := by
  intro id listed
  rw [Statement.targets_assign] at listed
  exact place id listed

theorem inData_assign {dst : Expr} (place : PlaceInData dst) (src : Expr) :
    StaysInData (.assign dst src) :=
  adds_assign (inData_transfer place src)

/-- A group of flags is no register. -/
theorem inData_assignFlags (mask : Nat) (src : Expr) :
    StaysInData (.assign (.identifier (Status.group mask)) src) :=
  inData_assign (placeInData_of_unfamiliar rfl) src

theorem inData_branch (condition : Expr) (target : Nat) : StaysInData (.branch condition target) :=
  adds_branch (inData_of_quiet rfl)

theorem inData_ret : StaysInData (.ret 0 0) := adds_ret (inData_of_quiet rfl)

theorem inData_effect (name : String) (arguments : List Expr) :
    StaysInData (effect name arguments) :=
  adds_bind (V := fun _ => True) (adds_apply trivial) fun _ _ => adds_effect (inData_of_quiet rfl)

theorem inData_adjust {id : Identifier} (inside : id.family < 2 ^ 16) (delta : Int) :
    StaysInData (adjust id delta) :=
  inData_assign (placeInData_identifier inside) _

theorem inData_copy (flags : Nat) (mode : CopyMode) {dst : Expr} (src : Expr)
    (place : PlaceInData dst) : StaysInData (.copy (Status.model flags) mode dst src) := by
  have flags' : ∀ mask src, InData (.assign (.identifier (Status.group mask)) src) := fun _ =>
    inData_transfer (placeInData_of_unfamiliar rfl)
  exact adds_copy _ _ (inData_transfer place src)
    (fun _ => ⟨inData_transfer (placeInData_of_unfamiliar rfl) _, inData_transfer place _⟩) trivial
    (fun _ => trivial) fun _ _ => ⟨flags' _ _, flags' _ _⟩

/-- A result that is stored and not looked at again. -/
theorem inData_stored (flags : Nat) {dst : Expr} (src : Expr) (place : PlaceInData dst) :
    StaysInData (store flags dst src >>= fun _ => pure ()) :=
  adds_bind (inData_copy _ _ src place) fun _ _ => adds_pure trivial

/-! ## Bytes of data memory -/

/-- A cell that changes, as its pointer moves, nothing past the end of data memory. -/
structure CellInData (cell : Cell) : Prop where
  place : PlaceInData cell.place
  before : ∀ id, cell.before = some id → id.family < 2 ^ 16
  after : ∀ move, cell.after = some move → move.1.family < 2 ^ 16

theorem cellInData_of_still {place : Expr} (inside : PlaceInData place) :
    CellInData ⟨place, none, none⟩ where
  place := inside
  before _ moved := by cases moved
  after _ moved := by cases moved

section Device

variable (addressed : c.Addressed)

include addressed

/-- A core register lies in data memory. -/
theorem placeInData_core {id : Identifier} (listed : id ∈ c.core.toList) :
    PlaceInData (.identifier id) :=
  placeInData_identifier (addressed.core id listed)

theorem placeInData_wreg : PlaceInData (.identifier c.core.wreg) :=
  placeInData_core addressed (by simp [CoreRegisters.toList])

theorem placeInData_fsr (n : Fin 3) : PlaceInData (.identifier (c.core.fsr n)) :=
  placeInData_core addressed (Catalog.fsr_mem n)

theorem inData_adjustCore {id : Identifier} (listed : id ∈ c.core.toList) (delta : Int) :
    StaysInData (adjust id delta) :=
  inData_adjust (addressed.core id listed) delta

theorem cellInData_window (kind : Indirect) (n : Fin 3) : CellInData (c.windowCell kind n) := by
  have pointer : (c.core.fsr n).family < 2 ^ 16 := addressed.core _ (Catalog.fsr_mem n)
  cases kind with
  | indf | plusW => exact cellInData_of_still (placeInData_of_quiet rfl)
  | postInc | postDec =>
      have still : ∀ id : Identifier, none = some id → id.family < 2 ^ 16 := fun id moved => by
        cases moved
      refine ⟨placeInData_of_quiet rfl, still, fun move moved => ?_⟩
      cases moved
      exact pointer
  | preInc =>
      have still : ∀ move : Identifier × Int, none = some move → move.1.family < 2 ^ 16 :=
        fun move moved => by cases moved
      refine ⟨placeInData_of_quiet rfl, fun id moved => ?_, still⟩
      cases moved
      exact pointer

theorem cellInData_absolute (address : Nat) : CellInData (c.absoluteCell address) := by
  unfold Catalog.absoluteCell
  split
  · exact cellInData_window addressed _ _
  · split
    · rename_i r found
      exact cellInData_of_still
        (placeInData_identifier (addressed.registers r (List.mem_of_find?_eq_some found)))
    · exact cellInData_of_still (placeInData_of_quiet rfl)

theorem cellInData_at (location : DataLocation) : CellInData (c.cellAt location) := by
  cases location with
  | indexed k | banked k => exact cellInData_of_still (placeInData_of_quiet rfl)
  | absolute a => exact cellInData_absolute addressed a

omit addressed

theorem inData_enter {cell : Cell} (inside : CellInData cell) :
    Adds InData cell.enter PlaceInData := by
  unfold Cell.enter
  cases moved : cell.before with
  | none => exact adds_pure inside.place
  | some fsr =>
      exact adds_bind (inData_adjust (inside.before fsr moved) 1) fun _ _ =>
        adds_pure inside.place

theorem inData_exit {cell : Cell} (inside : CellInData cell) : StaysInData cell.exit := by
  unfold Cell.exit
  cases moved : cell.after with
  | none => exact adds_pure trivial
  | some move => exact inData_adjust (inside.after move moved) move.2

theorem inData_access {cell : Cell} {body : Expr → Lowering α} (inside : CellInData cell)
    (within : ∀ place, PlaceInData place → StaysInData (body place)) :
    StaysInData (cell.access body) := by
  refine adds_bind (inData_enter inside) fun place inData => ?_
  refine adds_bind (within place inData) fun _ _ => ?_
  exact adds_bind (inData_exit inside) fun _ _ => adds_pure trivial

include addressed

/-! ## File registers -/

theorem inData_fileResult {flags : Nat} {compute : Expr → Lowering Expr}
    (within : ∀ f, StaysInData (compute f)) : StaysInData (fileResult c i flags compute) := by
  refine adds_operand (i.reads_expect _ _ _) fun (operand, dest) _ => ?_
  refine inData_access (cellInData_at addressed _) fun place inData => ?_
  refine adds_bind (within place) fun value _ => inData_stored flags value ?_
  cases dest with
  | w => exact placeInData_wreg addressed
  | f => exact inData

theorem inData_arithmetic {flags : Nat} {compute : Expr → Expr} :
    StaysInData (arithmetic c i flags compute) :=
  inData_fileResult addressed fun _ => adds_pure trivial

theorem inData_viaIntrinsic {flags : Nat} {name : String} {more : List Expr} :
    StaysInData (viaIntrinsic c i flags name more) :=
  inData_fileResult addressed fun _ => adds_apply trivial

theorem inData_onFile {body : Expr → Lowering α}
    (within : ∀ f, PlaceInData f → StaysInData (body f)) : StaysInData (onFile c i body) :=
  adds_operand (i.reads_expect _ _ _) fun _ _ => inData_access (cellInData_at addressed _) within

theorem inData_negate : StaysInData (negate c i) :=
  inData_onFile addressed fun _ inData =>
    adds_bind (inData_copy _ _ _ inData) fun _ _ => adds_pure trivial

theorem inData_clear : StaysInData (clear c i) :=
  inData_onFile addressed fun _ inData =>
    adds_bind (inData_assign inData _) fun _ _ => inData_assignFlags Status.z _

theorem inData_storeFile {value : Expr} : StaysInData (storeFile c i value) :=
  inData_onFile addressed fun _ inData => inData_assign inData value

theorem inData_multiply {f : Expr} : StaysInData (multiply c f) :=
  inData_assign (placeInData_core addressed (by simp [CoreRegisters.toList])) _

theorem inData_decimalAdjust : StaysInData (decimalAdjust c) :=
  adds_bind (V := fun _ => True) (adds_apply trivial) fun value _ =>
    inData_stored _ value (placeInData_wreg addressed)

theorem inData_changeBit {op : BinaryOp} : StaysInData (changeBit c i op) :=
  adds_operand (i.reads_expect _ _ _) fun (_, _) _ =>
    inData_access (cellInData_at addressed _) fun _ inData => inData_stored 0 _ inData

/-! ## Skips and branches -/

theorem inData_countAndSkip {delta : Int} {onZero : Bool} :
    StaysInData (countAndSkip c i next delta onZero) := by
  refine adds_operand (i.reads_expect _ _ _) fun (operand, dest) _ => ?_
  refine adds_bind (V := fun _ => True) ?_ fun _ _ => inData_branch _ _
  refine inData_access (cellInData_at addressed _) fun place inData => ?_
  refine adds_bind (inData_copy 0 _ _ ?_) fun _ _ => adds_pure trivial
  cases dest with
  | w => exact placeInData_wreg addressed
  | f => exact inData

theorem inData_testAndSkip {test : Expr → Expr} : StaysInData (testAndSkip c i next test) :=
  adds_bind (inData_onFile addressed fun _ _ => adds_pure trivial) fun _ _ => inData_branch _ _

theorem inData_bitTestAndSkip {ifSet : Bool} : StaysInData (bitTestAndSkip c i next ifSet) :=
  adds_operand (i.reads_expect _ _ _) fun (_, _) _ =>
    adds_bind (inData_access (cellInData_at addressed _) fun _ _ => adds_pure trivial) fun _ _ =>
      inData_branch _ _

omit addressed in
theorem inData_branchOn {condition : Condition} {flag : Nat} :
    StaysInData (branchOn i condition flag) :=
  adds_operand (i.reads_expect _ _ _) fun _ _ => inData_branch _ _

omit addressed in
theorem inData_jump : StaysInData (jump i) :=
  adds_operand (i.reads_expect _ _ _) fun _ _ => adds_goto (inData_of_quiet rfl)

/-! ## Calls and returns -/

theorem inData_restoreShadows : StaysInData (restoreShadows c) := by
  refine adds_forM fun pair listed => inData_assign (placeInData_core addressed ?_) _
  simp only [shadowed, List.mem_cons, List.not_mem_nil, or_false] at listed
  rcases listed with rfl | rfl | rfl <;> simp [CoreRegisters.toList]

omit addressed in
/-- A call that is not fast assigns nothing. -/
theorem inData_call (slow : i.isFast 1 = false) : StaysInData (call c i) := by
  refine adds_operand (i.reads_expect _ _ _) fun target _ => ?_
  simp only [slow, Bool.false_eq_true, if_false]
  exact Lowering.adds_call (inData_of_quiet rfl)

omit addressed in
theorem inData_callComputed : StaysInData (callComputed c) :=
  Lowering.adds_call (inData_of_quiet rfl)

theorem inData_returnFromCall : StaysInData (returnFromCall c i) :=
  adds_when (inData_restoreShadows addressed) fun _ => inData_ret

theorem inData_returnFromInterrupt : StaysInData (returnFromInterrupt c i) := by
  unfold returnFromInterrupt
  cases enabled : interruptEnable? c with
  | none => exact adds_when (inData_restoreShadows addressed) fun _ => inData_ret
  | some enable =>
      refine adds_when (inData_restoreShadows addressed) fun _ =>
        adds_bind (inData_assign (placeInData_identifier ?_) _) fun _ _ => inData_ret
      exact addressed.registers _ (Catalog.mem_of_interruptEnable enabled).1

theorem inData_returnWithLiteral : StaysInData (returnWithLiteral c i) :=
  adds_operand (i.reads_expect _ _ _) fun _ _ =>
    adds_bind (inData_assign (placeInData_wreg addressed) _) fun _ _ => inData_ret

theorem inData_unlink {sign : Int} : StaysInData (unlink c i sign) :=
  adds_operand (i.reads_expect _ _ _) fun _ _ =>
    adds_bind (inData_adjustCore addressed (Catalog.fsr_mem 2) _) fun _ _ => inData_ret

/-! ## Pointers, literals and tables -/

theorem inData_adjustPointer {sign : Int} : StaysInData (adjustPointer c i sign) :=
  adds_operand (i.reads_expect _ _ _) fun n _ =>
    adds_operand (i.reads_expect _ _ _) fun _ _ =>
      inData_adjustCore addressed (Catalog.fsr_mem n) _

theorem inData_loadPointer : StaysInData (loadPointer c i) :=
  adds_operand (i.reads_expect _ _ _) fun n _ =>
    adds_operand (i.reads_expect _ _ _) fun _ _ => inData_assign (placeInData_fsr addressed n) _

theorem inData_selectBank : StaysInData (selectBank c i) :=
  adds_operand (i.reads_expect _ _ _) fun _ _ =>
    inData_assign (placeInData_core addressed (by simp [CoreRegisters.toList])) _

theorem inData_literalResult {flags : Nat} {compute : Expr → Expr → Expr} :
    StaysInData (literalResult c i flags compute) :=
  adds_operand (i.reads_expect _ _ _) fun _ _ => inData_stored _ _ (placeInData_wreg addressed)

theorem inData_multiplyLiteral : StaysInData (do multiply c (.byte (← i.literal 0))) :=
  adds_operand (i.reads_expect _ _ _) fun _ _ => inData_multiply addressed

theorem inData_pushLiteral : StaysInData (pushLiteral c i) :=
  adds_operand (i.reads_expect _ _ _) fun _ _ =>
    adds_bind (inData_assign (placeInData_of_quiet rfl) _) fun _ _ =>
      inData_adjustCore addressed (Catalog.fsr_mem 2) _

theorem inData_push : StaysInData (push c i) :=
  adds_bind (inData_adjustCore addressed (by simp [CoreRegisters.toList]) _) fun _ _ =>
    inData_assign (placeInData_core addressed (by simp [CoreRegisters.toList])) _

theorem inData_withTablePointer {body : Lowering Unit} (within : StaysInData body) :
    StaysInData (withTablePointer c i body) := by
  have pointer : c.core.tblptr ∈ c.core.toList := by simp [CoreRegisters.toList]
  have moved := inData_adjustCore addressed pointer
  refine adds_operand (i.reads_expect _ _ _) fun mode _ => ?_
  refine adds_when (moved _) fun _ => adds_bind within fun _ _ => ?_
  cases mode with
  | plain | preIncrement => exact adds_pure trivial
  | postIncrement | postDecrement => exact moved _

theorem inData_tableRead : StaysInData (tableRead c i) :=
  inData_withTablePointer addressed <|
    adds_bind (V := fun _ => True) (adds_apply trivial) fun _ _ =>
      inData_assign (placeInData_core addressed (by simp [CoreRegisters.toList])) _

theorem inData_tableWrite : StaysInData (tableWrite c i) :=
  inData_withTablePointer addressed (inData_effect _ _)

/-! ## Far moves -/

theorem cellInData_farSource {source : Cell} (found : farSource c i = .ok source) :
    CellInData source := by
  unfold farSource Instruction.expect at found
  cases read : i.operand 0 with
  | error fault =>
      rw [read] at found
      cases found
  | ok o =>
      rw [read] at found
      cases o with
      | data12 a | data14 a =>
          cases found
          exact cellInData_absolute addressed a
      | index k =>
          cases found
          exact cellInData_at addressed _
      | _ => cases found

/-- A far move changes the register at its destination, or memory, and pointers of windows. -/
theorem inData_farMove : StaysInData (farMove c i) := by
  refine adds_operand (i.reads_expect _ _ _) fun address _ => ?_
  split
  · exact adds_invalid (inData_of_quiet rfl)
  · refine adds_operand (i.reads_expect _ _ _) fun source found => ?_
    have from_ := cellInData_farSource addressed found
    have to_ := cellInData_absolute addressed address
    refine adds_bind (inData_enter from_) fun src _ => ?_
    refine adds_bind (inData_enter to_) fun dst inData => ?_
    refine adds_bind (inData_assign inData src) fun _ _ => ?_
    exact adds_bind (inData_exit from_) fun _ _ => inData_exit to_

omit addressed in
theorem inData_indexedMove : StaysInData (indexedMove c i) := by
  refine adds_operand (i.reads_operand 0) fun o _ => ?_
  refine adds_operand (i.reads_operand 1) fun o' _ => ?_
  split
  · exact inData_assign (placeInData_of_quiet rfl) _
  · exact adds_fail rfl

/-! ## Every opcode -/

theorem inData_instruction (i : Instruction) (next : Option Instruction) (slow : ¬ i.IsFastCall) :
    StaysInData (instruction c i next) := by
  unfold instruction
  cases opcode : i.opcode with
  | addwf | addwfc | subwf | subwfb | subfwb | incf | decf | andwf | iorwf | xorwf | comf | movf =>
      exact inData_arithmetic addressed
  | rlncf | rrncf | rlcf | rrcf | swapf => exact inData_viaIntrinsic addressed
  | negf => exact inData_negate addressed
  | clrf => exact inData_clear addressed
  | setf | movwf => exact inData_storeFile addressed
  | mulwf => exact inData_onFile addressed fun _ _ => inData_multiply addressed
  | daw => exact inData_decimalAdjust addressed
  | bcf | bsf | btg => exact inData_changeBit addressed
  | decfsz | dcfsnz | incfsz | infsnz => exact inData_countAndSkip addressed
  | cpfseq | cpfsgt | cpfslt | tstfsz => exact inData_testAndSkip addressed
  | btfsc | btfss => exact inData_bitTestAndSkip addressed
  | bz | bnz | bc | bnc | bov | bnov | bn | bnn => exact inData_branchOn
  | bra | goto => exact inData_jump
  | call | rcall => exact inData_call (by simpa [Instruction.IsFastCall, opcode] using slow)
  | callw => exact inData_callComputed
  | ret => exact inData_returnFromCall addressed
  | retfie => exact inData_returnFromInterrupt addressed
  | retlw => exact inData_returnWithLiteral addressed
  | addulnk | subulnk => exact inData_unlink addressed
  | addfsr | subfsr => exact inData_adjustPointer addressed
  | lfsr => exact inData_loadPointer addressed
  | movlb => exact inData_selectBank addressed
  | movlw | addlw | sublw | andlw | iorlw | xorlw => exact inData_literalResult addressed
  | mullw => exact inData_multiplyLiteral addressed
  | pushl => exact inData_pushLiteral addressed
  | push => exact inData_push addressed
  | pop => exact inData_adjustCore addressed (by simp [CoreRegisters.toList]) _
  | tblrd => exact inData_tableRead addressed
  | tblwt => exact inData_tableWrite addressed
  | movff | movffl | movsf | movsfl => exact inData_farMove addressed
  | movss => exact inData_indexedMove
  | sleep | clrwdt => exact inData_effect _ _
  | reset => exact adds_bind (inData_effect _ _) fun _ _ => adds_setFlow _
  | nop => exact adds_nop (inData_of_quiet rfl)
  | db | dw | de | ascii | idlocs | config | invalid => exact adds_invalid (inData_of_quiet rfl)

end Device

end Lower

/-! ## Clusters -/

/-- Unless it is a fast call, no statement of an instruction changes a register past the end of data
memory. -/
theorem inData_of_lowered {c : Catalog} (addressed : c.Addressed) {i : Instruction}
    (slow : ¬ i.IsFastCall) {next : Option Instruction} {t t' : IntrinsicTable}
    {l : Backend.Lowered} (lowered : (backend c).lowerWith i next t = (.ok l, t')) :
    ∀ s, s ∈ l.statements → Lower.InData s := by
  obtain ⟨d, drafted, -, -, same⟩ := Backend.drafted_of_lowered lowered
  have all : d.All Lower.InData :=
    ((Lower.inData_instruction addressed i next slow).holds .empty (lowered_of_draft drafted).2).2
  rw [same]
  refine List.forall_mem_map.mpr fun s listed id target => ?_
  rw [Statement.targets_mapIntrinsics] at target
  exact all s listed id target

end RegisterTransfer.Pic18
