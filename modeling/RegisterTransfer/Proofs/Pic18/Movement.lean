/-
# RegisterTransfer.Proofs.Pic18.Movement -- a window moves its pointer once

An instruction that works on data memory names one or two locations (`Instruction.locations`).  A
location may be a window, and some windows move their pointer before or after an access
(`Catalog.rise`, `Catalog.drift`).  The two moves of a pointer are written at different ends of an
access, before the branch of a skip as well as at the end, and `moves_access` says that together they
are the movement of the window and that nothing else in an access moves a pointer.

There is one lemma for each family of instructions, and `brings_instruction` puts them together.

* `pointers_moved`: after the cluster of such an instruction each pointer is further on by the number of
  its windows that count up among the operands, less the number of those that count down.

Registers are separate cells here; a pointer of 16 bits is no register that an operand can name.
-/
import RegisterTransfer.Proofs.Draft.Movement
import RegisterTransfer.Proofs.Pic18.Classification
import RegisterTransfer.Proofs.Pic18.FarMove

namespace RegisterTransfer.Pic18

set_option autoImplicit false

open Lowering

/-! ## The windows among the operands -/

/-- The location of data memory that an operand names. -/
def Operand.location? (c : Catalog) : Operand → Option DataLocation
  | .file f | .fileDest f _ | .fileBit f _ => some (f.location c)
  | .data12 a | .data14 a => some (.absolute a)
  | .index k => some (.indexed k)
  | _ => none

/-- Whether operands of a kind name a location of data memory. -/
def OperandKind.isData : OperandKind → Bool
  | .file | .fileDest | .fileBit | .address | .index => true
  | _ => false

/-- Whether an instruction takes file registers or data addresses. -/
def Opcode.worksOnData (op : Opcode) : Bool := op.signature.any (·.isData)

namespace Instruction

/-- The locations that the operands name which the opcode takes. -/
def locations (i : Instruction) (c : Catalog) : List DataLocation :=
  (i.operands.take i.opcode.signature.length).filterMap (·.location? c)

/-- How many operands are a window of some kind onto a pointer. -/
def windows (i : Instruction) (c : Catalog) (kind : Indirect) (n : Fin 3) : Nat :=
  (i.locations c).countP fun location => c.window? location == some (kind, n)

/-- A far move to a destination that the device forbids. -/
def IsForbidden (i : Instruction) (c : Catalog) : Prop :=
  i.opcode ∈ [.movff, .movffl, .movsf, .movsfl] ∧
    ∃ a, i.operands[1]?.bind Operand.farAddress? = some a ∧ c.isForbidden a = true

end Instruction

namespace Catalog

variable (c : Catalog)

/-- How far an access to a location moves the pointers. -/
def movement (location : DataLocation) : Fin 3 → Int :=
  match c.window? location with
  | some (kind, n) => Pi.single n kind.movement
  | none => 0

/-- How far it moves them before the byte is used. -/
def rise (location : DataLocation) : Fin 3 → Int :=
  match c.window? location with
  | some (.preInc, n) => Pi.single n 1
  | _ => 0

/-- How far it moves them after the byte was used. -/
def drift (location : DataLocation) : Fin 3 → Int :=
  match c.window? location with
  | some (.postInc, n) => Pi.single n 1
  | some (.postDec, n) => Pi.single n (-1)
  | _ => 0

theorem rise_add_drift (location : DataLocation) :
    c.rise location + c.drift location = c.movement location := by
  unfold rise drift movement
  cases c.window? location with
  | none => rfl
  | some found =>
      obtain ⟨kind, n⟩ := found
      cases kind <;> simp [Indirect.movement]

/-- Movements add up to the windows that count up, less those that count down. -/
theorem sum_movement (locations : List DataLocation) (n : Fin 3) :
    (locations.map c.movement).sum n =
      locations.countP (fun l => c.window? l == some (.postInc, n)) +
        locations.countP (fun l => c.window? l == some (.preInc, n)) -
          locations.countP (fun l => c.window? l == some (.postDec, n)) := by
  induction locations with
  | nil => rfl
  | cons location rest ih =>
      rw [List.map_cons, List.sum_cons, Pi.add_apply, ih]
      simp only [List.countP_cons]
      unfold movement
      cases window : c.window? location with
      | none => simp
      | some found =>
          obtain ⟨kind, k⟩ := found
          by_cases same : k = n
          · subst same
            cases kind <;> simp [Indirect.movement] <;> omega
          · have other : n ≠ k := Ne.symm same
            cases kind <;> simp [Indirect.movement, same, other]

end Catalog

/-! ## Accesses -/

/-- The three pointers. -/
def Catalog.Accepted.pointers {c : Catalog} (accepted : c.Accepted) : Watch (Fin 3) where
  id := c.core.fsr
  register := accepted.isRegister_fsr
  injective _ _ := accepted.fsr_inj

section Device

variable {α : Type} {c : Catalog} (accepted : c.Accepted)

theorem apart_status (mask : Nat) : accepted.pointers.Apart (.identifier (Status.group mask)) :=
  Watch.apart_of_not_isRegister (by rintro ⟨_, _, _, storage⟩; cases storage)

theorem apart_wreg : accepted.pointers.Apart (.identifier c.core.wreg) :=
  Watch.apart_identifier fun n => (accepted.wreg_ne_fsr n).symm

theorem apart_prod : accepted.pointers.Apart (.identifier c.core.prod) :=
  Watch.apart_identifier fun n => (accepted.prod_ne_fsr n).symm

variable (wide : ∀ n, (c.core.fsr n).bits = 16)

include wide in
/-- A register that is found at an address has 8 bits, and is no pointer. -/
theorem apart_place (location : DataLocation) :
    accepted.pointers.Apart (c.cellAt location).place := by
  cases window : c.window? location with
  | some found =>
      obtain ⟨kind, n⟩ := found
      rw [Catalog.cellAt_of_window window]
      cases kind <;> exact Watch.apart_of_quiet rfl
  | none =>
      cases location with
      | indexed k | banked k => exact Watch.apart_of_quiet rfl
      | absolute address =>
          have plain : c.indirect? address = none := window
          rw [Catalog.cellAt, Catalog.absoluteCell, plain]
          cases found : c.lookup? address 8 with
          | none => exact Watch.apart_of_quiet rfl
          | some r =>
              refine Watch.apart_identifier fun n same => ?_
              have pointer : (c.core.fsr n).bits = r.identifier.bits := congrArg Identifier.bits same
              rw [wide n, c.bits_of_lookup found] at pointer
              cases pointer

include wide in
theorem moves_enter (location : DataLocation) :
    Moves accepted.pointers (c.cellAt location).enter (c.rise location)
      accepted.pointers.Apart := by
  have place := apart_place accepted wide location
  unfold Catalog.rise Cell.enter
  cases window : c.window? location with
  | none =>
      rw [(Catalog.still_of_plain window).1]
      exact moves_pure place
  | some found =>
      obtain ⟨kind, n⟩ := found
      rw [Catalog.cellAt_of_window window] at place ⊢
      cases kind with
      | preInc =>
          have short : (1 : Int).natAbs < 2 ^ 64 := by decide
          have moved := moves_bind (moves_addInt (w := accepted.pointers) n short) fun _ _ =>
            moves_pure place
          rwa [add_zero] at moved
      | indf | postInc | postDec | plusW => exact moves_pure place

theorem moves_exit (location : DataLocation) :
    Moves accepted.pointers (c.cellAt location).exit (c.drift location) fun _ => True := by
  unfold Catalog.drift Cell.exit
  cases window : c.window? location with
  | none =>
      rw [(Catalog.still_of_plain window).2]
      exact moves_pure trivial
  | some found =>
      obtain ⟨kind, n⟩ := found
      rw [Catalog.cellAt_of_window window]
      cases kind with
      | postInc => exact moves_addInt n (by decide)
      | postDec => exact moves_addInt n (by decide)
      | indf | preInc | plusW => exact moves_pure trivial

include wide in
/-- An access moves the pointers by the movement of its location if nothing between does. -/
theorem moves_access (location : DataLocation) {body : Expr → Lowering α}
    (within : ∀ f, accepted.pointers.Apart f →
      Moves accepted.pointers (body f) 0 fun _ => True) :
    Moves accepted.pointers ((c.cellAt location).access body) (c.movement location)
      fun _ => True := by
  have whole := moves_bind (moves_enter accepted wide location) fun f apart =>
    moves_bind (within f apart) fun result _ =>
      moves_bind (moves_exit accepted location) fun _ _ =>
        moves_pure (w := accepted.pointers) (a := result) trivial
  rw [zero_add, add_zero, c.rise_add_drift] at whole
  exact whole

theorem moves_store (flags : Nat) {dst : Expr} (src : Expr) (apart : accepted.pointers.Apart dst) :
    Moves accepted.pointers (Lower.store flags dst src) 0 fun _ => True :=
  moves_copy _ _ src apart (apart_status accepted _) (apart_status accepted _)

/-- A result that is stored and not looked at again. -/
theorem moves_stored (flags : Nat) {dst : Expr} (src : Expr) (apart : accepted.pointers.Apart dst) :
    Moves accepted.pointers (Lower.store flags dst src >>= fun _ => pure ()) 0 fun _ => True := by
  have moved := moves_bind (moves_store accepted flags src apart) fun _ _ =>
    moves_pure (w := accepted.pointers) (a := ()) (V := fun _ => True) trivial
  rwa [add_zero] at moved

theorem apart_placeFor {f : Expr} (apart : accepted.pointers.Apart f) (dest : Destination) :
    accepted.pointers.Apart (Lower.placeFor c f dest) := by
  cases dest with
  | w => exact apart_wreg accepted
  | f => exact apart

end Device

/-! ## The operands of an instruction -/

namespace Instruction

variable {i : Instruction} {c : Catalog}

/-- How far the operands of an instruction move the pointers. -/
def shift (i : Instruction) (c : Catalog) : Fin 3 → Int := ((i.locations c).map c.movement).sum

theorem shift_of_one {o : Operand} {location : DataLocation}
    (one : i.opcode.signature.length = 1) (first : i.operands[0]? = some o)
    (named : o.location? c = some location) : i.shift c = c.movement location := by
  obtain ⟨rest, operands⟩ : ∃ rest, i.operands = o :: rest := by
    cases listed : i.operands with
    | nil => simp [listed] at first
    | cons o' rest =>
        rw [listed] at first
        cases first
        exact ⟨rest, rfl⟩
  simp [shift, locations, one, operands, named]

theorem shift_of_two {o o' : Operand} {location location' : DataLocation}
    (two : i.opcode.signature.length = 2) (first : i.operands[0]? = some o)
    (named : o.location? c = some location) (second : i.operands[1]? = some o')
    (named' : o'.location? c = some location') :
    i.shift c = c.movement location + c.movement location' := by
  obtain ⟨rest, operands⟩ : ∃ rest, i.operands = o :: o' :: rest := by
    cases listed : i.operands with
    | nil => simp [listed] at first
    | cons p rest =>
        cases rest with
        | nil => simp [listed] at second
        | cons p' rest =>
            rw [listed] at first second
            cases first
            cases second
            exact ⟨rest, rfl⟩
  simp [shift, locations, two, operands, named, named']

theorem shift_of_expect {α : Type} {a : α} {what : String} {read : Operand → Option α}
    {location : DataLocation} (one : i.opcode.signature.length = 1)
    (found : i.expect 0 what read = .ok a)
    (named : ∀ o, read o = some a → o.location? c = some location) :
    i.shift c = c.movement location := by
  obtain ⟨o, first, taken⟩ := getElem?_of_expect found
  exact shift_of_one one first (named o taken)

theorem shift_of_file {f : FileOperand} (one : i.opcode.signature.length = 1)
    (found : i.file = .ok f) : i.shift c = c.movement (f.location c) := by
  refine shift_of_expect one found fun o taken => ?_
  cases o with
  | file f => cases taken; rfl
  | _ => cases taken

theorem shift_of_fileDest {f : FileOperand} {dest : Destination}
    (one : i.opcode.signature.length = 1) (found : i.fileDest = .ok (f, dest)) :
    i.shift c = c.movement (f.location c) := by
  refine shift_of_expect one found fun o taken => ?_
  cases o with
  | fileDest f dest => cases taken; rfl
  | _ => cases taken

theorem shift_of_fileBit {f : FileOperand} {bit : Fin 8} (one : i.opcode.signature.length = 1)
    (found : i.fileBit = .ok (f, bit)) : i.shift c = c.movement (f.location c) := by
  refine shift_of_expect one found fun o taken => ?_
  cases o with
  | fileBit f bit => cases taken; rfl
  | _ => cases taken

/-- The source of a far move is the cell at a location that its first operand names. -/
theorem location_of_farSource {source : Cell} (found : Lower.farSource c i = .ok source) :
    ∃ o location, i.operands[0]? = some o ∧ o.location? c = some location ∧
      source = c.cellAt location := by
  obtain ⟨o, first, read⟩ := getElem?_of_expect found
  cases o with
  | data12 a => cases read; exact ⟨_, _, first, rfl, rfl⟩
  | data14 a => cases read; exact ⟨_, _, first, rfl, rfl⟩
  | index k => cases read; exact ⟨_, _, first, rfl, rfl⟩
  | _ => cases read

theorem location_of_farDestination {address : Nat} (found : i.farDestination = .ok address) :
    ∃ o, i.operands[1]? = some o ∧ o.farAddress? = some address ∧
      o.location? c = some (.absolute address) := by
  obtain ⟨o, second, read⟩ := getElem?_of_expect found
  cases o with
  | data12 a => cases read; exact ⟨_, second, rfl, rfl⟩
  | data14 a => cases read; exact ⟨_, second, rfl, rfl⟩
  | _ => cases read

end Instruction

/-! ## Families of instructions -/

section Families

variable {α : Type} {c : Catalog} {i : Instruction} {next : Option Instruction}
  (accepted : c.Accepted) (wide : ∀ n, (c.core.fsr n).bits = 16)

include wide

theorem moves_fileResult (one : i.opcode.signature.length = 1) {flags : Nat}
    {compute : Expr → Lowering Expr}
    (within : ∀ f, Moves accepted.pointers (compute f) 0 fun _ => True) :
    Moves accepted.pointers (Lower.fileResult c i flags compute) (i.shift c) fun _ => True := by
  refine moves_operand (i.reads_expect _ _ _) fun (operand, dest) found => ?_
  rw [i.shift_of_fileDest one found]
  refine moves_access accepted wide _ fun f apart => ?_
  have moved := moves_bind (within f) fun value _ =>
    moves_stored accepted flags value (apart_placeFor accepted apart dest)
  rwa [add_zero] at moved

theorem moves_onFile (one : i.opcode.signature.length = 1) {body : Expr → Lowering α}
    (within : ∀ f, accepted.pointers.Apart f →
      Moves accepted.pointers (body f) 0 fun _ => True) :
    Moves accepted.pointers (Lower.onFile c i body) (i.shift c) fun _ => True := by
  refine moves_operand (i.reads_expect _ _ _) fun operand found => ?_
  rw [i.shift_of_file one found]
  exact moves_access accepted wide _ within

theorem moves_negate (one : i.opcode.signature.length = 1) :
    Moves accepted.pointers (Lower.negate c i) (i.shift c) fun _ => True := by
  refine moves_onFile accepted wide one fun f apart => ?_
  have moved := moves_bind
    (moves_copy (Status.model (Status.dc ||| Status.z ||| Status.ov ||| Status.n))
      { CopyMode.withFlags with carryIfZero := true } f.negate apart (apart_status accepted _)
      (apart_status accepted _))
    fun _ _ => moves_pure (w := accepted.pointers) (a := ()) (V := fun _ => True) trivial
  rwa [add_zero] at moved

theorem moves_clear (one : i.opcode.signature.length = 1) :
    Moves accepted.pointers (Lower.clear c i) (i.shift c) fun _ => True := by
  refine moves_onFile accepted wide one fun f apart => ?_
  have moved := moves_bind (moves_assign apart (.byte 0)) fun _ _ =>
    moves_assign (apart_status accepted Status.z) (.ofBool true)
  rwa [add_zero] at moved

theorem moves_storeFile (one : i.opcode.signature.length = 1) (value : Expr) :
    Moves accepted.pointers (Lower.storeFile c i value) (i.shift c) fun _ => True :=
  moves_onFile accepted wide one fun _ apart => moves_assign apart value

theorem moves_multiplyFile (one : i.opcode.signature.length = 1) :
    Moves accepted.pointers (Lower.onFile c i (Lower.multiply c)) (i.shift c) fun _ => True :=
  moves_onFile accepted wide one fun _ _ => moves_assign (apart_prod accepted) _

theorem moves_changeBit (one : i.opcode.signature.length = 1) (op : BinaryOp) :
    Moves accepted.pointers (Lower.changeBit c i op) (i.shift c) fun _ => True := by
  refine moves_operand (i.reads_expect _ _ _) fun (operand, bit) found => ?_
  rw [i.shift_of_fileBit one found]
  exact moves_access accepted wide _ fun f apart => moves_stored accepted 0 _ apart

omit wide in
/-- A condition that was found along an access, and a branch on it. -/
theorem brings_condition {x : Lowering Expr} {moved : Fin 3 → Int} (target : Nat)
    (moves : Moves accepted.pointers x moved fun _ => True) :
    Brings accepted.pointers (x >>= fun condition => branch condition target) moved := by
  have whole := brings_bind moves fun condition _ => brings_branch condition target
  rwa [add_zero] at whole

theorem brings_countAndSkip (one : i.opcode.signature.length = 1) (delta : Int) (onZero : Bool) :
    Brings accepted.pointers (Lower.countAndSkip c i next delta onZero) (i.shift c) := by
  refine brings_operand (i.reads_expect _ _ _) fun (operand, dest) found => ?_
  rw [i.shift_of_fileDest one found]
  refine brings_condition accepted _ (moves_access accepted wide _ fun f apart => ?_)
  have moved := moves_bind
    (moves_store accepted 0 (f.addInt delta) (apart_placeFor accepted apart dest))
    fun value _ => moves_pure (w := accepted.pointers) (a := Lower.zeroTest onZero value)
      (V := fun _ => True) trivial
  rwa [add_zero] at moved

theorem brings_testAndSkip (one : i.opcode.signature.length = 1) (test : Expr → Expr) :
    Brings accepted.pointers (Lower.testAndSkip c i next test) (i.shift c) :=
  brings_condition accepted _ (moves_onFile accepted wide one fun _ _ => moves_pure trivial)

theorem brings_bitTestAndSkip (one : i.opcode.signature.length = 1) (ifSet : Bool) :
    Brings accepted.pointers (Lower.bitTestAndSkip c i next ifSet) (i.shift c) := by
  refine brings_operand (i.reads_expect _ _ _) fun (operand, bit) found => ?_
  rw [i.shift_of_fileBit one found]
  exact brings_condition accepted _ (moves_access accepted wide _ fun _ _ => moves_pure trivial)

/-! ## Far moves -/

/-- Both cells of a far move move their pointers, whichever does so first. -/
theorem moves_farMove (two : i.opcode.signature.length = 2)
    (allowed : ∀ a, i.farDestination = .ok a → c.isForbidden a = false) :
    Moves accepted.pointers (Lower.farMove c i) (i.shift c) fun _ => True := by
  refine moves_operand (i.reads_expect _ _ _) fun address target => ?_
  rw [allowed address target, if_neg Bool.false_ne_true]
  refine moves_operand (i.reads_expect _ _ _) fun source read => ?_
  obtain ⟨o, location, first, named, rfl⟩ := Instruction.location_of_farSource read
  obtain ⟨o', second, -, named'⟩ := Instruction.location_of_farDestination (c := c) target
  rw [Instruction.shift_of_two two first named second named']
  have whole := moves_bind (moves_enter accepted wide location) fun src _ =>
    moves_bind (moves_enter accepted wide (.absolute address)) fun dst apart =>
      moves_bind (moves_assign apart src) fun _ _ =>
        moves_bind (moves_exit accepted location) fun _ _ =>
          moves_exit accepted (.absolute address)
  have sum : c.rise location + (c.rise (.absolute address) + (0 + (c.drift location +
      c.drift (.absolute address)))) = c.movement location + c.movement (.absolute address) := by
    rw [← c.rise_add_drift location, ← c.rise_add_drift (.absolute address), zero_add, ← add_assoc,
      add_add_add_comm]
  rw [sum] at whole
  exact whole

omit wide in
/-- A move between two offsets from FSR2 goes through no window. -/
theorem moves_indexedMove (two : i.opcode.signature.length = 2) :
    Moves accepted.pointers (Lower.indexedMove c i) (i.shift c) fun _ => True := by
  refine moves_operand (i.reads_operand 0) fun o first => ?_
  refine moves_operand (i.reads_operand 1) fun o' second => ?_
  split
  · rename_i source destination
    have still := Instruction.shift_of_two (c := c) two (Instruction.getElem?_of_operand first) rfl
      (Instruction.getElem?_of_operand second) rfl
    have none_ : i.shift c = 0 := still.trans (add_zero 0)
    rw [none_]
    exact moves_assign (Watch.apart_of_quiet rfl) _
  · exact fun _ => leaves_fail rfl

/-! ## Every opcode -/

theorem brings_instruction (works : i.opcode.worksOnData = true) (allowed : ¬i.IsForbidden c) :
    Brings accepted.pointers (Lower.instruction c i next) (i.shift c) := by
  have pure_ : ∀ e : Expr, Moves accepted.pointers (pure e) 0 fun _ => True := fun _ =>
    moves_pure trivial
  have permitted : i.opcode ∈ [.movff, .movffl, .movsf, .movsfl] →
      ∀ a, i.farDestination = .ok a → c.isForbidden a = false := by
    intro far a target
    obtain ⟨o, second, address, -⟩ := Instruction.location_of_farDestination (c := c) target
    cases forbidden : c.isForbidden a with
    | false => rfl
    | true => exact absurd ⟨far, a, by rw [second]; exact address, forbidden⟩ allowed
  unfold Lower.instruction
  cases opcode : i.opcode with
  | addwf | addwfc | subwf | subwfb | subfwb | incf | decf | andwf | iorwf | xorwf | comf | movf =>
      have one : i.opcode.signature.length = 1 := by rw [opcode]; rfl
      exact (moves_fileResult accepted wide one fun f => pure_ _).brings
  | rlncf | rrncf | rlcf | rrcf | swapf =>
      have one : i.opcode.signature.length = 1 := by rw [opcode]; rfl
      exact (moves_fileResult accepted wide one fun f => moves_apply _ _ _).brings
  | negf =>
      exact (moves_negate accepted wide (by rw [opcode]; rfl)).brings
  | clrf => exact (moves_clear accepted wide (by rw [opcode]; rfl)).brings
  | setf | movwf => exact (moves_storeFile accepted wide (by rw [opcode]; rfl) _).brings
  | mulwf => exact (moves_multiplyFile accepted wide (by rw [opcode]; rfl)).brings
  | bcf | bsf | btg => exact (moves_changeBit accepted wide (by rw [opcode]; rfl) _).brings
  | decfsz | dcfsnz | incfsz | infsnz =>
      exact brings_countAndSkip accepted wide (by rw [opcode]; rfl) _ _
  | cpfseq | cpfsgt | cpfslt | tstfsz =>
      exact brings_testAndSkip accepted wide (by rw [opcode]; rfl) _
  | btfsc | btfss => exact brings_bitTestAndSkip accepted wide (by rw [opcode]; rfl) _
  | movff | movffl | movsf | movsfl =>
      exact (moves_farMove accepted wide (by rw [opcode]; rfl)
        (permitted (by rw [opcode]; decide))).brings
  | movss => exact (moves_indexedMove accepted (by rw [opcode]; rfl)).brings
  | _ =>
      rw [opcode] at works
      cases works

omit wide accepted in
/-- A far move that is forbidden is the invalid marker and nothing else. -/
theorem leaves_forbidden (forbidden : i.IsForbidden c) (P : Draft → Prop) :
    Leaves P (Lower.instruction c i next) fun _ d =>
      d.flow = .invalid ∧ d.statements = [.invalid] := by
  obtain ⟨far, a, target, held⟩ := forbidden
  have lowers : Lower.instruction c i next = Lower.farMove c i := by
    unfold Lower.instruction
    simp only [List.mem_cons, List.not_mem_nil, or_false] at far
    rcases far with opcode | opcode | opcode | opcode <;> simp only [opcode]
  obtain ⟨o, second, address⟩ := Option.bind_eq_some_iff.mp target
  have found : i.farDestination = .ok a := by
    refine Instruction.expect_of_read second ?_
    cases o with
    | data12 | data14 => cases address; rfl
    | _ => cases address
  rw [lowers]
  unfold Lower.farMove
  rw [found]
  show Leaves P (if c.isForbidden a then invalid else _) _
  rw [held, if_pos rfl]
  exact leaves_write fun d _ => ⟨rfl, rfl⟩

end Families

/-! ## Clusters -/

/-- On a loaded device whose pointers have 16 bits, take an instruction that works on data memory and is
lowered.  It is invalid exactly if it is a far move to a forbidden destination, and then the marker
stands alone.  Otherwise, on every path, each pointer ends further on by one for each of its windows
among the operands that counts up, and back by one for each that counts down.

The registers of these states are separate cells (`Cells`), a pointer and the file registers of its halves
among them: an instruction that writes to such a file register leaves the pointer as it is. -/
theorem pointers_moved {device : Option Device} {c : Catalog}
    (loaded : Catalog.load device = .ok c) (wide : ∀ n, (c.core.fsr n).bits = 16)
    {i : Instruction} (works : i.opcode.worksOnData = true) {next : Option Instruction}
    {t t' : IntrinsicTable} {l : Backend.Lowered}
    (lowered : (backend c).lowerWith i next t = (.ok l, t')) :
    (l.flow = .invalid ↔ i.IsForbidden c) ∧
      (i.IsForbidden c → l.statements = [.invalid]) ∧
      (l.flow ≠ .invalid → ∀ I (σ : State Cells) (n : Fin 3),
        ((σ.run I l.statements).1.get (c.core.fsr n) : Int) =
          (σ.get (c.core.fsr n) + (i.windows c .postInc n + i.windows c .preInc n -
            i.windows c .postDec n)) % 2 ^ 16) := by
  have accepted := Catalog.accepted_of_load loaded
  obtain ⟨d, drafted, -, flow, same⟩ := Backend.drafted_of_lowered lowered
  have ran := (lowered_of_draft drafted).2
  have given : i.IsForbidden c → l.flow = .invalid ∧ l.statements = [.invalid] := by
    intro forbidden
    obtain ⟨invalid, marker⟩ := (leaves_forbidden forbidden fun _ => True).holds trivial ran
    refine ⟨flow.trans invalid, ?_⟩
    rw [same, marker]
    rfl
  have brought : ¬i.IsForbidden c → d.Brings accepted.pointers (0 + i.shift c) := fun allowed =>
    (brings_instruction accepted wide works allowed 0).holds Draft.Carries.empty ran
  have barred : l.flow = .invalid → i.IsForbidden c := by
    intro invalid
    by_contra allowed
    exact (brought allowed).valid (flow.symm.trans invalid)
  refine ⟨⟨barred, fun forbidden => (given forbidden).1⟩, fun forbidden => (given forbidden).2, ?_⟩
  intro valid I σ n
  have allowed : ¬i.IsForbidden c := fun forbidden => valid (given forbidden).1
  have moved : (σ.run I d.statements).1.get (c.core.fsr n) =
      Bits.ofInt (c.core.fsr n).bits (σ.get (c.core.fsr n) + (0 + i.shift c) n) :=
    (brought allowed).brings I σ n
  rw [same, State.run_settled, moved, wide n, zero_add, Bits.natCast_ofInt, Instruction.shift,
    c.sum_movement]
  rfl

/-- A move from `POSTINC0` to `POSTINC0` moves the first pointer by two, and the others stay. -/
theorem pointers_moved_postInc0 :
    ∃ c, Catalog.load (some Devices.Pic18f4620.device) = .ok c ∧
      ∃ l t', (backend c).lowerWith (movff 0xFEE 0xFEE) none .empty = (.ok l, t') ∧
        ∀ I (σ : State Cells) (n : Fin 3), ((σ.run I l.statements).1.get (c.core.fsr n) : Int) =
          (σ.get (c.core.fsr n) + if n = 0 then 2 else 0) % 2 ^ 16 := by
  obtain ⟨c, loaded, wide, window, allowed⟩ :
      ∃ c, Catalog.load (some Devices.Pic18f4620.device) = .ok c ∧
        (∀ n, (c.core.fsr n).bits = 16) ∧ c.window? (.absolute 0xFEE) = some (.postInc, 0) ∧
          c.isForbidden 0xFEE = false := ⟨_, rfl, by decide, rfl, rfl⟩
  obtain ⟨l, t', lowered, -⟩ :=
    lowerWith_of_fits c none (i := movff 0xFEE 0xFEE) rfl IntrinsicTable.regular_empty
  obtain ⟨invalid, -, moved⟩ := pointers_moved loaded wide (i := movff 0xFEE 0xFEE) rfl lowered
  refine ⟨c, loaded, l, t', lowered, fun I σ n => ?_⟩
  have valid : l.flow ≠ .invalid := by
    intro flow
    obtain ⟨-, a, target, forbidden⟩ := invalid.mp flow
    cases target
    rw [allowed] at forbidden
    cases forbidden
  have locations : (movff 0xFEE 0xFEE).locations c = [.absolute 0xFEE, .absolute 0xFEE] := rfl
  rw [moved valid I σ n]
  by_cases first : n = 0
  · simp [Instruction.windows, locations, window, first]
  · simp [Instruction.windows, locations, window, first, Ne.symm first]

end RegisterTransfer.Pic18
