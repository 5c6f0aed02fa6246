/-
# RegisterTransfer.Proofs.Stream.Items -- a stream is the list of its items

An instruction stream carries a buffer for the item that was looked at, the bytes left, and a flag.
All of that is a way to keep one list, `InstructionStream.items`.  Every operation is an operation on
that list:

* `next_fst`, `items_next`: taking an item takes the head of the list;
* `peek_fst`, `items_peek`: looking at an item shows the head and changes nothing;
* `consumeInstruction_fst`, `items_consumeInstruction`: absorbing takes the head if it is an
  instruction and changes nothing if it is a fault.

The list reading needs one invariant, `Coherent`: a buffer that says "nothing is left" is only found
in a finished stream.  Every stream starts coherent and every operation keeps it so.
-/
import RegisterTransfer.Stream

namespace RegisterTransfer.InstructionStream

set_option autoImplicit false

variable {ι : Type}

/-- A buffer that holds the end of the stream belongs to a finished stream. -/
def Coherent (s : InstructionStream ι) : Prop := s.peeked = some none → s.finished = true

theorem coherent_ofImage (decoder : Decoder ι) (image : List UInt8) (base : Nat) :
    (ofImage decoder image base).Coherent := by
  intro seen
  cases seen

theorem coherent_startingAt (decoder : Decoder ι) (image : List UInt8) (base start : Nat) :
    (startingAt decoder image base start).Coherent := by
  intro seen
  unfold startingAt at seen
  split at seen <;> cases seen

variable [MachineInstruction ι]

/-! ## Decoding one item -/

theorem decodeNext_of_finished {s : InstructionStream ι} (finished : s.finished = true) :
    s.decodeNext = (none, s) := by
  unfold decodeNext
  rw [finished]
  cases s
  simp_all

theorem peeked_decodeNext (s : InstructionStream ι) : s.decodeNext.2.peeked = s.peeked := by
  unfold decodeNext
  split
  · rfl
  · split
    · simp only
      split <;> rfl
    · rfl
    · rfl

theorem finished_of_decodeNext_none {s : InstructionStream ι} (ended : s.decodeNext.1 = none) :
    s.decodeNext.2.finished = true := by
  unfold decodeNext at ended ⊢
  split
  · rfl
  · rename_i more
    rw [if_neg more] at ended
    split
    · rename_i i found
      rw [found] at ended
      simp only at ended
      split at ended <;> cases ended
    · rfl
    · rfl

/-! ## Looking does not change what comes -/

theorem next_peek (s : InstructionStream ι) : s.peek.2.next = s.next := by
  cases seen : s.peeked with
  | some item => simp [peek, seen]
  | none =>
      have kept := peeked_decodeNext s
      rw [seen] at kept
      simp only [peek, next, seen]
      exact Prod.ext rfl (by rw [← kept])

theorem peek_fst_eq_next_fst (s : InstructionStream ι) : s.peek.1 = s.next.1 := by
  cases seen : s.peeked with
  | some item => simp [peek, next, seen]
  | none => simp [peek, next, seen]

/-! ## Coherence is kept -/

theorem coherent_decodeNext {s : InstructionStream ι} (empty : s.peeked = none) :
    s.decodeNext.2.Coherent := by
  intro seen
  rw [peeked_decodeNext, empty] at seen
  cases seen

theorem coherent_next (s : InstructionStream ι) : s.next.2.Coherent := by
  cases seen : s.peeked with
  | some item =>
      intro again
      simp [next, seen] at again
  | none =>
      simp only [next, seen]
      exact coherent_decodeNext seen

theorem coherent_peek {s : InstructionStream ι} (coherent : s.Coherent) : s.peek.2.Coherent := by
  cases seen : s.peeked with
  | some item => simpa [peek, seen] using coherent
  | none =>
      intro ended
      simp only [peek, seen, Option.some.injEq] at ended ⊢
      exact finished_of_decodeNext_none ended

theorem coherent_peekInstruction {s : InstructionStream ι} (coherent : s.Coherent) :
    s.peekInstruction.2.Coherent := coherent_peek coherent

theorem coherent_consumeInstruction {s : InstructionStream ι} (coherent : s.Coherent) :
    s.consumeInstruction.2.Coherent := by
  unfold consumeInstruction
  have looked := coherent_peekInstruction coherent
  cases found : s.peekInstruction with
  | mk instr s' =>
      rw [found] at looked
      cases instr with
      | none => exact looked
      | some i => exact coherent_next s'

/-! ## The list of items -/

theorem items_of_next_none {s : InstructionStream ι} (ended : s.next.1 = none) : s.items = [] := by
  rw [items]
  split
  · rename_i item found
    rw [ended] at found
    cases found
  · rfl

theorem items_of_next_some {s : InstructionStream ι} {item : StreamItem ι}
    (found : s.next.1 = some item) : s.items = item :: s.next.2.items := by
  rw [items]
  split
  · rename_i other same
    rw [found] at same
    cases same
    rfl
  · rename_i ended
    rw [found] at ended
    cases ended

theorem items_of_finished {s : InstructionStream ι} (empty : s.peeked = none)
    (finished : s.finished = true) : s.items = [] := by
  apply items_of_next_none
  simp [next, empty, decodeNext_of_finished finished]

/-- What comes next is the head of the list. -/
theorem next_fst (s : InstructionStream ι) : s.next.1 = s.items.head? := by
  cases found : s.next.1 with
  | none => rw [items_of_next_none found]; rfl
  | some item => rw [items_of_next_some found]; rfl

/-- Taking an item leaves the rest of the list. -/
theorem items_next {s : InstructionStream ι} (coherent : s.Coherent) :
    s.next.2.items = s.items.tail := by
  cases found : s.next.1 with
  | some item => rw [items_of_next_some found]; rfl
  | none =>
      rw [items_of_next_none found]
      cases seen : s.peeked with
      | none =>
          simp only [next, seen] at found ⊢
          apply items_of_finished
          · rw [peeked_decodeNext, seen]
          · exact finished_of_decodeNext_none found
      | some item =>
          simp only [next, seen] at found ⊢
          subst found
          exact items_of_finished rfl (coherent seen)

/-- Looking at an item changes nothing. -/
theorem items_peek (s : InstructionStream ι) : s.peek.2.items = s.items := by
  have same := next_peek s
  cases found : s.next.1 with
  | none => rw [items_of_next_none found, items_of_next_none (by rw [same, found])]
  | some item =>
      rw [items_of_next_some found, items_of_next_some (by rw [same, found]), same]

theorem peek_fst (s : InstructionStream ι) : s.peek.1 = s.items.head? := by
  rw [peek_fst_eq_next_fst, next_fst]

theorem peekInstruction_fst (s : InstructionStream ι) :
    s.peekInstruction.1 = instruction? s.items.head? := by
  rw [← peek_fst]
  rfl

theorem items_peekInstruction (s : InstructionStream ι) :
    s.peekInstruction.2.items = s.items := items_peek s

/-- The items left after absorbing the next one if it is an instruction. -/
def afterInstruction : List (StreamItem ι) → List (StreamItem ι)
  | .ok _ :: rest => rest
  | items => items

omit [MachineInstruction ι] in
theorem length_afterInstruction_le (items : List (StreamItem ι)) :
    (afterInstruction items).length ≤ items.length := by
  cases items with
  | nil => exact Nat.le_refl _
  | cons item rest =>
      cases item with
      | error fault => exact Nat.le_refl _
      | ok i => exact Nat.le_succ _

omit [MachineInstruction ι] in
theorem afterInstruction_suffix (items : List (StreamItem ι)) : afterInstruction items <:+ items := by
  cases items with
  | nil => exact List.suffix_rfl
  | cons item rest =>
      cases item with
      | error fault => exact List.suffix_rfl
      | ok i => exact List.suffix_cons _ _

theorem consumeInstruction_fst (s : InstructionStream ι) :
    s.consumeInstruction.1 = instruction? s.items.head? := by
  rw [← peekInstruction_fst]
  unfold consumeInstruction
  cases found : s.peekInstruction with
  | mk instr s' => cases instr <;> rfl

theorem items_consumeInstruction {s : InstructionStream ι} (coherent : s.Coherent) :
    s.consumeInstruction.2.items = afterInstruction s.items := by
  have shown := peekInstruction_fst s
  have same := items_peekInstruction s
  have looked := coherent_peekInstruction coherent
  unfold consumeInstruction
  cases found : s.peekInstruction with
  | mk instr s' =>
      rw [found] at shown same looked
      simp only at shown same looked
      cases instr with
      | none =>
          simp only
          rw [same]
          cases all : s.items with
          | nil => rfl
          | cons item rest =>
              cases item with
              | error fault => rfl
              | ok i =>
                  rw [all] at shown
                  cases shown
      | some i =>
          simp only
          rw [items_next looked, same]
          cases all : s.items with
          | nil =>
              rw [all] at shown
              cases shown
          | cons item rest =>
              cases item with
              | error fault =>
                  rw [all] at shown
                  cases shown
              | ok j => rfl

/-! ## The items of an image, from its front -/

section Image

variable {decoder : Decoder ι} {rest : List UInt8} {address : Nat}

theorem items_ofImage_nil : (ofImage decoder [] address).items = [] :=
  items_of_next_none rfl

theorem items_ofImage_end (found : decoder.decode rest address = .ok none) :
    (ofImage decoder rest address).items = [] := by
  apply items_of_next_none
  show (ofImage decoder rest address).decodeNext.1 = none
  unfold decodeNext ofImage
  split
  · rfl
  · simp only [found]

theorem items_ofImage_fault (more : rest ≠ []) {fault : DecodeFault}
    (found : decoder.decode rest address = .error fault) :
    (ofImage decoder rest address).items = [.error fault] := by
  have step : (ofImage decoder rest address).next =
      (some (.error fault), { ofImage decoder rest address with finished := true }) := by
    show (ofImage decoder rest address).decodeNext = _
    unfold decodeNext ofImage
    simp [more, found]
  rw [items_of_next_some (by rw [step]), step, items_of_finished rfl rfl]

theorem items_ofImage_instruction (more : rest ≠ []) {i : ι}
    (found : decoder.decode rest address = .ok (some i))
    (sized : MachineInstruction.length i ≠ 0) :
    (ofImage decoder rest address).items =
      .ok i :: (ofImage decoder (rest.drop (MachineInstruction.length i))
        (address + MachineInstruction.length i)).items := by
  have step : (ofImage decoder rest address).next =
      (some (.ok i), ofImage decoder (rest.drop (MachineInstruction.length i))
        (address + MachineInstruction.length i)) := by
    show (ofImage decoder rest address).decodeNext = _
    unfold decodeNext ofImage
    simp [more, found, sized]
  rw [items_of_next_some (by rw [step]), step]

end Image

end RegisterTransfer.InstructionStream
