/-
# RegisterTransfer.Proofs.Stream.Transparency -- looking ahead changes nothing

`Operation` lists what a client can ask of an instruction stream: to take an item, to look at one, to
look at or absorb an instruction, and the last two again through the view that lowerings have.
`performAll` runs a sequence of such operations and collects what they hand out.

The invariant of a run is that what was handed out and what is still to come are together the list of
items that the stream began with.  `Operation.handed_append_items` says so of one operation, and
`performAll_append_items` of a whole run.  The list itself is no longer than the bytes
(`length_items_le`), and nothing comes after a fault in it (`items_decoded_faults`).

* `performAll_transparent`: a run of any operations on a fresh stream over an image, for any decoder.
-/
import RegisterTransfer.Proofs.Stream.Items
import RegisterTransfer.Stream.Lookahead

namespace RegisterTransfer

set_option autoImplicit false

namespace InstructionStream

variable {ι : Type} [MachineInstruction ι]

/-! ## The list of items -/

/-- Decoding ends the stream, with a fault or without, or uses up bytes for an instruction. -/
theorem decodeNext_cases (s : InstructionStream ι) :
    s.decodeNext = (none, { s with finished := true }) ∨
    (s.rest ≠ [] ∧ ∃ fault, s.decodeNext = (some (.error fault), { s with finished := true })) ∨
    (s.rest ≠ [] ∧ ∃ i, MachineInstruction.length i ≠ 0 ∧
      s.decodeNext = (some (.ok i),
        { s with
          rest := s.rest.drop (MachineInstruction.length i)
          address := s.address + MachineInstruction.length i })) := by
  unfold decodeNext
  split
  · exact .inl rfl
  · rename_i more
    have bytes : s.rest ≠ [] := by
      intro none_
      simp [none_] at more
    cases s.decoder.decode s.rest s.address with
    | error fault => exact .inr (.inl ⟨bytes, fault, rfl⟩)
    | ok decoded =>
        cases decoded with
        | none => exact .inl rfl
        | some i =>
            by_cases empty : MachineInstruction.length i = 0
            · refine .inr (.inl ⟨bytes, .invalidEncoding s.address "zero-length instruction", ?_⟩)
              simp only [empty, if_true]
            · refine .inr (.inr ⟨bytes, i, empty, ?_⟩)
              simp only [empty, if_false]

/-- The items of a stream that nothing was looked at of: none, one fault, or an instruction and the
items of the bytes behind it. -/
theorem items_cases {s : InstructionStream ι} (unseen : s.peeked = none) :
    s.items = [] ∨ (s.rest ≠ [] ∧ ∃ fault, s.items = [.error fault]) ∨
    ∃ (i : ι) (after : InstructionStream ι), s.items = .ok i :: after.items ∧
      after.peeked = none ∧ after.rest.length < s.rest.length := by
  have step : s.next = s.decodeNext := by simp only [next, unseen]
  rcases decodeNext_cases s with found | ⟨bytes, fault, found⟩ | ⟨bytes, i, sized, found⟩
  · exact .inl (items_of_next_none (by rw [step, found]))
  · refine .inr (.inl ⟨bytes, fault, ?_⟩)
    rw [items_of_next_some (by rw [step, found]), step, found]
    exact congrArg (List.cons _) (items_of_finished unseen rfl)
  · refine .inr (.inr ⟨i, _, items_of_next_some (by rw [step, found]), ?_, ?_⟩)
    · rw [step, found]
      exact unseen
    · rw [step, found]
      have positive := List.length_pos_iff.mpr bytes
      simp only [List.length_drop]
      omega

/-- Every item uses up a byte. -/
theorem length_items_le {s : InstructionStream ι} (unseen : s.peeked = none) :
    s.items.length ≤ s.rest.length := by
  rcases items_cases unseen with items | ⟨bytes, fault, items⟩ | ⟨i, after, items, unseen', less⟩
  · simp [items]
  · have positive := List.length_pos_iff.mpr bytes
    rw [items, List.length_singleton]
    exact positive
  · have shorter := length_items_le unseen'
    rw [items, List.length_cons]
    omega
termination_by s.rest.length

/-- The items are instructions, with at most one fault behind them. -/
theorem items_decoded_faults {s : InstructionStream ι} (unseen : s.peeked = none) :
    ∃ (decoded : List ι) (faults : List DecodeFault),
      s.items = decoded.map .ok ++ faults.map .error ∧ faults.length ≤ 1 := by
  rcases items_cases unseen with items | ⟨_, fault, items⟩ | ⟨i, after, items, unseen', less⟩
  · exact ⟨[], [], items, Nat.zero_le 1⟩
  · exact ⟨[], [fault], items, Nat.le_refl 1⟩
  · obtain ⟨decoded, faults, rest, single⟩ := items_decoded_faults unseen'
    exact ⟨i :: decoded, faults, by rw [items, rest]; rfl, single⟩
termination_by s.rest.length

omit [MachineInstruction ι] in
theorem peeked_startingAt (decoder : Decoder ι) (image : List UInt8) (base start : Nat) :
    (startingAt decoder image base start).peeked = none := by
  unfold startingAt
  split <;> rfl

omit [MachineInstruction ι] in
theorem length_rest_startingAt (decoder : Decoder ι) (image : List UInt8) (base start : Nat) :
    (startingAt decoder image base start).rest.length ≤ image.length := by
  unfold startingAt
  split
  · simp only [List.length_drop]
    omega
  · exact Nat.le_refl _

/-! ## One operation -/

/-- What can be asked of a stream. -/
inductive Operation where
  | next
  | peek
  | peekInstruction
  | consumeInstruction
  /-- To look at an instruction through the view of a lowering. -/
  | lookaheadPeek
  /-- To absorb an instruction through the view of a lowering. -/
  | lookaheadConsume
deriving DecidableEq

namespace Operation

/-- What a stream answers. -/
def answer (s : InstructionStream ι) : Operation → Option (StreamItem ι)
  | .next => s.next.1
  | .peek => s.peek.1
  | .peekInstruction => s.peekInstruction.1.map .ok
  | .consumeInstruction => s.consumeInstruction.1.map .ok
  | .lookaheadPeek => (Lookahead.peek s).1.map .ok
  | .lookaheadConsume => (Lookahead.consume s).1.map .ok

/-- The stream after an operation. -/
def after (s : InstructionStream ι) : Operation → InstructionStream ι
  | .next => s.next.2
  | .peek => s.peek.2
  | .peekInstruction => s.peekInstruction.2
  | .consumeInstruction => s.consumeInstruction.2
  | .lookaheadPeek => (Lookahead.peek s).2
  | .lookaheadConsume => (Lookahead.consume s).2

/-- Whether an operation hands out what it answers. -/
def takes : Operation → Bool
  | .next | .consumeInstruction | .lookaheadConsume => true
  | .peek | .peekInstruction | .lookaheadPeek => false

/-- Whether an operation refuses to answer with a fault. -/
def wantsInstruction : Operation → Bool
  | .next | .peek => false
  | .peekInstruction | .consumeInstruction | .lookaheadPeek | .lookaheadConsume => true

/-- What an operation hands out. -/
def handed (s : InstructionStream ι) (op : Operation) : List (StreamItem ι) :=
  if op.takes then (op.answer s).toList else []

theorem coherent_after {s : InstructionStream ι} (coherent : s.Coherent) (op : Operation) :
    (op.after s).Coherent := by
  cases op with
  | next => exact coherent_next s
  | peek => exact coherent_peek coherent
  | peekInstruction => exact coherent_peekInstruction coherent
  | consumeInstruction => exact coherent_consumeInstruction coherent
  | lookaheadPeek => exact coherent_peekInstruction coherent
  | lookaheadConsume => exact coherent_consumeInstruction coherent

/-- Every answer is about the first item still to come. -/
theorem answer_eq (s : InstructionStream ι) (op : Operation) :
    op.answer s =
      if op.wantsInstruction then (instruction? s.items.head?).map .ok else s.items.head? := by
  cases op with
  | next => exact next_fst s
  | peek => exact peek_fst s
  | peekInstruction => exact congrArg (Option.map Except.ok) (peekInstruction_fst s)
  | consumeInstruction => exact congrArg (Option.map Except.ok) (consumeInstruction_fst s)
  | lookaheadPeek => exact congrArg (Option.map Except.ok) (peekInstruction_fst s)
  | lookaheadConsume => exact congrArg (Option.map Except.ok) (consumeInstruction_fst s)

theorem next_append_items {s : InstructionStream ι} (coherent : s.Coherent) :
    s.next.1.toList ++ s.next.2.items = s.items := by
  rw [next_fst, items_next coherent]
  cases s.items <;> rfl

theorem consumed_append_items {s : InstructionStream ι} (coherent : s.Coherent) :
    (s.consumeInstruction.1.map Except.ok).toList ++ s.consumeInstruction.2.items = s.items := by
  rw [consumeInstruction_fst, items_consumeInstruction coherent]
  cases s.items with
  | nil => rfl
  | cons item rest => cases item <;> rfl

/-- What an operation hands out and what it leaves are what there was. -/
theorem handed_append_items {s : InstructionStream ι} (coherent : s.Coherent) (op : Operation) :
    op.handed s ++ (op.after s).items = s.items := by
  cases op with
  | next => exact next_append_items coherent
  | peek => exact items_peek s
  | peekInstruction => exact items_peekInstruction s
  | consumeInstruction => exact consumed_append_items coherent
  | lookaheadPeek => exact items_peekInstruction s
  | lookaheadConsume => exact consumed_append_items coherent

/-- An operation without an answer leaves every item in the stream. -/
theorem items_after_of_none {s : InstructionStream ι} (coherent : s.Coherent) {op : Operation}
    (refused : op.answer s = none) : (op.after s).items = s.items := by
  have kept := op.handed_append_items coherent
  have nothing : op.handed s = [] := by
    unfold handed
    rw [refused]
    split <;> rfl
  rwa [nothing, List.nil_append] at kept

end Operation

omit [MachineInstruction ι] in
theorem instruction?_eq_none_iff {item : Option (StreamItem ι)} :
    instruction? item = none ↔ item = none ∨ ∃ fault, item = some (.error fault) := by
  cases item with
  | none => simp [instruction?]
  | some found => cases found <;> simp [instruction?]

/-! ## Runs of operations -/

/-- What a sequence of operations hands out, in order, and the stream after it. -/
def performAll (s : InstructionStream ι) :
    List Operation → List (StreamItem ι) × InstructionStream ι
  | [] => ([], s)
  | op :: rest =>
      let more := performAll (op.after s) rest
      (op.handed s ++ more.1, more.2)

theorem coherent_performAll {s : InstructionStream ι} (coherent : s.Coherent)
    (operations : List Operation) : (s.performAll operations).2.Coherent := by
  induction operations generalizing s with
  | nil => exact coherent
  | cons op rest ih => exact ih (op.coherent_after coherent)

/-- What a run hands out and what it leaves are what there was. -/
theorem performAll_append_items {s : InstructionStream ι} (coherent : s.Coherent)
    (operations : List Operation) :
    (s.performAll operations).1 ++ (s.performAll operations).2.items = s.items := by
  induction operations generalizing s with
  | nil => rfl
  | cons op rest ih =>
      have later := ih (op.coherent_after coherent)
      calc (s.performAll (op :: rest)).1 ++ (s.performAll (op :: rest)).2.items
          = op.handed s ++ (((op.after s).performAll rest).1 ++
              ((op.after s).performAll rest).2.items) := List.append_assoc ..
        _ = op.handed s ++ (op.after s).items := by rw [later]
        _ = s.items := op.handed_append_items coherent

/-- The first item still to come after a run is the first one that the run did not hand out. -/
theorem head?_items_performAll {s : InstructionStream ι} (coherent : s.Coherent)
    (operations : List Operation) :
    (s.performAll operations).2.items.head? = s.items[(s.performAll operations).1.length]? := by
  have whole := performAll_append_items coherent operations
  rw [← whole, List.getElem?_append_right (Nat.le_refl _), Nat.sub_self, List.head?_eq_getElem?]

/-- A stream over an image is the list of items that taking them one by one gives, whatever decoder it
has and wherever it starts.  The list is finite and ends with its first fault.  After any operations,
what they handed out is the front of the list; to take or to look at an item answers with the first
one behind that; an operation that wants an instruction refuses exactly a fault and the end, and what
it refused still comes next; and behind the end there is no answer at all. -/
theorem performAll_transparent (decoder : Decoder ι) (image : List UInt8) (base start : Nat) :
    let fresh := startingAt decoder image base start
    fresh.items.length ≤ image.length ∧
    (∃ (decoded : List ι) (faults : List DecodeFault),
      fresh.items = decoded.map .ok ++ faults.map .error ∧ faults.length ≤ 1) ∧
    ∀ operations : List Operation,
      let handed := (fresh.performAll operations).1
      let s := (fresh.performAll operations).2
      let upcoming := fresh.items[handed.length]?
      handed <+: fresh.items ∧
      (∀ op : Operation, op.wantsInstruction = false → op.answer s = upcoming) ∧
      (∀ op : Operation, op.wantsInstruction = true →
        op.answer s = (instruction? upcoming).map .ok ∧
        (op.answer s = none ↔ upcoming = none ∨ ∃ fault, upcoming = some (.error fault)) ∧
        (op.answer s = none → (op.after s).next.1 = upcoming)) ∧
      (handed = fresh.items → ∀ op : Operation, op.answer s = none) := by
  intro fresh
  have unseen : fresh.peeked = none := peeked_startingAt decoder image base start
  have coherent : fresh.Coherent := coherent_startingAt decoder image base start
  have bounded : fresh.items.length ≤ image.length :=
    Nat.le_trans (length_items_le unseen) (length_rest_startingAt decoder image base start)
  refine ⟨bounded, items_decoded_faults unseen, ?_⟩
  intro operations handed s upcoming
  have first : s.items.head? = upcoming := head?_items_performAll coherent operations
  have coherent' : s.Coherent := coherent_performAll coherent operations
  refine ⟨⟨s.items, performAll_append_items coherent operations⟩, ?_, ?_, ?_⟩
  · intro op wants
    rw [op.answer_eq, wants, first]
    rfl
  · intro op wants
    have shown : op.answer s = (instruction? upcoming).map .ok := by
      rw [op.answer_eq, wants, first]
      rfl
    refine ⟨shown, ?_, ?_⟩
    · rw [shown, Option.map_eq_none_iff, instruction?_eq_none_iff]
    · intro refused
      rw [next_fst, Operation.items_after_of_none coherent' refused, first]
  · intro all op
    have ended : upcoming = none := by
      show fresh.items[handed.length]? = none
      rw [all]
      exact List.getElem?_eq_none (Nat.le_refl _)
    rw [op.answer_eq, first, ended]
    split <;> rfl

end InstructionStream

end RegisterTransfer
