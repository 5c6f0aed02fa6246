/-
# RegisterTransfer.Stream -- lazily decoded instructions

A decoder reads one instruction from the front of some bytes.  An instruction stream applies it
again and again to an image and can look one item ahead.  The stream ends when the decoder reports
the end of input or the bytes run out; a decoding fault is its last item.

Every item taken from a stream lowers its `budget` (`budget_next_lt`): either bytes are used up, or
the stream is finished, or an item looked at is handed out.  This is why `items` ends for every
decoder, even one that reports lengths of nothing or past the end.

An address is meant to fit into 64 bits and a length into 32.  Both are natural numbers here, and sums that
overflow are left out: an image is taken to end below address 2 ^ 64.
-/
import RegisterTransfer.Fault

namespace RegisterTransfer

set_option autoImplicit false

/-- What a stream needs to know of an instruction. -/
class MachineInstruction (ι : Type) where
  address : ι → Nat
  /-- Length in bytes. -/
  length : ι → Nat

/-- Reads one instruction from the front of bytes that stand at an address.  No instruction means
the end of input. -/
structure Decoder (ι : Type) where
  decode : List UInt8 → Nat → Except DecodeFault (Option ι)

/-- An item of a stream. -/
abbrev StreamItem (ι : Type) := Except DecodeFault ι

/-- The state of a stream over an image. -/
structure InstructionStream (ι : Type) where
  decoder : Decoder ι
  /-- Bytes not decoded yet. -/
  rest : List UInt8
  /-- Address of the first byte not decoded yet. -/
  address : Nat
  /-- The next item and whether there is one, if it was looked at. -/
  peeked : Option (Option (StreamItem ι)) := none
  /-- Whether no more bytes will be decoded. -/
  finished : Bool := false

namespace InstructionStream

variable {ι : Type}

/-- A stream over an image whose first byte stands at `base`. -/
def ofImage (decoder : Decoder ι) (image : List UInt8) (base : Nat) : InstructionStream ι :=
  { decoder, rest := image, address := base }

/-- A stream over the same image from `start` on.  It is finished from the beginning if `start`
lies outside the image. -/
def startingAt (decoder : Decoder ι) (image : List UInt8) (base start : Nat) :
    InstructionStream ι :=
  if base ≤ start ∧ start - base ≤ image.length then
    { decoder, rest := image.drop (start - base), address := start }
  else { decoder, rest := image, address := base, finished := true }

variable [MachineInstruction ι]

/-- Decode the item at the front of the bytes left. -/
def decodeNext (s : InstructionStream ι) : Option (StreamItem ι) × InstructionStream ι :=
  if s.finished || s.rest.isEmpty then (none, { s with finished := true })
  else
    match s.decoder.decode s.rest s.address with
    | .ok (some i) =>
        let n := MachineInstruction.length i
        if n = 0 then
          (some (.error (.invalidEncoding s.address "zero-length instruction")),
            { s with finished := true })
        else (some (.ok i), { s with rest := s.rest.drop n, address := s.address + n })
    | .ok none => (none, { s with finished := true })
    | .error fault => (some (.error fault), { s with finished := true })

/-- Take the next item. -/
def next (s : InstructionStream ι) : Option (StreamItem ι) × InstructionStream ι :=
  match s.peeked with
  | some item => (item, { s with peeked := none })
  | none => s.decodeNext

/-- Look at the next item and keep it. -/
def peek (s : InstructionStream ι) : Option (StreamItem ι) × InstructionStream ι :=
  match s.peeked with
  | some item => (item, s)
  | none =>
      let (item, s') := s.decodeNext
      (item, { s' with peeked := some item })

/-- The instruction an item consists of. -/
def instruction? : Option (StreamItem ι) → Option ι
  | some (.ok i) => some i
  | _ => none

/-- Look at the next item if it is an instruction. -/
def peekInstruction (s : InstructionStream ι) : Option ι × InstructionStream ι :=
  let (item, s') := s.peek
  (instruction? item, s')

/-- Take the next item if it is an instruction.  A fault stays in the stream. -/
def consumeInstruction (s : InstructionStream ι) : Option ι × InstructionStream ι :=
  match s.peekInstruction with
  | (some i, s') => (some i, s'.next.2)
  | (none, s') => (none, s')

/-! ## Every stream ends -/

/-- Bounds the number of items still to come. -/
def budget (s : InstructionStream ι) : Nat :=
  2 * (if s.finished then 0 else s.rest.length + 1)
    + (match s.peeked with
      | some (some _) => 1
      | _ => 0)

theorem budget_decodeNext_lt {s : InstructionStream ι} {item : StreamItem ι}
    (h : s.decodeNext.1 = some item) : s.decodeNext.2.budget < s.budget := by
  have open_ : s.finished = false ∧ 0 < s.rest.length := by
    cases hf : s.finished <;> cases hr : s.rest <;> simp [decodeNext, hf, hr] at h ⊢
  obtain ⟨hf, hr⟩ := open_
  have hne : s.rest.isEmpty = false := by
    cases hs : s.rest <;> simp_all
  simp only [decodeNext, hf, hne, Bool.or_self, Bool.false_eq_true, if_false] at h ⊢
  cases hd : s.decoder.decode s.rest s.address with
  | error fault => simp [budget, hf]
  | ok found =>
      cases found with
      | none => simp [hd] at h
      | some i =>
          by_cases hn : MachineInstruction.length i = 0
          · simp [budget, hf, hn]
          · simp only [hn, if_false, budget, hf, Bool.false_eq_true, List.length_drop]
            omega

theorem budget_next_lt {s : InstructionStream ι} {item : StreamItem ι}
    (h : s.next.1 = some item) : s.next.2.budget < s.budget := by
  unfold next at h ⊢
  cases hp : s.peeked with
  | none =>
      simp only [hp] at h ⊢
      exact budget_decodeNext_lt h
  | some seen =>
      simp only [hp] at h ⊢
      subst h
      simp [budget, hp]

theorem budget_decodeNext_le (s : InstructionStream ι) :
    s.decodeNext.2.budget + (if s.decodeNext.1.isSome then 1 else 0) ≤ s.budget := by
  cases h : s.decodeNext.1 with
  | some item =>
      have := budget_decodeNext_lt h
      simp only [Option.isSome_some, if_true]
      omega
  | none =>
      have hf : s.decodeNext.2 = { s with finished := true } := by
        unfold decodeNext at h ⊢
        split
        · rfl
        · rename_i hne
          simp only [hne] at h
          cases hd : s.decoder.decode s.rest s.address with
          | error fault => simp [hd] at h
          | ok found =>
              cases found with
              | none => rfl
              | some i =>
                  simp only [hd] at h
                  simp only [Bool.false_eq_true, if_false] at h
                  split at h <;> simp at h
      rw [hf]
      simp only [budget, if_true, Option.isSome_none, Bool.false_eq_true, if_false]
      omega

/-- Looking at the next item makes no new ones. -/
theorem budget_peek_le (s : InstructionStream ι) : s.peek.2.budget ≤ s.budget := by
  cases hp : s.peeked with
  | some seen => simp [peek, hp]
  | none =>
      have hle := budget_decodeNext_le s
      have hkeep : s.decodeNext.2.peeked = none := by
        unfold decodeNext
        split
        · exact hp
        · cases hd : s.decoder.decode s.rest s.address with
          | error fault => exact hp
          | ok found =>
              cases found with
              | none => exact hp
              | some i => simp only; split <;> exact hp
      simp only [peek, hp]
      cases hi : s.decodeNext.1 with
      | none =>
          simp only [budget, hkeep] at hle ⊢
          omega
      | some item =>
          simp only [hi, Option.isSome_some, if_true] at hle
          simp only [budget, hkeep] at hle ⊢
          omega

theorem budget_peekInstruction_le (s : InstructionStream ι) :
    s.peekInstruction.2.budget ≤ s.budget := budget_peek_le s

theorem budget_consumeInstruction_le (s : InstructionStream ι) :
    s.consumeInstruction.2.budget ≤ s.budget := by
  have hpeek := budget_peekInstruction_le s
  unfold consumeInstruction
  cases hp : s.peekInstruction with
  | mk found s' =>
      rw [hp] at hpeek
      cases found with
      | none => exact hpeek
      | some i =>
          simp only at hpeek ⊢
          cases hn : s'.next.1 with
          | some item =>
              have := budget_next_lt hn
              omega
          | none =>
              have : s'.next.2.budget ≤ s'.budget := by
                cases hq : s'.peeked with
                | some seen =>
                    simp only [next, hq, budget]
                    omega
                | none =>
                    have := budget_decodeNext_le s'
                    simp only [next, hq]
                    omega
              omega

/-- All items still to come. -/
def items (s : InstructionStream ι) : List (StreamItem ι) :=
  match _h : s.next.1 with
  | some item => item :: s.next.2.items
  | none => []
termination_by s.budget
decreasing_by exact budget_next_lt _h

end InstructionStream

end RegisterTransfer
