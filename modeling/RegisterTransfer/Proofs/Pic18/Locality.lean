/-
# RegisterTransfer.Proofs.Pic18.Locality -- an instruction is decoded from its own bytes

What the decoder makes of some bytes does not change when more bytes follow (`decode_append`), and
an instruction other than the invalid one is read from its own bytes alone (`decode_of_take`).  Every
word of an instruction behind its first one carries the mark of a continuation word
(`drop_of_decode`).  Such a word on its own is no operation (`decode_of_marked`), so decoding that
begins inside an instruction is back in step at its end.

* `decode_local`: all of this, and where an instruction stands and how long it is.
-/
import RegisterTransfer.Proofs.Pic18.RoundTrip

namespace RegisterTransfer.Pic18

set_option autoImplicit false

variable {family : Family} {mode : Mode} {address w : Nat} {bytes : List UInt8} {i : Instruction}

/-! ## Bytes behind an instruction -/

theorem Form.complete_append {f : Form} {rest : List UInt8} {found : Option Body}
    (complete : f.complete rest = .ok found) (more : List UInt8) :
    f.complete (rest ++ more) = .ok found := by
  cases f with
  | nothing | single _ => exact complete
  | double make =>
    match rest with
    | [] | [_] => cases complete
    | _ :: _ :: _ => exact complete
  | triple make =>
    match rest with
    | [] | [_] | [_, _] | [_, _, _] => cases complete
    | _ :: _ :: _ :: _ :: _ => exact complete

theorem decode_append (decoded : decode family mode bytes address = .ok (some i))
    (more : List UInt8) : decode family mode (bytes ++ more) address = .ok (some i) := by
  match bytes with
  | [] | [_] => cases decoded
  | low :: high :: rest =>
    simp only [List.cons_append, decode] at decoded ⊢
    cases complete : (firstWord family mode address (wordOf low high)).complete rest with
    | error needed =>
      rw [complete] at decoded
      cases decoded
    | ok found =>
      rw [complete] at decoded
      rw [Form.complete_append complete more]
      cases found <;> exact decoded

/-- Bytes that begin the way an instruction does decode to it. -/
theorem decode_of_take (decoded : decode family mode bytes address = .ok (some i))
    (valid : i.opcode ≠ .invalid) {bytes' : List UInt8}
    (same : bytes'.take i.length = bytes.take i.length) :
    decode family mode bytes' address = .ok (some i) := by
  obtain ⟨w, payloads, rest, reads, rfl, _, long⟩ := reads_of_decode decoded valid
  have front : codeBytes w payloads ++ bytes'.drop i.length = bytes' := by
    rw [long, List.take_left] at same
    calc codeBytes w payloads ++ bytes'.drop i.length
        = bytes'.take i.length ++ bytes'.drop i.length := by rw [long, same]
      _ = bytes' := List.take_append_drop _ _
  rw [← front, decode_of_reads reads, ← decoded, decode_of_reads reads]

/-! ## How long an instruction is -/

theorem length_of_decode (decoded : decode family mode bytes address = .ok (some i)) :
    i.length = 2 ∨ i.length = 4 ∨ i.length = 6 := by
  match bytes with
  | [] | [_] => cases decoded
  | low :: high :: rest =>
    simp only [decode] at decoded
    split at decoded
    case h_1 => cases decoded
    case h_2 =>
      cases decoded
      exact .inl rfl
    case h_3 =>
      cases decoded
      cases firstWord family mode address (wordOf low high) with
      | nothing | single _ => exact .inl rfl
      | double _ => exact .inr (.inl rfl)
      | triple _ => exact .inr (.inr rfl)

/-- An instruction stands where its bytes do and lies within them. -/
theorem within_of_decode (decoded : decode family mode bytes address = .ok (some i)) :
    i.address = address ∧ i.length ≤ bytes.length := by
  have more : bytes ≠ [] := by
    rintro rfl
    cases decoded
  rcases decode_cases family mode bytes address more with
    ⟨i', found, placed, _, _, inside⟩ | ⟨_, missing, _⟩
  · rw [decoded] at found
    cases found
    exact ⟨placed, inside⟩
  · rw [decoded] at missing
    cases missing

theorem Form.words_le (f : Form) : f.words ≤ 3 := by
  cases f <;> simp [words]

/-- Three words are enough for every instruction. -/
theorem exists_decode (family : Family) (mode : Mode) (address : Nat)
    (enough : 6 ≤ bytes.length) : ∃ i, decode family mode bytes address = .ok (some i) := by
  match bytes with
  | [] | [_] => simp at enough
  | low :: high :: rest =>
    have few := (firstWord family mode address (wordOf low high)).words_le
    rcases (firstWord family mode address (wordOf low high)).complete_cases rest with
      ⟨found, complete, _⟩ | ⟨_, missing⟩
    · cases found with
      | none => exact ⟨.invalid address, by simp only [decode, complete]⟩
      | some body => exact ⟨⟨address, _, body.1, body.2⟩, by simp only [decode, complete]; rfl⟩
    · simp only [List.length_cons] at enough
      omega

/-! ## Words behind the first -/

/-- A word with the mark of a continuation word is no operation, whatever follows it. -/
theorem decode_of_marked (family : Family) (mode : Mode) (address : Nat) {low high : UInt8}
    (marked : IsMarked (wordOf low high)) (rest : List UInt8) :
    decode family mode (low :: high :: rest) address = .ok (some ⟨address, 2, .nop, []⟩) := by
  have top : wordOf low high / 4096 = 0xF := marked
  have begins : firstWord family mode address (wordOf low high) = .single (.nop, []) := by
    simp only [firstWord, top]
  simp only [decode, begins, Form.complete, Form.words]

theorem exists_marked (payload : Nat) (small : payload < 2 ^ 12) :
    ∃ low high, wordBytes (0xF000 + payload) = [low, high] ∧ IsMarked (wordOf low high) := by
  refine ⟨_, _, rfl, ?_⟩
  rw [wordOf_bytes (by omega)]
  show (0xF000 + payload) / 2 ^ 12 = 0xF
  omega

/-- What stands at a word behind the first begins with a mark. -/
theorem drop_of_later {payloads : List Nat} (later : ∀ p ∈ payloads, p < 2 ^ 12)
    (rest : List UInt8) {k : Nat} (inside : k < payloads.length) :
    ∃ low high more, (laterBytes payloads ++ rest).drop (2 * k) = low :: high :: more ∧
      IsMarked (wordOf low high) := by
  induction payloads generalizing k with
  | nil => cases inside
  | cons p payloads ih =>
    obtain ⟨small, later⟩ := List.forall_mem_cons.mp later
    obtain ⟨low, high, word, marked⟩ := exists_marked p small
    have split : laterBytes (p :: payloads) ++ rest =
        low :: high :: (laterBytes payloads ++ rest) := by
      rw [laterBytes, List.flatMap_cons, word]
      rfl
    rw [split]
    cases k with
    | zero => exact ⟨low, high, _, rfl, marked⟩
    | succ k =>
      obtain ⟨low', high', more, found, marked'⟩ := ih later (by simpa using inside)
      exact ⟨low', high', more, found, marked'⟩

/-- What stands at a later word of an instruction begins with a mark. -/
theorem drop_of_decode (decoded : decode family mode bytes address = .ok (some i)) {k : Nat}
    (behind : 0 < k) (inside : 2 * k < i.length) :
    ∃ low high rest, bytes.drop (2 * k) = low :: high :: rest ∧ IsMarked (wordOf low high) := by
  rcases invalid_or_reads decoded with rfl | ⟨w, payloads, rest, reads, rfl, _, long⟩
  · simp only [Instruction.invalid] at inside
    omega
  · rw [long, length_codeBytes] at inside
    obtain ⟨k, rfl⟩ := Nat.exists_eq_succ_of_ne_zero (Nat.ne_of_gt behind)
    exact drop_of_later reads.later rest (by omega)

/-! ## Instructions in bytes -/

/-- Three words decode to an instruction, in every family and mode and at every address.  Whatever
bytes decode to an instruction,

* it stands at the address, takes one to three words and lies within the bytes;
* more bytes behind them change nothing;
* if it is not the invalid instruction, bytes that begin the way it does decode to it;
* its words behind the first have the mark of a continuation, so bytes from there on decode to no
  operation. -/
theorem decode_local (family : Family) (mode : Mode) (address : Nat) :
    (∀ bytes : List UInt8, 6 ≤ bytes.length →
      ∃ i, decode family mode bytes address = .ok (some i)) ∧
    ∀ bytes i, decode family mode bytes address = .ok (some i) →
      (i.address = address ∧ (i.length = 2 ∨ i.length = 4 ∨ i.length = 6) ∧
        i.length ≤ bytes.length) ∧
      (∀ more, decode family mode (bytes ++ more) address = .ok (some i)) ∧
      (i.opcode ≠ .invalid → ∀ bytes', bytes'.take i.length = bytes.take i.length →
        decode family mode bytes' address = .ok (some i)) ∧
      ∀ k, 0 < k → 2 * k < i.length →
        (∃ low high rest, bytes.drop (2 * k) = low :: high :: rest ∧
          IsMarked (wordOf low high)) ∧
        ∀ family' mode' address', decode family' mode' (bytes.drop (2 * k)) address' =
          .ok (some ⟨address', 2, .nop, []⟩) := by
  refine ⟨fun bytes enough => exists_decode family mode address enough, ?_⟩
  intro bytes i decoded
  obtain ⟨placed, inside⟩ := within_of_decode decoded
  refine ⟨⟨placed, length_of_decode decoded, inside⟩, decode_append decoded,
    fun valid bytes' same => decode_of_take decoded valid same, ?_⟩
  intro k behind before
  obtain ⟨low, high, rest, found, marked⟩ := drop_of_decode decoded behind before
  refine ⟨⟨low, high, rest, found, marked⟩, fun family' mode' address' => ?_⟩
  rw [found]
  exact decode_of_marked family' mode' address' marked rest

/-- A long far move of three words: the byte behind it counts for nothing, and its third word is no
operation on its own. -/
theorem decode_local_movffl :
    let movffl : Instruction := ⟨0x100, 6, .movffl, [.data14 0x1234, .data14 0x3FE8]⟩
    decode .enhanced .traditional [0x64, 0x00, 0xD3, 0xF8, 0xE8, 0xFF, 0x12] 0x100 =
        .ok (some movffl) ∧
      movffl.opcode ≠ .invalid ∧
      decode .enhanced .traditional [0x64, 0x00, 0xD3, 0xF8, 0xE8, 0xFF] 0x100 =
        .ok (some movffl) ∧
      (0 < 2 ∧ 2 * 2 < movffl.length) ∧
      decode .traditional .extended [0xE8, 0xFF, 0x12] 0x104 = .ok (some ⟨0x104, 2, .nop, []⟩) := by
  intro movffl
  have decoded : decode .enhanced .traditional [0x64, 0x00, 0xD3, 0xF8, 0xE8, 0xFF, 0x12] 0x100 =
      .ok (some movffl) := rfl
  have valid : movffl.opcode ≠ .invalid := by decide
  have third : 0 < 2 ∧ 2 * 2 < movffl.length := by decide
  obtain ⟨_, _, own, later⟩ := (decode_local .enhanced .traditional 0x100).2 _ _ decoded
  exact ⟨decoded, valid, own valid _ rfl, third,
    (later 2 third.1 third.2).2 .traditional .extended 0x104⟩

end RegisterTransfer.Pic18
