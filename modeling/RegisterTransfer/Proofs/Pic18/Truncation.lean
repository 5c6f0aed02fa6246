/-
# RegisterTransfer.Proofs.Pic18.Truncation -- when bytes are reported as cut off

`IsCutOff` says that bytes are a proper prefix of one valid instruction.  Such bytes are reported as
truncated, with the length of that instruction.  The converse fails where the continuation words are
counted before what is there is looked at (`Overlooked`): a first word that loads no pointer and still
waits for its second word, and a form of three words that waits for the third although the second has
no mark.  No bytes can complete either (`Overlooked.not_isCutOff`), and the sibling paths answer with
the invalid instruction.

Whether a form can still be completed is a question about its continuation words alone: it can unless a
payload below `2 ^ 8` is refused (`Form.Accepts`) or a word that is there has no mark.  There is one lemma
for each function of the decoder that makes forms.

* `decode_truncation`: bytes are reported as truncated exactly if they are cut off or overlooked, and
  decode to an instruction otherwise.
* `truncated_lfsr_movffl_misses`: bytes of either kind that no bytes complete.
-/
import RegisterTransfer.Proofs.Pic18.Locality
import RegisterTransfer.Proofs.Pic18.Lossless

namespace RegisterTransfer.Pic18

set_option autoImplicit false

variable {family : Family} {mode : Mode} {address w n : Nat}

/-! ## Forms that can be completed -/

/-- No payload below `2 ^ 8` is refused. -/
def Form.Accepts : Form → Prop
  | double make => ∀ p < 2 ^ 8, ∃ body, make p = some body
  | _ => True

theorem Form.accepts_onlyIf {condition : Bool} {f : Form} (accepts : f.Accepts) :
    (onlyIf condition f).Accepts := by
  cases condition
  · trivial
  · exact accepts

theorem controlForm_accepts : (controlForm family mode w).Accepts := by
  unfold controlForm
  split
  case h_2 | h_20 | h_22 => exact Form.accepts_onlyIf trivial
  all_goals trivial

theorem bankForm_accepts : (bankForm family w).Accepts := by
  cases family <;> exact Form.accepts_onlyIf trivial

theorem miscForm_accepts : (miscForm family mode w).Accepts := by
  unfold miscForm
  split
  case h_1 => exact controlForm_accepts
  case h_2 => exact bankForm_accepts
  all_goals trivial

theorem pointerForm_accepts : (pointerForm w).Accepts := by
  simp only [pointerForm]
  split <;> trivial

theorem indexedMoveForm_accepts : (indexedMoveForm w).Accepts := by
  intro p _
  split
  · exact ⟨_, rfl⟩
  · exact ⟨_, rfl⟩

/-- A word that begins like the load of a pointer and names none: bits that have to be zero are set, or
the pointer has the number 3. -/
def RefusedLoad (w : Nat) : Prop :=
  w / 2 ^ 8 = 0xEE ∧ (bitsOf w 6 2 ≠ 0 ∨ bitsOf w 4 2 = 3)

theorem loadPointerForm_accepts (named : ¬(bitsOf w 6 2 ≠ 0 ∨ bitsOf w 4 2 = 3)) :
    (loadPointerForm family w).Accepts := by
  intro p small
  have ten : bitsOf p 10 2 = 0 := by
    simp only [bitsOf]
    omega
  have eight : bitsOf p 8 4 = 0 := by
    simp only [bitsOf]
    omega
  cases family <;> simp [named, ten, eight]

theorem branchForm_accepts (loads : ¬RefusedLoad w) :
    (branchForm family mode address w).Accepts := by
  unfold branchForm
  split
  case h_1 | h_2 => exact Form.accepts_onlyIf pointerForm_accepts
  case h_3 => exact Form.accepts_onlyIf trivial
  case h_4 => exact Form.accepts_onlyIf indexedMoveForm_accepts
  case h_5 | h_6 => exact fun p _ => ⟨_, rfl⟩
  case h_7 top => exact loadPointerForm_accepts fun refused => loads ⟨top, refused⟩
  case h_8 => exact fun p _ => ⟨_, rfl⟩
  case h_9 => trivial

theorem firstWord_accepts (loads : ¬RefusedLoad w) :
    (firstWord family mode address w).Accepts := by
  unfold firstWord
  split
  case h_1 => exact miscForm_accepts
  case h_13 => exact fun p _ => ⟨_, rfl⟩
  case h_15 => exact branchForm_accepts loads
  all_goals trivial

/-- A load that names no pointer waits for a second word, and refuses every one. -/
theorem firstWord_of_refusedLoad (refused : RefusedLoad w) :
    ∃ make, firstWord family mode address w = .double make ∧ ∀ p, make p = none := by
  obtain ⟨top, refused⟩ := refused
  refine ⟨fun _ => none, ?_, fun _ => rfl⟩
  rw [firstWord_of_branch (by omega)]
  simp only [branchForm, show w / 256 = 0xEE from top, loadPointerForm, if_pos refused]

/-! ## Words that are still missing -/

theorem payloadOf?_mark (low : UInt8) : payloadOf? low 0xF0 = some low.toNat := by
  have small := low.toNat_lt
  have mark : wordOf low 0xF0 / 4096 = 0xF := by
    show (low.toNat + 256 * 240) / 4096 = 0xF
    omega
  have payload : wordOf low 0xF0 % 4096 = low.toNat := by
    show (low.toNat + 256 * 240) % 4096 = low.toNat
    omega
  simp only [payloadOf?, mark, if_true, payload]

theorem payloadOf?_of_isMarked {l h : UInt8} (marked : IsMarked (wordOf l h)) :
    payloadOf? l h = some (wordOf l h % 4096) :=
  if_pos marked

theorem payloadOf?_of_not_isMarked {l h : UInt8} (unmarked : ¬IsMarked (wordOf l h)) :
    payloadOf? l h = none :=
  if_neg unmarked

namespace Form

variable {f : Form} {rest : List UInt8}

theorem complete_eq_error_iff :
    f.complete rest = .error n ↔ n = 2 * f.words ∧ rest.length + 2 < n := by
  rcases f.complete_cases rest with ⟨found, complete, long⟩ | ⟨missing, short⟩
  · rw [complete]
    constructor
    · intro missing
      cases missing
    · omega
  · rw [missing, Except.error.injEq]
    omega

/-- The second of three words is there and has no mark. -/
def IsBroken (f : Form) (rest : List UInt8) : Prop :=
  f.words = 3 ∧ ∃ l h more, rest = l :: h :: more ∧ ¬IsMarked (wordOf l h)

/-- The words that a form misses can be added, unless it is broken already. -/
theorem exists_complete_of_error (accepts : f.Accepts) (missing : f.complete rest = .error n)
    (whole : ¬f.IsBroken rest) :
    ∃ more body, (rest ++ more).length + 2 = n ∧ f.complete (rest ++ more) = .ok (some body) := by
  -- A low byte that is there becomes a small payload under the high byte `F0`; other payloads are zero.
  cases f with
  | nothing | single _ => cases missing
  | double make =>
    rcases rest with _ | ⟨low, _ | ⟨_, _⟩⟩
    · cases missing
      obtain ⟨body, made⟩ := accepts 0 (by decide)
      refine ⟨[0, 0xF0], body, rfl, ?_⟩
      simp only [List.nil_append, complete, payloadOf?_mark, Option.bind_some]
      exact congrArg _ made
    · cases missing
      obtain ⟨body, made⟩ := accepts low.toNat low.toNat_lt
      refine ⟨[0xF0], body, rfl, ?_⟩
      simp only [List.cons_append, List.nil_append, complete, payloadOf?_mark, Option.bind_some, made]
    · cases missing
  | triple make =>
    rcases rest with _ | ⟨low, _ | ⟨high, more⟩⟩
    · cases missing
      exact ⟨[0, 0xF0, 0, 0xF0], _, rfl, rfl⟩
    · cases missing
      refine ⟨[0xF0, 0, 0xF0], make low.toNat 0, rfl, ?_⟩
      simp only [List.cons_append, List.nil_append, complete, payloadOf?_mark]
      rfl
    · have marked : IsMarked (wordOf low high) := by
        by_contra unmarked
        exact whole ⟨rfl, low, high, more, rfl, unmarked⟩
      have first := payloadOf?_of_isMarked marked
      rcases more with _ | ⟨low', _ | ⟨_, _⟩⟩
      · cases missing
        refine ⟨[0, 0xF0], make (wordOf low high % 4096) 0, rfl, ?_⟩
        simp only [List.cons_append, List.nil_append, complete, first]
        rfl
      · cases missing
        refine ⟨[0xF0], make (wordOf low high % 4096) low'.toNat, rfl, ?_⟩
        simp only [List.cons_append, List.nil_append, complete, first, payloadOf?_mark]
        rfl
      · cases missing

theorem IsBroken.append (broken : f.IsBroken rest) (more : List UInt8) :
    f.IsBroken (rest ++ more) := by
  obtain ⟨three, l, h, _, rfl, unmarked⟩ := broken
  exact ⟨three, l, h, _, rfl, unmarked⟩

theorem not_complete_of_isBroken (broken : f.IsBroken rest) (body : Body) :
    f.complete rest ≠ .ok (some body) := by
  obtain ⟨three, l, h, more, rfl, unmarked⟩ := broken
  cases f with
  | nothing | single _ | double _ => simp [words] at three
  | triple make =>
    intro complete
    rcases more with _ | ⟨_, _ | ⟨_, _⟩⟩
    iterate 2 · cases complete
    · simp only [Form.complete, payloadOf?_of_not_isMarked unmarked] at complete
      cases complete

end Form

/-! ## Bytes that are cut off -/

/-- Some bytes are shorter than `n` and begin `n` bytes that are one valid instruction. -/
def IsCutOff (family : Family) (mode : Mode) (address : Nat) (bytes : List UInt8) (n : Nat) : Prop :=
  bytes.length < n ∧ ∃ whole i, bytes <+: whole ∧ whole.length = n ∧
    decode family mode whole address = .ok (some i) ∧ i.opcode ≠ .invalid ∧ i.length = n

/-- Some bytes are no proper prefix of a valid instruction, and the decoder waits for `n` bytes. -/
inductive Overlooked (family : Family) (mode : Mode) (address : Nat) : List UInt8 → Nat → Prop
  | load {low high : UInt8} {rest : List UInt8} (refused : RefusedLoad (wordOf low high))
      (short : rest.length < 2) : Overlooked family mode address (low :: high :: rest) 4
  | second {low high : UInt8} {rest : List UInt8}
      (broken : (firstWord family mode address (wordOf low high)).IsBroken rest)
      (short : rest.length < 4) : Overlooked family mode address (low :: high :: rest) 6

/-- The first word begins no valid instruction, or a word behind it that its form asks for is there and
has no mark. -/
inductive Senseless (family : Family) (mode : Mode) (address : Nat) : List UInt8 → Prop
  | first {low high : UInt8} {rest : List UInt8}
      (nothing : ∀ more i, decode family mode (low :: high :: more) address = .ok (some i) →
        i.opcode = .invalid) : Senseless family mode address (low :: high :: rest)
  | later {low high : UInt8} {rest : List UInt8} {k : Nat} {l h : UInt8} {more : List UInt8}
      (behind : 0 < k) (inside : k < (firstWord family mode address (wordOf low high)).words)
      (found : (low :: high :: rest).drop (2 * k) = l :: h :: more)
      (unmarked : ¬IsMarked (wordOf l h)) : Senseless family mode address (low :: high :: rest)

variable {bytes rest : List UInt8} {low high : UInt8} {i : Instruction}

/-- A valid instruction is a completed form. -/
theorem complete_of_decode (decoded : decode family mode (low :: high :: rest) address = .ok (some i))
    (valid : i.opcode ≠ .invalid) :
    ∃ body, (firstWord family mode address (wordOf low high)).complete rest = .ok (some body) ∧
      i.length = 2 * (firstWord family mode address (wordOf low high)).words := by
  simp only [decode] at decoded
  split at decoded
  case h_1 => cases decoded
  case h_2 =>
    cases decoded
    exact absurd rfl valid
  case h_3 op operands complete =>
    cases decoded
    exact ⟨_, complete, rfl⟩

/-- A completed form is a valid instruction. -/
theorem decode_of_complete {body : Body}
    (complete : (firstWord family mode address (wordOf low high)).complete rest = .ok (some body)) :
    ∃ i, decode family mode (low :: high :: rest) address = .ok (some i) ∧ i.opcode ≠ .invalid ∧
      i.length = 2 * (firstWord family mode address (wordOf low high)).words := by
  obtain ⟨payloads, _, yields, later, _⟩ := Form.yields_of_complete complete
  have encodable := (writtenAs_of_reads ⟨wordOf_lt low high, later, yields⟩).encodable
  refine ⟨⟨address, 2 * (firstWord family mode address (wordOf low high)).words, body.1, body.2⟩,
    by simp only [decode, complete], fun invalid => ?_, rfl⟩
  have unencodable : Body.Encodable family mode address (.invalid, body.2) := invalid ▸ encodable
  exact not_encodable_invalid unencodable

theorem decode_error_iff :
    decode family mode (low :: high :: rest) address =
        .error (.truncated address n (low :: high :: rest).length) ↔
      (firstWord family mode address (wordOf low high)).complete rest = .error n := by
  simp only [decode]
  split <;> rename_i complete <;> simp [complete]

/-- Bytes that are cut off complete the form of their first word when the others follow. -/
theorem isCutOff_iff :
    IsCutOff family mode address (low :: high :: rest) n ↔
      (firstWord family mode address (wordOf low high)).complete rest = .error n ∧
        ∃ more body, (rest ++ more).length + 2 = n ∧
          (firstWord family mode address (wordOf low high)).complete (rest ++ more) =
            .ok (some body) := by
  constructor
  · rintro ⟨shorter, _, i, ⟨more, rfl⟩, long, decoded, valid, length⟩
    obtain ⟨body, complete, words⟩ := complete_of_decode decoded valid
    have missing := Form.complete_eq_error_iff.mpr ⟨length.symm.trans words, shorter⟩
    exact ⟨missing, more, body, long, complete⟩
  · rintro ⟨missing, more, body, long, complete⟩
    obtain ⟨words, shorter⟩ := Form.complete_eq_error_iff.mp missing
    obtain ⟨i, decoded, valid, length⟩ := decode_of_complete complete
    exact ⟨shorter, low :: high :: (rest ++ more), i, ⟨more, rfl⟩, long, decoded, valid,
      length.trans words.symm⟩

/-- No bytes complete what is overlooked. -/
theorem Overlooked.not_isCutOff (overlooked : Overlooked family mode address bytes n) (m : Nat) :
    ¬IsCutOff family mode address bytes m := by
  cases overlooked with
  | load refused short =>
    rw [isCutOff_iff]
    rintro ⟨_, more, body, _, complete⟩
    obtain ⟨make, begins, refuses⟩ := firstWord_of_refusedLoad refused
    obtain ⟨payloads, _, yields, _⟩ := Form.yields_of_complete complete
    rw [begins] at yields
    cases yields with
    | double made => simp [refuses] at made
  | second broken short =>
    rw [isCutOff_iff]
    rintro ⟨_, more, body, _, complete⟩
    exact Form.not_complete_of_isBroken (broken.append more) body complete

theorem Overlooked.decode (overlooked : Overlooked family mode address bytes n) :
    decode family mode bytes address = .error (.truncated address n bytes.length) := by
  cases overlooked with
  | load refused short =>
    rw [decode_error_iff, Form.complete_eq_error_iff]
    obtain ⟨make, begins, _⟩ := firstWord_of_refusedLoad refused
    rw [begins]
    exact ⟨rfl, by omega⟩
  | second broken short =>
    rw [decode_error_iff, Form.complete_eq_error_iff, broken.1]
    exact ⟨rfl, by omega⟩

/-- Bytes are reported as truncated exactly if they are cut off or overlooked. -/
theorem decode_error_iff_isCutOff_or_overlooked (enough : 2 ≤ bytes.length) :
    decode family mode bytes address = .error (.truncated address n bytes.length) ↔
      IsCutOff family mode address bytes n ∨ Overlooked family mode address bytes n := by
  match bytes with
  | [] | [_] => simp at enough
  | low :: high :: rest =>
    constructor
    · rw [decode_error_iff]
      intro missing
      obtain ⟨words, shorter⟩ := Form.complete_eq_error_iff.mp missing
      by_cases refused : RefusedLoad (wordOf low high)
      · obtain ⟨make, begins, _⟩ := firstWord_of_refusedLoad refused
        rw [begins] at words
        obtain rfl : n = 4 := words
        exact .inr (.load refused (by omega))
      · by_cases broken : (firstWord family mode address (wordOf low high)).IsBroken rest
        · rw [broken.1] at words
          obtain rfl : n = 6 := words
          exact .inr (.second broken (by omega))
        · exact .inl (isCutOff_iff.mpr
            ⟨missing, Form.exists_complete_of_error (firstWord_accepts refused) missing broken⟩)
    · rintro (cut | overlooked)
      · exact decode_error_iff.mpr (isCutOff_iff.mp cut).1
      · exact overlooked.decode

theorem IsCutOff.four_or_six (cut : IsCutOff family mode address bytes n) (enough : 2 ≤ bytes.length) :
    n = 4 ∨ n = 6 := by
  obtain ⟨shorter, _, i, _, _, decoded, _, rfl⟩ := cut
  have lengths := length_of_decode decoded
  omega

/-- What bytes without a sense begin is no valid instruction. -/
theorem Senseless.invalid (senseless : Senseless family mode address bytes) {more : List UInt8}
    (decoded : Pic18.decode family mode (bytes ++ more) address = .ok (some i)) :
    i = .invalid address := by
  refine invalid_of_decode decoded ?_
  by_contra valid
  cases senseless with
  | first nothing => exact valid (nothing _ _ decoded)
  | @later low high rest k l h after behind inside found unmarked =>
    obtain ⟨_, _, words⟩ := complete_of_decode decoded valid
    -- The word without a mark is still there when more bytes follow.
    obtain ⟨l', h', _, found', marked⟩ := drop_of_decode decoded behind (by omega)
    have within : 2 * k ≤ (low :: high :: rest).length := by
      by_contra outside
      rw [List.drop_of_length_le (by omega)] at found
      cases found
    rw [List.drop_append_of_le_length within, found] at found'
    cases found'
    exact unmarked marked

/-- Two bytes and more, in every family and mode and at every address,

* are reported as truncated, and `n` bytes as needed, exactly if they are a proper prefix of a valid
  instruction of `n` bytes, which is two or three words, or are overlooked;
* are no such prefix if they are overlooked;
* decode to an instruction if they are not reported as truncated;
* decode to the invalid instruction of one word, or are overlooked, if their first word begins no valid
  instruction or a word that its form asks for has no mark. -/
theorem decode_truncation (family : Family) (mode : Mode) (address : Nat) {bytes : List UInt8}
    (enough : 2 ≤ bytes.length) :
    (∀ n, decode family mode bytes address = .error (.truncated address n bytes.length) ↔
      IsCutOff family mode address bytes n ∨ Overlooked family mode address bytes n) ∧
    (∀ n, IsCutOff family mode address bytes n → n = 4 ∨ n = 6) ∧
    (∀ n, Overlooked family mode address bytes n → ∀ m, ¬IsCutOff family mode address bytes m) ∧
    ((∃ i, decode family mode bytes address = .ok (some i)) ∨
      ∃ n, decode family mode bytes address = .error (.truncated address n bytes.length)) ∧
    (Senseless family mode address bytes →
      decode family mode bytes address = .ok (some (.invalid address)) ∨
        ∃ n, Overlooked family mode address bytes n) := by
  have reported : ∀ n, decode family mode bytes address = .error (.truncated address n bytes.length) ↔
      IsCutOff family mode address bytes n ∨ Overlooked family mode address bytes n :=
    fun n => decode_error_iff_isCutOff_or_overlooked enough
  have outcome : (∃ i, decode family mode bytes address = .ok (some i)) ∨
      ∃ n, decode family mode bytes address = .error (.truncated address n bytes.length) := by
    rcases decode_cases family mode bytes address (by rintro rfl; simp at enough) with
      ⟨i, decoded, _⟩ | ⟨n, missing, _⟩
    · exact .inl ⟨i, decoded⟩
    · exact .inr ⟨n, missing⟩
  refine ⟨reported, fun n cut => cut.four_or_six enough,
    fun n overlooked => overlooked.not_isCutOff, outcome, fun senseless => ?_⟩
  rcases outcome with ⟨i, decoded⟩ | ⟨n, missing⟩
  · rw [← List.append_nil bytes] at decoded
    rw [← senseless.invalid decoded]
    rw [List.append_nil] at decoded
    exact .inl decoded
  · rcases (reported n).mp missing with ⟨_, _, i, ⟨more, rfl⟩, _, decoded, valid, _⟩ | overlooked
    · cases senseless.invalid decoded
      exact absurd rfl valid
    · exact .inr ⟨n, overlooked⟩

/-- A jump is cut off until the last byte of its second word is there; a second word without a mark ends
the wait. -/
theorem decode_truncation_goto :
    2 ≤ [0x12, 0xEF, 0x34].length ∧
      IsCutOff .traditional .traditional 0x100 [0x12, 0xEF, 0x34] 4 ∧
      decode .traditional .traditional [0x12, 0xEF, 0x34] 0x100 = .error (.truncated 0x100 4 3) ∧
      Senseless .traditional .traditional 0x100 [0x12, 0xEF, 0x34, 0x00] ∧
      decode .traditional .traditional [0x12, 0xEF, 0x34, 0x00] 0x100 =
        .ok (some (.invalid 0x100)) := by
  have cut : IsCutOff .traditional .traditional 0x100 [0x12, 0xEF, 0x34] 4 :=
    ⟨by decide, [0x12, 0xEF, 0x34, 0xF0], _, ⟨[0xF0], rfl⟩, rfl, rfl, by decide, rfl⟩
  have senseless : Senseless .traditional .traditional 0x100 [0x12, 0xEF, 0x34, 0x00] :=
    .later (k := 1) (by decide) (by decide) rfl (by unfold IsMarked; decide)
  obtain ⟨reported, _⟩ :=
    @decode_truncation .traditional .traditional 0x100 [0x12, 0xEF, 0x34] (by decide)
  obtain ⟨_, _, _, _, invalid⟩ :=
    @decode_truncation .traditional .traditional 0x100 [0x12, 0xEF, 0x34, 0x00] (by decide)
  refine ⟨by decide, cut, (reported 4).mpr (.inl cut), senseless, ?_⟩
  rcases invalid senseless with decoded | ⟨n, overlooked⟩
  · exact decoded
  · cases overlooked.decode

/-- `EEC0` names no pointer, and a long far move whose second word has no mark is none; both are reported
as truncated, and nothing completes them. -/
theorem truncated_lfsr_movffl_misses :
    (2 ≤ [0xC0, 0xEE].length ∧
      decode .traditional .traditional [0xC0, 0xEE] 0x100 = .error (.truncated 0x100 4 2) ∧
      ∀ n, ¬IsCutOff .traditional .traditional 0x100 [0xC0, 0xEE] n) ∧
    2 ≤ [0x60, 0x00, 0x00, 0x00].length ∧
      decode .enhanced .traditional [0x60, 0x00, 0x00, 0x00] 0x100 =
        .error (.truncated 0x100 6 4) ∧
      Senseless .enhanced .traditional 0x100 [0x60, 0x00, 0x00, 0x00] ∧
      ∀ n, ¬IsCutOff .enhanced .traditional 0x100 [0x60, 0x00, 0x00, 0x00] n := by
  have lfsr : Overlooked .traditional .traditional 0x100 [0xC0, 0xEE] 4 :=
    .load ⟨by decide, by decide⟩ (by decide)
  have movffl : Overlooked .enhanced .traditional 0x100 [0x60, 0x00, 0x00, 0x00] 6 :=
    .second ⟨rfl, 0, 0, [], rfl, by unfold IsMarked; decide⟩ (by decide)
  refine ⟨⟨by decide, lfsr.decode, lfsr.not_isCutOff⟩, by decide, movffl.decode, ?_,
    movffl.not_isCutOff⟩
  exact .later (k := 1) (by decide) (by decide) rfl (by unfold IsMarked; decide)

end RegisterTransfer.Pic18
