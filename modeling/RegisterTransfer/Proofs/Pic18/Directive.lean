/-
# RegisterTransfer.Proofs.Pic18.Directive -- data directives take bytes apart

A directive is asked for at the front of some bytes.  Bytes come in units, of two for the directives
of words and of one for the others.  A directive that finds a unit takes a positive number of whole
units and holds their bytes (`decodeDirective_units`).  A lone byte before a directive of words is
left over (`decodeDirective_leftover`): the one that counts first refuses it, and the one of an
identification word reads two bytes without a look at how many there are and stops the program.

Taken from the front again and again (`directives`), directives stand one right after the other.  A
step takes whole units, so what is left over stays the same, and by induction on the number of bytes a
run keeps all units and ends at the first byte that fills none (`directives_units`).

* `decodeDirective_outcome`: the answer for every directive and every number of bytes;
* `directives_lossless`: what the directives of a run hold, and how the run ends.
-/
import RegisterTransfer.Proofs.Pic18.Encoder
import RegisterTransfer.Proofs.Stream.TwoPass

namespace RegisterTransfer.Pic18

set_option autoImplicit false

variable {directive : Opcode} {bytes : List UInt8} {count address : Nat}

/-! ## Checked reads -/

theorem firstItems_of_le {α : Type} {items : List α} (inside : count ≤ items.length) :
    firstItems items count address = .ok (items.take count) := by
  rw [firstItems, if_pos inside]

theorem firstWords_of_le (enough : 2 ≤ count) (inside : count ≤ bytes.length) :
    firstWords bytes count address = .ok (wordsOf (bytes.take (count - count % 2))) := by
  have even : count - count % 2 ≤ bytes.length := by omega
  rw [firstWords, if_neg (by omega), firstItems_of_le even]
  rfl

/-! ## Words -/

/-- Two bytes for each of some words, low byte first. -/
def bytesOf (words : List UInt16) : List UInt8 := words.flatMap fun w => wordBytes w.toNat

theorem wordBytes_ofNat_wordOf (low high : UInt8) :
    wordBytes (UInt16.ofNat (wordOf low high)).toNat = [low, high] := by
  rw [UInt16.toNat_ofNat_of_lt' (wordOf_lt low high), wordBytes_wordOf]

theorem length_wordsOf (bytes : List UInt8) : (wordsOf bytes).length = bytes.length / 2 := by
  induction bytes using wordsOf.induct with
  | case1 low high rest ih =>
      simp only [wordsOf, List.length_cons, ih]
      omega
  | case2 bytes short =>
      match bytes, short with
      | [], _ => rfl
      | [_], _ => simp [wordsOf]
      | low :: high :: rest, short => exact absurd rfl (short low high rest)

/-- No byte of an even number is lost. -/
theorem bytesOf_wordsOf (even : bytes.length % 2 = 0) : bytesOf (wordsOf bytes) = bytes := by
  induction bytes using wordsOf.induct with
  | case1 low high rest ih =>
      have even' : rest.length % 2 = 0 := by
        simp only [List.length_cons] at even
        omega
      rw [wordsOf, bytesOf, List.flatMap_cons, wordBytes_ofNat_wordOf]
      exact congrArg (low :: high :: ·) (ih even')
  | case2 bytes short =>
      match bytes, short with
      | [], _ => rfl
      | [_], _ => simp at even
      | low :: high :: rest, short => exact absurd rfl (short low high rest)

/-! ## One directive -/

/-- The bytes that a payload stands for. -/
def Payload.contents : Payload → List UInt8
  | .bytes data => data
  | .words data => bytesOf data
  | .eeprom data => data
  | .ascii data => data
  | .idLocation _ value => bytesOf [value]
  | .config _ value => [value]

/-- The address that some payloads repeat. -/
def Payload.address? : Payload → Option Nat
  | .idLocation address _ => some address
  | .config address _ => some address
  | _ => none

/-- The bytes that an instruction's payloads stand for. -/
def Instruction.contents (i : Instruction) : List UInt8 :=
  i.operands.flatMap fun
    | .payload p => p.contents
    | _ => []

/-- How many bytes the smallest piece of a directive's contents has. -/
def Opcode.unit : Opcode → Nat
  | .dw | .idlocs => 2
  | _ => 1

/-- `i` is a directive for the first bytes of some. -/
structure Takes (directive : Opcode) (bytes : List UInt8) (address : Nat) (i : Instruction) :
    Prop where
  opcode : i.opcode = directive
  located : i.address = address
  positive : 0 < i.length
  inside : i.length ≤ bytes.length
  units : directive.unit ∣ i.length
  contents : i.contents = bytes.take i.length
  /-- An address that a payload repeats is the directive's own. -/
  repeated : ∀ p, .payload p ∈ i.operands → ∀ a ∈ p.address?, a = address

theorem decodeDirective_nil : decodeDirective directive [] address = .ok none := rfl

theorem decodeDirective_of_fault {fault : DirectiveFault} (more : bytes ≠ [])
    (found : payloadFor directive bytes address = .error fault) :
    decodeDirective directive bytes address = .error fault := by
  rw [decodeDirective, if_neg (by simpa using more), found]
  rfl

theorem exists_takes (length : Nat) (p : Payload)
    (found : payloadFor directive bytes address = .ok (length, p)) (positive : 0 < length)
    (inside : length ≤ bytes.length) (units : directive.unit ∣ length)
    (contents : p.contents = bytes.take length) (repeated : ∀ a ∈ p.address?, a = address) :
    ∃ i, decodeDirective directive bytes address = .ok (some i) ∧
      Takes directive bytes address i := by
  have more : bytes ≠ [] := List.length_pos_iff.mp (Nat.lt_of_lt_of_le positive inside)
  refine ⟨⟨address, length, directive, [.payload p]⟩, ?_, rfl, rfl, positive, inside, units, ?_,
    ?_⟩
  · rw [decodeDirective, if_neg (by simpa using more), found]
    rfl
  · simpa [Instruction.contents] using contents
  · intro q member
    obtain rfl : q = p := by simpa using member
    exact repeated

/-- The directives of bytes differ in what their payload is called. -/
theorem exists_takes_bytes (hold : List UInt8 → Payload) (one : directive.unit = 1)
    (more : 1 ≤ bytes.length)
    (found : payloadFor directive bytes address = do
      let take := min bytes.length maxDirectiveBytes
      return (take, hold (← firstItems bytes take address)))
    (contents : ∀ data, (hold data).contents = data)
    (silent : ∀ data, (hold data).address? = none) :
    ∃ i, decodeDirective directive bytes address = .ok (some i) ∧
      Takes directive bytes address i := by
  have capped : min bytes.length maxDirectiveBytes ≤ bytes.length := Nat.min_le_left _ _
  have eight : maxDirectiveBytes = 8 := rfl
  refine exists_takes (min bytes.length maxDirectiveBytes)
    (hold (bytes.take (min bytes.length maxDirectiveBytes))) ?_ (by omega) capped ?_
    (contents _) ?_
  · rw [found]
    simp only [firstItems_of_le capped]
    rfl
  · rw [one]
    exact Nat.one_dvd _
  · rw [silent]
    simp

/-- A directive that finds a unit takes whole units, and its payload holds their bytes. -/
theorem decodeDirective_units (address : Nat) (accepted : directive.isDirective)
    (unit : directive.unit ≤ bytes.length) :
    ∃ i, decodeDirective directive bytes address = .ok (some i) ∧
      Takes directive bytes address i := by
  cases directive with
  | db => exact exists_takes_bytes .bytes rfl unit rfl (fun _ => rfl) (fun _ => rfl)
  | de => exact exists_takes_bytes .eeprom rfl unit rfl (fun _ => rfl) (fun _ => rfl)
  | ascii => exact exists_takes_bytes .ascii rfl unit rfl (fun _ => rfl) (fun _ => rfl)
  | dw =>
      -- An odd number of bytes is rounded down, and the length that is told is that of the words.
      have two : 2 ≤ bytes.length := unit
      have capped : min bytes.length maxDirectiveBytes ≤ bytes.length := Nat.min_le_left _ _
      have eight : maxDirectiveBytes = 8 := rfl
      let even := min bytes.length maxDirectiveBytes - min bytes.length maxDirectiveBytes % 2
      have length : (bytes.take even).length = even := by
        rw [List.length_take]
        omega
      have told : 2 * (wordsOf (bytes.take even)).length = even := by
        rw [length_wordsOf, length]
        omega
      refine exists_takes even (.words (wordsOf (bytes.take even))) ?_ ?_ ?_ ?_ ?_ ?_
      · simp only [payloadFor, firstWords_of_le (Nat.le_min.mpr ⟨two, by omega⟩) capped]
        exact congrArg (fun n => Except.ok (n, Payload.words _)) told
      · omega
      · omega
      · exact Nat.dvd_of_mod_eq_zero (by rw [Opcode.unit]; omega)
      · exact bytesOf_wordsOf (by omega)
      · simp [Payload.address?]
  | idlocs =>
      match bytes, unit with
      | low :: high :: rest, unit =>
          refine exists_takes 2 (.idLocation address (.ofNat (wordOf low high))) ?_ ?_ unit ?_ ?_ ?_
          · simp only [payloadFor, firstWords_of_le (Nat.le_refl 2) unit]
            rfl
          · decide
          · exact Nat.dvd_refl 2
          · rw [Payload.contents, bytesOf, List.flatMap_cons, wordBytes_ofNat_wordOf]
            rfl
          · simp [Payload.address?]
  | config =>
      match bytes, unit with
      | byte :: rest, unit =>
          refine exists_takes 1 (.config address byte) rfl ?_ unit ?_ rfl ?_
          · decide
          · exact Nat.dvd_refl 1
          · simp [Payload.address?]
  | _ => cases accepted

/-- What bytes that fill no unit lead to. -/
def leftover (directive : Opcode) (address : Nat) : DirectiveFault :=
  if directive = .idlocs then .overrun address 2 1 else .refused (.truncated address 2 1)

theorem decodeDirective_leftover (more : bytes ≠ []) (short : bytes.length < directive.unit) :
    decodeDirective directive bytes address = .error (leftover directive address) := by
  have positive := List.length_pos_iff.mpr more
  apply decodeDirective_of_fault more
  cases directive with
  | dw | idlocs =>
      have two : bytes.length < 2 := short
      obtain ⟨byte, rfl⟩ : ∃ byte, bytes = [byte] := List.length_eq_one_iff.mp (by omega)
      rfl
  | _ =>
      have one : bytes.length < 1 := short
      omega

theorem decodeDirective_of_not_isDirective (more : bytes ≠ [])
    (other : directive.isDirective = false) :
    decodeDirective directive bytes address = .error
      (.refused (.invalidEncoding address (directive.name ++ " is not a data directive"))) := by
  apply decodeDirective_of_fault more
  cases directive <;> first | rfl | cases other

theorem takes_of_ok {i : Instruction}
    (found : decodeDirective directive bytes address = .ok (some i)) :
    Takes directive bytes address i := by
  by_cases more : bytes = []
  · subst more
    cases found
  · by_cases accepted : directive.isDirective
    · rcases Nat.lt_or_ge bytes.length directive.unit with short | unit
      · rw [decodeDirective_leftover more short] at found
        cases found
      · obtain ⟨j, taken, takes⟩ := decodeDirective_units address accepted unit
        rw [taken] at found
        cases found
        exact takes
    · rw [decodeDirective_of_not_isDirective more (by simpa using accepted)] at found
      cases found

/-- No bytes give nothing.  Some bytes are refused for what is no directive.  A lone byte is refused
by the directive of words and overrun by that of an identification word, which is the only overrun.
Everything else gives a directive that is not empty and ends within the bytes.  The family and the
mode of the device play no part. -/
theorem decodeDirective_outcome (directive : Opcode) (bytes : List UInt8) (address : Nat) :
    let answer := decodeDirective directive bytes address
    (bytes = [] → answer = .ok none) ∧
      (bytes ≠ [] → directive.isDirective = false → answer = .error
        (.refused (.invalidEncoding address (directive.name ++ " is not a data directive")))) ∧
      (directive = .dw → bytes.length = 1 →
        answer = .error (.refused (.truncated address 2 1))) ∧
      (directive = .idlocs → bytes.length = 1 → answer = .error (.overrun address 2 1)) ∧
      (bytes ≠ [] → directive.isDirective →
        ¬(bytes.length = 1 ∧ directive ∈ [.dw, .idlocs]) →
        ∃ i, answer = .ok (some i) ∧ 1 ≤ i.length ∧ i.length ≤ bytes.length) := by
  refine ⟨?_, decodeDirective_of_not_isDirective, ?_, ?_, ?_⟩
  · rintro rfl
    exact decodeDirective_nil
  · rintro rfl one
    exact decodeDirective_leftover (List.length_pos_iff.mp (by omega)) (by rw [one]; decide)
  · rintro rfl one
    exact decodeDirective_leftover (List.length_pos_iff.mp (by omega)) (by rw [one]; decide)
  · intro more accepted lone
    have positive := List.length_pos_iff.mpr more
    have unit : directive.unit ≤ bytes.length := by
      cases directive with
      | dw | idlocs =>
          have two : bytes.length ≠ 1 := fun one => lone ⟨one, by decide⟩
          exact (by omega : 2 ≤ bytes.length)
      | _ => exact positive
    obtain ⟨i, taken, takes⟩ := decodeDirective_units address accepted unit
    exact ⟨i, taken, takes.positive, takes.inside⟩

theorem decodeDirective_outcome_dw :
    ∃ i, decodeDirective .dw [0x34, 0x12, 0x78] 0x10 = .ok (some i) ∧
      1 ≤ i.length ∧ i.length ≤ 3 :=
  (decodeDirective_outcome .dw [0x34, 0x12, 0x78] 0x10).2.2.2.2 (by decide) (by decide) (by decide)

/-- The directive of an identification word does read past a lone byte. -/
theorem idlocs_singleton_overruns :
    decodeDirective .idlocs [0x41] 0 = .error (.overrun 0 2 1) ∧
      decodeDirective .dw [0x41] 0 = .error (.refused (.truncated 0 2 1)) := ⟨rfl, rfl⟩

/-! ## Directives again and again -/

/-- The directives from the front of some bytes, and the fault that ends them, if one does. -/
def directives (directive : Opcode) (bytes : List UInt8) (address : Nat) :
    List Instruction × Option DirectiveFault :=
  match _found : decodeDirective directive bytes address with
  | .ok none => ([], none)
  | .error fault => ([], some fault)
  | .ok (some i) =>
      let rest := directives directive (bytes.drop i.length) (address + i.length)
      (i :: rest.1, rest.2)
termination_by bytes.length
decreasing_by
  have takes := takes_of_ok _found
  have positive := takes.positive
  have inside := takes.inside
  rw [List.length_drop]
  omega

theorem directives_nil : directives directive [] address = ([], none) := by
  rw [directives]
  rfl

theorem directives_of_fault {fault : DirectiveFault}
    (found : decodeDirective directive bytes address = .error fault) :
    directives directive bytes address = ([], some fault) := by
  rw [directives]
  split <;> simp_all

theorem directives_of_take {i : Instruction}
    (found : decodeDirective directive bytes address = .ok (some i)) :
    directives directive bytes address =
      (i :: (directives directive (bytes.drop i.length) (address + i.length)).1,
        (directives directive (bytes.drop i.length) (address + i.length)).2) := by
  rw [directives]
  split <;> simp_all

theorem Takes.length_contents {i : Instruction} (takes : Takes directive bytes address i) :
    i.contents.length = i.length := by
  rw [takes.contents, List.length_take, Nat.min_eq_left takes.inside]

/-- A run keeps the whole units of the bytes and ends where they do. -/
theorem directives_units (accepted : directive.isDirective) (bytes : List UInt8) (address : Nat) :
    let run := directives directive bytes address
    let whole := bytes.length - bytes.length % directive.unit
    Adjacent address run.1 ∧
      (∀ i ∈ run.1, ∃ left, Takes directive left i.address i) ∧
      run.1.flatMap Instruction.contents = bytes.take whole ∧
      run.2 =
        if whole = bytes.length then none else some (leftover directive (address + whole)) := by
  by_cases more : bytes = []
  · subst more
    rw [directives_nil]
    simp [Adjacent]
  · have positive := List.length_pos_iff.mpr more
    rcases Nat.lt_or_ge bytes.length directive.unit with short | unit
    · rw [directives_of_fault (decodeDirective_leftover more short), Nat.mod_eq_of_lt short,
        Nat.sub_self]
      refine ⟨trivial, by simp, rfl, ?_⟩
      exact (if_neg (Nat.ne_of_lt positive)).symm
    · obtain ⟨i, taken, takes⟩ := decodeDirective_units address accepted unit
      have taken_pos := takes.positive
      have inside := takes.inside
      have left : (bytes.drop i.length).length = bytes.length - i.length := List.length_drop
      obtain ⟨adjacent, parts, kept, ending⟩ :=
        directives_units accepted (bytes.drop i.length) (address + i.length)
      -- What is left over is the same, for the directive took whole units.
      have same : (bytes.length - i.length) % directive.unit = bytes.length % directive.unit := by
        obtain ⟨units, whole⟩ := takes.units
        rw [whole, Nat.sub_mul_mod (whole ▸ inside)]
      have atMost : bytes.length % directive.unit ≤ bytes.length - i.length := by
        rw [← same]
        exact Nat.mod_le _ _
      rw [left, same] at kept ending
      have whole : bytes.length - bytes.length % directive.unit =
          i.length + (bytes.length - i.length - bytes.length % directive.unit) := by
        omega
      rw [directives_of_take taken, whole]
      refine ⟨⟨takes.located, adjacent⟩, ?_, ?_, ?_⟩
      · intro j member
        rcases List.mem_cons.mp member with rfl | later
        · exact ⟨bytes, takes.located ▸ takes⟩
        · exact parts j later
      · rw [List.flatMap_cons, kept, takes.contents, List.take_add]
      · rw [ending, Nat.add_assoc]
        congr 1
        rw [eq_iff_iff]
        omega
termination_by bytes.length

/-- Directives of bytes and of configuration bytes hold all bytes and end with nothing.  Words hold
the longest prefix of even length, and an odd byte behind it is refused at its own address.  Of an
even number of bytes the identification words hold all.  The directives follow on each other, none
is empty, each is as long as what it holds, and an address that one repeats is its own. -/
theorem directives_lossless (directive : Opcode) (accepted : directive.isDirective)
    (bytes : List UInt8) (address : Nat) :
    let run := directives directive bytes address
    let held := run.1.flatMap Instruction.contents
    Adjacent address run.1 ∧
      (∀ i ∈ run.1, i.opcode = directive ∧ 0 < i.length ∧ i.contents.length = i.length ∧
        ∀ p, .payload p ∈ i.operands → ∀ a ∈ p.address?, a = i.address) ∧
      (directive ∈ [.db, .de, .ascii, .config] → held = bytes ∧ run.2 = none) ∧
      (directive = .dw →
        held = bytes.take (bytes.length / 2 * 2) ∧
          (bytes.length % 2 = 0 → run.2 = none) ∧
          (bytes.length % 2 = 1 →
            run.2 = some (.refused (.truncated (address + (bytes.length - 1)) 2 1)))) ∧
      (directive = .idlocs → bytes.length % 2 = 0 → held = bytes ∧ run.2 = none) := by
  obtain ⟨adjacent, parts, kept, ending⟩ := directives_units accepted bytes address
  refine ⟨adjacent, ?_, ?_, ?_, ?_⟩
  · intro i member
    obtain ⟨left, takes⟩ := parts i member
    exact ⟨takes.opcode, takes.positive, takes.length_contents, takes.repeated⟩
  · intro bytewise
    have one : directive.unit = 1 := by
      simp only [List.mem_cons, List.not_mem_nil, or_false] at bytewise
      rcases bytewise with rfl | rfl | rfl | rfl <;> rfl
    rw [one, Nat.mod_one, Nat.sub_zero] at kept ending
    exact ⟨kept.trans (List.take_length), ending.trans (if_pos rfl)⟩
  · rintro rfl
    have two : Opcode.dw.unit = 2 := rfl
    rw [two] at kept ending
    refine ⟨?_, ?_, ?_⟩
    · rw [kept]
      congr 1
      omega
    · intro even
      rw [ending, if_pos (by omega)]
    · intro odd
      rw [ending, if_neg (by omega), odd]
      rfl
  · rintro rfl even
    have two : Opcode.idlocs.unit = 2 := rfl
    rw [two, even, Nat.sub_zero] at kept ending
    exact ⟨kept.trans (List.take_length), ending.trans (if_pos rfl)⟩

theorem directives_lossless_dw :
    Opcode.dw.isDirective ∧
      (directives .dw [0x34, 0x12, 0x78] 0x10).1.flatMap Instruction.contents = [0x34, 0x12] ∧
      (directives .dw [0x34, 0x12, 0x78] 0x10).2 = some (.refused (.truncated 0x12 2 1)) := by
  obtain ⟨-, -, -, words, -⟩ := directives_lossless .dw rfl [0x34, 0x12, 0x78] 0x10
  obtain ⟨held, -, odd⟩ := words rfl
  exact ⟨rfl, held, odd rfl⟩

end RegisterTransfer.Pic18
