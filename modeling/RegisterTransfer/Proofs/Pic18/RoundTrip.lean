/-
# RegisterTransfer.Proofs.Pic18.RoundTrip -- the decoder and the encoder undo each other

What the decoder reads is written as it reads it (`writtenAs_of_reads`).  Here is the other direction,
with one lemma for each rule of `Body.Encodable`, and both for bytes.

* `reads_code`: the code of an encodable body is read as that body;
* `decode_of_reads`, `reads_of_decode`: to decode bytes is to read their words;
* `decode_encode`: decoding undoes encoding, what is decoded is alike to its encoding, and the encodings
  of one instruction are alike.

NOP has two encodings that differ in more than unread bits: `nop_of_two_words`.
-/
import RegisterTransfer.Proofs.Pic18.DecodedBody

namespace RegisterTransfer.Pic18

set_option autoImplicit false

variable {family : Family} {mode : Mode} {address w : Nat} {payloads : List Nat} {body : Body}

/-! ## Rows of the tables -/

theorem firstWord_of_misc (top : w / 4096 = 0x0) :
    firstWord family mode address w = miscForm family mode w := by
  simp only [firstWord, top]

theorem firstWord_of_branch (top : w / 4096 = 0xE) :
    firstWord family mode address w = branchForm family mode address w := by
  simp only [firstWord, top]

theorem firstWord_of_byte (lower : 0x04 ≤ w / 2 ^ 10) (upper : w / 2 ^ 10 < 0x18) :
    firstWord family mode address w = .single (byteOpcode (w / 2 ^ 10), [fileDestOf mode w]) := by
  have top : w / 4096 = 1 ∨ w / 4096 = 2 ∨ w / 4096 = 3 ∨ w / 4096 = 4 ∨ w / 4096 = 5 := by omega
  rcases top with top | top | top | top | top <;> simp only [firstWord, top]

/-- Words from `0100` to `01FF` select a bank. -/
theorem firstWord_of_bank (top : w / 2 ^ 8 = 1) :
    firstWord family mode address w = bankForm family w := by
  have high : w / 256 = 1 := top
  rw [firstWord_of_misc (by omega)]
  simp only [miscForm, high]

theorem miscForm_of_mulwf (top : w / 2 ^ 9 = 1) :
    miscForm family mode w = .single (.mulwf, [.file (fileOf mode w)]) := by
  have high : w / 256 = 2 ∨ w / 256 = 3 := by omega
  rcases high with high | high <;> simp only [miscForm, high]

theorem miscForm_of_decf (top : w / 2 ^ 10 = 1) :
    miscForm family mode w = .single (.decf, [fileDestOf mode w]) := by
  have high : w / 256 = 4 ∨ w / 256 = 5 ∨ w / 256 = 6 ∨ w / 256 = 7 := by omega
  rcases high with high | high | high | high <;> simp only [miscForm, high]

theorem miscForm_of_literal (lower : 0x08 ≤ w / 2 ^ 8) :
    miscForm family mode w = .single (literalOpcode (w / 2 ^ 8), [literal8Of w]) := by
  unfold miscForm
  split
  case h_9 => rfl
  all_goals omega

theorem branchForm_of_branch (lower : 0xE0 ≤ w / 2 ^ 8) (upper : w / 2 ^ 8 < 0xE8) :
    branchForm family mode address w =
      .single (branchOpcode (w / 2 ^ 8), [.ofOffset8 (signedField 8 (w % 256)) address]) := by
  unfold branchForm
  split
  case h_9 => rfl
  all_goals omega

theorem clear_of_bit {op : Opcode} (known : op ∈ bitOpcodes) :
    op.pattern % 2 ^ 12 = 0 ∧ op.pattern < 2 ^ 15 + 2 ^ 14 := by
  revert op
  decide

theorem firstWord_of_bit {op : Opcode} (known : op ∈ bitOpcodes) {x : Nat} (small : x < 2 ^ 12) :
    firstWord family mode address (op.pattern + x) =
      .single (op, [fileBitOf mode (op.pattern + x)]) := by
  have top : (op.pattern + x) / 4096 = op.pattern / 4096 := by
    have clear := (clear_of_bit known).1
    omega
  unfold firstWord
  rw [top]
  simp only [bitOpcodes, List.mem_cons, List.not_mem_nil, or_false] at known
  rcases known with rfl | rfl | rfl | rfl | rfl <;> rfl

/-- Words from `E800` to `E9FF` adjust a pointer. -/
theorem branchForm_of_pointer (top : w / 2 ^ 9 = 0x74) :
    branchForm family .extended address w = pointerForm w := by
  have high : w / 256 = 0xE8 ∨ w / 256 = 0xE9 := by omega
  rcases high with high | high <;>
    simp only [branchForm, high, Form.onlyIf, decide_true, if_true]

/-- Words from `EB00` to `EBFF` move from an offset of FSR2. -/
theorem branchForm_of_indexedMove (top : w / 2 ^ 8 = 0xEB) :
    branchForm family .extended address w = indexedMoveForm w := by
  have high : w / 256 = 0xEB := top
  simp only [branchForm, high, Form.onlyIf, decide_true, if_true]

/-- Words from `EE00` on load a pointer, if their bits 6 and 7 are clear. -/
theorem branchForm_of_load {n x : Nat} (few : n < 3) (small : x < 2 ^ 4) :
    branchForm family mode address (0xEE00 + (n * 2 ^ 4 + x)) = .double fun p =>
      match family with
      | .enhanced =>
          if bitsOf p 10 2 ≠ 0 then none
          else some (.lfsr, [.pointer n, .imm14 (x * 2 ^ 10 + p % 2 ^ 10)])
      | .traditional =>
          if bitsOf p 8 4 ≠ 0 then none
          else some (.lfsr, [.pointer n, .imm12 (x * 2 ^ 8 + p % 2 ^ 8)]) := by
  have high : (0xEE00 + (n * 2 ^ 4 + x)) / 256 = 0xEE := by omega
  have number : bitsOf (0xEE00 + (n * 2 ^ 4 + x)) 4 2 = n := by unfold bitsOf; omega
  have clear : bitsOf (0xEE00 + (n * 2 ^ 4 + x)) 6 2 = 0 := by unfold bitsOf; omega
  have low : (0xEE00 + (n * 2 ^ 4 + x)) % 16 = x := by omega
  have other : ¬ (0 ≠ 0 ∨ n = 3) := by omega
  cases family <;>
    simp only [branchForm, high, loadPointerForm, number, clear, low, if_neg other]

/-- Words from `0060` to `006F` move between full data addresses. -/
theorem firstWord_of_movffl (top : w / 2 ^ 4 = 6) :
    firstWord .enhanced mode address w = .triple fun p q =>
      (.movffl, [.ofAddress14 (w % 16 * 2 ^ 10 + p / 4), .ofAddress14 (p % 4 * 2 ^ 12 + q)]) := by
  have high : w / 256 = 0 := by omega
  have six : w % 256 / 16 = 6 := by omega
  rw [firstWord_of_misc (by omega)]
  simp only [miscForm, high, controlForm]
  split
  case h_22 => simp only [six, Form.onlyIf, decide_true, Bool.and_true, if_true]
  all_goals omega

/-! ## From bodies to words -/

theorem reads_single (small : w < 2 ^ 16)
    (begins : firstWord family mode address w = .single body) :
    body.Reads family mode address w [] :=
  ⟨small, by simp, begins ▸ .single body⟩

theorem reads_triple {make : Nat → Nat → Body} {p q : Nat} (small : w < 2 ^ 16) (p_ : p < 2 ^ 12)
    (q_ : q < 2 ^ 12) (begins : firstWord family mode address w = .triple make)
    (made : make p q = body) : body.Reads family mode address w [p, q] := by
  subst made
  have later : ∀ x ∈ [p, q], x < 2 ^ 12 :=
    List.forall_mem_cons.mpr ⟨p_, List.forall_mem_singleton.mpr q_⟩
  exact ⟨small, later, begins ▸ .triple make p q⟩

theorem reads_file {op : Opcode} {f : FileOperand} (known : op = .mulwf ∨ op ∈ fileOpcodes)
    (same : f.mode = mode) :
    Body.Reads family mode address (op.pattern + f.code) [] (op, [.file f]) := by
  have small := f.code_lt
  rcases known with rfl | known
  · have pattern : Opcode.mulwf.pattern = 0x0200 := rfl
    refine reads_single (by omega) ?_
    rw [firstWord_of_misc (by omega), miscForm_of_mulwf (by omega), fileOf_eq same (by omega)]
  · obtain ⟨lower, upper, bits, same_⟩ := fileTable.opcodeOf_add known small
    have top : (op.pattern + f.code) / 4096 = 6 := by omega
    refine reads_single (by omega) ?_
    simp only [firstWord, top, same_]
    rw [fileOf_eq same bits]

theorem reads_fileDest {op : Opcode} {f : FileOperand} {dest : Destination}
    (known : op = .decf ∨ op ∈ byteOpcodes) (same : f.mode = mode) :
    Body.Reads family mode address (op.pattern + (dest.code * 2 ^ 9 + f.code)) []
      (op, [.fileDest f dest]) := by
  have one := dest.code_lt
  have nine := f.code_lt
  have small : dest.code * 2 ^ 9 + f.code < 2 ^ 10 := by omega
  rcases known with rfl | known
  · have pattern : Opcode.decf.pattern = 0x0400 := rfl
    have bits : (Opcode.decf.pattern + (dest.code * 2 ^ 9 + f.code)) % 2 ^ 10 =
        dest.code * 2 ^ 9 + f.code := by
      omega
    refine reads_single (by omega) ?_
    rw [firstWord_of_misc (by omega), miscForm_of_decf (by omega), fileDestOf_eq same bits]
  · obtain ⟨lower, upper, bits, same_⟩ := byteTable.opcodeOf_add known small
    refine reads_single (by omega) ?_
    rw [firstWord_of_byte lower upper, same_, fileDestOf_eq same bits]

theorem reads_fileBit {op : Opcode} {f : FileOperand} {bit : Fin 8} (known : op ∈ bitOpcodes)
    (same : f.mode = mode) :
    Body.Reads family mode address (op.pattern + (bit.val * 2 ^ 9 + f.code)) []
      (op, [.fileBit f bit]) := by
  have three := bit.isLt
  have nine := f.code_lt
  have small : bit.val * 2 ^ 9 + f.code < 2 ^ 12 := by omega
  obtain ⟨clear, inside⟩ := clear_of_bit known
  have bits : (op.pattern + (bit.val * 2 ^ 9 + f.code)) % 2 ^ 12 = bit.val * 2 ^ 9 + f.code := by
    omega
  refine reads_single (by omega) ?_
  rw [firstWord_of_bit known small, fileBitOf_eq same bits]

theorem reads_literal {op : Opcode} {k : UInt8} (known : op ∈ literalOpcodes) :
    Body.Reads family mode address (op.pattern + k.toNat) [] (op, [.imm8 k]) := by
  have small : k.toNat < 2 ^ 8 := k.toNat_lt
  obtain ⟨lower, upper, bits, same⟩ := literalTable.opcodeOf_add known small
  refine reads_single (by omega) ?_
  rw [firstWord_of_misc (by omega), miscForm_of_literal lower, same, literal8Of_eq bits]

theorem reads_pushl {k : UInt8} :
    Body.Reads family .extended address (0xEA00 + k.toNat) [] (.pushl, [.imm8 k]) := by
  have small := k.toNat_lt
  have high : (0xEA00 + k.toNat) / 256 = 0xEA := by omega
  refine reads_single (by omega) ?_
  rw [firstWord_of_branch (by omega)]
  simp only [branchForm, high, Form.onlyIf, decide_true, if_true]
  rw [literal8Of_eq (k := k) (by omega)]

theorem reads_bank4 {k : UInt8} (small : k.toNat < 2 ^ 4) :
    Body.Reads .traditional mode address (0x0100 + k.toNat) [] (.movlb, [.imm4 k]) := by
  have few : (0x0100 + k.toNat) % 256 < 16 := by omega
  refine reads_single (by omega) ?_
  rw [firstWord_of_bank (by omega)]
  simp only [bankForm, few, Form.onlyIf, decide_true, if_true]
  rw [ofNat_eq (k := k) (by omega)]

theorem reads_bank6 {k : UInt8} (small : k.toNat < 2 ^ 6) :
    Body.Reads .enhanced mode address (0x0100 + k.toNat) [] (.movlb, [.imm6 k]) := by
  have few : (0x0100 + k.toNat) % 256 < 64 := by omega
  refine reads_single (by omega) ?_
  rw [firstWord_of_bank (by omega)]
  simp only [bankForm, few, Form.onlyIf, decide_true, if_true]
  rw [ofNat_eq (k := k) (by omega)]

theorem reads_link {op : Opcode} {k : UInt8} (known : op = .addulnk ∨ op = .subulnk)
    (small : k.toNat < 2 ^ 6) :
    Body.Reads family .extended address (op.pattern + k.toNat) [] (op, [.imm6 k]) := by
  have addulnk : Opcode.addulnk.pattern = 0xE8C0 := rfl
  have subulnk : Opcode.subulnk.pattern = 0xE9C0 := rfl
  rcases known with rfl | rfl
  all_goals
    refine reads_single (by omega) ?_
    rw [firstWord_of_branch (by omega), branchForm_of_pointer (by omega), pointerForm]
  case inl =>
    have three : bitsOf (Opcode.addulnk.pattern + k.toNat) 6 2 = 3 := by unfold bitsOf; omega
    have add : (Opcode.addulnk.pattern + k.toNat) / 256 = 0xE8 := by omega
    simp only [three, add, if_true]
    rw [ofNat_eq (k := k) (by omega)]
  case inr =>
    have three : bitsOf (Opcode.subulnk.pattern + k.toNat) 6 2 = 3 := by unfold bitsOf; omega
    have sub : (Opcode.subulnk.pattern + k.toNat) / 256 ≠ 0xE8 := by omega
    simp only [three, sub, if_false]
    rw [ofNat_eq (k := k) (by omega)]

theorem reads_pointer {op : Opcode} {n : Nat} {k : UInt8} (known : op = .addfsr ∨ op = .subfsr)
    (few : n < 3) (small : k.toNat < 2 ^ 6) :
    Body.Reads family .extended address (op.pattern + (n * 2 ^ 6 + k.toNat)) []
      (op, [.pointer n, .imm6 k]) := by
  have addfsr : Opcode.addfsr.pattern = 0xE800 := rfl
  have subfsr : Opcode.subfsr.pattern = 0xE900 := rfl
  have number : bitsOf (op.pattern + (n * 2 ^ 6 + k.toNat)) 6 2 = n := by
    unfold bitsOf
    rcases known with rfl | rfl <;> omega
  have literal : UInt8.ofNat ((op.pattern + (n * 2 ^ 6 + k.toNat)) % 64) = k := by
    apply ofNat_eq
    rcases known with rfl | rfl <;> omega
  have high : (op.pattern + (n * 2 ^ 6 + k.toNat)) / 256 = if op = .addfsr then 0xE8 else 0xE9 := by
    rcases known with rfl | rfl
    · rw [if_pos rfl]
      omega
    · rw [if_neg (by decide)]
      omega
  refine reads_single (by split at high <;> omega) ?_
  rw [firstWord_of_branch (by split at high <;> omega),
    branchForm_of_pointer (by split at high <;> omega), pointerForm]
  simp only [number, literal, high]
  split
  case h_1 => omega
  case h_2 => rcases known with rfl | rfl <;> rfl

theorem reads_load12 {n k : Nat} (few : n < 3) (small : k < 2 ^ 12) :
    Body.Reads .traditional mode address (0xEE00 + (n * 2 ^ 4 + k / 2 ^ 8)) [k % 2 ^ 8]
      (.lfsr, [.pointer n, .imm12 k]) := by
  have short : bitsOf (k % 2 ^ 8) 8 4 = 0 := by unfold bitsOf; omega
  have literal : k / 2 ^ 8 * 2 ^ 8 + k % 2 ^ 8 % 2 ^ 8 = k := by omega
  refine ⟨by omega, by simp; omega, ?_⟩
  rw [firstWord_of_branch (by omega), branchForm_of_load few (by omega)]
  apply Form.Yields.double
  simp only [short, literal, ne_eq, not_true_eq_false, if_false]

theorem reads_load14 {n k : Nat} (few : n < 3) (small : k < 2 ^ 14) :
    Body.Reads .enhanced mode address (0xEE00 + (n * 2 ^ 4 + k / 2 ^ 10)) [k % 2 ^ 10]
      (.lfsr, [.pointer n, .imm14 k]) := by
  have short : bitsOf (k % 2 ^ 10) 10 2 = 0 := by unfold bitsOf; omega
  have literal : k / 2 ^ 10 * 2 ^ 10 + k % 2 ^ 10 % 2 ^ 10 = k := by omega
  refine ⟨by omega, by simp; omega, ?_⟩
  rw [firstWord_of_branch (by omega), branchForm_of_load few (by omega)]
  apply Form.Yields.double
  simp only [short, literal, ne_eq, not_true_eq_false, if_false]

theorem reads_branch {op : Opcode} {offset : Int} (known : op ∈ branchOpcodes)
    (back : -2 ^ 7 ≤ offset) (ahead : offset < 2 ^ 7) :
    Body.Reads family mode address (op.pattern + (offset % 2 ^ 8).toNat) []
      (op, [.relative8 offset (relativeTarget address offset)]) := by
  have small : (offset % 2 ^ 8).toNat < 2 ^ 8 := by omega
  obtain ⟨lower, upper, bits, same⟩ := branchTable.opcodeOf_add known small
  refine reads_single (by omega) ?_
  rw [firstWord_of_branch (by omega), branchForm_of_branch lower upper, same,
    ofOffset8_code back ahead (by omega)]

theorem reads_longBranch {op : Opcode} {offset : Int} (known : op = .bra ∨ op = .rcall)
    (back : -2 ^ 10 ≤ offset) (ahead : offset < 2 ^ 10) :
    Body.Reads family mode address (op.pattern + (offset % 2 ^ 11).toNat) []
      (op, [.relative11 offset (relativeTarget address offset)]) := by
  have bra : Opcode.bra.pattern = 0xD000 := rfl
  have rcall : Opcode.rcall.pattern = 0xD800 := rfl
  have small : (offset % 2 ^ 11).toNat < 2 ^ 11 := by omega
  rcases known with rfl | rfl
  case inl =>
    have top : (Opcode.bra.pattern + (offset % 2 ^ 11).toNat) / 4096 = 0xD := by omega
    have bit : bitsOf (Opcode.bra.pattern + (offset % 2 ^ 11).toNat) 11 1 = 0 := by
      unfold bitsOf
      omega
    refine reads_single (by omega) ?_
    simp only [firstWord, top, bit, if_true]
    rw [ofOffset11_code back ahead (by omega)]
  case inr =>
    have top : (Opcode.rcall.pattern + (offset % 2 ^ 11).toNat) / 4096 = 0xD := by omega
    have bit : bitsOf (Opcode.rcall.pattern + (offset % 2 ^ 11).toNat) 11 1 ≠ 0 := by
      unfold bitsOf
      omega
    refine reads_single (by omega) ?_
    simp only [firstWord, top, bit, if_false]
    rw [ofOffset11_code back ahead (by omega)]

theorem reads_goto {target : Nat} (even : target % 2 = 0) (inside : target < programSize) :
    Body.Reads family mode address (0xEF00 + target / 2 % 2 ^ 8) [target / 2 ^ 9]
      (.goto, [.absolute target]) := by
  have high : (0xEF00 + target / 2 % 2 ^ 8) / 256 = 0xEF := by omega
  have later : target / 2 ^ 9 < 2 ^ 12 := by unfold programSize at inside; omega
  refine ⟨by omega, by simpa using later, ?_⟩
  rw [firstWord_of_branch (by omega)]
  simp only [branchForm, high]
  apply Form.Yields.double
  rw [ofWordAddress_code even inside (by omega) rfl]

theorem reads_call {target : Nat} {on : Bool} (even : target % 2 = 0)
    (inside : target < programSize) :
    Body.Reads family mode address (0xEC00 + (on.toNat * 2 ^ 8 + target / 2 % 2 ^ 8))
      [target / 2 ^ 9] (.call, [.absolute target, .fast on]) := by
  have bit := on.toNat_lt
  have high : (0xEC00 + (on.toNat * 2 ^ 8 + target / 2 % 2 ^ 8)) / 256 = 0xEC ∨
      (0xEC00 + (on.toNat * 2 ^ 8 + target / 2 % 2 ^ 8)) / 256 = 0xED := by
    omega
  have later : target / 2 ^ 9 < 2 ^ 12 := by unfold programSize at inside; omega
  have fast : decide (bitsOf (0xEC00 + (on.toNat * 2 ^ 8 + target / 2 % 2 ^ 8)) 8 1 = 1) = on := by
    unfold bitsOf
    cases on with
    | false => exact decide_eq_false (by simp only [Bool.toNat_false]; omega)
    | true => exact decide_eq_true (by simp only [Bool.toNat_true]; omega)
  refine ⟨by omega, by simpa using later, ?_⟩
  rw [firstWord_of_branch (by omega)]
  rcases high with high | high <;>
    · simp only [branchForm, high]
      apply Form.Yields.double
      rw [ofWordAddress_code even inside (by omega) rfl, fast]

theorem reads_movff {source dest : Nat} (inside : source < 2 ^ 12) (inside' : dest < 2 ^ 12) :
    Body.Reads family mode address (0xC000 + source) [dest]
      (.movff, [.data12 source, .data12 dest]) := by
  have top : (0xC000 + source) / 4096 = 0xC := by omega
  have low : (0xC000 + source) % 2 ^ 12 = source := by omega
  refine ⟨by omega, by simpa using inside', ?_⟩
  simp only [firstWord, top]
  apply Form.Yields.double
  rw [Operand.ofAddress12, Operand.ofAddress12, low, Nat.mod_eq_of_lt inside']

theorem reads_movffl {source dest : Nat} (inside : source < 2 ^ 14) (inside' : dest < 2 ^ 14) :
    Body.Reads .enhanced mode address (0x0060 + source / 2 ^ 10)
      [source % 2 ^ 10 * 4 + dest / 2 ^ 12, dest % 2 ^ 12]
      (.movffl, [.data14 source, .data14 dest]) := by
  refine reads_triple (by omega) (by omega) (by omega) (firstWord_of_movffl (by omega)) ?_
  have source_ : (0x0060 + source / 2 ^ 10) % 16 * 2 ^ 10 +
      (source % 2 ^ 10 * 4 + dest / 2 ^ 12) / 4 = source := by omega
  rw [source_, joined_address _ inside', ofAddress14_eq inside, ofAddress14_eq inside']

theorem reads_movsf {source : UInt8} {dest : Nat} (small : source.toNat < 2 ^ 7)
    (inside : dest < 2 ^ 12) :
    Body.Reads family .extended address (0xEB00 + source.toNat) [dest]
      (.movsf, [.index source, .data12 dest]) := by
  have bit : bitsOf (0xEB00 + source.toNat) 7 1 = 0 := by unfold bitsOf; omega
  refine ⟨by omega, by simpa using inside, ?_⟩
  rw [firstWord_of_branch (by omega), branchForm_of_indexedMove (by omega), indexedMoveForm]
  apply Form.Yields.double
  rw [if_pos bit, ofNat_eq (k := source) (by omega), Operand.ofAddress12, Nat.mod_eq_of_lt inside]

theorem reads_movss {source dest : UInt8} (small : source.toNat < 2 ^ 7)
    (small' : dest.toNat < 2 ^ 7) :
    Body.Reads family .extended address (0xEB80 + source.toNat) [dest.toNat]
      (.movss, [.index source, .index dest]) := by
  have bit : bitsOf (0xEB80 + source.toNat) 7 1 ≠ 0 := by unfold bitsOf; omega
  refine ⟨by omega, by simp; omega, ?_⟩
  rw [firstWord_of_branch (by omega), branchForm_of_indexedMove (by omega), indexedMoveForm]
  apply Form.Yields.double
  rw [if_neg bit, ofNat_eq (k := source) (by omega), ofNat_eq (k := dest) (by omega)]

theorem reads_movsfl {source : UInt8} {dest : Nat} (small : source.toNat < 2 ^ 7)
    (inside : dest < 2 ^ 14) :
    Body.Reads .enhanced .extended address 0x0002
      [source.toNat * 4 + dest / 2 ^ 12, dest % 2 ^ 12]
      (.movsfl, [.index source, .data14 dest]) := by
  refine reads_triple (by decide) (by omega) (by omega) rfl ?_
  have source_ : UInt8.ofNat (bitsOf (source.toNat * 4 + dest / 2 ^ 12) 2 7) = source := by
    apply ofNat_eq
    unfold bitsOf
    omega
  rw [source_, joined_address _ inside, ofAddress14_eq inside]

/-- The code of an encodable body is read as that body. -/
theorem reads_code (encodable : body.Encodable family mode address) :
    body.Reads family mode address body.code.1 body.code.2 := by
  cases encodable with
  | bare known =>
    simp only [bareOpcodes, List.mem_cons, List.not_mem_nil, or_false] at known
    rcases known with rfl | rfl | rfl | rfl | rfl | rfl | rfl <;>
      exact reads_single (by decide) rfl
  | callw extended =>
    subst extended
    exact reads_single (by decide) rfl
  | @fast op on known =>
    rcases known with rfl | rfl <;> cases on <;> exact reads_single (by decide) rfl
  | @table op table known =>
    rcases known with rfl | rfl <;> cases table <;> exact reads_single (by decide) rfl
  | file known same => exact reads_file known same
  | fileDest known same => exact reads_fileDest known same
  | fileBit known same => exact reads_fileBit known same
  | literal known => exact reads_literal known
  | pushl extended =>
    subst extended
    exact reads_pushl
  | bank4 traditional small =>
    subst traditional
    exact reads_bank4 small
  | bank6 enhanced small =>
    subst enhanced
    exact reads_bank6 small
  | link known extended small =>
    subst extended
    exact reads_link known small
  | pointer known extended few small =>
    subst extended
    exact reads_pointer known few small
  | load12 traditional few small =>
    subst traditional
    exact reads_load12 few small
  | load14 enhanced few small =>
    subst enhanced
    exact reads_load14 few small
  | branch known back ahead => exact reads_branch known back ahead
  | longBranch known back ahead => exact reads_longBranch known back ahead
  | goto even inside => exact reads_goto even inside
  | call even inside => exact reads_call even inside
  | movff inside inside' => exact reads_movff inside inside'
  | movffl enhanced inside inside' =>
    subst enhanced
    exact reads_movffl inside inside'
  | movsf extended small inside =>
    subst extended
    exact reads_movsf small inside
  | movss extended small small' =>
    subst extended
    exact reads_movss small small'
  | movsfl enhanced extended small inside =>
    subst enhanced extended
    exact reads_movsfl small inside

/-! ## Bytes -/

theorem payloadOf?_bytes {p : Nat} (small : p < 2 ^ 12) :
    payloadOf? (.ofNat (0xF000 + p)) (.ofNat ((0xF000 + p) / 256)) = some p := by
  have mark : (0xF000 + p) / 4096 = 0xF := by omega
  have payload : (0xF000 + p) % 4096 = p := by omega
  simp only [payloadOf?, wordOf_bytes (show 0xF000 + p < 2 ^ 16 by omega), mark, if_true, payload]

theorem bytes_of_payloadOf? {l h : UInt8} {p : Nat} (found : payloadOf? l h = some p) :
    p < 2 ^ 12 ∧ [l, h] = wordBytes (0xF000 + p) := by
  simp only [payloadOf?] at found
  split at found
  case isTrue mark =>
    cases found
    have whole : 0xF000 + wordOf l h % 4096 = wordOf l h := by omega
    rw [whole, wordBytes_wordOf]
    exact ⟨Nat.mod_lt _ (by decide), rfl⟩
  case isFalse => cases found

/-- A form is completed by the bytes of the payloads that it makes a body of. -/
theorem Form.complete_of_yields {f : Form} (yields : f.Yields payloads body)
    (later : ∀ p ∈ payloads, p < 2 ^ 12) (rest : List UInt8) :
    f.complete (laterBytes payloads ++ rest) = .ok (some body) ∧
      f.words = payloads.length + 1 := by
  cases yields with
  | single _ => exact ⟨rfl, rfl⟩
  | @double _ p _ made =>
    have first := payloadOf?_bytes (later p (by simp))
    refine ⟨?_, rfl⟩
    simp only [laterBytes, List.flatMap_cons, List.flatMap_nil, wordBytes, List.cons_append,
      List.nil_append, Form.complete, first, Option.bind_some, made]
  | triple make p q =>
    have first := payloadOf?_bytes (later p (by simp))
    have second := payloadOf?_bytes (later q (by simp))
    refine ⟨?_, rfl⟩
    simp only [laterBytes, List.flatMap_cons, List.flatMap_nil, wordBytes, List.cons_append,
      List.nil_append, Form.complete, first, second]
    rfl

/-- Bytes that complete a form begin with those of the payloads that it makes a body of. -/
theorem Form.yields_of_complete {f : Form} {bytes : List UInt8}
    (complete : f.complete bytes = .ok (some body)) :
    ∃ payloads rest, f.Yields payloads body ∧ (∀ p ∈ payloads, p < 2 ^ 12) ∧
      bytes = laterBytes payloads ++ rest ∧ f.words = payloads.length + 1 := by
  cases f with
  | nothing => cases complete
  | single made =>
    cases complete
    exact ⟨[], bytes, .single body, by simp, rfl, rfl⟩
  | double make =>
    rcases bytes with _ | ⟨l, _ | ⟨h, rest⟩⟩
    · cases complete
    · cases complete
    · obtain ⟨p, first, made⟩ := Option.bind_eq_some_iff.mp (Except.ok.inj complete)
      obtain ⟨small, written⟩ := bytes_of_payloadOf? first
      refine ⟨[p], rest, .double made, by simpa using small, ?_, rfl⟩
      simp only [laterBytes, List.flatMap_cons, List.flatMap_nil, List.append_nil, ← written]
      rfl
  | triple make =>
    rcases bytes with _ | ⟨l, _ | ⟨h, _ | ⟨l', _ | ⟨h', rest⟩⟩⟩⟩
    iterate 4 · cases complete
    · obtain ⟨p, first, found⟩ := Option.bind_eq_some_iff.mp (Except.ok.inj complete)
      obtain ⟨q, second, found⟩ := Option.bind_eq_some_iff.mp found
      obtain ⟨small, written⟩ := bytes_of_payloadOf? first
      obtain ⟨small', written'⟩ := bytes_of_payloadOf? second
      cases found
      have later : ∀ x ∈ [p, q], x < 2 ^ 12 :=
        List.forall_mem_cons.mpr ⟨small, List.forall_mem_singleton.mpr small'⟩
      refine ⟨[p, q], rest, .triple make p q, later, ?_, rfl⟩
      simp only [laterBytes, List.flatMap_cons, List.flatMap_nil, List.append_nil, ← written,
        ← written']
      rfl

/-- Bytes of words that are read as a body decode to an instruction with that body. -/
theorem decode_of_reads (reads : body.Reads family mode address w payloads) (rest : List UInt8) :
    decode family mode (codeBytes w payloads ++ rest) address =
      .ok (some ⟨address, (codeBytes w payloads).length, body.1, body.2⟩) := by
  obtain ⟨complete, words⟩ := Form.complete_of_yields reads.yields reads.later rest
  rw [length_codeBytes, ← words]
  show decode family mode (_ :: _ :: (laterBytes payloads ++ rest)) address = _
  simp only [decode, wordOf_bytes reads.first, complete]

/-- Bytes decode to the invalid instruction, or begin with words that are read as the body of what they
decode to. -/
theorem invalid_or_reads {bytes : List UInt8} {i : Instruction}
    (decoded : decode family mode bytes address = .ok (some i)) :
    i = .invalid address ∨ ∃ w payloads rest, i.body.Reads family mode address w payloads ∧
      bytes = codeBytes w payloads ++ rest ∧ i.address = address ∧
      i.length = (codeBytes w payloads).length := by
  match bytes with
  | [] => cases decoded
  | [_] => cases decoded
  | low :: high :: bytes =>
    simp only [decode] at decoded
    split at decoded
    case h_1 => cases decoded
    case h_2 =>
      cases decoded
      exact .inl rfl
    case h_3 op operands complete =>
      cases decoded
      obtain ⟨payloads, rest, yields, later, rfl, words⟩ := Form.yields_of_complete complete
      refine .inr ⟨wordOf low high, payloads, rest, ⟨wordOf_lt low high, later, yields⟩, ?_, rfl, ?_⟩
      · rw [codeBytes, wordBytes_wordOf]
        rfl
      · rw [length_codeBytes, ← words]

/-- Bytes that decode to an instruction begin with words that are read as its body. -/
theorem reads_of_decode {bytes : List UInt8} {i : Instruction}
    (decoded : decode family mode bytes address = .ok (some i)) (valid : i.opcode ≠ .invalid) :
    ∃ w payloads rest, i.body.Reads family mode address w payloads ∧
      bytes = codeBytes w payloads ++ rest ∧ i.address = address ∧
      i.length = (codeBytes w payloads).length := by
  refine (invalid_or_reads decoded).resolve_left ?_
  rintro rfl
  exact valid rfl

/-- Bytes that are read as an instruction are alike to its encoding, which exists. -/
theorem encodable_of_decode {bytes : List UInt8} {i : Instruction}
    (decoded : decode family mode bytes address = .ok (some i)) (valid : i.opcode ≠ .invalid) :
    i.Encodable family mode address ∧ i.opcode.Alike IsNop (bytes.take i.length) i.encode := by
  obtain ⟨w, payloads, rest, reads, rfl, placed, long⟩ := reads_of_decode decoded valid
  obtain ⟨encodable, alike⟩ := writtenAs_of_reads reads
  rw [long, List.take_left]
  exact ⟨⟨placed, long.trans alike.length_eq, encodable⟩, alike⟩

/-- The decoder and the encoder undo each other, in every family and mode and at every address: what can
be encoded is read back from its encoding, whatever bytes follow; what is read can be encoded, and its
encoding is alike to the bytes it was read from; and two encodings of one instruction are alike. -/
theorem decode_encode (family : Family) (mode : Mode) (address : Nat) :
    (∀ i : Instruction, i.Encodable family mode address → ∀ rest,
      decode family mode (i.encode ++ rest) address = .ok (some i)) ∧
    (∀ bytes i, decode family mode bytes address = .ok (some i) → i.opcode ≠ .invalid →
      i.Encodable family mode address ∧ i.opcode.Alike IsNop (bytes.take i.length) i.encode) ∧
    (∀ bytes bytes' i, decode family mode bytes address = .ok (some i) →
      decode family mode bytes' address = .ok (some i) → i.opcode ≠ .invalid →
      i.opcode.Alike IsNop (bytes.take i.length) (bytes'.take i.length)) := by
  refine ⟨?encoded, ?decoded, ?alike⟩
  case encoded =>
    rintro ⟨_, length, opcode, operands⟩ ⟨rfl, long, encodable⟩ rest
    have read := decode_of_reads (reads_code encodable) rest
    rw [show length = _ from long]
    exact read
  case decoded =>
    intro bytes i decoded valid
    exact encodable_of_decode decoded valid
  case alike =>
    intro bytes bytes' i decoded decoded' valid
    exact (encodable_of_decode decoded valid).2.trans (encodable_of_decode decoded' valid).2.symm

/-- MOVSS has bits in its second word that the decoder leaves unread. -/
theorem decode_encode_movss :
    let movss : Instruction := ⟨0x100, 4, .movss, [.index 0x05, .index 0x03]⟩
    movss.Encodable .traditional .extended 0x100 ∧ movss.opcode ≠ .invalid ∧
      movss.encode = [0x85, 0xEB, 0x03, 0xF0] ∧
      decode .traditional .extended movss.encode 0x100 = .ok (some movss) ∧
      decode .traditional .extended [0x85, 0xEB, 0x83, 0xFF] 0x100 = .ok (some movss) ∧
      Opcode.Alike IsNop .movss [0x85, 0xEB, 0x83, 0xFF] [0x85, 0xEB, 0x03, 0xF0] := by
  intro movss
  obtain ⟨encoded, decoded, alike⟩ := decode_encode .traditional .extended 0x100
  have unread : decode .traditional .extended [0x85, 0xEB, 0x83, 0xFF] 0x100 = .ok (some movss) :=
    rfl
  have valid : movss.opcode ≠ .invalid := by decide
  obtain ⟨encodable, _⟩ := decoded _ _ unread valid
  have back : decode .traditional .extended movss.encode 0x100 = .ok (some movss) :=
    encoded movss encodable []
  have code : movss.encode = [0x85, 0xEB, 0x03, 0xF0] := by decide
  have same := alike _ _ _ unread back valid
  rw [code] at same
  exact ⟨encodable, valid, code, back, unread, same⟩

/-- No encoder gives NOP a code that both of its words have but for bits behind the mark 1111: one of
them has no mark. -/
theorem nop_of_two_words :
    decode .traditional .traditional [0x00, 0x00] 0 = .ok (some ⟨0, 2, .nop, []⟩) ∧
      decode .traditional .traditional [0x00, 0xF0] 0 = .ok (some ⟨0, 2, .nop, []⟩) ∧
      ¬ ∃ encode : Instruction → List UInt8, ∀ bytes i,
        decode .traditional .traditional bytes 0 = .ok (some i) → i.opcode ≠ .invalid →
          i.opcode.Alike IsMarked (bytes.take i.length) (encode i) := by
  have clear : decode .traditional .traditional [0x00, 0x00] 0 = .ok (some ⟨0, 2, .nop, []⟩) := rfl
  have marked : decode .traditional .traditional [0x00, 0xF0] 0 = .ok (some ⟨0, 2, .nop, []⟩) := rfl
  refine ⟨clear, marked, ?_⟩
  rintro ⟨encode, all⟩
  have alike := (all _ _ clear (by decide)).trans (all _ _ marked (by decide)).symm
  cases alike with
  | nop _ word _ =>
    have top : wordOf 0x00 0x00 / 2 ^ 12 ≠ 0xF := by decide
    exact absurd word top

end RegisterTransfer.Pic18
