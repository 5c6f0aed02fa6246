/-
# RegisterTransfer.Proofs.Pic18.DecodedBody -- what the decoder reads can be encoded

`Body.Reads` says that a first word and the payloads of its continuation words begin a form that makes
a body, and `Body.WrittenAs` that the body is encodable and that the words are its code, but for bits
that the decoder leaves unread.  There is one lemma for each function of the decoder that makes forms,
and each splits its table the way the function does.

* `writtenAs_of_reads`: whatever is read as a body is written as that body.
-/
import RegisterTransfer.Proofs.Pic18.OperandBits

namespace RegisterTransfer.Pic18

set_option autoImplicit false

variable {family : Family} {mode : Mode} {address w : Nat}

/-! ## Reading words -/

/-- A form makes a body of payloads. -/
inductive Form.Yields : Form → List Nat → Body → Prop
  | single (body : Body) : Yields (.single body) [] body
  | double {make : Nat → Option Body} {p : Nat} {body : Body} (made : make p = some body) :
      Yields (.double make) [p] body
  | triple (make : Nat → Nat → Body) (p q : Nat) : Yields (.triple make) [p, q] (make p q)

theorem Form.yields_onlyIf {condition : Bool} {f : Form} {payloads : List Nat} {body : Body} :
    (onlyIf condition f).Yields payloads body ↔ condition = true ∧ f.Yields payloads body := by
  unfold onlyIf
  split
  · simp [*]
  · constructor
    · intro yields
      cases yields
    · rintro ⟨holds, _⟩
      contradiction

/-- A first word and payloads are read as a body. -/
structure Body.Reads (family : Family) (mode : Mode) (address w : Nat) (payloads : List Nat)
    (body : Body) : Prop where
  first : w < 2 ^ 16
  later : ∀ p ∈ payloads, p < 2 ^ 12
  yields : (firstWord family mode address w).Yields payloads body

/-! ## From words to bodies -/

/-- A body is encodable, and its code is alike to the words it was read from. -/
structure Body.WrittenAs (family : Family) (mode : Mode) (address w : Nat) (payloads : List Nat)
    (body : Body) : Prop where
  encodable : body.Encodable family mode address
  alike : body.1.Alike IsNop (codeBytes w payloads) (codeBytes body.code.1 body.code.2)

variable {payloads : List Nat} {body : Body}

theorem writtenAs_of_code (encodable : body.Encodable family mode address)
    (first : body.code.1 = w) (later : body.code.2 = payloads) :
    body.WrittenAs family mode address w payloads := by
  refine ⟨encodable, ?_⟩
  rw [first, later]
  exact .same _

/-- The second words of a code are alike if they agree in the bits that are read. -/
theorem alike_unread {op : Opcode} {lowest p p' : Nat} {later : List Nat}
    (some_ : op.unread? = some lowest) (small : p < 2 ^ 12) (small' : p' < 2 ^ 12)
    (agree : AgreeBut lowest (0xF000 + p) (0xF000 + p')) :
    op.Alike IsNop (codeBytes w (p :: later)) (codeBytes w (p' :: later)) := by
  have words : ∀ p < 2 ^ 12, wordOf (.ofNat (0xF000 + p)) (.ofNat ((0xF000 + p) / 256)) = 0xF000 + p :=
    fun p small => wordOf_bytes (by omega)
  refine Opcode.Alike.unread some_ ?_
  rw [words p small, words p' small']
  exact agree

theorem writtenAs_movsfl (enhanced : family = .enhanced) (extended : mode = .extended) {p q : Nat}
    (p_ : p < 2 ^ 12) (q_ : q < 2 ^ 12) :
    Body.WrittenAs family mode address 0x0002 [p, q]
      (.movsfl, [.index (.ofNat (bitsOf p 2 7)), .ofAddress14 (p % 4 * 2 ^ 12 + q)]) := by
  have index : (UInt8.ofNat (bitsOf p 2 7)).toNat = p / 2 ^ 2 % 2 ^ 7 :=
    toNat_ofNat_mod (p / 2 ^ 2) (by decide) (by omega)
  rw [ofAddress14_eq (by omega)]
  refine ⟨.movsfl enhanced extended (by omega) (by omega), ?_⟩
  have second : p / 2 ^ 2 % 2 ^ 7 * 4 + (p % 4 * 2 ^ 12 + q) / 2 ^ 12 = p % 2 ^ 9 := by omega
  have third : (p % 4 * 2 ^ 12 + q) % 2 ^ 12 = q := by omega
  simp only [Body.code, Opcode.pattern, index, second, third]
  exact alike_unread rfl p_ (by omega) ⟨by omega, by omega⟩

theorem writtenAs_movffl (enhanced : family = .enhanced) (top : w / 16 = 6) {p q : Nat}
    (p_ : p < 2 ^ 12) (q_ : q < 2 ^ 12) :
    Body.WrittenAs family mode address w [p, q]
      (.movffl, [.ofAddress14 (w % 16 * 2 ^ 10 + p / 4), .ofAddress14 (p % 4 * 2 ^ 12 + q)]) := by
  obtain ⟨source, dest⟩ :
      w % 16 * 2 ^ 10 + p / 4 < 2 ^ 14 ∧ p % 4 * 2 ^ 12 + q < 2 ^ 14 := by
    constructor <;> omega
  rw [ofAddress14_eq source, ofAddress14_eq dest]
  refine writtenAs_of_code (.movffl enhanced source dest) ?_ ?_
  · show 0x0060 + (w % 16 * 2 ^ 10 + p / 4) / 2 ^ 10 = w
    omega
  · have second :
        (w % 16 * 2 ^ 10 + p / 4) % 2 ^ 10 * 4 + (p % 4 * 2 ^ 12 + q) / 2 ^ 12 = p := by omega
    have third : (p % 4 * 2 ^ 12 + q) % 2 ^ 12 = q := by omega
    simp only [Body.code, second, third]

theorem controlForm_writes (high : w / 256 = 0) (later : ∀ p ∈ payloads, p < 2 ^ 12)
    (yields : (controlForm family mode w).Yields payloads body) :
    body.WrittenAs family mode address w payloads := by
  unfold controlForm at yields
  have whole : w = w % 256 := by omega
  split at yields
  case h_1 low | h_3 low | h_4 low | h_5 low | h_6 low | h_7 low | h_21 low =>
    obtain rfl := whole.trans low
    cases yields
    exact writtenAs_of_code (.bare (by decide)) rfl rfl
  case h_8 low | h_9 low | h_10 low | h_11 low =>
    obtain rfl := whole.trans low
    cases yields
    exact writtenAs_of_code (.table (.inl rfl)) rfl rfl
  case h_12 low | h_13 low | h_14 low | h_15 low =>
    obtain rfl := whole.trans low
    cases yields
    exact writtenAs_of_code (.table (.inr rfl)) rfl rfl
  case h_16 low | h_17 low =>
    obtain rfl := whole.trans low
    cases yields
    exact writtenAs_of_code (.fast (.inr rfl)) rfl rfl
  case h_18 low | h_19 low =>
    obtain rfl := whole.trans low
    cases yields
    exact writtenAs_of_code (.fast (.inl rfl)) rfl rfl
  case h_20 low =>
    obtain rfl := whole.trans low
    obtain ⟨extended, yields⟩ := Form.yields_onlyIf.mp yields
    cases yields
    exact writtenAs_of_code (.callw (of_decide_eq_true extended)) rfl rfl
  case h_2 low =>
    obtain rfl := whole.trans low
    obtain ⟨has, yields⟩ := Form.yields_onlyIf.mp yields
    simp only [Bool.and_eq_true, decide_eq_true_eq] at has
    cases yields with
    | triple _ p q => exact writtenAs_movsfl has.1 has.2 (later p (by simp)) (later q (by simp))
  case h_22 =>
    obtain ⟨has, yields⟩ := Form.yields_onlyIf.mp yields
    simp only [Bool.and_eq_true, decide_eq_true_eq] at has
    cases yields with
    | triple _ p q =>
      exact writtenAs_movffl has.1 (by omega) (later p (by simp)) (later q (by simp))

theorem bankForm_writes (high : w / 256 = 1) (yields : (bankForm family w).Yields payloads body) :
    body.WrittenAs family mode address w payloads := by
  unfold bankForm at yields
  split at yields
  case h_1 =>
    obtain ⟨few, yields⟩ := Form.yields_onlyIf.mp yields
    have few := of_decide_eq_true few
    have literal := toNat_ofNat_mod w (m := 64) (by decide) (by decide)
    cases yields
    refine writtenAs_of_code (.bank6 rfl (by omega)) ?_ rfl
    show 0x0100 + (UInt8.ofNat (w % 64)).toNat = w
    omega
  case h_2 =>
    obtain ⟨few, yields⟩ := Form.yields_onlyIf.mp yields
    have few := of_decide_eq_true few
    have literal := toNat_ofNat_mod w (m := 16) (by decide) (by decide)
    cases yields
    refine writtenAs_of_code (.bank4 rfl (by omega)) ?_ rfl
    show 0x0100 + (UInt8.ofNat (w % 16)).toNat = w
    omega

theorem miscForm_writes (high : w / 4096 = 0) (later : ∀ p ∈ payloads, p < 2 ^ 12)
    (yields : (miscForm family mode w).Yields payloads body) :
    body.WrittenAs family mode address w payloads := by
  unfold miscForm at yields
  split at yields
  case h_1 top => exact controlForm_writes top later yields
  case h_2 top => exact bankForm_writes top yields
  case h_3 top | h_4 top =>
    cases yields
    refine writtenAs_of_code (.file (.inl rfl) rfl) ?_ rfl
    show 0x0200 + (fileOf mode w).code = w
    rw [code_fileOf]
    omega
  case h_5 top | h_6 top | h_7 top | h_8 top =>
    cases yields
    refine writtenAs_of_code (.fileDest (.inl rfl) rfl) ?_ rfl
    rw [code_fileDestOf, Opcode.pattern]
    omega
  case h_9 =>
    cases yields
    -- `omega` reads the rows that were left out as negations only.
    simp only [imp_false] at *
    obtain ⟨known, pattern⟩ := literalTable.pattern_add (w := w) (by omega) (by omega)
    exact writtenAs_of_code (.literal known) ((code_literal8Of _ w).trans pattern) rfl

theorem pointerForm_writes (extended : mode = .extended) (high : w / 512 = 0x74)
    (yields : (pointerForm w).Yields payloads body) :
    body.WrittenAs family mode address w payloads := by
  have literal := toNat_ofNat_mod w (m := 64) (by decide) (by decide)
  unfold pointerForm at yields
  simp only at yields
  split at yields
  case h_1 link =>
    unfold bitsOf at link
    cases yields
    split
    case isTrue add =>
      refine writtenAs_of_code (.link (.inl rfl) extended (by omega)) ?_ rfl
      show 0xE8C0 + (UInt8.ofNat (w % 64)).toNat = w
      omega
    case isFalse sub =>
      refine writtenAs_of_code (.link (.inr rfl) extended (by omega)) ?_ rfl
      show 0xE9C0 + (UInt8.ofNat (w % 64)).toNat = w
      omega
  case h_2 other =>
    have few : bitsOf w 6 2 < 3 := by
      have number := bitsOf_lt w 6 2
      have : bitsOf w 6 2 ≠ 3 := other
      omega
    cases yields
    split
    case isTrue add =>
      refine writtenAs_of_code (.pointer (.inl rfl) extended few (by omega)) ?_ rfl
      show 0xE800 + (w / 2 ^ 6 % 2 ^ 2 * 2 ^ 6 + (UInt8.ofNat (w % 64)).toNat) = w
      omega
    case isFalse sub =>
      unfold bitsOf at few
      refine writtenAs_of_code (.pointer (.inr rfl) extended few (by omega)) ?_ rfl
      show 0xE900 + (w / 2 ^ 6 % 2 ^ 2 * 2 ^ 6 + (UInt8.ofNat (w % 64)).toNat) = w
      omega

theorem indexedMoveForm_writes (extended : mode = .extended) (high : w / 256 = 0xEB)
    (later : ∀ p ∈ payloads, p < 2 ^ 12) (yields : (indexedMoveForm w).Yields payloads body) :
    body.WrittenAs family mode address w payloads := by
  have source := toNat_ofNat_mod w (m := 128) (by decide) (by decide)
  unfold indexedMoveForm at yields
  cases yields with
  | @double _ p _ made =>
    have p_ := later p (by simp)
    split at made
    case isTrue clear =>
      cases made
      unfold bitsOf at clear
      refine writtenAs_of_code (.movsf extended (by omega) (Nat.mod_lt _ (by decide))) ?_ ?_
      · show 0xEB00 + (UInt8.ofNat (w % 128)).toNat = w
        omega
      · show [p % 2 ^ 12] = [p]
        rw [Nat.mod_eq_of_lt p_]
    case isFalse set =>
      have dest := toNat_ofNat_mod p (m := 128) (by decide) (by decide)
      cases made
      unfold bitsOf at set
      refine ⟨.movss extended (by omega) (by omega), ?_⟩
      have first : 0xEB80 + w % 128 = w := by omega
      simp only [Body.code, Opcode.pattern, source, dest, first]
      exact alike_unread rfl p_ (by omega) ⟨by omega, by omega⟩

theorem loadPointerForm_writes (high : w / 256 = 0xEE) (later : ∀ p ∈ payloads, p < 2 ^ 12)
    (yields : (loadPointerForm family w).Yields payloads body) :
    body.WrittenAs family mode address w payloads := by
  unfold loadPointerForm at yields
  cases yields with
  | @double _ p _ made =>
    have p_ := later p (by simp)
    simp only at made
    split at made
    case isTrue => cases made
    case isFalse allowed =>
      obtain ⟨clear, other⟩ := not_or.mp allowed
      have few : bitsOf w 4 2 < 3 := by
        have number := bitsOf_lt w 4 2
        omega
      unfold bitsOf at clear
      split at made
      case h_1 =>
        split at made
        case isTrue => cases made
        case isFalse short =>
          cases made
          unfold bitsOf at short
          refine writtenAs_of_code (.load14 rfl few (by omega)) ?_ ?_
          · show 0xEE00 + (w / 2 ^ 4 % 2 ^ 2 * 2 ^ 4 + (w % 16 * 2 ^ 10 + p % 2 ^ 10) / 2 ^ 10) = w
            omega
          · show [(w % 16 * 2 ^ 10 + p % 2 ^ 10) % 2 ^ 10] = [p]
            congr 1
            omega
      case h_2 =>
        split at made
        case isTrue => cases made
        case isFalse short =>
          cases made
          unfold bitsOf at short
          refine writtenAs_of_code (.load12 rfl few (by omega)) ?_ ?_
          · show 0xEE00 + (w / 2 ^ 4 % 2 ^ 2 * 2 ^ 4 + (w % 16 * 2 ^ 8 + p % 2 ^ 8) / 2 ^ 8) = w
            omega
          · show [(w % 16 * 2 ^ 8 + p % 2 ^ 8) % 2 ^ 8] = [p]
            congr 1
            omega

theorem branchForm_writes (high : w / 4096 = 0xE) (later : ∀ p ∈ payloads, p < 2 ^ 12)
    (yields : (branchForm family mode address w).Yields payloads body) :
    body.WrittenAs family mode address w payloads := by
  unfold branchForm at yields
  split at yields
  case h_1 top | h_2 top =>
    obtain ⟨extended, yields⟩ := Form.yields_onlyIf.mp yields
    exact pointerForm_writes (of_decide_eq_true extended) (by omega) yields
  case h_3 top =>
    obtain ⟨extended, yields⟩ := Form.yields_onlyIf.mp yields
    cases yields
    refine writtenAs_of_code (.pushl (of_decide_eq_true extended)) ?_ rfl
    rw [code_literal8Of, Opcode.pattern]
    omega
  case h_4 top =>
    obtain ⟨extended, yields⟩ := Form.yields_onlyIf.mp yields
    exact indexedMoveForm_writes (of_decide_eq_true extended) top later yields
  case h_5 top | h_6 top =>
    cases yields with
    | @double _ p _ made =>
      have p_ := later p (by simp)
      have target := absoluteTarget_wordAddressOf (w := w) p_
      cases made
      rw [Operand.ofWordAddress, target]
      refine writtenAs_of_code (.call (by omega) (by unfold programSize; omega)) ?_ ?_
      · show 0xEC00 + ((decide (bitsOf w 8 1 = 1)).toNat * 2 ^ 8 +
          (p * 2 ^ 8 + w % 2 ^ 8) * 2 / 2 % 2 ^ 8) = w
        rw [toNat_decide_bitsOf, bitsOf]
        omega
      · show [(p * 2 ^ 8 + w % 2 ^ 8) * 2 / 2 ^ 9] = [p]
        congr 1
        omega
  case h_7 top => exact loadPointerForm_writes top later yields
  case h_8 top =>
    cases yields with
    | @double _ p _ made =>
      have p_ := later p (by simp)
      have target := absoluteTarget_wordAddressOf (w := w) p_
      cases made
      rw [Operand.ofWordAddress, target]
      refine writtenAs_of_code (.goto (by omega) (by unfold programSize; omega)) ?_ ?_
      · show 0xEF00 + (p * 2 ^ 8 + w % 2 ^ 8) * 2 / 2 % 2 ^ 8 = w
        omega
      · show [(p * 2 ^ 8 + w % 2 ^ 8) * 2 / 2 ^ 9] = [p]
        congr 1
        omega
  case h_9 =>
    cases yields
    simp only [imp_false] at *
    obtain ⟨known, pattern⟩ := branchTable.pattern_add (w := w) (by omega) (by omega)
    obtain ⟨back, ahead⟩ := signedField_bounds 7 (w % 256)
    refine writtenAs_of_code (.branch known back ahead) ?_ rfl
    have bits : (signedField 8 (w % 256) % 2 ^ 8).toNat = w % 256 := code_signedField 8 (by omega)
    rw [code_ofOffset8, bits]
    exact pattern

theorem writtenAs_of_reads (reads : body.Reads family mode address w payloads) :
    body.WrittenAs family mode address w payloads := by
  obtain ⟨first, later, yields⟩ := reads
  unfold firstWord at yields
  split at yields
  case h_1 top => exact miscForm_writes top later yields
  case h_2 top | h_3 top | h_4 top | h_5 top | h_6 top =>
    cases yields
    obtain ⟨known, pattern⟩ := byteTable.pattern_add (w := w) (by omega) (by omega)
    exact writtenAs_of_code (.fileDest (.inr known) rfl) ((code_fileDestOf _ mode w).trans pattern)
      rfl
  case h_7 top =>
    cases yields
    obtain ⟨known, pattern⟩ := fileTable.pattern_add (w := w) (by omega) (by omega)
    refine writtenAs_of_code (.file (.inr known) rfl) ?_ rfl
    show _ + (fileOf mode w).code = w
    rw [code_fileOf]
    exact pattern
  case h_8 top | h_9 top | h_10 top | h_11 top | h_12 top =>
    cases yields
    refine writtenAs_of_code (.fileBit (by decide) rfl) ?_ rfl
    rw [code_fileBitOf, Opcode.pattern]
    omega
  case h_13 top =>
    cases yields with
    | @double _ p _ made =>
      have p_ := later p (by simp)
      cases made
      refine writtenAs_of_code (.movff (Nat.mod_lt _ (by decide)) (Nat.mod_lt _ (by decide))) ?_ ?_
      · show 0xC000 + w % 2 ^ 12 = w
        omega
      · show [p % 2 ^ 12] = [p]
        rw [Nat.mod_eq_of_lt p_]
  case h_14 top =>
    cases yields
    obtain ⟨back, ahead⟩ := signedField_bounds 10 (w % 2 ^ 11)
    have bits := code_signedField 11 (Nat.mod_lt w (by decide))
    split
    case isTrue clear =>
      unfold bitsOf at clear
      refine writtenAs_of_code (.longBranch (.inl rfl) back ahead) ?_ rfl
      rw [code_ofOffset11, bits, Opcode.pattern]
      omega
    case isFalse set =>
      unfold bitsOf at set
      refine writtenAs_of_code (.longBranch (.inr rfl) back ahead) ?_ rfl
      rw [code_ofOffset11, bits, Opcode.pattern]
      omega
  case h_15 top => exact branchForm_writes top later yields
  case h_16 =>
    cases yields
    simp only [imp_false] at *
    refine ⟨.bare (by decide), .nop rfl ?_ ?_⟩
    · rw [wordOf_bytes first]
      exact .inr (show w / 2 ^ 12 = 0xF by omega)
    · exact .inl rfl

end RegisterTransfer.Pic18
