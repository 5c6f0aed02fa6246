/-
# RegisterTransfer.Proofs.Pic18.Accepted -- what a loaded catalog is sure of

Lowerings take registers from the core of a catalog and addresses from its layout.  A catalog that was
loaded has passed every check of its description; `Catalog.Accepted` is what lowerings need of that:
the core registers have the names they are looked up by, so no two are the same, and the layout lies
within 16 bits.
-/
import RegisterTransfer.Pic18.Catalog
import RegisterTransfer.Proofs.Meaning.State

namespace RegisterTransfer.Pic18

set_option autoImplicit false

/-- The names of the core registers, in the order of `CoreRegisters.toList`. -/
def coreNames : List String :=
  ["WREG", "STATUS", "BSR", "FSR0", "FSR1", "FSR2", "PROD", "TBLPTR", "TABLAT", "STKPTR", "TOS",
    "PCL", "PCLATH", "PCLATU"]

namespace Catalog

/-- What a checked catalog is sure of. -/
structure Accepted (c : Catalog) : Prop where
  names : c.core.toList.map (·.name) = coreNames
  registers : ∀ id, id ∈ c.core.toList → id.IsRegister
  words : ∀ id, id ∈ c.core.toList → ∃ width, id.type = .word width
  split : c.memory.accessSplit < 2 ^ 16
  window : c.memory.sfrWindow < 2 ^ 16

/-! ## Checks that passed -/

theorem ok_of_bind {ε α β : Type} {x : Except ε α} {f : α → Except ε β} {b : β}
    (passed : x >>= f = .ok b) : ∃ a, x = .ok a ∧ f a = .ok b := by
  cases x with
  | error e => cases passed
  | ok a => exact ⟨a, rfl, passed⟩

theorem none_of_accept {problem : Option DeviceProblem} {u : Unit}
    (passed : accept problem = .ok u) : problem = none := by
  cases problem with
  | none => rfl
  | some p => cases passed

theorem lt_of_layoutProblem {what : String} {value : Nat}
    (passed : layoutProblem what value = none) : value < 2 ^ 16 := by
  unfold layoutProblem at passed
  split at passed
  · assumption
  · cases passed

theorem isReal_word (width : Nat) : (DataType.word width).isReal = false := by
  unfold DataType.word
  repeat' split
  all_goals rfl

theorem bits_word_pos (width : Nat) : 0 < (DataType.word width).bits := by
  unfold DataType.word
  repeat' split
  all_goals decide

theorem coreRegister_ok {registers : List Register} {name : String} {id : Identifier}
    (found : coreRegister registers name = .ok id) :
    id.name = name ∧ id.IsRegister ∧ ∃ width, id.type = .word width := by
  unfold coreRegister at found
  split at found
  · rename_i r listed
    cases found
    have named := List.find?_some listed
    exact ⟨eq_of_beq named, ⟨_, _, _, rfl⟩, r.width, rfl⟩
  · cases found

/-- Each core register was found by its name. -/
theorem coreRegisters_ok {registers : List Register} {core : CoreRegisters}
    (found : coreRegisters registers = .ok core) :
    coreNames.map (coreRegister registers) = core.toList.map .ok := by
  unfold coreRegisters at found
  obtain ⟨wreg, wreg_, found⟩ := ok_of_bind found
  obtain ⟨status, status_, found⟩ := ok_of_bind found
  obtain ⟨bsr, bsr_, found⟩ := ok_of_bind found
  obtain ⟨fsr0, fsr0_, found⟩ := ok_of_bind found
  obtain ⟨fsr1, fsr1_, found⟩ := ok_of_bind found
  obtain ⟨fsr2, fsr2_, found⟩ := ok_of_bind found
  obtain ⟨prod, prod_, found⟩ := ok_of_bind found
  obtain ⟨tblptr, tblptr_, found⟩ := ok_of_bind found
  obtain ⟨tablat, tablat_, found⟩ := ok_of_bind found
  obtain ⟨stkptr, stkptr_, found⟩ := ok_of_bind found
  obtain ⟨tos, tos_, found⟩ := ok_of_bind found
  obtain ⟨pcl, pcl_, found⟩ := ok_of_bind found
  obtain ⟨pclath, pclath_, found⟩ := ok_of_bind found
  obtain ⟨pclatu, pclatu_, found⟩ := ok_of_bind found
  cases found
  simp only [coreNames, CoreRegisters.toList, List.map_cons, List.map_nil, wreg_, status_, bsr_,
    fsr0_, fsr1_, fsr2_, prod_, tblptr_, tablat_, stkptr_, tos_, pcl_, pclath_, pclatu_]

/-- Registers that were found by some names have these names. -/
theorem named_of_found {registers : List Register} {ids : List Identifier} {names : List String}
    (found : names.map (coreRegister registers) = ids.map .ok) :
    ids.map (·.name) = names ∧
      ∀ id, id ∈ ids → id.IsRegister ∧ ∃ width, id.type = .word width := by
  induction ids generalizing names with
  | nil =>
      rw [List.map_nil, List.map_eq_nil_iff] at found
      exact ⟨found.symm, fun id listed => by cases listed⟩
  | cons id ids ih =>
      cases names with
      | nil => cases found
      | cons name names =>
          rw [List.map_cons, List.map_cons, List.cons.injEq] at found
          obtain ⟨named, sound⟩ := coreRegister_ok found.1
          obtain ⟨rest, sound'⟩ := ih found.2
          refine ⟨by rw [List.map_cons, named, rest], ?_⟩
          intro other listed
          rcases List.mem_cons.mp listed with rfl | later
          · exact sound
          · exact sound' other later

/-- What the checks of a description found, and what its catalog has from it. -/
structure Checked (d : Device) (c : Catalog) : Prop where
  split : layoutProblem "access_split" d.accessSplit = none
  window : layoutProblem "sfr_window" d.sfrWindow = none
  sound : registersProblem (addressLimit d) [] d.registers = none
  core : coreRegisters d.registers = .ok c.core
  forbidden : forbiddenAddresses d.registers d.forbidden = .ok c.forbidden
  config : configProblem d.configWords = none
  memory : c.memory = ⟨d.family, d.accessSplit, d.sfrWindow⟩
  registers : c.registers = d.registers

theorem checked_of_check {d : Device} {c : Catalog} (passed : check d = .ok c) : Checked d c := by
  unfold check at passed
  obtain ⟨_, split, passed⟩ := ok_of_bind passed
  obtain ⟨_, window, passed⟩ := ok_of_bind passed
  obtain ⟨_, sound, passed⟩ := ok_of_bind passed
  obtain ⟨core, core_, passed⟩ := ok_of_bind passed
  obtain ⟨forbidden, forbidden_, passed⟩ := ok_of_bind passed
  obtain ⟨_, config, passed⟩ := ok_of_bind passed
  cases passed
  exact ⟨none_of_accept split, none_of_accept window, none_of_accept sound, core_, forbidden_,
    none_of_accept config, rfl, rfl⟩

theorem checked_of_load {device : Option Device} {c : Catalog} (loaded : load device = .ok c) :
    ∃ d, device = some d ∧ Checked d c := by
  cases device with
  | none => cases loaded
  | some d =>
      unfold load at loaded
      cases passed : check d with
      | error problem =>
          simp only [passed] at loaded
          cases loaded
      | ok checked =>
          simp only [passed] at loaded
          cases loaded
          exact ⟨d, rfl, checked_of_check passed⟩

theorem accepted_of_load {device : Option Device} {c : Catalog} (loaded : load device = .ok c) :
    c.Accepted := by
  obtain ⟨d, _, checked⟩ := checked_of_load loaded
  obtain ⟨names, sound⟩ := named_of_found (coreRegisters_ok checked.core)
  refine ⟨names, fun id listed => (sound id listed).1, fun id listed => (sound id listed).2, ?_, ?_⟩
  · rw [checked.memory]
    exact lt_of_layoutProblem checked.split
  · rw [checked.memory]
    exact lt_of_layoutProblem checked.window

/-- There are three pointers. -/
theorem pointer_cases (n : Fin 3) : n = 0 ∨ n = 1 ∨ n = 2 := by
  revert n
  decide

theorem fsr_mem {core : CoreRegisters} (n : Fin 3) : core.fsr n ∈ core.toList := by
  obtain rfl | rfl | rfl := pointer_cases n <;> simp [CoreRegisters.fsr, CoreRegisters.toList]

namespace Accepted

variable {c : Catalog} (accepted : c.Accepted)

include accepted

/-- No two core registers are the same. -/
theorem nodup : c.core.toList.Nodup := by
  have names : (c.core.toList.map (·.name)).Nodup := by
    rw [accepted.names]
    decide
  exact List.Pairwise.of_map (·.name) (fun _ _ different same => different (congrArg _ same)) names

theorem isRegister_wreg : c.core.wreg.IsRegister :=
  accepted.registers _ (by simp [CoreRegisters.toList])

theorem isRegister_bsr : c.core.bsr.IsRegister :=
  accepted.registers _ (by simp [CoreRegisters.toList])

theorem isRegister_fsr (n : Fin 3) : (c.core.fsr n).IsRegister :=
  accepted.registers _ (fsr_mem n)

theorem isReal_wreg : c.core.wreg.type.isReal = false := by
  obtain ⟨width, type⟩ := accepted.words c.core.wreg (by simp [CoreRegisters.toList])
  rw [type]
  exact isReal_word width

/-- Every core register holds something. -/
theorem bits_pos {id : Identifier} (listed : id ∈ c.core.toList) : 0 < id.bits := by
  obtain ⟨width, type⟩ := accepted.words id listed
  rw [Identifier.bits, type]
  exact bits_word_pos width

theorem wreg_ne_fsr (n : Fin 3) : c.core.wreg ≠ c.core.fsr n := by
  have distinct := accepted.nodup
  simp only [CoreRegisters.toList, List.nodup_cons, List.mem_cons, not_or] at distinct
  obtain ⟨⟨_, _, not0, not1, not2, _⟩, _⟩ := distinct
  obtain rfl | rfl | rfl := pointer_cases n
  · exact not0
  · exact not1
  · exact not2

theorem bsr_ne_fsr (n : Fin 3) : c.core.bsr ≠ c.core.fsr n := by
  have distinct := accepted.nodup
  simp only [CoreRegisters.toList, List.nodup_cons, List.mem_cons, not_or] at distinct
  obtain ⟨_, _, ⟨not0, not1, not2, _⟩, _⟩ := distinct
  obtain rfl | rfl | rfl := pointer_cases n
  · exact not0
  · exact not1
  · exact not2

theorem prod_ne_fsr (n : Fin 3) : c.core.prod ≠ c.core.fsr n := by
  have distinct := accepted.nodup
  simp only [CoreRegisters.toList, List.nodup_cons, List.mem_cons, not_or] at distinct
  obtain ⟨_, _, _, ⟨_, _, not0, _⟩, ⟨_, not1, _⟩, ⟨not2, _⟩, _⟩ := distinct
  obtain rfl | rfl | rfl := pointer_cases n
  · exact Ne.symm not0
  · exact Ne.symm not1
  · exact Ne.symm not2

theorem name_fsr (n : Fin 3) : (c.core.fsr n).name = ["FSR0", "FSR1", "FSR2"][n] := by
  have names := accepted.names
  simp only [CoreRegisters.toList, coreNames, List.map_cons, List.map_nil, List.cons.injEq] at names
  obtain ⟨_, _, _, name0, name1, name2, _⟩ := names
  obtain rfl | rfl | rfl := pointer_cases n
  · exact name0
  · exact name1
  · exact name2

theorem fsr_inj {n m : Fin 3} (same : c.core.fsr n = c.core.fsr m) : n = m := by
  have distinct : ∀ n m : Fin 3,
      ["FSR0", "FSR1", "FSR2"][n] = ["FSR0", "FSR1", "FSR2"][m] → n = m := by
    decide
  apply distinct
  rw [← accepted.name_fsr n, ← accepted.name_fsr m, same]

/-- Access-bank offsets stand for addresses of 16 bits. -/
theorem remapAccess_lt (offset : UInt8) : c.memory.remapAccess offset < 2 ^ 16 := by
  have small : offset.toNat < 2 ^ 16 := Nat.lt_trans offset.toNat_lt (by decide)
  unfold DataMemory.remapAccess
  split
  · exact small
  · exact Nat.or_lt_two_pow accepted.window small

end Accepted

end Catalog

end RegisterTransfer.Pic18
