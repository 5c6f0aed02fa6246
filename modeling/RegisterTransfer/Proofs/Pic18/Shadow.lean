/-
# RegisterTransfer.Proofs.Pic18.Shadow -- fast calls save what fast returns restore

A fast call copies WREG, STATUS and BSR to their shadows, and a fast return copies them back.  In between
no cluster assigns a shadow unless it is a fast call itself (`Proofs/Pic18/Targets`), so the return finds
what the call left, whatever ran and however often.

A shadow is a byte, and nothing asks how wide a device says that the three registers are:
`fast_return_restores` says that their low 8 bits come back.  These are all bits of a register of one byte;
`fast_call_loses` is about a device with a wider WREG.
-/
import RegisterTransfer.Proofs.Draft.Emission
import RegisterTransfer.Proofs.Meaning.Frame
import RegisterTransfer.Proofs.Pic18.Skip
import RegisterTransfer.Proofs.Pic18.Targets

namespace RegisterTransfer.Pic18

set_option autoImplicit false

open Lowering

/-! ## The statements of fast calls and fast returns -/

/-- A return that restores the shadow registers. -/
def Instruction.IsFastReturn (i : Instruction) : Prop :=
  (i.opcode = .ret ∨ i.opcode = .retfie) ∧ i.isFast 0 = true

/-- A cluster that the back-end of a device makes of an instruction, whatever comes after it and whichever
intrinsics are in use. -/
def Lifts (c : Catalog) (i : Instruction) (cluster : Cluster) : Prop :=
  ∃ next t t' l, (backend c).lowerWith i next t = (.ok l, t') ∧
    cluster = Backend.clusterOf i next l

namespace Lower

variable {c : Catalog} {i : Instruction} {next : Option Instruction} {k : Nat}

/-- The way back from the shadows. -/
def unshadowed (c : Catalog) : List (Identifier × Identifier) := (shadowed c).map Prod.swap

/-- A register with one of its bits set. -/
def withBit (r : Register) (f : BitField) : Expr :=
  .binary .or .byte (.identifier r.identifier) (.byte (bitMask f.bit))

/-- What a return from an interrupt sets. -/
def enabling (c : Catalog) : List Statement :=
  match interruptEnable? c with
  | some (r, f) => [.assign (.identifier r.identifier) (withBit r f)]
  | none => []

/-- What a return restores first. -/
def restoring (c : Catalog) (i : Instruction) : List Statement :=
  if i.isFast 0 then transfers (unshadowed c) else []

theorem emits_saveShadows : Emits k (saveShadows c) () (transfers (shadowed c)) k :=
  emits_forM (fun _ => emits_assign _ _) (shadowed c)

theorem emits_restoreShadows : Emits k (restoreShadows c) () (transfers (unshadowed c)) k := by
  unfold restoreShadows transfers unshadowed
  rw [List.map_map]
  exact emits_forM (fun _ => emits_assign _ _) (shadowed c)

theorem instruction_of_fastCall (fast : i.IsFastCall) : instruction c i next = call c i := by
  unfold instruction
  rcases fast.1 with opcode | opcode <;> simp only [opcode]

/-- A fast call that is lowered has a target. -/
theorem codeTarget_of_lowered (fast : i.IsFastCall) {t t' : IntrinsicTable} {l : Backend.Lowered}
    (lowered : (backend c).lowerWith i next t = (.ok l, t')) :
    ∃ target, i.codeTarget 0 = .ok target := by
  cases found : i.codeTarget 0 with
  | ok target => exact ⟨target, rfl⟩
  | error fault =>
      obtain ⟨d, drafted, -⟩ := Backend.drafted_of_lowered lowered
      simp only [Backend.draft, backend, instruction_of_fastCall fast, call, found] at drafted
      cases drafted

theorem emits_fastCall {target : Nat} (fast : i.IsFastCall) (found : i.codeTarget 0 = .ok target) :
    Emits k (instruction c i next) ()
      (transfers (shadowed c) ++ [.call (.address target) 0]) k := by
  rw [instruction_of_fastCall fast]
  refine emits_operand found ?_
  rw [if_pos fast.2]
  exact emits_bind emits_saveShadows (emits_call _ _)

/-- The statements that come after the registers are restored. -/
def ending (c : Catalog) (i : Instruction) : List Statement :=
  (if i.opcode = .retfie then enabling c else []) ++ [.ret 0 0]

theorem emits_restoring {x : Lowering Unit} {statements : List Statement}
    (behind : Emits k x () statements k) :
    Emits k (do
      if i.isFast 0 then restoreShadows c
      x) () (restoring c i ++ statements) k := by
  unfold restoring
  by_cases fast : i.isFast 0 = true
  · rw [if_pos fast, if_pos fast]
    exact emits_bind emits_restoreShadows behind
  · rw [if_neg fast, if_neg fast]
    exact behind

theorem emits_returnFromInterrupt (interrupt : i.opcode = .retfie) :
    Emits k (instruction c i next) () (restoring c i ++ (enabling c ++ [.ret 0 0])) k := by
  unfold instruction
  simp only [interrupt]
  unfold returnFromInterrupt enabling
  refine emits_restoring ?_
  cases interruptEnable? c with
  | none => exact emits_ret 0 0
  | some enable => exact emits_bind (emits_assign _ _) (emits_ret 0 0)

theorem emits_fastReturn (fast : i.IsFastReturn) :
    Emits k (instruction c i next) () (transfers (unshadowed c) ++ ending c i) k := by
  have restored : restoring c i = transfers (unshadowed c) := if_pos fast.2
  rw [← restored, ending]
  rcases fast.1 with opcode | opcode
  · unfold instruction
    simp only [opcode]
    exact emits_restoring (emits_ret 0 0)
  · rw [if_pos opcode]
    exact emits_returnFromInterrupt opcode

end Lower

/-- What a fast call does. -/
theorem Lifts.run_fastCall {c : Catalog} {i : Instruction} {cluster : Cluster}
    (lifted : Lifts c i cluster) (fast : i.IsFastCall) :
    ∃ target, ∀ I (σ : State Cells), σ.run I cluster.statements =
      σ.run I (transfers (Lower.shadowed c) ++ [.call (.address target) 0]) := by
  obtain ⟨next, t, t', l, lowered, rfl⟩ := lifted
  obtain ⟨target, found⟩ := Lower.codeTarget_of_lowered fast lowered
  have emits : Emits 0 ((backend c).lower i next) false _ 0 :=
    emits_return false (Lower.emits_fastCall fast found)
  refine ⟨target, fun I σ => ?_⟩
  rw [Backend.clusterOf, Backend.statements_of_emits emits lowered, State.run_settled]

/-- What a fast return does. -/
theorem Lifts.run_fastReturn {c : Catalog} {i : Instruction} {cluster : Cluster}
    (lifted : Lifts c i cluster) (fast : i.IsFastReturn) (I : Interpretation) (σ : State Cells) :
    σ.run I cluster.statements =
      σ.run I (transfers (Lower.unshadowed c) ++ Lower.ending c i) := by
  obtain ⟨next, t, t', l, lowered, rfl⟩ := lifted
  have emits : Emits 0 ((backend c).lower i next) false _ 0 :=
    emits_return false (Lower.emits_fastReturn fast)
  rw [Backend.clusterOf, Backend.statements_of_emits emits lowered, State.run_settled]

/-! ## Registers and their shadows -/

namespace Catalog

variable {c : Catalog}

/-- The registers that fast calls save. -/
def context (c : Catalog) : List Identifier := [c.core.wreg, c.core.status, c.core.bsr]

theorem core_of_context {id : Identifier} (live : id ∈ c.context) : id ∈ c.core.toList := by
  simp only [context, List.mem_cons, List.not_mem_nil, or_false] at live
  rcases live with rfl | rfl | rfl <;> simp [CoreRegisters.toList]

theorem Accepted.isRegister_context (accepted : c.Accepted) {id : Identifier} (live : id ∈ c.context) :
    id.IsRegister := accepted.registers _ (core_of_context live)

theorem Accepted.nodup_context (accepted : c.Accepted) : c.context.Nodup :=
  accepted.nodup.sublist ((List.take_prefix 3 c.core.toList).sublist)

theorem live_of_shadowed {pair : Identifier × Identifier} (listed : pair ∈ Lower.shadowed c) :
    pair.1 ∈ c.context := List.mem_map_of_mem (f := Prod.fst) listed

theorem saved_of_shadowed {pair : Identifier × Identifier} (listed : pair ∈ Lower.shadowed c) :
    pair.2 ∈ shadow.toList := List.mem_map_of_mem (f := Prod.snd) listed

/-- A shadow is a byte past the end of data memory. -/
theorem shadow_facts {id : Identifier} (saved : id ∈ shadow.toList) :
    id.IsRegister ∧ id.bits = 8 ∧ 2 ^ 16 ≤ id.family := by
  simp only [Shadow.toList, List.mem_cons, List.not_mem_nil, or_false] at saved
  rcases saved with rfl | rfl | rfl <;> exact ⟨⟨_, _, _, rfl⟩, rfl, by decide⟩

theorem nodup_shadow : shadow.toList.Nodup := by decide

theorem Addressed.not_shadow (addressed : c.Addressed) {id : Identifier} (live : id ∈ c.context) :
    id ∉ shadow.toList := fun saved =>
  absurd (addressed.core id (core_of_context live)) (Nat.not_lt.mpr (shadow_facts saved).2.2)

/-! ## The interrupt-enable bit -/

/-- The mask of a bit.  Bits are counted modulo eight. -/
theorem toNat_bitMask_mod (bit : Nat) : (bitMask bit).toNat = 2 ^ (bit % 8) := by
  have small : bit % 8 < 8 := Nat.mod_lt _ (by decide)
  have eight : bit % 2 ^ 8 % 8 = bit % 8 := Nat.mod_mod_of_dvd bit (by decide)
  have room : 2 ^ (bit % 8) < 2 ^ 8 := Nat.pow_lt_pow_right (by decide) small
  rw [bitMask, UInt8.toNat_shiftLeft, UInt8.toNat_ofNat', eight, UInt8.toNat_one, Nat.one_shiftLeft,
    Nat.mod_eq_of_lt room]

/-- What a return from an interrupt sets in a register: the interrupt-enable bit if it lies there.  Its
number counts modulo eight, which makes no difference in a register of at most 8 bits. -/
def enabledBits (c : Catalog) (id : Identifier) : Nat :=
  match Lower.interruptEnable? c with
  | some (r, f) => if r.identifier = id then 2 ^ (f.bit % 8) else 0
  | none => 0

theorem enabledBits_of_none (found : Lower.interruptEnable? c = none) (id : Identifier) :
    c.enabledBits id = 0 := by
  rw [enabledBits, found]

theorem enabledBits_of_some {enable : Register × BitField}
    (found : Lower.interruptEnable? c = some enable) (id : Identifier) :
    c.enabledBits id =
      if enable.1.identifier = id then (bitMask enable.2.bit).toNat else 0 := by
  rw [enabledBits, found, toNat_bitMask_mod]

/-- A register has room for the mask of each of its bits. -/
theorem bitMask_lt {r : Register} {bit : Nat} (inside : bit < r.width) :
    (bitMask bit).toNat < 2 ^ r.identifier.bits := by
  show _ < 2 ^ (DataType.word r.width).bits
  by_cases narrow : r.width ≤ 1
  · obtain rfl : bit = 0 := by omega
    rw [DataType.word, if_pos narrow]
    decide
  · have room : 8 ≤ (DataType.word r.width).bits := by
      rw [DataType.word, if_neg narrow]
      repeat' split
      all_goals decide
    exact Nat.lt_of_lt_of_le (bitMask bit).toNat_lt (Nat.pow_le_pow_right (by decide) room)

theorem enabledBits_lt {device : Option Device} (loaded : load device = .ok c) (id : Identifier) :
    c.enabledBits id < 2 ^ id.bits ∧ c.enabledBits id < 2 ^ 8 := by
  obtain ⟨d, -, checked⟩ := checked_of_load loaded
  cases found : Lower.interruptEnable? c with
  | none =>
      rw [enabledBits_of_none found]
      exact ⟨Nat.two_pow_pos _, by decide⟩
  | some enable =>
      obtain ⟨listed, field⟩ := mem_of_interruptEnable found
      rw [checked.registers] at listed
      have fits := ((registersProblem_eq_none_iff.mp checked.sound).1 _ listed).2.1 _ field
      rw [enabledBits_of_some found]
      split
      · rename_i same
        exact ⟨same ▸ bitMask_lt (by omega), (bitMask enable.2.bit).toNat_lt⟩
      · exact ⟨Nat.two_pow_pos _, by decide⟩

end Catalog

/-- What a register holds after a return restored it: the interrupt-enable bit is set on top, and nothing
else changes. -/
theorem get_run_ending {I : Interpretation} {c : Catalog} {i : Instruction} {id : Identifier}
    (σ : State Cells) (register : id.IsRegister) (short : σ.get id < 2 ^ id.bits ∧ σ.get id < 2 ^ 8)
    (room : c.enabledBits id < 2 ^ id.bits ∧ c.enabledBits id < 2 ^ 8) :
    (σ.run I (Lower.ending c i)).1.get id =
      σ.get id ||| if i.opcode = .retfie then c.enabledBits id else 0 := by
  unfold Lower.ending
  by_cases interrupt : i.opcode = .retfie
  · rw [if_pos interrupt, if_pos interrupt, Lower.enabling]
    cases found : Lower.interruptEnable? c with
    | none =>
        rw [Catalog.enabledBits_of_none found]
        exact (Nat.or_zero _).symm
    | some enable =>
        obtain ⟨r, f⟩ := enable
        have register' : r.identifier.IsRegister := ⟨_, _, _, rfl⟩
        have step : σ.exec I (.assign (.identifier r.identifier) (Lower.withBit r f)) =
            (σ.setRegister r.identifier ((Lower.withBit r f).eval I σ), none) := by
          rw [State.exec_assign_of_plain σ rfl rfl, State.assign_register σ register']
        rw [Catalog.enabledBits_of_some found] at room ⊢
        refine (congrArg (fun out => State.get out.1 id) (State.run_cons_of_falls _ step)).trans ?_
        show State.get (σ.setRegister r.identifier _) id = _
        by_cases same : r.identifier = id
        · rw [if_pos same] at room ⊢
          subst same
          have value : (Lower.withBit r f).eval I σ =
              (σ.get r.identifier ||| (bitMask f.bit).toNat) % 2 ^ 8 := by
            rw [← Expr.eval_byte (I := I) (σ := σ)]
            rfl
          rw [State.get_setRegister σ _ register, value,
            Nat.mod_eq_of_lt (Nat.or_lt_two_pow short.2 room.2),
            Nat.mod_eq_of_lt (Nat.or_lt_two_pow short.1 room.1)]
        · rw [if_neg same, Nat.or_zero, ← State.set_of_isRegister σ _ register']
          exact State.get_set_of_ne register σ _ (Ne.symm same)
  · rw [if_neg interrupt, if_neg interrupt]
    exact (Nat.or_zero _).symm

/-! ## Runs -/

section Runs

variable {I : Interpretation} {c : Catalog}

/-- A fast call leaves the low bits of each register in its shadow. -/
theorem get_run_fastCall (accepted : c.Accepted) (addressed : c.Addressed) {i : Instruction}
    {cluster : Cluster} (lifted : Lifts c i cluster) (fast : i.IsFastCall) (σ : State Cells)
    {pair : Identifier × Identifier} (listed : pair ∈ Lower.shadowed c) :
    (σ.run I cluster.statements).1.get pair.2 = σ.get pair.1 % 2 ^ 8 := by
  obtain ⟨target, runs⟩ := lifted.run_fastCall fast
  obtain ⟨τ, ran, copied⟩ := σ.run_transfers (I := I) (Lower.shadowed c)
    (fun pair listed => ⟨accepted.isRegister_context (Catalog.live_of_shadowed listed),
      (Catalog.shadow_facts (Catalog.saved_of_shadowed listed)).1⟩)
    Catalog.nodup_shadow fun pair listed => addressed.not_shadow (Catalog.live_of_shadowed listed)
  have byte := (Catalog.shadow_facts (Catalog.saved_of_shadowed listed)).2.1
  rw [runs, State.run_append_of_falls _ ran]
  exact (copied pair listed).trans (by rw [byte])

/-- A fast return gives each register what its shadow holds, and a return from an interrupt sets the
interrupt-enable bit on top. -/
theorem get_run_fastReturn {device : Option Device} (loaded : Catalog.load device = .ok c)
    {i : Instruction} {cluster : Cluster} (lifted : Lifts c i cluster) (fast : i.IsFastReturn)
    (σ : State Cells) {pair : Identifier × Identifier} (listed : pair ∈ Lower.shadowed c) :
    (σ.run I cluster.statements).1.get pair.1 =
      σ.get pair.2 % 2 ^ pair.1.bits |||
        if i.opcode = .retfie then c.enabledBits pair.1 else 0 := by
  have accepted := Catalog.accepted_of_load loaded
  have addressed := Catalog.addressed_of_load loaded
  have sound : ∀ back, back ∈ Lower.unshadowed c →
      back.1 ∈ shadow.toList ∧ back.2 ∈ c.context := by
    intro back listed
    obtain ⟨pair, among, rfl⟩ := List.mem_map.mp listed
    exact ⟨Catalog.saved_of_shadowed among, Catalog.live_of_shadowed among⟩
  obtain ⟨τ, ran, copied⟩ := σ.run_transfers (I := I) (Lower.unshadowed c)
    (fun back listed => ⟨(Catalog.shadow_facts (sound back listed).1).1,
      accepted.isRegister_context (sound back listed).2⟩)
    accepted.nodup_context
    fun back listed live => addressed.not_shadow live (sound back listed).1
  have restored : τ.get pair.1 = σ.get pair.2 % 2 ^ pair.1.bits :=
    copied pair.swap (List.mem_map_of_mem listed)
  have register := accepted.isRegister_context (Catalog.live_of_shadowed listed)
  obtain ⟨saved, byte, -⟩ := Catalog.shadow_facts (Catalog.saved_of_shadowed listed)
  have small : σ.get pair.2 < 2 ^ 8 := byte ▸ State.get_lt σ saved
  have short : τ.get pair.1 < 2 ^ 8 :=
    restored ▸ Nat.lt_of_le_of_lt (Nat.mod_le _ _) small
  rw [lifted.run_fastReturn fast, State.run_append_of_falls _ ran,
    get_run_ending τ register ⟨State.get_lt τ register, short⟩
      (Catalog.enabledBits_lt loaded pair.1), restored]

/-- A fast call, any clusters that stay in data memory, and a fast return: the low bits of each register
are back. -/
theorem get_runEach_fast {device : Option Device} (loaded : Catalog.load device = .ok c)
    {i j : Instruction} {call ret : Cluster} (called : Lifts c i call) (fast : i.IsFastCall)
    (returned : Lifts c j ret) (fast' : j.IsFastReturn) {order : List Cluster}
    (inside : ∀ k, k ∈ order → ∀ s, s ∈ k.statements → Lower.InData s) (σ : State Cells)
    {pair : Identifier × Identifier} (listed : pair ∈ Lower.shadowed c) :
    (σ.runEach I (call :: (order ++ [ret]))).get pair.1 =
      σ.get pair.1 % 2 ^ 8 ||| if j.opcode = .retfie then c.enabledBits pair.1 else 0 := by
  have accepted := Catalog.accepted_of_load loaded
  have addressed := Catalog.addressed_of_load loaded
  obtain ⟨saved, -, past⟩ := Catalog.shadow_facts (Catalog.saved_of_shadowed listed)
  have register := accepted.isRegister_context (Catalog.live_of_shadowed listed)
  obtain ⟨τ, entered⟩ : ∃ τ, τ = (σ.run I call.statements).1 := ⟨_, rfl⟩
  have kept : (τ.runEach I order).get pair.2 = σ.get pair.1 % 2 ^ 8 := by
    have through : (τ.runEach I order).get pair.2 = τ.get pair.2 :=
      State.get_runEach_of_not_mem saved τ fun k among s within changed =>
        absurd (inside k among s within _ changed) (Nat.not_lt.mpr past)
    rw [through, entered]
    exact get_run_fastCall accepted addressed called fast σ listed
  have whole : σ.get pair.1 % 2 ^ 8 % 2 ^ pair.1.bits = σ.get pair.1 % 2 ^ 8 :=
    Nat.mod_eq_of_lt (Nat.lt_of_le_of_lt (Nat.mod_le _ _) (State.get_lt σ register))
  calc (σ.runEach I (call :: (order ++ [ret]))).get pair.1
      = ((τ.runEach I order).run I ret.statements).1.get pair.1 := by
        rw [State.runEach, ← entered, State.runEach_append]
        rfl
    _ = σ.get pair.1 % 2 ^ 8 ||| if j.opcode = .retfie then c.enabledBits pair.1 else 0 := by
        rw [get_run_fastReturn loaded returned fast' _ listed, kept, whole]

end Runs

/-- On a loaded device, take a fast call, a fast return, and clusters in between of any instructions that
are no fast calls.  None of these clusters assigns a shadow register, or any register of its family.  So
whichever of them run between the call and the return, in any order and however often, WREG, STATUS and
BSR have their low 8 bits from before the call, which is all of a register of at most 8 bits.  A return
from an interrupt sets the interrupt-enable bit on top if it lies in one of them. -/
theorem fast_return_restores {device : Option Device} {c : Catalog}
    (loaded : Catalog.load device = .ok c) {i j : Instruction} {call ret : Cluster}
    {between : List Cluster} (called : Lifts c i call) (fast : i.IsFastCall)
    (inside : ∀ k ∈ between, ∃ i', Lifts c i' k ∧ ¬ i'.IsFastCall)
    (returned : Lifts c j ret) (fast' : j.IsFastReturn) :
    (∀ k ∈ between, ∀ s ∈ k.statements, ∀ id ∈ s.targets, ∀ saved ∈ shadow.toList,
      id.family ≠ saved.family) ∧
      ∀ I (σ : State Cells) (order : List Cluster), (∀ k ∈ order, k ∈ between) →
        ∀ id ∈ [c.core.wreg, c.core.status, c.core.bsr],
          (σ.runEach I (call :: (order ++ [ret]))).get id =
              σ.get id % 2 ^ 8 ||| (if j.opcode = .retfie then c.enabledBits id else 0) ∧
            (id.bits ≤ 8 → σ.get id % 2 ^ 8 = σ.get id) := by
  have addressed := Catalog.addressed_of_load loaded
  have stays : ∀ k, k ∈ between → ∀ s, s ∈ k.statements → Lower.InData s := by
    intro k among
    obtain ⟨i', ⟨next, t, t', l, lowered, rfl⟩, slow⟩ := inside k among
    exact inData_of_lowered addressed slow lowered
  refine ⟨fun k among s within id changed saved shadowed => ?_,
    fun I σ order drawn id live => ⟨?_, ?_⟩⟩
  · exact Nat.ne_of_lt (Nat.lt_of_lt_of_le (stays k among s within id changed)
      (Catalog.shadow_facts shadowed).2.2)
  · have among : id ∈ (Lower.shadowed c).map Prod.fst := live
    obtain ⟨pair, listed, rfl⟩ := List.mem_map.mp among
    exact get_runEach_fast loaded called fast returned fast'
      (fun k among => stays k (drawn k among)) σ listed
  · intro byte
    have register := (Catalog.accepted_of_load loaded).isRegister_context live
    exact Nat.mod_eq_of_lt
      (Nat.lt_of_lt_of_le (σ.get_lt register) (Nat.pow_le_pow_right (by decide) byte))

/-! ## A subroutine, and a wider register -/

/-- Call the code at 0x1000 and save the registers. -/
def callFast : Instruction := ⟨0x200, 4, .call, [.absolute 0x1000, .fast true]⟩

/-- Load the working register with a literal. -/
def movlwFive : Instruction := ⟨0x1000, 2, .movlw, [.imm8 5]⟩

/-- Return and restore the registers. -/
def returnFast : Instruction := ⟨0x1002, 2, .ret, [.fast true]⟩

/-- An instruction with the operands of its opcode has a cluster. -/
theorem exists_lifts (c : Catalog) {i : Instruction} (fits : i.Fits) : ∃ cluster, Lifts c i cluster := by
  obtain ⟨l, t', lowered, -⟩ := lowerWith_of_fits c none fits IntrinsicTable.regular_empty
  exact ⟨_, none, .empty, t', l, lowered, rfl⟩

theorem not_isFastCall_movlwFive : ¬ movlwFive.IsFastCall := by
  rintro ⟨opcode | opcode, -⟩ <;> cases opcode

/-- A subroutine may load the working register as often as it likes. -/
theorem fast_return_restores_wreg :
    ∃ c, Catalog.load (some Devices.Pic18f4620.device) = .ok c ∧
      ∃ call body ret, Lifts c callFast call ∧ Lifts c movlwFive body ∧ Lifts c returnFast ret ∧
        ∀ I (σ : State Cells),
          (σ.runEach I [call, body, body, ret]).get c.core.wreg = σ.get c.core.wreg := by
  obtain ⟨c, loaded, wide, -⟩ := load_pic18f4620
  obtain ⟨call, called⟩ := exists_lifts c (i := callFast) rfl
  obtain ⟨body, loads⟩ := exists_lifts c (i := movlwFive) rfl
  obtain ⟨ret, returned⟩ := exists_lifts c (i := returnFast) rfl
  refine ⟨c, loaded, call, body, ret, called, loads, returned, fun I σ => ?_⟩
  have inside : ∀ k ∈ [body], ∃ i, Lifts c i k ∧ ¬ i.IsFastCall := by
    simpa using ⟨movlwFive, loads, not_isFastCall_movlwFive⟩
  obtain ⟨-, restored⟩ :=
    fast_return_restores loaded called ⟨.inl rfl, rfl⟩ inside returned ⟨.inl rfl, rfl⟩
  obtain ⟨back, whole⟩ := restored I σ [body, body] (by simp) c.core.wreg List.mem_cons_self
  rw [whole wide.le] at back
  exact back.trans (Nat.or_zero _)

/-- A device whose working register has 16 bits. -/
def wideDevice : Device :=
  { Devices.Pic18f4620.device with
    registers := Devices.Pic18f4620.device.registers.filter (·.name != "WREG") ++
      [.joint "WREG" 0xFE8 16] }

/-- A fast call and a fast return with nothing in between lose the high bits of a working register that has
16, since its shadow is a byte. -/
theorem fast_call_loses :
    ∃ c, Catalog.load (some wideDevice) = .ok c ∧
      ∃ call ret, Lifts c callFast call ∧ Lifts c returnFast ret ∧
        ∀ I, ∃ σ : State Cells,
          (σ.runEach I [call, ret]).get c.core.wreg ≠ σ.get c.core.wreg := by
  obtain ⟨c, loaded, wide⟩ : ∃ c, Catalog.load (some wideDevice) = .ok c ∧ c.core.wreg.bits = 16 :=
    ⟨_, rfl, rfl⟩
  obtain ⟨call, called⟩ := exists_lifts c (i := callFast) rfl
  obtain ⟨ret, returned⟩ := exists_lifts c (i := returnFast) rfl
  refine ⟨c, loaded, call, ret, called, returned, fun I => ⟨oddOneOut c.core.wreg 256 0 0, ?_⟩⟩
  have held : (oddOneOut c.core.wreg 256 0 0).get c.core.wreg = 256 := by
    rw [State.get_of_isRegister _ (Catalog.accepted_of_load loaded).isRegister_wreg]
    refine (LawfulRegisterFile.read_write _ _ _).trans ?_
    rw [wide]
  have idle : ∀ k : Cluster, k ∈ [] → ∀ s, s ∈ k.statements → Lower.InData s := by simp
  have listed : (c.core.wreg, shadow.wreg) ∈ Lower.shadowed c := List.mem_cons_self
  have restored := get_runEach_fast (I := I) loaded called ⟨.inl rfl, rfl⟩ returned ⟨.inl rfl, rfl⟩
    idle (oddOneOut c.core.wreg 256 0 0) listed
  rw [held] at restored ⊢
  rw [List.nil_append] at restored
  rw [restored]
  show 256 % 2 ^ 8 ||| 0 ≠ 256
  decide

end RegisterTransfer.Pic18
