/-
# RegisterTransfer.Proofs.Sweep.Cut -- a trace is a cut of a linear sweep

A trace starts a stream of its own at an entry point and stops behind the first cluster after which
execution cannot fall through.  `trace_cuts_linear` says what it finds in terms of linear sweeps: it is
the front of the sweep over the image from the entry point on, and where a sweep over the whole image
has a cluster that starts at the entry point, it shows what the sweep shows from that cluster on.

* `collectUntil_fst`: a search for a last cluster is a cut of the whole run;
* `Decoder.decodeAll_drop`: decoding from the place of an instruction on gives the instructions from it
  on, so that a stream that starts there and one that got there have the same to come.
-/
import RegisterTransfer.Proofs.Stream.Shown
import RegisterTransfer.Sweep

namespace RegisterTransfer

set_option autoImplicit false

open InstructionStream

variable {ι : Type} [MachineInstruction ι]

/-! ## Cuts of a run -/

namespace Sweep

/-- The clusters up to and including the first that `stop` accepts. -/
def through (stop : Cluster → Bool) (clusters : List Cluster) : List Cluster :=
  clusters.take (clusters.findIdx stop + 1)

/-- The clusters of a run, or the fault it ended with. -/
def outcome (clusters : List Cluster) : Option Fault → Except Fault (List Cluster)
  | none => .ok clusters
  | some fault => .error fault

/-- What a search for a last cluster makes of a run: the fault is seen only if the search gets there. -/
def cut (stop : Cluster → Bool) (clusters : List Cluster) (fault : Option Fault) :
    Except Fault (List Cluster) :=
  if clusters.any stop then .ok (through stop clusters) else outcome clusters fault

variable {stop : Cluster → Bool}

theorem through_cons (c : Cluster) (clusters : List Cluster) :
    through stop (c :: clusters) = c :: if stop c then [] else through stop clusters := by
  cases stops : stop c <;> simp [through, List.findIdx_cons, stops]

theorem through_of_none {clusters : List Cluster} (none_ : clusters.any stop = false) :
    through stop clusters = clusters := by
  induction clusters with
  | nil => rfl
  | cons c rest ih =>
      simp only [List.any_cons, Bool.or_eq_false_iff] at none_
      rw [through_cons, none_.1, ih none_.2]
      simp

theorem cut_cons (c : Cluster) (clusters : List Cluster) (fault : Option Fault) :
    cut stop (c :: clusters) fault =
      if stop c then .ok [c] else (cut stop clusters fault).map (c :: ·) := by
  cases stops : stop c with
  | true => simp [cut, through_cons, stops]
  | false =>
      cases more : clusters.any stop <;> cases fault <;>
        simp [cut, through_cons, outcome, stops, more, Except.map]

/-- A cut behind the first cluster that is accepted depends on what clusters show if acceptance does. -/
theorem shown_through {accepts : Flow → Bool} {clusters clusters' : List Cluster}
    (same : clusters.map Cluster.shown = clusters'.map Cluster.shown) :
    (through (fun c => accepts c.flow) clusters).map Cluster.shown =
      (through (fun c => accepts c.flow) clusters').map Cluster.shown := by
  induction clusters generalizing clusters' with
  | nil =>
      cases clusters' with
      | nil => rfl
      | cons c' rest' => cases same
  | cons c rest ih =>
      cases clusters' with
      | nil => cases same
      | cons c' rest' =>
          simp only [List.map_cons, List.cons.injEq] at same
          have flow : c.flow = c'.flow := congrArg Cluster.Shown.flow same.1
          rw [through_cons, through_cons, List.map_cons, List.map_cons, same.1, flow]
          cases accepts c'.flow with
          | true => rfl
          | false => exact congrArg (_ :: ·) (ih same.2)

end Sweep

namespace ClusterStream

variable {b : Backend ι} {stop : Cluster → Bool} {s : ClusterStream ι}

/-! ## One step of a search -/

theorem collectUntil_of_none (ended : (s.next b).1 = none) :
    s.collectUntil b stop = (.ok [], (s.next b).2.table) := by
  rw [collectUntil]
  split
  · rfl
  · rename_i found
    rw [ended] at found
    cases found
  · rename_i found
    rw [ended] at found
    cases found

theorem collectUntil_of_fault {fault : Fault} (found : (s.next b).1 = some (.error fault)) :
    s.collectUntil b stop = (.error fault, (s.next b).2.table) := by
  rw [collectUntil]
  split
  · rename_i ended
    rw [found] at ended
    cases ended
  · rename_i same
    rw [found] at same
    cases same
    rfl
  · rename_i same
    rw [found] at same
    cases same

theorem collectUntil_of_cluster {c : Cluster} (found : (s.next b).1 = some (.ok c)) :
    s.collectUntil b stop =
      if stop c then (.ok [c], (s.next b).2.table)
      else (((s.next b).2.collectUntil b stop).1.map (c :: ·),
        ((s.next b).2.collectUntil b stop).2) := by
  rw [collectUntil]
  split
  · rename_i ended
    rw [found] at ended
    cases ended
  · rename_i same
    rw [found] at same
    cases same
  · rename_i same
    rw [found] at same
    cases same
    split
    · rfl
    · split
      · rename_i searched
        rw [searched]
        rfl
      · rename_i searched
        rw [searched]
        rfl

/-- A search for a last cluster is a cut of the run. -/
theorem collectUntil_fst {clusters : List Cluster} {fault : Option Fault}
    (run : (s.collect b).1 = Backend.itemsOfRun clusters fault) :
    (s.collectUntil b stop).1 = Sweep.cut stop clusters fault := by
  induction clusters generalizing s with
  | nil =>
      cases found : (s.next b).1 with
      | none =>
          rw [collect_of_next_none found] at run
          cases fault with
          | none => rw [collectUntil_of_none found]; rfl
          | some fault => cases run
      | some item =>
          rw [collect_of_next_some found] at run
          cases fault with
          | none => cases run
          | some fault =>
              cases (List.cons.inj run).1
              rw [collectUntil_of_fault found]
              rfl
  | cons c rest ih =>
      cases found : (s.next b).1 with
      | none =>
          rw [collect_of_next_none found] at run
          cases run
      | some item =>
          rw [collect_of_next_some found] at run
          obtain ⟨same, later⟩ := List.cons.inj run
          cases same
          rw [collectUntil_of_cluster found, Sweep.cut_cons]
          split
          · rfl
          · rw [ih later]

end ClusterStream

/-! ## Decoding from the place of an instruction on -/

namespace Decoder

/-- Every instruction that is decoded says that it stands where its bytes do. -/
def Truthful (d : Decoder ι) : Prop :=
  ∀ bytes address i, d.decode bytes address = .ok (some i) →
    MachineInstruction.address i = address

variable {d : Decoder ι} {bytes : List UInt8} {address : Nat} {decoded : List ι}
  {fault : Option DecodeFault}

theorem decodeAll_cons {i : ι} (all : d.decodeAll bytes address = (i :: decoded, fault)) :
    bytes ≠ [] ∧ d.decode bytes address = .ok (some i) ∧
      d.decodeAll (bytes.drop (MachineInstruction.length i))
        (address + MachineInstruction.length i) = (decoded, fault) := by
  unfold decodeAll at all
  split at all
  · cases all
  · rename_i more
    split at all
    · cases all
    · cases all
    · rename_i found
      simp only at all
      split at all
      · cases all
      · cases all
        refine ⟨?_, found, rfl⟩
        rintro rfl
        exact more rfl

/-- Decoding from the place of an instruction on gives the instructions from it on. -/
theorem decodeAll_drop (all : d.decodeAll bytes address = (decoded, fault)) {n : Nat}
    (within : n ≤ decoded.length) :
    d.decodeAll (bytes.drop ((decoded.take n).map MachineInstruction.length).sum)
        (address + ((decoded.take n).map MachineInstruction.length).sum) =
      (decoded.drop n, fault) := by
  induction decoded generalizing bytes address n with
  | nil => simpa using all
  | cons i rest ih =>
      cases n with
      | zero => simpa using all
      | succ n =>
          obtain ⟨-, -, later⟩ := decodeAll_cons all
          have left := ih later (Nat.le_of_succ_le_succ within)
          rw [List.drop_drop, Nat.add_assoc] at left
          simpa using left

/-- An instruction stands inside the image, and says so if the decoder is truthful. -/
theorem decodeAll_place (all : d.decodeAll bytes address = (decoded, fault)) {n : Nat} {i : ι}
    (found : decoded[n]? = some i) :
    ((decoded.take n).map MachineInstruction.length).sum < bytes.length ∧
      (d.Truthful → MachineInstruction.address i =
        address + ((decoded.take n).map MachineInstruction.length).sum) := by
  obtain ⟨within, rfl⟩ := List.getElem?_eq_some_iff.mp found
  have left := decodeAll_drop all (Nat.le_of_lt within)
  rw [List.drop_eq_getElem_cons within] at left
  obtain ⟨more, read, -⟩ := decodeAll_cons left
  refine ⟨?_, fun truthful => truthful _ _ _ read⟩
  by_contra beyond
  exact more (List.drop_eq_nil_of_le (Nat.le_of_not_lt beyond))

end Decoder

/-! ## Sweeps and traces as cuts -/

namespace Sweep

variable {b : Backend ι} {d : Decoder ι} {image : List UInt8} {base entry : Nat}
  {t : IntrinsicTable}

theorem cut_none (stop : Cluster → Bool) (clusters : List Cluster) :
    cut stop clusters none = .ok (through stop clusters) := by
  cases more : clusters.any stop with
  | true => simp [cut, more]
  | false => simp [cut, outcome, more, through_of_none more]

theorem linear_fst {clusters : List Cluster} {fault : Option Fault}
    (run : (ClusterStream.collect b ⟨ofImage d image base, t, false⟩).1 =
      Backend.itemsOfRun clusters fault) :
    (linear d b t image base).1 = outcome clusters fault := by
  unfold linear
  rw [ClusterStream.collectUntil_fst run]
  simp [cut]

theorem trace_fst {clusters : List Cluster} {fault : Option Fault} (above : base ≤ entry)
    (below : entry ≤ base + image.length)
    (run : (ClusterStream.collect b
        ⟨ofImage d (image.drop (entry - base)) entry, t, false⟩).1 =
      Backend.itemsOfRun clusters fault) :
    (trace d b t image base entry).1 =
      (cut (fun c => c.flow.endsTrace) clusters fault).map (⟨entry, ·⟩) := by
  have starts : InstructionStream.startingAt d image base entry =
      ofImage d (image.drop (entry - base)) entry := by
    unfold InstructionStream.startingAt
    rw [if_pos ⟨above, Nat.sub_le_iff_le_add'.mpr below⟩]
    rfl
  rw [← ClusterStream.collectUntil_fst run, ← starts]
  unfold trace
  split
  · rename_i searched
    rw [searched]
    rfl
  · rename_i searched
    rw [searched]
    rfl

/-- A sweep that succeeds ran without a fault of either pass. -/
theorem run_of_linear {clusters : List Cluster}
    (swept : (linear d b t image base).1 = .ok clusters) :
    (b.lowerAll t (d.decodeAll image base).1).1 = clusters ∧
      Backend.firstFault (b.lowerAll t (d.decodeAll image base).1).2.1
        (d.decodeAll image base).2 = none := by
  rw [linear_fst (ClusterStream.collect_ofImage b d image base t)] at swept
  revert swept
  cases Backend.firstFault (b.lowerAll t (d.decodeAll image base).1).2.1
      (d.decodeAll image base).2 with
  | none =>
      intro swept
      exact ⟨Except.ok.inj swept, rfl⟩
  | some fault => nofun

/-- Where a sweep that succeeds has a cluster, a trace from the place of the cluster shows what the sweep
shows from it on. -/
theorem trace_of_linear (sound : b.Sound) {u : IntrinsicTable} (regular : t.Regular)
    (regular' : u.Regular) {clusters : List Cluster}
    (swept : (linear d b t image base).1 = .ok clusters) {k : Nat} {c : Cluster}
    (found : clusters[k]? = some c) :
    let place := base + Cluster.covered (clusters.take k)
    (d.Truthful → c.address = place) ∧
      ∃ later, (trace d b u image base place).1 = .ok ⟨place, later⟩ ∧
        later.map Cluster.shown =
          (through (fun c => c.flow.endsTrace) (clusters.drop k)).map Cluster.shown := by
  intro place
  obtain ⟨rfl, unfailed⟩ := run_of_linear swept
  obtain ⟨within, rfl⟩ := List.getElem?_eq_some_iff.mp found
  have all : d.decodeAll image base =
      ((d.decodeAll image base).1, (d.decodeAll image base).2) := rfl
  obtain ⟨n, t', before, kept, sized, lowered⟩ := sound.exists_drop _ regular k within
  obtain ⟨i, at_⟩ : ∃ i, (d.decodeAll image base).1[n]? = some i :=
    ⟨_, List.getElem?_eq_getElem before⟩
  obtain ⟨inside, stands⟩ := Decoder.decodeAll_place all at_
  rw [sized] at inside stands
  refine ⟨fun truthful => ?_, ?_⟩
  · have address := Backend.head_lowerAll (b := b) (t := t')
      (by rw [lowered, List.head?_drop, found])
    rw [List.head?_drop, at_] at address
    exact (Option.some.inj address).symm.trans (stands truthful)
  · -- What is left to decode at the place is what the sweep had left.
    have left := Decoder.decodeAll_drop all (Nat.le_of_lt before)
    rw [sized] at left
    have run := ClusterStream.collect_ofImage b d (image.drop (place - base)) place u
    obtain ⟨same, ends⟩ :=
      sound.shown_lowerAll ((d.decodeAll image base).1.drop n) regular' kept
    rw [lowered] at same ends
    rw [Nat.add_sub_cancel_left, left, ends, unfailed] at run
    have traced := trace_fst (d := d) (b := b) (Nat.le_add_right base _)
      (Nat.add_le_add_left (Nat.le_of_lt inside) base)
      (by rw [Nat.add_sub_cancel_left]; exact run)
    refine ⟨_, ?_, shown_through same⟩
    rw [traced, cut_none]
    rfl

end Sweep

/-- A trace is a cut of a linear sweep.  It finds the clusters of a sweep over the image from the entry
point on, up to and including the first after which execution cannot fall through, and fails if that
sweep fails before it has such a cluster.  So where a sweep over the whole image succeeds, a trace from
one of its clusters shows what the sweep shows from that cluster on: the cluster is found by the bytes
before it, or by the address it has if the decoder is truthful. -/
theorem Machine.trace_cuts_linear (m : Machine) (d : Decoder m.Instruction) (image : List UInt8)
    (base entry : Nat) (inside : base ≤ entry ∧ entry < base + image.length) :
    let suffix := image.drop (entry - base)
    let ends (c : Cluster) : Bool := c.flow.endsTrace
    let found := (Sweep.trace d m.backend .empty image base entry).1
    (∃ clusters fault,
      (ClusterStream.collect m.backend ⟨ofImage d suffix entry, .empty, false⟩).1 =
        Backend.itemsOfRun clusters fault ∧
      (Sweep.linear d m.backend .empty suffix entry).1 = Sweep.outcome clusters fault ∧
      found = (Sweep.cut ends clusters fault).map (⟨entry, ·⟩)) ∧
    ∀ clusters, (Sweep.linear d m.backend .empty image base).1 = .ok clusters →
      ∀ k c, clusters[k]? = some c →
        (entry = base + Cluster.covered (clusters.take k) ∨ d.Truthful ∧ entry = c.address) →
        ∃ later, found = .ok ⟨entry, later⟩ ∧
          later.map Cluster.shown = (Sweep.through ends (clusters.drop k)).map Cluster.shown := by
  intro suffix ends found
  constructor
  · have run := ClusterStream.collect_ofImage m.backend d suffix entry .empty
    exact ⟨_, _, run, Sweep.linear_fst run,
      Sweep.trace_fst inside.1 (Nat.le_of_lt inside.2) run⟩
  · intro clusters swept k c listed starts
    obtain ⟨stands, traced⟩ := Sweep.trace_of_linear m.sound_backend
      IntrinsicTable.regular_empty IntrinsicTable.regular_empty swept listed
    rcases starts with rfl | ⟨truthful, rfl⟩
    · exact traced
    · rw [← stands truthful] at traced
      exact traced

/-- A decoder of `nop` and of `ret`, one byte each. -/
def returnDecoder : Decoder X86.Instruction where
  decode
    | 0x90 :: _, address => .ok (some (.of address 1 .nop [] .word32))
    | 0xC3 :: _, address => .ok (some (.of address 1 .ret [] .word32))
    | _, address => .error (.invalidEncoding address "reserved")

/-- A sweep over `nop`, `ret` and `nop` has three clusters, and a trace from the second has it alone. -/
theorem Machine.trace_cuts_linear_ret :
    let b := X86.backend .protectedMode
    let image : List UInt8 := [0x90, 0xC3, 0x90]
    ∃ clusters later, (Sweep.linear returnDecoder b .empty image 0x1000).1 = .ok clusters ∧
      clusters.length = 3 ∧
      (Sweep.trace returnDecoder b .empty image 0x1000 0x1001).1 = .ok ⟨0x1001, later⟩ ∧
      later.map Cluster.shown = [⟨0x1001, 1, .ret, ["return (4,0)"], [.ret 4 0]⟩] := by
  intro b image
  let nop (address : Nat) : X86.Instruction := .of address 1 .nop [] .word32
  let ret : X86.Instruction := .of 0x1001 1 .ret [] .word32
  have decoded : returnDecoder.decodeAll image 0x1000 = ([nop 0x1000, ret, nop 0x1002], none) := by
    simp [Decoder.decodeAll, returnDecoder, X86.Instruction.of, MachineInstruction.length, image,
      nop, ret]
  have run := ClusterStream.collect_ofImage b returnDecoder image 0x1000 .empty
  have lowered : b.lowerAll .empty [nop 0x1000, ret, nop 0x1002] =
      ([⟨0x1000, 1, .linear, [.nop]⟩, ⟨0x1001, 1, .ret, [.ret 4 0]⟩,
        ⟨0x1002, 1, .linear, [.nop]⟩], none, .empty) := by
    rw [Backend.lowerAll_of_lowered (l := ⟨false, .linear, [.nop]⟩) rfl]
    rw [if_neg Bool.false_ne_true]
    rw [Backend.lowerAll_of_lowered (l := ⟨false, .ret, [.ret 4 0]⟩) rfl]
    rw [if_neg Bool.false_ne_true]
    rw [Backend.lowerAll_of_lowered (l := ⟨false, .linear, [.nop]⟩) rfl]
    rw [if_neg Bool.false_ne_true, Backend.lowerAll]
    rfl
  rw [decoded, lowered] at run
  have swept := Sweep.linear_fst run
  obtain ⟨-, traced⟩ := Machine.trace_cuts_linear (Machine.x86 .protectedMode) returnDecoder image
    0x1000 0x1001 (by decide)
  obtain ⟨later, found, shows⟩ := traced _ swept 1 _ rfl (.inl rfl)
  refine ⟨_, later, swept, rfl, found, ?_⟩
  rw [shows]
  rfl

end RegisterTransfer
