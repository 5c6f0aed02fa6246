/-
# RegisterTransfer.Proofs.Stream.TwoPass -- pulling clusters is decoding first and lowering then

A cluster stream decodes, looks ahead, absorbs and lowers in turn, and stops at the first fault of
either kind.  The same clusters come out of two passes: `Decoder.decodeAll` decodes an image to the
end, and `Backend.lowerAll` goes through the list of instructions from the front, each with a view of
the ones behind it.  Both ways lower an instruction by `Backend.lowerThrough`, which knows the other
instructions only through its view (`lowerTaken_eq_lowerThrough`).

* `items_ofImage`: the items of a stream over an image are what the first pass gives;
* `lowerItems_eq_lowerAll`: lowering the items of a stream is the second pass;
* `decodeAll_map`, `lowerAll_map`: instructions that are mapped to others of the same place and length
  go through the passes alike;
* `exists_groups`: every cluster of the second pass is made of an instruction and of what it absorbed,
  and nothing is left out between two clusters;
* `collect_eq_twoPass`: the clusters of a stream, for every back-end and every image.
-/
import Mathlib.Data.List.Forall2
import RegisterTransfer.Proofs.Stream.Eager
import RegisterTransfer.Stream.Lookahead
import RegisterTransfer.X86.Lowering

namespace RegisterTransfer

set_option autoImplicit false

open InstructionStream

variable {ι : Type} [MachineInstruction ι]

/-- Each instruction begins where the one before it ends. -/
def Adjacent : Nat → List ι → Prop
  | _, [] => True
  | address, i :: rest =>
      MachineInstruction.address i = address ∧ Adjacent (address + MachineInstruction.length i) rest

theorem adjacent_append {address : Nat} {front back : List ι} :
    Adjacent address (front ++ back) ↔
      Adjacent address front ∧
        Adjacent (address + (front.map MachineInstruction.length).sum) back := by
  induction front generalizing address with
  | nil => simp [Adjacent]
  | cons i rest ih =>
      simp only [List.cons_append, Adjacent, List.map_cons, List.sum_cons]
      rw [ih, Nat.add_assoc, and_assoc]

/-- What stands behind the first instruction. -/
theorem Adjacent.behind {address : Nat} {i : ι} {rest : List ι}
    (adjacent : Adjacent address (i :: rest)) :
    ∀ j ∈ rest.head?,
      MachineInstruction.address j = MachineInstruction.address i + MachineInstruction.length i := by
  intro j head
  cases rest with
  | nil => cases head
  | cons next later =>
      cases head
      rw [adjacent.1]
      exact adjacent.2.1

/-- What is left after the first instruction and, if it absorbs the second one, after that. -/
theorem Adjacent.left {address : Nat} {i : ι} {rest : List ι}
    (adjacent : Adjacent address (i :: rest)) (absorbed : Bool) :
    ∃ address', Adjacent address' (if absorbed then rest.tail else rest) := by
  cases absorbed with
  | false => exact ⟨_, adjacent.2⟩
  | true =>
      cases rest with
      | nil => exact ⟨address, trivial⟩
      | cons next later => exact ⟨_, adjacent.2.2⟩

/-! ## The first pass -/

namespace Decoder

/-- Every instruction that is decoded stands where its bytes do and takes up some of them. -/
def Located (d : Decoder ι) : Prop :=
  ∀ bytes address i, d.decode bytes address = .ok (some i) →
    MachineInstruction.address i = address ∧ 0 < MachineInstruction.length i

/-- All instructions from the front of some bytes, and the fault that ends them, if one does. -/
def decodeAll (d : Decoder ι) (bytes : List UInt8) (address : Nat) :
    List ι × Option DecodeFault :=
  if bytes.isEmpty then ([], none)
  else
    match d.decode bytes address with
    | .error fault => ([], some fault)
    | .ok none => ([], none)
    | .ok (some i) =>
        let n := MachineInstruction.length i
        if n = 0 then ([], some (.invalidEncoding address "zero-length instruction"))
        else
          let more := d.decodeAll (bytes.drop n) (address + n)
          (i :: more.1, more.2)
termination_by bytes.length
decreasing_by
  have positive : 0 < bytes.length := by
    cases bytes with
    | nil => contradiction
    | cons b rest => exact Nat.succ_pos _
  simp only [List.length_drop]
  omega

theorem adjacent_decodeAll {d : Decoder ι} (located : d.Located) (bytes : List UInt8)
    (address : Nat) : Adjacent address (d.decodeAll bytes address).1 := by
  fun_induction decodeAll d bytes address with
  | case5 bytes address more i found n sized rest ih =>
      exact ⟨(located bytes address i found).1, ih⟩
  | _ => trivial

/-- Every instruction of a pass was decoded from some of the bytes. -/
theorem decoded_of_mem_decodeAll {d : Decoder ι} {bytes : List UInt8} {address : Nat} {i : ι}
    (listed : i ∈ (d.decodeAll bytes address).1) :
    ∃ bytes' address', d.decode bytes' address' = .ok (some i) := by
  fun_induction decodeAll d bytes address with
  | case5 bytes address more j found n sized rest ih =>
      rcases List.mem_cons.mp listed with rfl | later
      · exact ⟨bytes, address, found⟩
      · exact ih later
  | _ => cases listed

/-- A decoder that maps what another one decodes, wherever that is valid, maps the whole pass if all
of it is valid. -/
theorem decodeAll_map {d d' : Decoder ι} {g : ι → ι} {valid : ι → Prop} (located : d.Located)
    (sized : ∀ i, MachineInstruction.length (g i) = MachineInstruction.length i)
    (follows : ∀ bytes address, (∀ i, d.decode bytes address = .ok (some i) → valid i) →
      d'.decode bytes address = (d.decode bytes address).map (Option.map g))
    (bytes : List UInt8) (address : Nat)
    (all : ∀ i ∈ (d.decodeAll bytes address).1, valid i) :
    d'.decodeAll bytes address =
      ((d.decodeAll bytes address).1.map g, (d.decodeAll bytes address).2) := by
  fun_induction Decoder.decodeAll d bytes address with
  | case1 bytes address ended =>
      rw [decodeAll, if_pos ended]
      rfl
  | case2 bytes address more fault found =>
      have found' := follows bytes address fun i decoded => by
        rw [found] at decoded
        cases decoded
      rw [found] at found'
      rw [decodeAll, if_neg more, found']
      rfl
  | case3 bytes address more found =>
      have found' := follows bytes address fun i decoded => by
        rw [found] at decoded
        cases decoded
      rw [found] at found'
      rw [decodeAll, if_neg more, found']
      rfl
  | case4 bytes address more i found n empty =>
      exact absurd empty (Nat.ne_of_gt (located bytes address i found).2)
  | case5 bytes address more i found n positive rest ih =>
      obtain ⟨first, later⟩ := List.forall_mem_cons.mp all
      have found' := follows bytes address fun j decoded => by
        rw [found] at decoded
        cases decoded
        exact first
      rw [found] at found'
      rw [decodeAll, if_neg more, found']
      simp only [Except.map, Option.map, sized]
      rw [if_neg positive, ih later]
      rfl

end Decoder

/-- The items of a first pass: its instructions, then its fault. -/
def itemsOf (decoded : List ι) (fault : Option DecodeFault) : List (StreamItem ι) :=
  decoded.map .ok ++ fault.toList.map .error

omit [MachineInstruction ι] in
theorem itemsOf_cons (i : ι) (decoded : List ι) (fault : Option DecodeFault) :
    itemsOf (i :: decoded) fault = .ok i :: itemsOf decoded fault := rfl

omit [MachineInstruction ι] in
theorem itemsOf_map (g : ι → ι) (decoded : List ι) (fault : Option DecodeFault) :
    itemsOf (decoded.map g) fault = (itemsOf decoded fault).map (Except.map g) := by
  cases fault <;> simp [itemsOf, Except.map]

omit [MachineInstruction ι] in
theorem instruction?_head?_itemsOf (decoded : List ι) (fault : Option DecodeFault) :
    instruction? (itemsOf decoded fault).head? = decoded.head? := by
  cases decoded with
  | cons i rest => rfl
  | nil => cases fault <;> rfl

omit [MachineInstruction ι] in
theorem afterInstruction_itemsOf (decoded : List ι) (fault : Option DecodeFault) :
    afterInstruction (itemsOf decoded fault) = itemsOf decoded.tail fault := by
  cases decoded with
  | cons i rest => rfl
  | nil => cases fault <;> rfl

/-- The items of a stream over an image are the instructions and the fault of the first pass. -/
theorem items_ofImage (d : Decoder ι) (bytes : List UInt8) (address : Nat) :
    (ofImage d bytes address).items =
      itemsOf (d.decodeAll bytes address).1 (d.decodeAll bytes address).2 := by
  fun_induction Decoder.decodeAll d bytes address with
  | case1 bytes address ended =>
      rw [List.isEmpty_iff.mp ended]
      exact items_ofImage_nil
  | case2 bytes address more fault found =>
      exact items_ofImage_fault (fun none_ => more (List.isEmpty_iff.mpr none_)) found
  | case3 bytes address more found => exact items_ofImage_end found
  | case4 bytes address more i found n empty =>
      have step : (ofImage d bytes address).next =
          (some (.error (.invalidEncoding address "zero-length instruction")),
            { ofImage d bytes address with finished := true }) := by
        have bytes_ : bytes ≠ [] := fun none_ => more (List.isEmpty_iff.mpr none_)
        have zero : MachineInstruction.length i = 0 := empty
        show (ofImage d bytes address).decodeNext = _
        simp [decodeNext, ofImage, bytes_, found, zero]
      rw [items_of_next_some (by rw [step]), step, items_of_finished rfl rfl]
      rfl
  | case5 bytes address more i found n sized rest ih =>
      rw [items_ofImage_instruction (fun none_ => more (List.isEmpty_iff.mpr none_)) found sized,
        itemsOf_cons]
      exact congrArg (List.cons _) ih

/-! ## The second pass -/

namespace Backend

/-- Lower an instruction that sees the instructions behind it through a view. -/
def lowerThrough {σ : Type} [Lookahead σ ι] (b : Backend ι) (t : IntrinsicTable) (i : ι)
    (view : σ) : Except Fault Cluster × IntrinsicTable × σ :=
  let (next, looked) := Lookahead.peek view
  match b.lowerWith i next t with
  | (.error fault, t') => (.error fault, t', looked)
  | (.ok lowered, t') =>
      let (taken, left) := if lowered.absorbed then Lookahead.consume looked else (none, looked)
      let extra := (taken.map MachineInstruction.length).getD 0
      (.ok ⟨MachineInstruction.address i, MachineInstruction.length i + extra, lowered.flow,
        lowered.statements⟩, t', left)

/-- What a cluster stream does with an instruction is to lower it with itself as the view. -/
theorem lowerTaken_eq_lowerThrough (b : Backend ι) (s : ClusterStream ι) (i : ι) :
    ClusterStream.lowerTaken b s i =
      let (result, t, view) := b.lowerThrough s.table i s.instructions
      (result, { s with instructions := view, table := t }) := by
  have shown : s.instructions.peekInstruction.2.consumeInstruction.1 =
      s.instructions.peekInstruction.1 := by
    rw [consumeInstruction_fst, items_peekInstruction, peekInstruction_fst]
  unfold ClusterStream.lowerTaken lowerThrough
  simp only [Lookahead.peek, Lookahead.consume]
  cases lowered : b.lowerWith i s.instructions.peekInstruction.1 s.table with
  | mk result t =>
      cases result with
      | error fault => rfl
      | ok l =>
          cases taken : l.absorbed with
          | false => simp [taken]
          | true => simp [taken, shown]

variable {b : Backend ι} {t t' : IntrinsicTable} {i : ι} {rest : List ι}

theorem lowerThrough_of_fault {fault : Fault}
    (lowered : b.lowerWith i rest.head? t = (.error fault, t')) :
    b.lowerThrough t i rest = (.error fault, t', rest) := by
  simp only [lowerThrough, Lookahead.peek, lowered]

theorem lowerThrough_of_lowered {l : Lowered}
    (lowered : b.lowerWith i rest.head? t = (.ok l, t')) :
    b.lowerThrough t i rest =
      (.ok (clusterOf i rest.head? l), t', if l.absorbed then rest.tail else rest) := by
  simp only [lowerThrough, Lookahead.peek, Lookahead.consume, lowered]
  cases taken : l.absorbed <;> simp [clusterOf, taken]

/-- A view of a list loses no more than its first instruction. -/
theorem length_lowerThrough_le (b : Backend ι) (t : IntrinsicTable) (i : ι) (rest : List ι) :
    (b.lowerThrough t i rest).2.2.length ≤ rest.length := by
  cases lowered : b.lowerWith i rest.head? t with
  | mk result t' =>
      cases result with
      | error fault =>
          simp only [lowerThrough_of_fault lowered, Nat.le_refl]
      | ok l =>
          rw [lowerThrough_of_lowered lowered]
          simp only
          split
          · rw [List.length_tail]
            omega
          · exact Nat.le_refl _

/-- Lower a list of instructions from its front: the clusters, the fault that ended the pass, if one
did, and the table of intrinsics after it. -/
def lowerAll (b : Backend ι) (t : IntrinsicTable) :
    List ι → List Cluster × Option Fault × IntrinsicTable
  | [] => ([], none, t)
  | i :: rest =>
      match _h : b.lowerThrough t i rest with
      | (.error fault, t', _) => ([], some fault, t')
      | (.ok cluster, t', left) =>
          let more := lowerAll b t' left
          (cluster :: more.1, more.2)
termination_by instructions => instructions.length
decreasing_by
  have := length_lowerThrough_le b t i rest
  rw [_h] at this
  simp only [List.length_cons] at this ⊢
  omega

theorem lowerAll_of_fault {fault : Fault}
    (lowered : b.lowerWith i rest.head? t = (.error fault, t')) :
    b.lowerAll t (i :: rest) = ([], some fault, t') := by
  rw [lowerAll]
  split
  · rename_i found
    rw [lowerThrough_of_fault lowered] at found
    cases found
    rfl
  · rename_i found
    rw [lowerThrough_of_fault lowered] at found
    cases found

theorem lowerAll_of_lowered {l : Lowered}
    (lowered : b.lowerWith i rest.head? t = (.ok l, t')) :
    b.lowerAll t (i :: rest) =
      let more := b.lowerAll t' (if l.absorbed then rest.tail else rest)
      (clusterOf i rest.head? l :: more.1, more.2) := by
  rw [lowerAll]
  split
  · rename_i found
    rw [lowerThrough_of_lowered lowered] at found
    cases found
  · rename_i found
    rw [lowerThrough_of_lowered lowered] at found
    cases found
    rfl

omit [MachineInstruction ι] in
/-- The induction of the second pass, which takes one or two instructions at a time. -/
@[elab_as_elim]
theorem pass_induction {motive : List ι → Prop} (nil : motive [])
    (cons : ∀ i rest, (∀ absorbed : Bool, motive (if absorbed then rest.tail else rest)) →
      motive (i :: rest)) (decoded : List ι) : motive decoded :=
  match decoded with
  | [] => nil
  | [i] => cons i [] fun absorbed => by cases absorbed <;> exact nil
  | i :: j :: rest =>
      cons i (j :: rest) fun absorbed =>
        match absorbed with
        | true => pass_induction nil cons rest
        | false => pass_induction nil cons (j :: rest)

/-- A map of instructions that no lowering notices changes no cluster. -/
theorem lowerAll_map {b : Backend ι} {g : ι → ι} {kept : ι → Prop}
    (placed : ∀ i, MachineInstruction.address (g i) = MachineInstruction.address i)
    (sized : ∀ i, MachineInstruction.length (g i) = MachineInstruction.length i)
    (lowers : ∀ i next t, kept i → b.lowerWith (g i) (Option.map g next) t = b.lowerWith i next t)
    (decoded : List ι) (t : IntrinsicTable) (all : ∀ i ∈ decoded, kept i) :
    b.lowerAll t (decoded.map g) = b.lowerAll t decoded := by
  induction decoded using pass_induction generalizing t with
  | nil => rfl
  | cons i rest ih =>
      obtain ⟨first, later⟩ := List.forall_mem_cons.mp all
      have same := lowers i rest.head? t first
      rw [← List.head?_map] at same
      rw [List.map_cons]
      cases lowered : b.lowerWith i rest.head? t with
      | mk result t' =>
          rw [lowered] at same
          cases result with
          | error fault => rw [lowerAll_of_fault lowered, lowerAll_of_fault same]
          | ok l =>
              have cluster : clusterOf (g i) (rest.map g).head? l = clusterOf i rest.head? l := by
                simp only [clusterOf, placed, sized, List.head?_map, Option.map_map,
                  Function.comp_def]
              have left : (if l.absorbed then (rest.map g).tail else rest.map g) =
                  (if l.absorbed then rest.tail else rest).map g := by
                rw [← List.map_tail, apply_ite (List.map g)]
              rw [lowerAll_of_lowered lowered, lowerAll_of_lowered same, cluster, left,
                ih l.absorbed t' fun j left_ => later j ?_]
              split at left_
              · exact List.mem_of_mem_tail left_
              · exact left_

/-- The first fault of two passes: the second pass stops before it gets to the fault of the first. -/
def firstFault (lowering : Option Fault) (decoding : Option DecodeFault) : Option Fault :=
  lowering.or (decoding.map .decode)

/-- The clusters of a run and the fault it ends with. -/
def itemsOfRun (clusters : List Cluster) (fault : Option Fault) : List (Except Fault Cluster) :=
  clusters.map .ok ++ fault.toList.map .error

/-- Lowering the items of a stream is the second pass over its instructions. -/
theorem lowerItems_eq_lowerAll (b : Backend ι) (t : IntrinsicTable) (decoded : List ι)
    (fault : Option DecodeFault) :
    b.lowerItems t (itemsOf decoded fault) =
      (itemsOfRun (b.lowerAll t decoded).1 (firstFault (b.lowerAll t decoded).2.1 fault),
        (b.lowerAll t decoded).2.2) := by
  cases decoded with
  | nil => cases fault <;> simp [itemsOf, itemsOfRun, firstFault, lowerItems, lowerAll]
  | cons i rest =>
      rw [itemsOf_cons, lowerItems]
      simp only [instruction?_head?_itemsOf, afterInstruction_itemsOf]
      cases lowered : b.lowerWith i rest.head? t with
      | mk result t' =>
          cases result with
          | error problem =>
              rw [lowerAll_of_fault lowered]
              rfl
          | ok l =>
              have later := lowerItems_eq_lowerAll b t' (if l.absorbed then rest.tail else rest) fault
              rw [apply_ite (itemsOf · fault)] at later
              rw [lowerAll_of_lowered lowered]
              simp only [later]
              rfl
termination_by decoded.length
decreasing_by
  split <;> simp only [List.length_cons, List.length_tail] <;> omega

end Backend

/-- A stream over an image gives the run of the two passes, whatever table it begins with. -/
theorem ClusterStream.collect_ofImage (b : Backend ι) (d : Decoder ι) (image : List UInt8)
    (base : Nat) (t : IntrinsicTable) :
    (ClusterStream.collect b ⟨ofImage d image base, t, false⟩).1 =
      Backend.itemsOfRun (b.lowerAll t (d.decodeAll image base).1).1
        (Backend.firstFault (b.lowerAll t (d.decodeAll image base).1).2.1
          (d.decodeAll image base).2) := by
  rw [collect_eq_lowerItems b _ (coherent_ofImage d image base) rfl]
  simp only [items_ofImage, Backend.lowerItems_eq_lowerAll]

/-! ## What a cluster is made of -/

/-- A cluster stands at the first of some instructions and is as long as all of them. -/
def Cluster.MadeOf (c : Cluster) (group : List ι) : Prop :=
  group.head?.map MachineInstruction.address = some c.address ∧
    c.length = (group.map MachineInstruction.length).sum

/-- An instruction and what it absorbed make a cluster. -/
theorem Backend.madeOf_clusterOf (i : ι) (rest : List ι) (l : Backend.Lowered) :
    (Backend.clusterOf i rest.head? l).MadeOf (i :: if l.absorbed then rest.head?.toList else []) := by
  refine ⟨rfl, ?_⟩
  unfold Backend.clusterOf
  cases l.absorbed with
  | false => rfl
  | true => cases rest <;> rfl

/-- The first cluster stands at the first instruction. -/
theorem Backend.head_lowerAll {b : Backend ι} {t : IntrinsicTable} {decoded : List ι} {c : Cluster}
    (first : (b.lowerAll t decoded).1.head? = some c) :
    decoded.head?.map MachineInstruction.address = some c.address := by
  cases decoded with
  | nil =>
      rw [lowerAll] at first
      cases first
  | cons i rest =>
      cases lowered : b.lowerWith i rest.head? t with
      | mk result t' =>
          cases result with
          | error fault =>
              rw [lowerAll_of_fault lowered] at first
              cases first
          | ok l =>
              rw [lowerAll_of_lowered lowered] at first
              cases first
              rfl

/-- The second pass splits the instructions into groups, one for each cluster, and leaves none over
unless a lowering failed. -/
theorem Backend.exists_groups (b : Backend ι) (t : IntrinsicTable) (decoded : List ι) :
    ∃ (groups : List (List ι)) (left : List ι), decoded = groups.flatten ++ left ∧
      List.Forall₂ Cluster.MadeOf (b.lowerAll t decoded).1 groups ∧
      ((b.lowerAll t decoded).2.1 = none ↔ left = []) := by
  cases decoded with
  | nil => exact ⟨[], [], rfl, by simp [lowerAll], by simp [lowerAll]⟩
  | cons i rest =>
      cases lowered : b.lowerWith i rest.head? t with
      | mk result t' =>
          cases result with
          | error fault =>
              rw [lowerAll_of_fault lowered]
              exact ⟨[], i :: rest, rfl, .nil, by simp⟩
          | ok l =>
              obtain ⟨groups, left, split_, made, ended⟩ :=
                exists_groups b t' (if l.absorbed then rest.tail else rest)
              rw [lowerAll_of_lowered lowered]
              refine ⟨(i :: if l.absorbed then rest.head?.toList else []) :: groups, left, ?_,
                .cons (madeOf_clusterOf i rest l) made, ended⟩
              rw [List.flatten_cons, List.append_assoc, ← split_]
              cases l.absorbed with
              | false => rfl
              | true => cases rest <;> rfl
termination_by decoded.length
decreasing_by
  split <;> simp only [List.length_cons, List.length_tail] <;> omega

/-- Clusters of adjacent instructions are contiguous. -/
theorem Cluster.tile_of_adjacent {address : Nat} {clusters : List Cluster} {groups : List (List ι)}
    (made : List.Forall₂ Cluster.MadeOf clusters groups)
    (adjacent : Adjacent address groups.flatten) : Cluster.Tile address clusters := by
  induction made generalizing address with
  | nil => trivial
  | @cons c group clusters groups first _ ih =>
      rw [List.flatten_cons, adjacent_append] at adjacent
      obtain ⟨begins, length⟩ := first
      have stands : c.address = address := by
        cases group with
        | nil => cases begins
        | cons i absorbed =>
            rw [← adjacent.1.1]
            exact (Option.some.inj begins).symm
      refine ⟨stands, ih ?_⟩
      rw [Cluster.endAddress, stands, length]
      exact adjacent.2

/-- The clusters of the second pass stand one behind the other. -/
theorem Backend.tile_lowerAll (b : Backend ι) {d : Decoder ι} (located : d.Located)
    (image : List UInt8) (base : Nat) (t : IntrinsicTable) :
    Cluster.Tile base (b.lowerAll t (d.decodeAll image base).1).1 := by
  obtain ⟨groups, left, all, made, _⟩ := b.exists_groups t (d.decodeAll image base).1
  have adjacent := Decoder.adjacent_decodeAll located image base
  rw [all, adjacent_append] at adjacent
  exact Cluster.tile_of_adjacent made adjacent.1

/-- A cluster ends where the one behind it stands. -/
theorem Cluster.Tile.consecutive {address : Nat} {clusters : List Cluster}
    (tile : Cluster.Tile address clusters) {n : Nat} {k d : Cluster} (first : clusters[n]? = some k)
    (second : clusters[n + 1]? = some d) : d.address = k.endAddress := by
  induction clusters generalizing address n with
  | nil => cases first
  | cons c rest ih =>
      cases n with
      | zero =>
          cases first
          cases rest with
          | nil => cases second
          | cons c' rest =>
              cases second
              exact tile.2.1
      | succ n => exact ih tile.2 first second

/-! ## Pulling clusters one by one -/

namespace ClusterStream

variable {b : Backend ι} {s : ClusterStream ι}

/-- The stream after some clusters were pulled. -/
def after (b : Backend ι) : Nat → ClusterStream ι → ClusterStream ι
  | 0, s => s
  | n + 1, s => after b n (s.next b).2

theorem coherent_lowerTaken (coherent : s.instructions.Coherent) (i : ι) :
    (lowerTaken b s i).2.instructions.Coherent := by
  have looked := coherent_peekInstruction coherent
  unfold lowerTaken
  simp only
  split
  · exact looked
  · split
    · exact coherent_consumeInstruction looked
    · exact looked

theorem coherent_next (coherent : s.instructions.Coherent) :
    (s.next b).2.instructions.Coherent := by
  have taken := InstructionStream.coherent_next s.instructions
  cases failed : s.failed with
  | true =>
      have step : s.next b = (none, s) := by simp [next, failed]
      rw [step]
      exact coherent
  | false =>
      cases all : s.instructions.items with
      | nil =>
          rw [next_of_items_nil failed all]
          exact taken
      | cons item rest =>
          cases item with
          | error fault =>
              rw [next_of_items_fault failed all]
              exact taken
          | ok i =>
              have lowered := coherent_lowerTaken (b := b)
                (s := { s with instructions := s.instructions.next.2 }) taken i
              rw [next_of_items_instruction failed all]
              split <;> · rename_i found; rw [found] at lowered; exact lowered

theorem items_lowerTaken_suffix (coherent : s.instructions.Coherent) (i : ι) :
    (lowerTaken b s i).2.instructions.items <:+ s.instructions.items := by
  have looked := coherent_peekInstruction coherent
  have same := items_peekInstruction s.instructions
  unfold lowerTaken
  simp only
  split
  · exact same ▸ List.suffix_rfl
  · split
    · rw [items_consumeInstruction looked, same]
      exact afterInstruction_suffix _
    · exact same ▸ List.suffix_rfl

/-- A pull leaves items from the end of the list. -/
theorem items_next_suffix (coherent : s.instructions.Coherent) :
    (s.next b).2.instructions.items <:+ s.instructions.items := by
  have taken : s.instructions.next.2.items <:+ s.instructions.items := by
    rw [items_next coherent]
    exact List.tail_suffix _
  cases failed : s.failed with
  | true =>
      have step : s.next b = (none, s) := by simp [next, failed]
      exact step ▸ List.suffix_rfl
  | false =>
      cases all : s.instructions.items with
      | nil =>
          rw [next_of_items_nil failed all, ← all]
          exact taken
      | cons item rest =>
          rw [← all]
          cases item with
          | error fault =>
              rw [next_of_items_fault failed all]
              exact taken
          | ok i =>
              have lowered := (items_lowerTaken_suffix (b := b)
                (s := { s with instructions := s.instructions.next.2 })
                (InstructionStream.coherent_next _) i).trans taken
              rw [next_of_items_instruction failed all]
              split <;> · rename_i found; rw [found] at lowered; exact lowered

theorem after_succ (n : Nat) : s.after b (n + 1) = ((s.after b n).next b).2 := by
  induction n generalizing s with
  | zero => rfl
  | succ n ih =>
      rw [after, ih]
      rfl

theorem coherent_after (coherent : s.instructions.Coherent) (n : Nat) :
    (s.after b n).instructions.Coherent := by
  induction n with
  | zero => exact coherent
  | succ n ih =>
      rw [after_succ]
      exact coherent_next ih

theorem items_after_suffix (coherent : s.instructions.Coherent) (n : Nat) :
    (s.after b n).instructions.items <:+ s.instructions.items := by
  induction n with
  | zero => exact List.suffix_rfl
  | succ n ih =>
      rw [after_succ]
      exact (items_next_suffix (coherent_after coherent n)).trans ih

/-- A stream that has ended gives nothing any more. -/
theorem collect_of_ended (coherent : s.instructions.Coherent) (ended : (s.next b).1 = none) :
    ((s.next b).2.collect b).1 = [] := by
  cases failed : s.failed with
  | true =>
      have step : s.next b = (none, s) := by simp [next, failed]
      rw [step, collect_of_failed failed]
  | false =>
      cases all : s.instructions.items with
      | nil =>
          have left : s.instructions.next.2.items = [] := by rw [items_next coherent, all]; rfl
          have again := next_of_items_nil (b := b)
            (s := { s with instructions := s.instructions.next.2 }) failed left
          rw [next_of_items_nil failed all, collect_of_next_none (by rw [again])]
      | cons item rest =>
          cases item with
          | error fault =>
              rw [next_of_items_fault failed all] at ended
              cases ended
          | ok i =>
              rw [next_of_items_instruction failed all] at ended
              split at ended <;> cases ended

/-- The clusters of a run come one by one, and nothing comes behind them. -/
theorem next_after (coherent : s.instructions.Coherent) (n : Nat) :
    ((s.after b n).next b).1 = (s.collect b).1[n]? := by
  induction n generalizing s with
  | zero =>
      show (s.next b).1 = _
      cases found : (s.next b).1 with
      | none => rw [collect_of_next_none found]; rfl
      | some item => rw [collect_of_next_some found]; rfl
  | succ n ih =>
      show ((after b n (s.next b).2).next b).1 = _
      rw [ih (coherent_next coherent)]
      cases found : (s.next b).1 with
      | none =>
          rw [collect_of_next_none found, collect_of_ended coherent found]
          rfl
      | some item =>
          rw [collect_of_next_some found]
          rfl

/-- The cluster that a pull gives stands where the one before it ends. -/
theorem contiguous_pulls (b : Backend ι) {d : Decoder ι} (located : d.Located) (image : List UInt8)
    (base : Nat) (t : IntrinsicTable) (n : Nat) {k k' : Cluster}
    (first : ((after b n ⟨ofImage d image base, t, false⟩).next b).1 = some (.ok k))
    (second : ((after b (n + 1) ⟨ofImage d image base, t, false⟩).next b).1 = some (.ok k')) :
    k'.address = k.endAddress := by
  have coherent := coherent_ofImage d image base
  have listed : ∀ {m c}, ((after b m ⟨ofImage d image base, t, false⟩).next b).1 = some (.ok c) →
      (b.lowerAll t (d.decodeAll image base).1).1[m]? = some c := by
    intro m c pulled
    rw [next_after coherent, collect_ofImage, Backend.itemsOfRun, List.getElem?_append] at pulled
    split at pulled
    · simpa using pulled
    · have fault := List.mem_of_getElem? pulled
      simp at fault
  exact (b.tile_lowerAll located image base t).consecutive (listed first) (listed second)

/-- Pulling clusters from an image is decoding all of it and lowering the instructions then.  The run
is the clusters of the second pass and the first fault of the two passes, the second before the first;
it comes pull by pull, and nothing comes behind it.  The clusters are contiguous from the base on.
Each is made of an instruction and of those it absorbed, and together they are made of all instructions
up to the first that a lowering failed at. -/
theorem collect_eq_twoPass (b : Backend ι) {d : Decoder ι} (located : d.Located)
    (image : List UInt8) (base : Nat) :
    let s : ClusterStream ι := ⟨ofImage d image base, .empty, false⟩
    let decoded := d.decodeAll image base
    let lowered := b.lowerAll .empty decoded.1
    let run := Backend.itemsOfRun lowered.1 (Backend.firstFault lowered.2.1 decoded.2)
    s.collect b = (run, lowered.2.2) ∧
    (∀ n, ((s.after b n).next b).1 = run[n]?) ∧
    Cluster.Tile base lowered.1 ∧
    ∃ (groups : List (List ι)) (left : List ι), decoded.1 = groups.flatten ++ left ∧
      List.Forall₂ Cluster.MadeOf lowered.1 groups ∧ (lowered.2.1 = none ↔ left = []) := by
  intro s decoded lowered run
  have coherent : s.instructions.Coherent := coherent_ofImage d image base
  have collected : s.collect b = (run, lowered.2.2) := by
    rw [collect_eq_lowerItems b s coherent rfl]
    show b.lowerItems .empty (ofImage d image base).items = _
    rw [items_ofImage, Backend.lowerItems_eq_lowerAll]
  obtain ⟨groups, left, all, made, complete⟩ := b.exists_groups .empty decoded.1
  refine ⟨collected, fun n => ?_, ?_, groups, left, all, made, complete⟩
  · rw [next_after coherent, collected]
  · have adjacent : Adjacent base decoded.1 := Decoder.adjacent_decodeAll located image base
    rw [all, adjacent_append] at adjacent
    exact Cluster.tile_of_adjacent made adjacent.1

/-- A decoder of `rep` and of `movsb`, one byte each. -/
def copyDecoder : Decoder X86.Instruction where
  decode
    | 0xF3 :: _, address => .ok (some (.of address 1 .rep [] .word32))
    | 0xA4 :: _, address => .ok (some (.of address 1 (.string .movsb) [] .word32))
    | _, address => .error (.invalidEncoding address "reserved")

theorem located_copyDecoder : copyDecoder.Located := by
  intro bytes address i found
  unfold copyDecoder at found
  simp only at found
  split at found
  · cases found
    exact ⟨rfl, Nat.one_pos⟩
  · cases found
    exact ⟨rfl, Nat.one_pos⟩
  · cases found

/-- A prefix with the instruction it absorbs are one cluster of two bytes; the byte behind them is a
fault, and the end. -/
theorem collect_eq_twoPass_rep :
    copyDecoder.Located ∧ ∃ cluster t,
      ClusterStream.collect (X86.backend .protectedMode)
        ⟨ofImage copyDecoder [0xF3, 0xA4, 0xFF] 0x1000, .empty, false⟩ =
          ([.ok cluster, .error (.decode (.invalidEncoding 0x1002 "reserved"))], t) ∧
      cluster.address = 0x1000 ∧ cluster.length = 2 := by
  have decoded : copyDecoder.decodeAll [0xF3, 0xA4, 0xFF] 0x1000 =
      ([.of 0x1000 1 .rep [] .word32, .of 0x1001 1 (.string .movsb) [] .word32],
        some (.invalidEncoding 0x1002 "reserved")) := by
    simp [Decoder.decodeAll, copyDecoder, X86.Instruction.of, MachineInstruction.length]
  let rep : X86.Instruction := .of 0x1000 1 .rep [] .word32
  let movsb : X86.Instruction := .of 0x1001 1 (.string .movsb) [] .word32
  obtain ⟨l, t, lowered, absorbed⟩ : ∃ l t,
      (X86.backend .protectedMode).lowerWith rep [movsb].head? .empty = (.ok l, t) ∧
        l.absorbed = true := ⟨_, _, rfl, rfl⟩
  have second : (X86.backend .protectedMode).lowerAll .empty [rep, movsb] =
      ([Backend.clusterOf rep (some movsb) l], none, t) := by
    rw [Backend.lowerAll_of_lowered lowered]
    simp [absorbed, Backend.lowerAll]
  obtain ⟨collected, _⟩ := collect_eq_twoPass (X86.backend .protectedMode) located_copyDecoder
    [0xF3, 0xA4, 0xFF] 0x1000
  rw [decoded, second] at collected
  refine ⟨located_copyDecoder, _, _, collected, rfl, ?_⟩
  simp only [Backend.clusterOf, absorbed]
  rfl

end ClusterStream

end RegisterTransfer
