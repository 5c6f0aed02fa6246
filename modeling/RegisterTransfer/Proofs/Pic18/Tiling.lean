/-
# RegisterTransfer.Proofs.Pic18.Tiling -- clusters tile the image

Every PIC18 image decodes to instructions that follow on each other without a gap, and then either to
nothing, if no byte is left over, or to one truncation (`tiled_ofImage`).  No instruction makes the
lowering fail, so there is one cluster for each (`lowerItems_of_tiled`).  Together:

* `collect_tiles`: the clusters of a run over an image, the one fault that may follow them and where it
  stands.
-/
import RegisterTransfer.Proofs.Pic18.Totality
import RegisterTransfer.Proofs.Stream.Eager

namespace RegisterTransfer

set_option autoImplicit false

namespace Pic18

open InstructionStream

/-! ## Decoding tiles the image -/

/-- `Tiled address size instructions faults` says how `size` bytes at an address are decoded: as
instructions that fit their signatures, one right after the other, and as at most one fault. -/
inductive Tiled : Nat → Nat → List Instruction → List DecodeFault → Prop
  | ended {address : Nat} : Tiled address 0 [] []
  | truncated {address size needed : Nat} (more : 0 < size) (missing : size < needed) :
      Tiled address size [] [.truncated address needed size]
  | instruction {size : Nat} {i : Instruction} {rest : List Instruction}
      {faults : List DecodeFault} (fits : i.Fits) (inside : i.length ≤ size)
      (after : Tiled i.nextAddress (size - i.length) rest faults) :
      Tiled i.address size (i :: rest) faults

theorem tiled_ofImage (family : Family) (mode : Mode) (bytes : List UInt8) (address : Nat) :
    ∃ decoded faults,
      (ofImage (decoder family mode) bytes address).items =
        decoded.map .ok ++ faults.map .error ∧
      Tiled address bytes.length decoded faults := by
  by_cases more : bytes = []
  · subst more
    exact ⟨[], [], items_ofImage_nil, .ended⟩
  · rcases decode_cases family mode bytes address more with
      ⟨i, found, rfl, fits, positive, inside⟩ | ⟨needed, found, missing⟩
    · -- The bytes after the instruction are fewer, so they tile.
      have shorter : (bytes.drop i.length).length < bytes.length := by
        rw [List.length_drop]
        omega
      obtain ⟨decoded, faults, items, tiled⟩ :=
        tiled_ofImage family mode (bytes.drop i.length) i.nextAddress
      refine ⟨i :: decoded, faults, ?_, .instruction fits inside ?_⟩
      · rw [items_ofImage_instruction more found (Nat.ne_of_gt positive)]
        exact congrArg (List.cons (.ok i)) items
      · rw [List.length_drop] at tiled
        exact tiled
    · refine ⟨[], [_], items_ofImage_fault more found, .truncated ?_ missing⟩
      exact List.length_pos_iff.mpr more
termination_by bytes.length

/-! ## Lowering keeps the tiling -/

/-- One cluster is written for each instruction, at its address and of its length. -/
def Pairs (decoded : List Instruction) (clusters : List Cluster) : Prop :=
  clusters.map (·.address) = decoded.map (·.address) ∧
    clusters.map (·.length) = decoded.map (·.length)

theorem lowerItems_of_tiled (c : Catalog) {address size : Nat} {decoded : List Instruction}
    {faults : List DecodeFault} (tiled : Tiled address size decoded faults)
    {t : IntrinsicTable} (regular : t.Regular) :
    ∃ clusters, ((backend c).lowerItems t (decoded.map .ok ++ faults.map .error)).1 =
        clusters.map .ok ++ faults.map (fun fault => .error (.decode fault)) ∧
      Pairs decoded clusters := by
  induction tiled generalizing t with
  | ended => exact ⟨[], by simp [Backend.lowerItems], rfl, rfl⟩
  | truncated _ _ => exact ⟨[], by simp [Backend.lowerItems], rfl, rfl⟩
  | @instruction size i rest faults fits inside after ih =>
      let items : List (StreamItem Instruction) := rest.map .ok ++ faults.map .error
      obtain ⟨lowered, t', written, kept, regular'⟩ :=
        lowerWith_of_fits c (instruction? items.head?) fits regular
      obtain ⟨clusters, run, addresses, lengths⟩ := ih regular'
      refine ⟨Backend.clusterOf i (instruction? items.head?) lowered :: clusters, ?_, ?_, ?_⟩
      · show ((backend c).lowerItems t (.ok i :: items)).1 = _
        rw [Backend.lowerItems, written]
        simp only [kept, Bool.false_eq_true, ↓reduceIte, List.map_cons, List.cons_append]
        rw [run]
      · exact congrArg (List.cons i.address) addresses
      · have alone : (Backend.clusterOf i (instruction? items.head?) lowered).length = i.length := by
          simp only [Backend.clusterOf, kept]
          rfl
        rw [List.map_cons, List.map_cons, alone, lengths]

theorem Tiled.tile_of_pairs {address size : Nat} {decoded : List Instruction}
    {faults : List DecodeFault} (tiled : Tiled address size decoded faults)
    {clusters : List Cluster} (pairs : Pairs decoded clusters) :
    Cluster.Tile address clusters ∧ Cluster.covered clusters ≤ size ∧
      ((faults = [] ∧ Cluster.covered clusters = size) ∨
        ∃ needed, size - Cluster.covered clusters < needed ∧ Cluster.covered clusters < size ∧
          faults = [.truncated (address + Cluster.covered clusters) needed
            (size - Cluster.covered clusters)]) := by
  induction tiled generalizing clusters with
  | ended =>
      obtain rfl : clusters = [] := List.map_eq_nil_iff.mp pairs.1
      exact ⟨trivial, Nat.le_refl _, .inl ⟨rfl, rfl⟩⟩
  | truncated more missing =>
      obtain rfl : clusters = [] := List.map_eq_nil_iff.mp pairs.1
      exact ⟨trivial, Nat.zero_le _, .inr ⟨_, missing, more, rfl⟩⟩
  | @instruction size i rest faults fits inside after ih =>
      obtain ⟨addresses, lengths⟩ := pairs
      cases clusters with
      | nil => cases addresses
      | cons c clusters =>
          rw [List.map_cons, List.map_cons, List.cons.injEq] at addresses lengths
          obtain ⟨tile, within, ending⟩ := ih ⟨addresses.2, lengths.2⟩
          have total : Cluster.covered (c :: clusters) = i.length + Cluster.covered clusters := by
            rw [← lengths.1]
            simp [Cluster.covered]
          refine ⟨⟨addresses.1, ?_⟩, by omega, ?_⟩
          · rw [Cluster.endAddress, addresses.1, lengths.1]
            exact tile
          · rcases ending with ⟨rfl, all⟩ | ⟨needed, missing, left, rfl⟩
            · exact .inl ⟨rfl, by omega⟩
            · refine .inr ⟨needed, by omega, by omega, ?_⟩
              rw [total, Instruction.nextAddress, Nat.add_assoc, Nat.sub_sub]

/-! ## Runs over an image -/

/-- A run over an image gives one cluster for each decoded instruction.  The clusters tile the bytes
from the base on.  The run ends after them exactly if they cover the image; otherwise one fault
follows, and it is a truncation at the first byte that they do not cover. -/
theorem collect_tiles (c : Catalog) (family : Family) (mode : Mode) (image : List UInt8)
    (base : Nat) :
    let instructions := ofImage (decoder family mode) image base
    let run := (ClusterStream.collect (backend c) ⟨instructions, .empty, false⟩).1
    ∃ decoded faults clusters,
      instructions.items = decoded.map .ok ++ faults.map .error ∧
      run = clusters.map .ok ++ faults.map (fun fault => .error (.decode fault)) ∧
      Pairs decoded clusters ∧
      Cluster.Tile base clusters ∧
      Cluster.covered clusters ≤ image.length ∧
      ((faults = [] ∧ Cluster.covered clusters = image.length) ∨
        ∃ needed, image.length - Cluster.covered clusters < needed ∧
          Cluster.covered clusters < image.length ∧
          faults = [.truncated (base + Cluster.covered clusters) needed
            (image.length - Cluster.covered clusters)]) := by
  intro instructions run
  obtain ⟨decoded, faults, items, tiled⟩ := tiled_ofImage family mode image base
  obtain ⟨clusters, lowered, pairs⟩ := lowerItems_of_tiled c tiled IntrinsicTable.regular_empty
  refine ⟨decoded, faults, clusters, items, ?_, pairs, tiled.tile_of_pairs pairs⟩
  have eager : run = ((backend c).lowerItems .empty instructions.items).1 := by
    rw [← ClusterStream.collect_eq_lowerItems (backend c) ⟨instructions, .empty, false⟩
      (coherent_ofImage _ _ _) rfl]
  rw [eager, items, lowered]

end Pic18

end RegisterTransfer
