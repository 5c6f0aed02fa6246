/-
# RegisterTransfer.Sweep -- walking over code

A linear sweep lowers an image from its first byte to its last.  A procedure trace starts at an
entry point and ends with the first cluster after which execution cannot fall through.  Several
traces share one table of intrinsics.  The first fault ends a sweep and is its answer.
-/
import RegisterTransfer.Stream.Clusters

namespace RegisterTransfer

set_option autoImplicit false

namespace ClusterStream

variable {ι : Type} [MachineInstruction ι]

/-- The clusters up to and including the first one that `stop` accepts, or up to the first fault,
and the table of intrinsics after them. -/
def collectUntil (b : Backend ι) (stop : Cluster → Bool) (s : ClusterStream ι) :
    Except Fault (List Cluster) × IntrinsicTable :=
  match _h : (s.next b).1 with
  | none => (.ok [], (s.next b).2.table)
  | some (.error fault) => (.error fault, (s.next b).2.table)
  | some (.ok cluster) =>
      if stop cluster then (.ok [cluster], (s.next b).2.table)
      else
        match (s.next b).2.collectUntil b stop with
        | (.ok rest, table) => (.ok (cluster :: rest), table)
        | (.error fault, table) => (.error fault, table)
termination_by s.budget
decreasing_by exact budget_next_lt _h

end ClusterStream

namespace Sweep

variable {ι : Type} [MachineInstruction ι]

/-- Every cluster of an image. -/
def linear (decoder : Decoder ι) (b : Backend ι) (t : IntrinsicTable) (image : List UInt8)
    (base : Nat) : Except Fault (List Cluster) × IntrinsicTable :=
  ClusterStream.collectUntil b (fun _ => false) ⟨.ofImage decoder image base, t, false⟩

/-- The clusters from one entry point. -/
structure Trace where
  entry : Nat
  clusters : List Cluster

/-- The clusters from an entry point to the first that ends a trace. -/
def trace (decoder : Decoder ι) (b : Backend ι) (t : IntrinsicTable) (image : List UInt8)
    (base entry : Nat) : Except Fault Trace × IntrinsicTable :=
  match ClusterStream.collectUntil b (fun c => c.flow.endsTrace)
      ⟨.startingAt decoder image base entry, t, false⟩ with
  | (.ok clusters, t') => (.ok ⟨entry, clusters⟩, t')
  | (.error fault, t') => (.error fault, t')

/-- A trace for each entry point, in their order. -/
def procedures (decoder : Decoder ι) (b : Backend ι) (t : IntrinsicTable) (image : List UInt8)
    (base : Nat) : List Nat → Except Fault (List Trace) × IntrinsicTable
  | [] => (.ok [], t)
  | entry :: rest =>
      match trace decoder b t image base entry with
      | (.error fault, t') => (.error fault, t')
      | (.ok found, t') =>
          match procedures decoder b t' image base rest with
          | (.error fault, t'') => (.error fault, t'')
          | (.ok traces, t'') => (.ok (found :: traces), t'')

/-- The ways to walk over code. -/
inductive Kind where
  | linear
  | procedures
deriving DecidableEq

namespace Kind

/-- The ways, each with the name it is asked for by. -/
def options : List (String × Kind) := [("linear", linear), ("procedures", procedures)]

def description : Kind → String
  | linear => "Linear sweep"
  | procedures => "Procedure traces"

end Kind

end Sweep

end RegisterTransfer
