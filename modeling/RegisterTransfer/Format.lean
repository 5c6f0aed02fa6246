/-
# RegisterTransfer.Format -- the forms in which clusters are written

Clusters are written as plain text, as one JSON document, as one JSON line per cluster, or as a
table with a row per statement.  Addresses stand as `0x` and lower-case digits, except in plain
text.  The JSON document lists members in reading order; the members of JSON lines are sorted.

A row of a table is a line of fields with commas between them.  A field that holds a comma, a quote or
a line break stands in quotes, with its own quotes doubled; any other field stands as it is.
-/
import RegisterTransfer.Fault
import RegisterTransfer.Json
import RegisterTransfer.Statement

namespace RegisterTransfer

set_option autoImplicit false

/-! ## Comma-separated records -/

namespace Csv

/-- Whether a character forces quotes around its field. -/
def isSpecial (c : Char) : Bool := c = ',' || c = '"' || c = '\r' || c = '\n'

/-- The characters of a field with quotes doubled. -/
def double (cs : List Char) : List Char :=
  cs.flatMap fun c => if c = '"' then ['"', '"'] else [c]

/-- A field as it stands in a record. -/
def field (s : String) : String :=
  if s.toList.any isSpecial then String.ofList ('"' :: (double s.toList ++ ['"'])) else s

/-- A record with its line end. -/
def record (fields : List String) : String :=
  ",".intercalate (fields.map field) ++ "\n"

end Csv

/-! ## Forms of output -/

/-- A form of output. -/
inductive Format where
  | text
  | json
  | jsonLines
  | csv
deriving DecidableEq

namespace Format

/-- The forms, each with the name it is asked for by on the command line. -/
def options : List (String × Format) :=
  [("text", text), ("json", json), ("json-lines", jsonLines), ("csv", csv)]

/-- The short name of a form. -/
def name : Format → String
  | text => "text"
  | json => "json"
  | jsonLines => "jsonl"
  | csv => "csv"

/-- The form of a short name, in either case. -/
def ofName (s : String) : Except Fault Format :=
  match s.toLower with
  | "text" => .ok text
  | "json" => .ok json
  | "jsonl" | "jsonlines" => .ok jsonLines
  | "csv" => .ok csv
  | _ => .error (.unknownFormat s)

/-- The class of a cluster in JSON output. -/
def flowName : Flow → String
  | .conditional => "conditional_transfer"
  | f => f.name

/-! ## Plain text -/

def plainText (base : Nat) (clusters : List Cluster) : String :=
  "Rewritten at " ++ Numeral.lower0x base ++ ":\n\n" ++ String.join (clusters.map (·.text))

/-! ## JSON -/

/-- A cluster with its members in reading order. -/
def clusterJson (c : Cluster) : Json :=
  .object
    [("address", .text (Numeral.lower0x c.address)),
      ("length", .integer c.length),
      ("class", .text (flowName c.flow)),
      ("instructions", .list (c.rendered.map .text))]

/-- A cluster with its members sorted. -/
def clusterJsonSorted (c : Cluster) : Json :=
  .object
    [("address", .text (Numeral.lower0x c.address)),
      ("class", .text (flowName c.flow)),
      ("instructions", .list (c.rendered.map .text)),
      ("length", .integer c.length)]

def documentJson (base : Nat) (clusters : List Cluster) : Json :=
  .object
    [("base_address", .text (Numeral.lower0x base)),
      ("clusters", .list (clusters.map clusterJson))]

def lineJson (base : Nat) (c : Cluster) : Json :=
  .object [("base_address", .text (Numeral.lower0x base)), ("cluster", clusterJsonSorted c)]

/-! ## Tables -/

def csvHeader : List String := ["base_address", "address", "length", "class", "index", "rtl"]

/-- The rows of a cluster, one for each statement. -/
def csvRows (base : Nat) (c : Cluster) : List (List String) :=
  c.rendered.zipIdx.map fun (statement, index) =>
    [Numeral.lower0x base, Numeral.lower0x c.address, Numeral.decimal c.length, c.flow.name,
      Numeral.decimal index, statement]

/-! ## All forms -/

/-- Clusters of an image at `base` in a form. -/
def render : Format → Nat → List Cluster → String
  | text, base, clusters => plainText base clusters
  | json, base, clusters => (documentJson base clusters).pretty 0
  | jsonLines, base, clusters =>
      String.join (clusters.map fun c => (lineJson base c).compact ++ "\n")
  | csv, base, clusters =>
      String.join ((csvHeader :: clusters.flatMap (csvRows base)).map Csv.record)

end Format

end RegisterTransfer
