/-
# RegisterTransfer.Proofs.Format.Csv -- tables read back

`FileText text records` is the grammar of comma-separated records: fields stand bare or in quotes, with
the quotes inside doubled, records are lines, and the last line may lack its end.  `read` is a reader of
such texts, which looks at one character at a time; it gives every text of the grammar the records it was
written from (`read_of_fileText`), so no text stands for two tables.

* `fileText_join`: what the writer makes of some records is a text of those records.
* `read_table`: the table of some clusters reads back as its header and one record for each statement, and
  clusters with one table agree on everything that it shows.
-/
import RegisterTransfer.Format
import RegisterTransfer.Proofs.Numeral.Hexadecimal

namespace RegisterTransfer

set_option autoImplicit false

namespace Csv

/-! ## Grammar -/

/-- Characters with their quotes doubled. -/
inductive Doubled : List Char → List Char → Prop
  | nil : Doubled [] []
  | quote {text value : List Char} (rest : Doubled text value) :
      Doubled ('"' :: '"' :: text) ('"' :: value)
  | char {c : Char} {text value : List Char} (other : c ≠ '"') (rest : Doubled text value) :
      Doubled (c :: text) (c :: value)

/-- A character that a field without quotes may hold. -/
def IsPlain (c : Char) : Prop := c ≠ ',' ∧ c ≠ '"' ∧ c ≠ '\r' ∧ c ≠ '\n'

/-- The text of a field. -/
inductive FieldText : List Char → List Char → Prop
  | bare {value : List Char} (plain : ∀ c ∈ value, IsPlain c) : FieldText value value
  | quoted {text value : List Char} (doubled : Doubled text value) :
      FieldText ('"' :: (text ++ ['"'])) value

/-- The text of a record. -/
inductive RecordText : List Char → List String → Prop
  | last {text : List Char} {field : String} (one : FieldText text field.toList) :
      RecordText text [field]
  | more {text texts : List Char} {field : String} {fields : List String}
      (one : FieldText text field.toList) (rest : RecordText texts fields) :
      RecordText (text ++ ',' :: texts) (field :: fields)

inductive LineEnd : List Char → Prop
  | newline : LineEnd ['\n']
  | both : LineEnd ['\r', '\n']

/-- The text of some records. -/
inductive FileText : List Char → List (List String) → Prop
  | nil : FileText [] []
  | unended {text : List Char} {fields : List String} (one : RecordText text fields)
      (there : text ≠ []) : FileText text [fields]
  | line {text ends texts : List Char} {fields : List String} {records : List (List String)}
      (one : RecordText text fields) (ended : LineEnd ends) (rest : FileText texts records) :
      FileText (text ++ (ends ++ texts)) (fields :: records)

/-! ## Reading -/

/-- Where a reader stands in a record. -/
inductive Mode where
  /-- At the beginning of a field. -/
  | start
  /-- In a field without quotes. -/
  | bare
  /-- Inside quotes. -/
  | quoted
  /-- Behind a quote that ends a field or is the first of two. -/
  | quote
  /-- Behind a carriage return outside of quotes. -/
  | carriageReturn

/-- What was read so far. -/
structure Reading where
  mode : Mode := .start
  /-- The field that is being read. -/
  field : List Char := []
  /-- The fields before it in its record. -/
  fields : List String := []
  records : List (List String) := []

namespace Reading

def put (r : Reading) (mode : Mode) (c : Char) : Reading := { r with mode, field := r.field ++ [c] }

/-- The record with the field that is being read. -/
def record (r : Reading) : List String := r.fields ++ [String.ofList r.field]

def endField (r : Reading) : Reading := { fields := r.record, records := r.records }

def endRecord (r : Reading) : Reading := { records := r.records ++ [r.record] }

/-- Read a character, unless no text has it there. -/
def step (r : Reading) (c : Char) : Option Reading :=
  match c, r.mode with
  | '"', .start => some { r with mode := .quoted }
  | '"', .quoted => some { r with mode := .quote }
  | '"', .quote => some (r.put .quoted '"')
  | '"', .bare | '"', .carriageReturn => none
  | c, .quoted => some (r.put .quoted c)
  | '\n', _ => some r.endRecord
  | _, .carriageReturn => none
  | ',', _ => some r.endField
  | '\r', _ => some { r with mode := .carriageReturn }
  | _, .quote => none
  | c, _ => some (r.put .bare c)

/-- The records when no character is left. -/
def finish (r : Reading) : Option (List (List String)) :=
  match r.mode, r.fields with
  | .quoted, _ | .carriageReturn, _ => none
  | .start, [] => some r.records
  | _, _ => some r.endRecord.records

end Reading

/-- The records of a text. -/
def read (text : String) : Option (List (List String)) :=
  (text.toList.foldlM Reading.step {}).bind Reading.finish

/-- Whether a field may end in a mode. -/
def Mode.Ends : Mode → Prop
  | start | bare | quote => True
  | quoted | carriageReturn => False

section Reading

variable {mode : Mode} {text front value : List Char} {fields : List String}
variable {records : List (List String)}

/-! ### Fields -/

theorem step_plain {c : Char} (plain : IsPlain c) (outside : mode = .start ∨ mode = .bare) :
    Reading.step ⟨mode, front, fields, records⟩ c = some ⟨.bare, front ++ [c], fields, records⟩ := by
  obtain ⟨comma, quote, carriageReturn, newline⟩ := plain
  unfold Reading.step
  rcases outside with rfl | rfl <;> split <;> simp_all [Reading.put]

theorem step_quoted {c : Char} (other : c ≠ '"') :
    Reading.step ⟨.quoted, front, fields, records⟩ c =
      some ⟨.quoted, front ++ [c], fields, records⟩ := by
  unfold Reading.step
  split <;> simp_all [Reading.put]

/-- Bare characters are added to the field. -/
theorem foldlM_plain (outside : mode = .start ∨ mode = .bare) (plain : ∀ c ∈ value, IsPlain c) :
    value.foldlM Reading.step ⟨mode, front, fields, records⟩ =
      some ⟨if value = [] then mode else .bare, front ++ value, fields, records⟩ := by
  induction value generalizing mode front with
  | nil => simp
  | cons c rest ih =>
      rw [List.foldlM_cons, step_plain (plain c List.mem_cons_self) outside, Option.bind_eq_bind,
        Option.bind_some, ih (.inr rfl) fun c later => plain c (List.mem_cons_of_mem _ later)]
      simp

/-- Characters in quotes are added to the field without what doubles their quotes. -/
theorem foldlM_doubled (doubled : Doubled text value) :
    text.foldlM Reading.step ⟨.quoted, front, fields, records⟩ =
      some ⟨.quoted, front ++ value, fields, records⟩ := by
  induction doubled generalizing front with
  | nil => simp
  | quote _ ih =>
      show List.foldlM Reading.step ⟨.quoted, front ++ ['"'], fields, records⟩ _ = _
      rw [ih, List.append_assoc]
      rfl
  | char other _ ih =>
      rw [List.foldlM_cons, step_quoted other, Option.bind_eq_bind, Option.bind_some, ih,
        List.append_assoc]
      rfl

/-- The text of a field is read up to a place where the field may end. -/
theorem foldlM_field (fields : List String) (records : List (List String)) (one : FieldText text value) :
    ∃ mode : Mode, mode.Ends ∧ (mode = .start → text = []) ∧
      text.foldlM Reading.step { fields, records } = some ⟨mode, value, fields, records⟩ := by
  cases one with
  | bare plain =>
      refine ⟨_, ?_, ?_, foldlM_plain (.inl rfl) plain⟩
      · split <;> exact trivial
      · split <;> simp_all
  | quoted doubled =>
      refine ⟨.quote, trivial, nofun, ?_⟩
      rw [List.foldlM_cons]
      show List.foldlM Reading.step ⟨.quoted, [], fields, records⟩ _ = _
      rw [List.foldlM_append, foldlM_doubled doubled]
      rfl

/-! ### Records -/

theorem step_comma (ends : mode.Ends) :
    Reading.step ⟨mode, value, fields, records⟩ ',' =
      some { fields := fields ++ [String.ofList value], records } := by
  cases mode with
  | start | bare | quote => rfl
  | quoted | carriageReturn => cases ends

theorem foldlM_lineEnd {line : List Char} (ends : mode.Ends) (ended : LineEnd line) :
    line.foldlM Reading.step ⟨mode, value, fields, records⟩ =
      some { records := records ++ [fields ++ [String.ofList value]] } := by
  cases mode with
  | start | bare | quote => cases ended <;> rfl
  | quoted | carriageReturn => cases ends

/-- The text of a record is read up to a place where its last field may end. -/
theorem foldlM_record (fields : List String) (records : List (List String)) {more : List String}
    (one : RecordText text more) :
    ∃ mode value initial, more = initial ++ [String.ofList value] ∧ mode.Ends ∧
      (mode = .start → text = [] ∨ initial ≠ []) ∧
        text.foldlM Reading.step { fields, records } =
          some ⟨mode, value, fields ++ initial, records⟩ := by
  induction one generalizing fields with
  | @last text field one =>
      obtain ⟨mode, ends, start, read⟩ := foldlM_field fields records one
      refine ⟨mode, field.toList, [], ?_, ends, fun begins => .inl (start begins), ?_⟩
      · rw [String.ofList_toList, List.nil_append]
      · rw [read, List.append_nil]
  | @more text texts field later one _ ih =>
      obtain ⟨mode, ends, -, read⟩ := foldlM_field fields records one
      obtain ⟨mode', value, initial, rfl, ends', -, read'⟩ := ih (fields ++ [field])
      refine ⟨mode', value, field :: initial, rfl, ends', fun _ => .inr nofun, ?_⟩
      rw [List.foldlM_append, read, Option.bind_eq_bind, Option.bind_some, List.foldlM_cons,
        step_comma ends, String.ofList_toList, Option.bind_eq_bind, Option.bind_some, read',
        List.append_assoc]
      rfl

/-! ### Files -/

theorem finish_of_ends (ends : mode.Ends) (there : mode = .start → fields ≠ []) :
    Reading.finish ⟨mode, value, fields, records⟩ =
      some (records ++ [fields ++ [String.ofList value]]) := by
  cases mode with
  | bare | quote => rfl
  | quoted | carriageReturn => cases ends
  | start =>
      cases fields with
      | nil => exact absurd rfl (there rfl)
      | cons field later => rfl

theorem finish_fileText {more : List (List String)} (file : FileText text more) :
    (text.foldlM Reading.step { records }).bind Reading.finish = some (records ++ more) := by
  induction file generalizing records with
  | nil =>
      rw [List.append_nil]
      rfl
  | @unended text fields one there =>
      obtain ⟨mode, value, initial, rfl, ends, start, read⟩ := foldlM_record [] records one
      rw [read, Option.bind_some]
      exact finish_of_ends ends fun begins => (start begins).resolve_left there
  | @line text line texts fields later one ended _ ih =>
      obtain ⟨mode, value, initial, rfl, ends, -, read⟩ := foldlM_record [] records one
      rw [List.foldlM_append, read, Option.bind_eq_bind, Option.bind_some, List.foldlM_append,
        foldlM_lineEnd ends ended, Option.bind_eq_bind, Option.bind_some, ih, List.append_assoc]
      rfl

end Reading

/-- Every text of some records reads as those records. -/
theorem read_of_fileText {text : String} {records : List (List String)}
    (file : FileText text.toList records) : read text = some records :=
  finish_fileText file

/-! ## Writing -/

theorem doubled_double (value : List Char) : Doubled (double value) value := by
  induction value with
  | nil => exact .nil
  | cons c rest ih =>
      unfold double at ih ⊢
      rw [List.flatMap_cons]
      by_cases quote : c = '"'
      · subst quote
        exact .quote ih
      · rw [if_neg quote]
        exact .char quote ih

theorem isPlain_of_not_isSpecial {c : Char} (plain : isSpecial c = false) : IsPlain c := by
  simpa [isSpecial, IsPlain, and_assoc] using plain

theorem fieldText_field (s : String) : FieldText (field s).toList s.toList := by
  unfold field
  split
  · rw [String.toList_ofList]
    exact .quoted (doubled_double _)
  · rename_i plain
    refine .bare fun c inside => isPlain_of_not_isSpecial ?_
    simp only [List.any_eq_true, not_exists, not_and, Bool.not_eq_true] at plain
    exact plain c inside

theorem recordText_intercalate :
    ∀ fields : List String, fields ≠ [] →
      RecordText (",".intercalate (fields.map field)).toList fields
  | [], there => absurd rfl there
  | [s], _ => by
      simpa using RecordText.last (fieldText_field s)
  | s :: next :: later, _ => by
      have rest := recordText_intercalate (next :: later) nofun
      have more := RecordText.more (fieldText_field s) rest
      simpa [String.toList_intercalate, List.intercalate] using more

/-- What is written of records that have fields is a text of those records. -/
theorem fileText_join (records : List (List String)) (there : ∀ fields ∈ records, fields ≠ []) :
    FileText (String.join (records.map record)).toList records := by
  induction records with
  | nil => exact .nil
  | cons fields later ih =>
      have one := recordText_intercalate fields (there fields List.mem_cons_self)
      have rest := ih fun fields inside => there fields (List.mem_cons_of_mem _ inside)
      simpa [String.toList_join, record] using FileText.line one .newline rest

end Csv

namespace Numeral

theorem decimal_inj {n n' : Nat} (same : decimal n = decimal n') : n = n' := by
  have digits : Nat.toDigits 10 n = Nat.toDigits 10 n' := String.ofList_injective same
  rw [← Nat.ofDigitChars_ten_toDigits (n := n), digits, Nat.ofDigitChars_ten_toDigits]

theorem lower0x_inj {n n' : Nat} (same : lower0x n = lower0x n') : n = n' := by
  have digits : Nat.toDigits 16 n = Nat.toDigits 16 n' :=
    String.ofList_injective ((String.append_right_inj _).mp same)
  apply Option.some.inj
  rw [← accumulate?_toDigits n, digits, accumulate?_toDigits]

end Numeral

theorem Flow.name_inj {f f' : Flow} (same : f.name = f'.name) : f = f' := by
  apply Option.some.inj
  rw [← ofName?_name, same, ofName?_name]

namespace Format

/-! ## Tables of clusters -/

/-- What a table shows of one statement. -/
structure Row where
  base : Nat
  address : Nat
  length : Nat
  flow : Flow
  /-- Number of the statement in its cluster. -/
  index : Nat
  text : String

/-- The fields of a row. -/
def Row.fields (r : Row) : List String :=
  [Numeral.lower0x r.base, Numeral.lower0x r.address, Numeral.decimal r.length, r.flow.name,
    Numeral.decimal r.index, r.text]

theorem Row.fields_inj {r r' : Row} (same : r.fields = r'.fields) : r = r' := by
  obtain ⟨base, address, length, flow, index, text⟩ := r
  obtain ⟨base', address', length', flow', index', text'⟩ := r'
  simp only [fields, List.cons.injEq, and_true] at same
  obtain ⟨sameBase, sameAddress, sameLength, sameFlow, sameIndex, rfl⟩ := same
  obtain rfl := Numeral.lower0x_inj sameBase
  obtain rfl := Numeral.lower0x_inj sameAddress
  obtain rfl := Numeral.decimal_inj sameLength
  obtain rfl := Flow.name_inj sameFlow
  obtain rfl := Numeral.decimal_inj sameIndex
  rfl

/-- A row for each statement of each cluster, in order. -/
def rows (base : Nat) (clusters : List Cluster) : List Row :=
  clusters.flatMap fun c =>
    c.statements.zipIdx.map fun (s, index) => ⟨base, c.address, c.length, c.flow, index, s.text⟩

theorem csvRows_eq (base : Nat) (clusters : List Cluster) :
    clusters.flatMap (csvRows base) = (rows base clusters).map Row.fields := by
  rw [rows, List.map_flatMap]
  refine congrArg (clusters.flatMap ·) (funext fun c => ?_)
  rw [csvRows, Cluster.rendered, List.zipIdx_map, List.map_map, List.map_map]
  rfl

/-- The table of some clusters is a text of its header and one record for each statement, in order; so it
reads as those records, and clusters with one table have the same rows. -/
theorem read_table (base : Nat) (clusters : List Cluster) :
    Csv.FileText (render .csv base clusters).toList
        (csvHeader :: (rows base clusters).map Row.fields) ∧
      Csv.read (render .csv base clusters) =
        some (csvHeader :: (rows base clusters).map Row.fields) ∧
      ∀ (base' : Nat) (clusters' : List Cluster),
        render .csv base' clusters' = render .csv base clusters →
          rows base' clusters' = rows base clusters := by
  have file : ∀ base clusters, Csv.FileText (render .csv base clusters).toList
      (csvHeader :: (rows base clusters).map Row.fields) := by
    intro base clusters
    rw [render, csvRows_eq]
    refine Csv.fileText_join _ fun fields listed => ?_
    rcases List.mem_cons.mp listed with rfl | listed
    · nofun
    · obtain ⟨r, -, rfl⟩ := List.mem_map.mp listed
      nofun
  have read := fun base clusters => Csv.read_of_fileText (file base clusters)
  refine ⟨file base clusters, read base clusters, fun base' clusters' same => ?_⟩
  have records := read base' clusters'
  rw [same, read base clusters, Option.some.injEq, List.cons.injEq] at records
  exact ((List.map_inj_right fun _ _ => Row.fields_inj).mp records.2).symm

/-- A cluster that names a register with a comma, a quote and a line break in its name. -/
def awkward : Cluster :=
  ⟨0x100, 2, .linear, [.effect (.identifier (.register "a,\"b\n" .byte 0x20))]⟩

/-- Its table reads back as the name was, and an empty cluster behind it adds nothing to the table. -/
theorem read_table_awkward :
    Csv.read (render .csv 0x100 [awkward]) =
        some [csvHeader, ["0x100", "0x100", "2", "linear", "0", "a,\"b\n"]] ∧
      rows 0x100 [awkward, ⟨0x102, 2, .linear, []⟩] = rows 0x100 [awkward] :=
  ⟨(read_table 0x100 [awkward]).2.1.trans (by decide), (read_table 0x100 [awkward]).2.2 0x100 _ rfl⟩

end Format

end RegisterTransfer
