/-
# RegisterTransfer.Proofs.Pic18.Description -- a catalog is its description

Loading a description goes through its registers once, stops at the first problem, and keeps what it
needs to answer questions.  Here the checks are said without an order: `Device.Consistent` is what a
description has to be, and `Device.Has` lists the problems that one can have, each with what it
names.  `Catalog.Describes` says what a catalog answers in terms of the lists of its description.

* `blames_check`: a problem that is reported is one of the description;
* `consistent_of_checked`: a description that passes is consistent;
* `describes_of_checked`: its catalog answers as the description lists things;
* `load_exact`: the three together, for every description.
-/
import RegisterTransfer.Pic18.Devices
import RegisterTransfer.Proofs.Pic18.Accepted

namespace RegisterTransfer.Pic18

set_option autoImplicit false

/-! ## Descriptions -/

/-- A description that contradicts itself nowhere. -/
structure Device.Consistent (d : Device) : Prop where
  split : d.accessSplit ≤ 0xFFFF
  window : d.sfrWindow ≤ 0xFFFF
  inside : ∀ r ∈ d.registers, r.address < 2 ^ min d.dataAddressBits 16
  fields : ∀ r ∈ d.registers, ∀ f ∈ r.fields, f.width ≠ 0 ∧ f.bit + f.width ≤ r.width
  distinct : d.registers.Pairwise fun r r' => r.name ≠ r'.name
  core : ∀ name ∈ coreNames, ∃ r ∈ d.registers, r.name = name
  forbidden : ∀ name ∈ d.forbidden, ∃ r ∈ d.registers, r.name = name
  config : ∀ w ∈ d.configWords, ∀ f ∈ w.fields, f.width ≠ 0 ∧ f.bit + f.width ≤ 8

/-- The problems of a description, each with what it names. -/
inductive Device.Has (d : Device) : DeviceProblem → Prop
  | split (large : 0xFFFF < d.accessSplit) : d.Has (.outOfRange "access_split" d.accessSplit)
  | window (large : 0xFFFF < d.sfrWindow) : d.Has (.outOfRange "sfr_window" d.sfrWindow)
  | outside {r : Register} (listed : r ∈ d.registers)
      (far : 2 ^ min d.dataAddressBits 16 ≤ r.address) :
      d.Has (.registerOutsideMemory r.name r.address)
  | misfit {r : Register} {f : BitField} (listed : r ∈ d.registers) (part : f ∈ r.fields)
      (misfits : ¬ (f.width ≠ 0 ∧ f.bit + f.width ≤ r.width)) :
      d.Has (.fieldMisfit r.name f.name r.width)
  | duplicate {before after : List Register} {r : Register}
      (listed : d.registers = before ++ r :: after) (again : ∃ q ∈ before, q.name = r.name) :
      d.Has (.duplicateRegister r.name)
  | missing {name : String} (needed : name ∈ coreNames)
      (absent : ∀ r ∈ d.registers, r.name ≠ name) : d.Has (.missingCoreRegister name)
  | unknown {name : String} (listed : name ∈ d.forbidden)
      (absent : ∀ r ∈ d.registers, r.name ≠ name) : d.Has (.unknownForbidden name)
  | configMisfit {w : ConfigWord} {f : ConfigField} (listed : w ∈ d.configWords)
      (part : f ∈ w.fields) (misfits : ¬ (f.width ≠ 0 ∧ f.bit + f.width ≤ 8)) :
      d.Has (.configFieldMisfit w.name f.name)

theorem Device.Consistent.not_has {d : Device} (consistent : d.Consistent) (p : DeviceProblem) :
    ¬ d.Has p := by
  intro has
  cases has with
  | split large => exact absurd consistent.split (Nat.not_le.mpr large)
  | window large => exact absurd consistent.window (Nat.not_le.mpr large)
  | outside listed far => exact absurd (consistent.inside _ listed) (Nat.not_lt.mpr far)
  | misfit listed part misfits => exact misfits (consistent.fields _ listed _ part)
  | duplicate listed again =>
      obtain ⟨q, earlier, same⟩ := again
      have distinct := consistent.distinct
      rw [listed, List.pairwise_append] at distinct
      exact distinct.2.2 q earlier _ List.mem_cons_self same
  | missing needed absent =>
      obtain ⟨r, listed, named⟩ := consistent.core _ needed
      exact absent r listed named
  | unknown forbidden absent =>
      obtain ⟨r, listed, named⟩ := consistent.forbidden _ forbidden
      exact absent r listed named
  | configMisfit listed part misfits => exact misfits (consistent.config _ listed _ part)

/-- An element is the first of a list with a property. -/
def FirstWith {α : Type} (p : α → Prop) (xs : List α) (x : α) : Prop :=
  ∃ before after, xs = before ++ x :: after ∧ p x ∧ ∀ y ∈ before, ¬ p y

theorem find?_eq_some_iff_firstWith {α : Type} {test : α → Bool} {p : α → Prop}
    (tests : ∀ y, test y = true ↔ p y) {xs : List α} {x : α} :
    xs.find? test = some x ↔ FirstWith p xs x := by
  rw [List.find?_eq_some_iff_append, tests]
  constructor
  · rintro ⟨holds, before, after, listed, none_⟩
    exact ⟨before, after, listed, holds, fun y earlier => by simpa [← tests] using none_ y earlier⟩
  · rintro ⟨before, after, listed, holds, none_⟩
    exact ⟨holds, before, after, listed, fun y earlier => by simpa [← tests] using none_ y earlier⟩

/-- The fields of a description in the order in which they are listed, each with its register. -/
def Device.listing (d : Device) : List (Register × BitField) :=
  d.registers.flatMap fun r => r.fields.map fun f => (r, f)

/-- A catalog answers as a description lists things. -/
structure Catalog.Describes (c : Catalog) (d : Device) : Prop where
  /-- Of registers with one address and width, the first one listed counts. -/
  lookup : ∀ address width r, c.lookup? address width = some r ↔
    FirstWith (fun r => r.address = address ∧ r.width = width) d.registers r
  /-- A name is that of one register. -/
  named : ∀ name r, c.named? name = some r ↔ r ∈ d.registers ∧ r.name = name
  fieldNamed : ∀ name r f, c.fieldNamed? name = some (r, f) ↔
    FirstWith (fun entry => entry.2.name = name) d.listing (r, f)
  /-- Forbidden is the address, whatever else stands there. -/
  forbidden : ∀ address, c.isForbidden address = true ↔
    ∃ r ∈ d.registers, r.name ∈ d.forbidden ∧ r.address = address

namespace Catalog

/-! ## Registers and fields -/

theorem fits_iff {bit width available : Nat} :
    fits bit width available = true ↔ width ≠ 0 ∧ bit + width ≤ available := by
  simp [fits]

theorem firstProblem_eq_none_iff {α : Type} {check : α → Option DeviceProblem} {parts : List α} :
    firstProblem check parts = none ↔ ∀ x ∈ parts, check x = none :=
  List.findSome?_eq_none_iff

/-- The check of fields of one kind, which is made of registers and of configuration bytes. -/
theorem firstProblem_fits {α : Type} {bit width : α → Nat} {available : Nat}
    {problem : α → DeviceProblem} {parts : List α} :
    (firstProblem (fun x => if fits (bit x) (width x) available then none else some (problem x))
        parts = none ↔ ∀ x ∈ parts, width x ≠ 0 ∧ bit x + width x ≤ available) ∧
      ∀ p, firstProblem
          (fun x => if fits (bit x) (width x) available then none else some (problem x))
          parts = some p →
        ∃ x ∈ parts, ¬ (width x ≠ 0 ∧ bit x + width x ≤ available) ∧ p = problem x := by
  constructor
  · rw [firstProblem_eq_none_iff]
    refine forall₂_congr fun x _ => ?_
    rw [← fits_iff]
    split <;> simp [*]
  · intro p found
    obtain ⟨x, part, problem_⟩ := List.exists_of_findSome?_eq_some found
    split at problem_
    case isTrue => cases problem_
    case isFalse misfits =>
      cases problem_
      exact ⟨x, part, mt fits_iff.mpr misfits, rfl⟩

theorem registerProblem_eq_none_iff {limit : Nat} {earlier : List String} {r : Register} :
    registerProblem limit earlier r = none ↔
      r.address < limit ∧ (∀ f ∈ r.fields, f.width ≠ 0 ∧ f.bit + f.width ≤ r.width) ∧
        r.name ∉ earlier := by
  have fields := (@firstProblem_fits _ BitField.bit BitField.width r.width
    (fun f => .fieldMisfit r.name f.name r.width) r.fields).1
  rw [← fields]
  unfold registerProblem
  by_cases far : limit ≤ r.address
  · simp [far, Nat.not_lt.mpr far]
  · rw [if_neg far]
    split
    case h_1 q misfit => simp [misfit]
    case h_2 fit => simp [fit, Nat.not_le.mp far]

/-- Why a register is refused. -/
theorem registerProblem_cases {limit : Nat} {earlier : List String} {r : Register}
    {p : DeviceProblem} (refused : registerProblem limit earlier r = some p) :
    (limit ≤ r.address ∧ p = .registerOutsideMemory r.name r.address) ∨
      (∃ f ∈ r.fields, ¬ (f.width ≠ 0 ∧ f.bit + f.width ≤ r.width) ∧
        p = .fieldMisfit r.name f.name r.width) ∨
      r.name ∈ earlier ∧ p = .duplicateRegister r.name := by
  unfold registerProblem at refused
  split at refused
  case isTrue far =>
    cases refused
    exact .inl ⟨far, rfl⟩
  case isFalse =>
    split at refused
    case h_1 q misfit =>
      cases refused
      exact .inr (.inl (firstProblem_fits.2 _ misfit))
    case h_2 =>
      split at refused
      case isTrue again =>
        cases refused
        exact .inr (.inr ⟨by simpa using again, rfl⟩)
      case isFalse => cases refused

/-- Registers pass if each passes on its own and no name is one of those before it. -/
theorem registersProblem_eq_none_iff {limit : Nat} {earlier : List String}
    {registers : List Register} :
    registersProblem limit earlier registers = none ↔
      (∀ r ∈ registers, r.address < limit ∧
        (∀ f ∈ r.fields, f.width ≠ 0 ∧ f.bit + f.width ≤ r.width) ∧ r.name ∉ earlier) ∧
      registers.Pairwise fun r r' => r.name ≠ r'.name := by
  induction registers generalizing earlier with
  | nil => simp [registersProblem]
  | cons r rest ih =>
      unfold registersProblem
      cases alone : registerProblem limit earlier r with
      | some p =>
          have refused : ¬ _ := mt registerProblem_eq_none_iff.mpr (alone ▸ Option.some_ne_none p)
          simp only [reduceCtorEq, List.forall_mem_cons, false_iff]
          exact fun all => refused all.1.1
      | none =>
          have passed := registerProblem_eq_none_iff.mp alone
          have unseen : ∀ q : Register,
              q.name ∉ r.name :: earlier ↔ r.name ≠ q.name ∧ q.name ∉ earlier := fun q => by
            rw [List.mem_cons, not_or, ne_comm]
          simp only [ih, unseen, List.forall_mem_cons, List.pairwise_cons]
          constructor
          · rintro ⟨rest_, distinct⟩
            exact ⟨⟨passed, fun q later => ⟨(rest_ q later).1, (rest_ q later).2.1,
              (rest_ q later).2.2.2⟩⟩, fun q later => (rest_ q later).2.2.1, distinct⟩
          · rintro ⟨⟨_, rest_⟩, apart, distinct⟩
            exact ⟨fun q later => ⟨(rest_ q later).1, (rest_ q later).2.1, apart q later,
              (rest_ q later).2.2⟩, distinct⟩

/-- A problem with registers is that of one of them, after those listed before it. -/
theorem exists_registerProblem {limit : Nat} {earlier : List String} {registers : List Register}
    {p : DeviceProblem} (refused : registersProblem limit earlier registers = some p) :
    ∃ before r after names, registers = before ++ r :: after ∧
      registerProblem limit names r = some p ∧
      ∀ name ∈ names, name ∈ earlier ∨ ∃ q ∈ before, q.name = name := by
  induction registers generalizing earlier with
  | nil => cases refused
  | cons r rest ih =>
      unfold registersProblem at refused
      split at refused
      case h_1 q alone =>
        cases refused
        exact ⟨[], r, rest, earlier, rfl, alone, fun name known => .inl known⟩
      case h_2 =>
        obtain ⟨before, r', after, names, rfl, alone, known⟩ := ih refused
        refine ⟨r :: before, r', after, names, rfl, alone, fun name among => ?_⟩
        rcases known name among with seen | ⟨q, earlier_, named⟩
        · rcases List.mem_cons.mp seen with rfl | seen
          · exact .inr ⟨r, List.mem_cons_self, rfl⟩
          · exact .inl seen
        · exact .inr ⟨q, List.mem_cons_of_mem r earlier_, named⟩

theorem has_of_registersProblem {d : Device} {p : DeviceProblem}
    (refused : registersProblem (addressLimit d) [] d.registers = some p) : d.Has p := by
  obtain ⟨before, r, after, names, listed, alone, known⟩ := exists_registerProblem refused
  have member : r ∈ d.registers := by
    rw [listed]
    simp
  rcases registerProblem_cases alone with ⟨far, rfl⟩ | ⟨f, part, misfits, rfl⟩ | ⟨again, rfl⟩
  · exact .outside member far
  · exact .misfit member part misfits
  · rcases known _ again with seen | seen
    · cases seen
    · exact .duplicate listed seen

theorem configProblem_eq_none_iff {words : List ConfigWord} :
    configProblem words = none ↔
      ∀ w ∈ words, ∀ f ∈ w.fields, f.width ≠ 0 ∧ f.bit + f.width ≤ 8 := by
  rw [configProblem, firstProblem_eq_none_iff]
  exact forall₂_congr fun w _ => firstProblem_fits.1

theorem has_of_configProblem {d : Device} {p : DeviceProblem}
    (refused : configProblem d.configWords = some p) : d.Has p := by
  obtain ⟨w, listed, misfit⟩ := List.exists_of_findSome?_eq_some refused
  obtain ⟨f, part, misfits, rfl⟩ := firstProblem_fits.2 _ misfit
  exact .configMisfit listed part misfits

/-! ## Registers by name -/

theorem findRegister?_eq_none_iff {registers : List Register} {name : String} :
    findRegister? registers name = none ↔ ∀ r ∈ registers, r.name ≠ name := by
  simp [findRegister?]

theorem of_findRegister? {registers : List Register} {name : String} {r : Register}
    (found : findRegister? registers name = some r) : r ∈ registers ∧ r.name = name := by
  unfold findRegister? at found
  have named := List.find?_some found
  exact ⟨List.mem_of_find?_eq_some found, eq_of_beq named⟩

/-- Where no two registers have one name, a register is found by its own. -/
theorem findRegister?_eq_some_iff {registers : List Register}
    (distinct : registers.Pairwise fun r r' => r.name ≠ r'.name) {name : String} {r : Register} :
    findRegister? registers name = some r ↔ r ∈ registers ∧ r.name = name := by
  refine ⟨of_findRegister?, ?_⟩
  rintro ⟨listed, rfl⟩
  obtain ⟨before, after, rfl⟩ := List.append_of_mem listed
  refine List.find?_eq_some_iff_append.mpr ⟨by simp, before, after, rfl, fun q earlier => ?_⟩
  have apart := (List.pairwise_append.mp distinct).2.2 q earlier r List.mem_cons_self
  simpa using apart

/-! ## Problems that are reported -/

/-- Whatever a computation is refused for has a property. -/
def Blames {α : Type} (P : DeviceProblem → Prop) (x : Except DeviceProblem α) : Prop :=
  ∀ p, x = .error p → P p

section Blames

variable {α β : Type} {P : DeviceProblem → Prop}

theorem blames_ok (a : α) : Blames P (.ok a : Except DeviceProblem α) := by
  intro p refused
  cases refused

theorem blames_bind {x : Except DeviceProblem α} {f : α → Except DeviceProblem β}
    (first : Blames P x) (then_ : ∀ a, Blames P (f a)) : Blames P (x >>= f) := by
  cases x with
  | error q => exact fun p refused => first p (by cases refused; rfl)
  | ok a => exact then_ a

theorem blames_accept {problem : Option DeviceProblem} (has : ∀ p, problem = some p → P p) :
    Blames P (accept problem) := by
  cases problem with
  | none => exact blames_ok ()
  | some q =>
      intro p refused
      cases refused
      exact has q rfl

end Blames

variable {d : Device}

theorem blames_coreRegister {name : String} (needed : name ∈ coreNames) :
    Blames d.Has (coreRegister d.registers name) := by
  intro p refused
  unfold coreRegister at refused
  split at refused
  case h_1 => cases refused
  case h_2 absent =>
    cases refused
    exact .missing needed (findRegister?_eq_none_iff.mp absent)

theorem blames_coreRegisters : Blames d.Has (coreRegisters d.registers) := by
  unfold coreRegisters
  iterate 14 refine blames_bind (blames_coreRegister (by decide)) fun _ => ?_
  exact blames_ok _

theorem blames_forbiddenAddresses :
    Blames d.Has (forbiddenAddresses d.registers d.forbidden) := by
  suffices all : ∀ names, (∀ name ∈ names, name ∈ d.forbidden) →
      Blames d.Has (forbiddenAddresses d.registers names) from all _ fun _ listed => listed
  intro names
  induction names with
  | nil => exact fun _ => blames_ok []
  | cons name names ih =>
      intro listed
      obtain ⟨first, rest⟩ := List.forall_mem_cons.mp listed
      unfold forbiddenAddresses
      rw [List.mapM_cons]
      refine blames_bind ?_ fun _ => blames_bind (ih rest) fun _ => blames_ok _
      intro p refused
      split at refused
      case h_1 => cases refused
      case h_2 absent =>
        cases refused
        exact .unknown first (findRegister?_eq_none_iff.mp absent)

theorem has_of_layoutProblem {what : String} {value : Nat} {p : DeviceProblem}
    (refused : layoutProblem what value = some p) :
    0xFFFF < value ∧ p = .outOfRange what value := by
  unfold layoutProblem at refused
  split at refused
  case isTrue => cases refused
  case isFalse large =>
    cases refused
    exact ⟨by omega, rfl⟩

/-- A problem that is reported is one of the description. -/
theorem blames_check : Blames d.Has (check d) := by
  unfold check
  refine blames_bind (blames_accept ?split) fun _ => blames_bind (blames_accept ?window) fun _ =>
    blames_bind (blames_accept fun p => has_of_registersProblem) fun _ =>
      blames_bind blames_coreRegisters fun _ => blames_bind blames_forbiddenAddresses fun _ =>
        blames_bind (blames_accept fun p => has_of_configProblem) fun _ => blames_ok _
  case split =>
    intro p refused
    obtain ⟨large, rfl⟩ := has_of_layoutProblem refused
    exact .split large
  case window =>
    intro p refused
    obtain ⟨large, rfl⟩ := has_of_layoutProblem refused
    exact .window large

/-! ## Descriptions that pass -/

/-- The addresses of the forbidden destinations are those of the registers that are named. -/
theorem mem_of_forbiddenAddresses {registers : List Register} {names : List String}
    {addresses : List Nat} (found : forbiddenAddresses registers names = .ok addresses) :
    (∀ name ∈ names, ∃ r, findRegister? registers name = some r) ∧
      ∀ address, address ∈ addresses ↔
        ∃ name ∈ names, ∃ r, findRegister? registers name = some r ∧ r.address = address := by
  induction names generalizing addresses with
  | nil =>
      cases found
      simp
  | cons name names ih =>
      unfold forbiddenAddresses at found
      rw [List.mapM_cons] at found
      obtain ⟨first, first_, found⟩ := ok_of_bind found
      obtain ⟨rest, rest_, found⟩ := ok_of_bind found
      cases found
      obtain ⟨known, iff⟩ := ih rest_
      split at first_
      case h_1 r named =>
        cases first_
        refine ⟨List.forall_mem_cons.mpr ⟨⟨r, named⟩, known⟩, fun address => ?_⟩
        rw [List.mem_cons, iff]
        simp only [List.mem_cons, exists_eq_or_imp]
        refine or_congr ⟨?_, ?_⟩ Iff.rfl
        · rintro rfl
          exact ⟨r, named, rfl⟩
        · rintro ⟨r', named', rfl⟩
          rw [named] at named'
          cases named'
          rfl
      case h_2 => cases first_

theorem coreRegister_listed {registers : List Register} {core : CoreRegisters}
    (found : coreRegisters registers = .ok core) {name : String} (needed : name ∈ coreNames) :
    ∃ r ∈ registers, r.name = name := by
  have mapped : coreRegister registers name ∈ core.toList.map .ok := by
    rw [← coreRegisters_ok found]
    exact List.mem_map_of_mem needed
  obtain ⟨id, _, found⟩ := List.mem_map.mp mapped
  unfold coreRegister at found
  split at found
  case h_1 r named =>
    obtain ⟨listed, is⟩ := of_findRegister? named
    exact ⟨r, listed, is⟩
  case h_2 => cases found

variable {c : Catalog}

theorem consistent_of_checked (checked : Checked d c) : d.Consistent := by
  obtain ⟨sound, distinct⟩ := registersProblem_eq_none_iff.mp checked.sound
  have split := lt_of_layoutProblem checked.split
  have window := lt_of_layoutProblem checked.window
  refine ⟨by omega, by omega, fun r listed => (sound r listed).1,
    fun r listed => (sound r listed).2.1, distinct,
    fun name needed => coreRegister_listed checked.core needed, fun name forbidden => ?_,
    configProblem_eq_none_iff.mp checked.config⟩
  obtain ⟨r, named⟩ := (mem_of_forbiddenAddresses checked.forbidden).1 name forbidden
  obtain ⟨listed, is⟩ := of_findRegister? named
  exact ⟨r, listed, is⟩

/-- Searching register by register is searching the list of all fields. -/
theorem fieldNamed?_eq_find? (checked : Checked d c) (name : String) :
    c.fieldNamed? name = d.listing.find? fun entry => entry.2.name == name := by
  unfold fieldNamed? Device.listing
  rw [checked.registers]
  induction d.registers with
  | nil => rfl
  | cons r rest ih =>
      rw [List.findSome?_cons, List.flatMap_cons, List.find?_append, List.find?_map, ih]
      show _ = ((r.fields.find? (·.name == name)).map fun f => (r, f)).or _
      cases r.fields.find? (·.name == name) <;> rfl

theorem describes_of_checked (checked : Checked d c) : c.Describes d := by
  have distinct := (consistent_of_checked checked).distinct
  refine ⟨?lookup, ?named, ?fieldNamed, ?forbidden⟩
  case lookup =>
    intro address width r
    unfold lookup?
    rw [checked.registers]
    exact find?_eq_some_iff_firstWith fun r => by simp
  case named =>
    intro name r
    unfold named?
    rw [checked.registers]
    exact findRegister?_eq_some_iff distinct
  case fieldNamed =>
    intro name r f
    rw [fieldNamed?_eq_find? checked]
    exact find?_eq_some_iff_firstWith fun entry => by simp
  case forbidden =>
    intro address
    unfold isForbidden
    rw [List.contains_iff_mem, (mem_of_forbiddenAddresses checked.forbidden).2]
    simp only [findRegister?_eq_some_iff distinct]
    constructor
    · rintro ⟨name, forbidden, r, ⟨listed, rfl⟩, at_⟩
      exact ⟨r, listed, forbidden, at_⟩
    · rintro ⟨r, listed, forbidden, at_⟩
      exact ⟨r.name, forbidden, r, ⟨listed, rfl⟩, at_⟩

/-! ## Loading -/

/-- A description is loaded exactly if it is consistent.  If it is refused, it is so for a problem that
it has.  The catalog of one that is loaded answers as the description lists things: the first
register of an address and width, the one register of a name, the first field of a name, and as
forbidden the addresses of the registers that are named as such. -/
theorem load_exact (d : Device) :
    ((∃ c, load (some d) = .ok c) ↔ d.Consistent) ∧
      (∀ fault, load (some d) = .error fault → ∃ p, fault = .device p ∧ d.Has p) ∧
      ∀ c, load (some d) = .ok c → c.Describes d := by
  have refused : ∀ fault, load (some d) = .error fault → ∃ p, fault = .device p ∧ d.Has p := by
    intro fault failed
    unfold load at failed
    cases checked : check d with
    | ok c => simp [checked] at failed
    | error p =>
        simp only [checked] at failed
        cases failed
        exact ⟨p, rfl, blames_check p checked⟩
  refine ⟨⟨?consistent, ?loaded⟩, refused, ?describes⟩
  case consistent =>
    rintro ⟨c, loaded⟩
    obtain ⟨_, same, checked⟩ := checked_of_load loaded
    cases same
    exact consistent_of_checked checked
  case loaded =>
    intro consistent
    cases result : load (some d) with
    | ok c => exact ⟨c, rfl⟩
    | error fault =>
        obtain ⟨p, _, has⟩ := refused fault result
        exact absurd has (consistent.not_has p)
  case describes =>
    intro c loaded
    obtain ⟨_, same, checked⟩ := checked_of_load loaded
    cases same
    exact describes_of_checked checked

/-- A built-in device is loaded; with a window too far up it is refused for that. -/
theorem load_exact_pic18f4620 :
    Devices.Pic18f4620.device.Consistent ∧
      (∃ c, load (some Devices.Pic18f4620.device) = .ok c ∧
        c.Describes Devices.Pic18f4620.device) ∧
      ∃ p, load (some { Devices.Pic18f4620.device with sfrWindow := 0x10000 }) =
          .error (.device p) ∧
        Device.Has { Devices.Pic18f4620.device with sfrWindow := 0x10000 } p := by
  obtain ⟨c, loaded⟩ : ∃ c, load (some Devices.Pic18f4620.device) = .ok c := ⟨_, rfl⟩
  obtain ⟨fault, failed⟩ : ∃ fault,
      load (some { Devices.Pic18f4620.device with sfrWindow := 0x10000 }) = .error fault :=
    ⟨_, rfl⟩
  refine ⟨(load_exact _).1.mp ⟨c, loaded⟩, ⟨c, loaded, (load_exact _).2.2 c loaded⟩, ?_⟩
  obtain ⟨p, rfl, has⟩ := (load_exact _).2.1 fault failed
  exact ⟨p, failed, has⟩

end Catalog

end RegisterTransfer.Pic18
