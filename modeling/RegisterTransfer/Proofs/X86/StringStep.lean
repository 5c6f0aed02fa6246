/-
# RegisterTransfer.Proofs.X86.StringStep -- one step of a string instruction

A string instruction is lowered, in every mode and whatever its widths are, to statements that do not
move control and name no register of the count's family (`Lower.steps_stringStep`).  So the step
neither reads nor changes the count, and a repetition may count around it.
-/
import RegisterTransfer.Proofs.Draft.Emission
import RegisterTransfer.Proofs.Meaning.Arithmetic
import RegisterTransfer.X86.Lowering

namespace RegisterTransfer.X86

set_option autoImplicit false

/-! ## Registers -/

namespace Register

theorem isRegister_identifier (r : Register) : r.identifier.IsRegister := ⟨_, _, _, rfl⟩

theorem family_resize (r : Register) (width : Nat) : (r.resize width).family = r.family := by
  unfold resize
  cases found : r.withWidth? width with
  | none => rfl
  | some part => exact (part_of_withWidth? found).1

theorem avoid_value {r : Register} {family : Nat} (apart : r.family ≠ family) :
    Avoid r.value.parts family :=
  Avoid.identifier fun _ => apart

theorem avoid_resize {r : Register} {family : Nat} (width : Nat) (apart : r.family ≠ family) :
    Avoid (r.resize width).value.parts family :=
  avoid_value (by rwa [family_resize])

end Register

theorem Flag.avoid_value (mask family : Nat) : Avoid (Flag.value mask).parts family :=
  Avoid.identifier fun register => by
    obtain ⟨_, _, _, storage⟩ := register
    cases storage

namespace Lower

/-- The family of the count registers. -/
def countFamily : Nat := 1

theorem family_countRegister (i : Instruction) :
    (countRegister i).identifier.family = countFamily :=
  Register.family_resize .ecx _

/-! ## Statements of a step -/

/-- Statements that a repetition may count around. -/
def Uncounted (statements : List Statement) : Prop :=
  ∀ s, s ∈ statements → s.isStraight = true ∧ Avoid s.parts countFamily

theorem Uncounted.append {statements more : List Statement} (first : Uncounted statements)
    (second : Uncounted more) : Uncounted (statements ++ more) := by
  intro s found
  rcases List.mem_append.mp found with inFirst | inSecond
  · exact first s inFirst
  · exact second s inSecond

theorem uncounted_assign {dst src : Expr} (target : Avoid dst.parts countFamily)
    (source : Avoid src.parts countFamily) : Uncounted [.assign dst src] := by
  intro s found
  rw [List.mem_singleton.mp found]
  exact ⟨rfl, target.append source⟩

theorem uncounted_effect {e : Expr} (avoid : Avoid e.parts countFamily) :
    Uncounted [.effect e] := by
  intro s found
  rw [List.mem_singleton.mp found]
  exact ⟨rfl, avoid⟩

/-- A lowering that adds statements a repetition may count around. -/
def Steps (x : Lowering Unit) : Prop :=
  ∃ statements, Uncounted statements ∧ ∀ k, Lowering.Emits k x () statements k

theorem Steps.bind {x : Lowering Unit} {f : Unit → Lowering Unit} (first : Steps x)
    (second : Steps (f ())) : Steps (x >>= f) := by
  obtain ⟨statements, uncounted, emits⟩ := first
  obtain ⟨more, uncounted', emits'⟩ := second
  exact ⟨_, uncounted.append uncounted', fun k => Lowering.emits_bind (emits k) (emits' k)⟩

theorem steps_assign {dst src : Expr} (target : Avoid dst.parts countFamily)
    (source : Avoid src.parts countFamily) : Steps (.assign dst src) :=
  ⟨_, uncounted_assign target source, fun _ => Lowering.emits_assign dst src⟩

theorem steps_apply {name : String} {type : DataType} {arguments : List Expr}
    {f : Expr → Lowering Unit} (fits : IntrinsicName.arity? name = some arguments.length)
    (rest : Steps (f (.apply ⟨name, type, arguments.length⟩ type arguments))) :
    Steps (Lowering.apply name type arguments >>= f) := by
  obtain ⟨statements, uncounted, emits⟩ := rest
  exact ⟨statements, uncounted, fun k =>
    Lowering.emits_bind (Lowering.emits_apply name type arguments fits) (emits k)⟩

theorem steps_effect {name : String} {arguments : List Expr}
    (fits : IntrinsicName.arity? name = some arguments.length)
    (each : ∀ e, e ∈ arguments → Avoid e.parts countFamily) : Steps (effect name arguments) :=
  steps_apply fits
    ⟨_, uncounted_effect (Avoid.apply _ _ each), fun _ => Lowering.emits_effect _⟩

theorem steps_adjust {r : Register} (delta : Int) (apart : r.family ≠ countFamily) :
    Steps (adjust r delta) :=
  steps_assign (Register.avoid_value apart) (Avoid.addInt delta (Register.avoid_value apart))

theorem steps_setFlagsFrom (mask : Nat) {e : Expr} (avoid : Avoid e.parts countFamily) :
    Steps (setFlagsFrom mask e) :=
  steps_assign (Flag.avoid_value mask _) (Avoid.conditionCodes avoid)

theorem avoid_indexed (m : Mode) (type : DataType) {index : Register} (segment : Segment)
    (apart : index.family ≠ countFamily) :
    Avoid (indexed m type index segment).parts countFamily := by
  refine Avoid.memoryIn type ?_ (Register.avoid_value apart)
  intro s present
  split at present
  · cases present
    refine Register.avoid_value ?_
    cases segment <;> decide
  · cases present

/-- Every string instruction, at any width and in any mode. -/
theorem steps_stringStep (m : Mode) (i : Instruction) (op : StringOp) :
    Steps (stringStep m i op) := by
  have si : (Register.esi.resize i.addressType.bits).family ≠ countFamily := by
    rw [Register.family_resize]
    decide
  have di : (Register.edi.resize i.addressType.bits).family ≠ countFamily := by
    rw [Register.family_resize]
    decide
  have acc : Avoid (Register.eax.resize (elementType i op).bits).value.parts countFamily :=
    Register.avoid_resize _ (by decide)
  have port : Avoid Register.dx.value.parts countFamily := Register.avoid_value (by decide)
  have src := avoid_indexed m (elementType i op) .ds si
  have dst := avoid_indexed m (elementType i op) .es di
  cases op with
  | movs | movsb =>
      exact (steps_assign dst src).bind ((steps_adjust _ si).bind (steps_adjust _ di))
  | stos | stosb => exact (steps_assign dst acc).bind (steps_adjust _ di)
  | lods | lodsb => exact (steps_assign acc src).bind (steps_adjust _ si)
  | ins =>
      refine steps_apply rfl ((steps_assign dst (Avoid.apply _ _ ?_)).bind (steps_adjust _ di))
      intro e found
      rw [List.mem_singleton.mp found]
      exact port
  | outs =>
      refine (steps_effect rfl ?_).bind (steps_adjust _ si)
      intro e found
      rcases List.mem_cons.mp found with rfl | last
      · exact port
      · rw [List.mem_singleton.mp last]
        exact src
  | cmps | cmpsb =>
      refine (steps_setFlagsFrom _ ?_).bind ((steps_adjust _ si).bind (steps_adjust _ di))
      exact Avoid.binary _ _ src dst
  | scas | scasb =>
      refine (steps_setFlagsFrom _ ?_).bind (steps_adjust _ di)
      exact Avoid.binary _ _ acc dst

end Lower

end RegisterTransfer.X86
