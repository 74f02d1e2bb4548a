import MethodFlow.Proofs.Domain.Kinds
import MethodFlow.Proofs.Domain.Lowering
import MethodFlow.Proofs.Domain.Meeting
import MethodFlow.Proofs.Frame.Simulation

/-! The transfer function of the verifier of types is monotone over a well-formed class graph: what it
does with values it does with known ones below them, but for stores into arrays of references, whose
elements may be fewer below. -/

namespace MethodFlow

namespace ClassGraph

variable {graph : ClassGraph} {value expected element : RefType}

theorem isArray_of_assignable (fits : graph.Assignable value expected)
    (array : expected.isArray = true) : value.isArray = true := by
  cases fits with
  | self => exact array
  | classes | arrays => cases array
  | elements | primitives | nested => rfl

/-- What fits an array of references is one, and its elements fit those of the other one. -/
theorem elementType_of_assignable (fits : graph.Assignable value expected)
    (found : expected.elementType? = some (.ref element)) :
    ∃ element', value.elementType? = some (.ref element') ∧ graph.Assignable element' element := by
  cases fits with
  | self => exact ⟨element, found, .self _⟩
  | classes | arrays => cases found
  | @elements dimensions sub super subclass =>
    cases found
    refine ⟨_, rfl, ?_⟩
    cases dimensions with
    | zero => exact .classes subclass
    | succ => exact .elements subclass
  | @primitives dimensions fewer base super deeper above =>
    cases found
    obtain ⟨dimensions, rfl⟩ := Nat.exists_eq_add_one_of_ne_zero (Nat.ne_zero_of_lt deeper)
    refine ⟨_, rfl, ?_⟩
    cases fewer with
    | zero => exact .arrays rfl above
    | succ => exact .primitives (Nat.lt_of_succ_lt_succ deeper) above
  | @nested dimensions fewer name super deeper above =>
    cases found
    obtain ⟨dimensions, rfl⟩ := Nat.exists_eq_add_one_of_ne_zero (Nat.ne_zero_of_lt deeper)
    refine ⟨_, rfl, ?_⟩
    cases fewer with
    | zero => exact .arrays rfl above
    | succ => exact .nested (Nat.lt_of_succ_lt_succ deeper) above

theorem knows_of_elementType (known : graph.Knows value)
    (found : value.elementType? = some (.ref element)) : graph.Knows element := by
  rcases value with name | ⟨_ | dimensions, name⟩ | ⟨_ | dimensions, base⟩
  · cases found
  · cases found
    exact known
  · cases found
    exact known
  · cases found
  · cases found
    trivial

end ClassGraph

namespace VerificationType

variable {graph : ClassGraph} {hierarchy : TypeHierarchy} {value upper expected : VerificationType}

/-- A value is another one, or it is a known one below it. -/
def Under (graph : ClassGraph) (value upper : VerificationType) : Prop :=
  value = upper ∨ Below graph value upper ∧ value.KnownIn graph

theorem Under.below (under : Under graph value upper) : Below graph value upper := by
  rcases under with rfl | ⟨below, -⟩
  · exact .self _
  · exact below

/-- Only the top may be above values of another width. -/
theorem width_of_below (below : Below graph value upper) (proper : upper ≠ top) :
    width value = width upper := by
  cases below with
  | self => rfl
  | top => exact absurd rfl proper
  | null | references => rfl

theorem isArray_of_below (below : Below graph value upper) (array : upper.isArray = true) :
    value.isArray = true := by
  cases below with
  | self => exact array
  | top => cases array
  | null => rfl
  | references fits => exact ClassGraph.isArray_of_assignable fits array

theorem isSubtype_object {type type' : RefType} :
    isSubtype hierarchy (object type) (object type') = .ok true ↔
      ∃ fits, isAssignableFrom hierarchy type' type = .ok fits ∧
        (fits = true ∨ ∃ name, type' = .object name ∧ hierarchy.isInterface name = .ok true) := by
  by_cases same : type = type'
  · subst same
    simp [isSubtype, isAssignableFrom]
  · have different : object type ≠ object type' := by simpa using same
    simp only [isSubtype, different, ↓reduceIte, bind_eq_ok]
    refine exists_congr fun fits => and_congr_right fun _ => ?_
    cases fits with
    | true => simp [pure, Except.pure]
    | false => cases type' <;> simp [answer_eq_ok, pure, Except.pure]

theorem isSubtype_of_below (wellFormed : graph.WellFormed) (below : Below graph value upper)
    (known : value.KnownIn graph) (proper : upper ≠ top)
    (fits : isSubtype graph.hierarchy upper expected = .ok true) :
    isSubtype graph.hierarchy value expected = .ok true := by
  have reference {type : RefType}
      (fits : isSubtype graph.hierarchy (object type) expected = .ok true) :
      ∃ type', expected = object type' := by
    cases expected with
    | object type' => exact ⟨type', rfl⟩
    | _ => cases fits
  cases below with
  | self => exact fits
  | top => exact absurd rfl proper
  | null type =>
    obtain ⟨type', rfl⟩ := reference fits
    rfl
  | @references type middle below =>
    obtain ⟨type', rfl⟩ := reference fits
    obtain ⟨answer, asked, allowed⟩ := isSubtype_object.mp fits
    rcases allowed with rfl | ⟨name, rfl, interface⟩
    · have up := assignable_trans wellFormed below (isAssignableFrom_eq_true.mp asked)
      exact isSubtype_object.mpr ⟨true, isAssignableFrom_eq_true.mpr up, .inl rfl⟩
    · -- any object will do for an interface, as long as its class is known
      obtain ⟨info, found, -⟩ := ClassGraph.isInterface_eq_ok.mp interface
      have known' : graph.Knows (.object name) := .inr ⟨info, found⟩
      obtain ⟨answer', asked'⟩ := isAssignableFrom_ok wellFormed.toOrdered known' known
      exact isSubtype_object.mpr ⟨answer', asked', .inr ⟨name, rfl, interface⟩⟩

/-- No class is looked up for an array of primitive values. -/
theorem isSubtype_primitives (value : VerificationType) (dimensions : Nat) (element : BaseType) :
    ∃ fits, isSubtype hierarchy value (object (.primitiveArray dimensions element)) = .ok fits := by
  unfold isSubtype
  split
  · exact ⟨true, rfl⟩
  · cases value with
    | object type =>
      obtain ⟨fits, asked⟩ : ∃ fits,
          isAssignableFrom hierarchy (.primitiveArray dimensions element) type = .ok fits := by
        unfold isAssignableFrom
        split
        · exact ⟨true, rfl⟩
        · cases type <;> exact ⟨_, rfl⟩
      exact ⟨fits, bind_eq_ok.mpr ⟨fits, asked, by cases fits <;> rfl⟩⟩
    | _ => exact ⟨_, rfl⟩

theorem elementOf_object {type : RefType} {element : VerificationType} :
    elementOf (object type) = .ok element ↔
      ∃ found, type.elementType? = some found ∧ ofType found = element := by
  simp only [elementOf]
  cases type.elementType? <;> simp

theorem ref_of_kind {type : FieldType} (reference : (ofType type).kind = .reference) :
    ∃ ref, type = .ref ref := by
  rcases type with base | ref
  · cases base <;> cases reference
  · exact ⟨ref, rfl⟩

theorem elementOf_of_under {element : VerificationType} (under : Under graph value upper)
    (fits : isSubtype hierarchy upper (object (.objectArray 0 .object)) = .ok true)
    (found : elementOf upper = .ok element) :
    ∃ element', elementOf value = .ok element' ∧ Matches (Under graph) element' element := by
  rcases under with rfl | ⟨below, known⟩
  · exact ⟨element, found, .inl rfl, rfl⟩
  have reference := kind_of_element fits found
  cases below with
  | self => exact ⟨element, found, .inl rfl, rfl⟩
  | top => cases found
  | null type =>
    obtain ⟨type', -, rfl⟩ := elementOf_object.mp found
    obtain ⟨ref, rfl⟩ := ref_of_kind reference
    exact ⟨null, rfl, .inr ⟨.null ref, trivial⟩, rfl⟩
  | @references type middle assignable =>
    obtain ⟨type', present, rfl⟩ := elementOf_object.mp found
    obtain ⟨ref, rfl⟩ := ref_of_kind reference
    obtain ⟨ref', present', fits'⟩ := ClassGraph.elementType_of_assignable assignable present
    exact ⟨object ref', elementOf_object.mpr ⟨_, present', rfl⟩,
      .inr ⟨.references fits', ClassGraph.knows_of_elementType known present'⟩, rfl⟩

/-- Known values below others pass for what those pass for. -/
theorem checkedTypes_lowers (wellFormed : graph.WellFormed) :
    (checkedTypes graph.hierarchy).Lowers top (Under graph) where
  isReference := rfl
  isArray := rfl
  isReferenceArray := rfl
  isSubtype type fits := by
    rcases type with base | ref
    · cases base <;> cases fits
    · cases fits
  unset := rfl
  narrow := by decide
  refl _ := .inl rfl
  width_eq under proper := width_of_below under.below proper
  reference under reference := isReference_of_below under.below reference
  returnAddress := by
    intro value upper under returnAddress
    obtain rfl : upper = .returnAddress := by simpa [checkedTypes] using returnAddress
    rw [eq_of_below under.below (by decide) rfl]
    exact returnAddress
  array under array := isArray_of_below under.below array
  subtype := by
    rintro value upper expected (rfl | ⟨below, known⟩) proper fits
    · exact fits
    · exact isSubtype_of_below wellFormed below known proper fits
  answers value element := isSubtype_primitives value 0 element
  element := elementOf_of_under

/-- What the verifier does with a frame it does with every frame of known types that the values of the
first one absorb, and what it leaves absorbs again. -/
theorem execute_monotone (wellFormed : graph.WellFormed) {site : Site}
    {frame above after : Frame VerificationType}
    (numbers : site.operation ≠ .instruction (.arrayStore .reference))
    (known : frame.Holds (KnownIn graph))
    (along : frame.Alongside (flip (verifier graph.hierarchy).Absorbs) Eq above)
    (executed : above.execute (verifier graph.hierarchy) site = .ok after) :
    ∃ after', frame.execute (verifier graph.hierarchy) site = .ok after' ∧
      after'.Alongside (flip (verifier graph.hierarchy).Absorbs) Eq after := by
  have under : frame.Alongside (Under graph) Eq above := by
    refine (along.and_holds known).imp ?_
    rintro value upper ⟨known, absorbs⟩
    exact .inr ⟨(absorbs_iff wellFormed).mp absorbs, known⟩
  have follows : (verifier graph.hierarchy).Follows (verifier graph.hierarchy) site (Under graph) Eq :=
    (checkedTypes_lowers wellFormed).follows id fun operated => absurd operated numbers
  obtain ⟨after', executed', under'⟩ := under.execute follows executed
  refine ⟨after', executed', under'.imp ?_⟩
  intro value upper under
  exact (absorbs_iff wellFormed).mpr under.below

/-- A store next to a slot that may be the first one of a wide local. -/
def storeBeside : Site := ⟨0, .instruction (.store .reference 1)⟩

/-- A boxed integer to be stored next to a long integer. -/
def besideLong : Frame VerificationType :=
  ⟨[long, top], .ofList [object (.object .boxedInteger)], none, none⟩

/-- A number to be stored next to nothing usable. -/
def besideNothing : Frame VerificationType :=
  ⟨[top, top], .ofList [object (.object .number)], none, none⟩

/-- The store cuts a local in one of the frames only, which are still above each other. -/
theorem execute_monotone_beside :
    ClassGraph.library.WellFormed ∧
    storeBeside.operation ≠ .instruction (.arrayStore .reference) ∧
    besideLong.Holds (KnownIn ClassGraph.library) ∧
    besideLong.Alongside (flip (verifier ClassGraph.library.hierarchy).Absorbs) Eq
      besideNothing ∧
    ∃ after after', besideNothing.execute (verifier ClassGraph.library.hierarchy) storeBeside =
        .ok after ∧
      besideLong.execute (verifier ClassGraph.library.hierarchy) storeBeside = .ok after' ∧
      after.locals = [top, object (.object .number)] ∧
      after'.locals = [top, object (.object .boxedInteger)] ∧
      after'.Alongside (flip (verifier ClassGraph.library.hierarchy).Absorbs) Eq after := by
  have absorbs : merge ClassGraph.library.hierarchy (object (.object .number))
      (object (.object .boxedInteger)) = .ok (object (.object .number)) := by decide +kernel
  have known : besideLong.Holds (KnownIn ClassGraph.library) := by
    refine ⟨?_, ?_⟩
    · intro value member
      rcases List.mem_pair.mp member with rfl | rfl <;> trivial
    · intro value member
      cases List.mem_singleton.mp member
      exact ClassGraph.library_named _ (by simp)
  have along : besideLong.Alongside (flip (verifier ClassGraph.library.hierarchy).Absorbs) Eq
      besideNothing :=
    ⟨.cons rfl (.cons rfl .nil), .cons ⟨absorbs, rfl⟩ .nil, SlotVec.placed_ofList _,
      SlotVec.placed_ofList _, rfl, .none⟩
  have executed : besideNothing.execute (verifier ClassGraph.library.hierarchy) storeBeside =
      .ok ⟨[top, object (.object .number)], .ofList [], none, none⟩ := rfl
  have executed' : besideLong.execute (verifier ClassGraph.library.hierarchy) storeBeside =
      .ok ⟨[top, object (.object .boxedInteger)], .ofList [], none, none⟩ := rfl
  obtain ⟨after', ran, along'⟩ :=
    execute_monotone ClassGraph.library_wellFormed (by decide) known along executed
  cases executed'.symm.trans ran
  exact ⟨ClassGraph.library_wellFormed, by decide, known, along, _, _, executed, executed', rfl, rfl,
    along'⟩

end VerificationType

end MethodFlow
