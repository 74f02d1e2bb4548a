import MethodFlow.Proofs.Domain.Meeting
import MethodFlow.Proofs.Hierarchy.Ancestry

namespace MethodFlow

/-- The walk up from a class to the first of its superclasses that another class is below, or to the
root, for as long as it takes. -/
inductive TypeHierarchy.Climbs (hierarchy : TypeHierarchy) (other : BinaryName) :
    BinaryName → BinaryName → Prop where
  | root {candidate : BinaryName} (superclass : hierarchy.superclass candidate = .ok none) :
      Climbs hierarchy other candidate .object
  | found {candidate above : BinaryName}
      (superclass : hierarchy.superclass candidate = .ok (some above))
      (subclass : hierarchy.isSubclass other above = .ok true) :
      Climbs hierarchy other candidate above
  | further {candidate above top : BinaryName}
      (superclass : hierarchy.superclass candidate = .ok (some above))
      (missed : hierarchy.isSubclass other above = .ok false)
      (climbs : Climbs hierarchy other above top) : Climbs hierarchy other candidate top

namespace ClassGraph

open Relation (ReflTransGen)

variable {graph : ClassGraph} {first second name other super : BinaryName}

theorem subclass_self (name : BinaryName) : graph.Subclass name name := by
  simp [Subclass, isSubclass, pure, Except.pure]

theorem assignable_object :
    graph.Assignable (.object first) (.object second) ↔ graph.Subclass first second := by
  constructor
  · intro fits
    cases fits with
    | self => exact subclass_self first
    | classes subclass => exact subclass
    | arrays array => cases array
  · exact .classes

theorem isAssignable_self (type : RefType) : graph.hierarchy.isAssignable type type = .ok true := by
  cases type with
  | object name => exact subclass_self name
  | primitiveArray => simp [TypeHierarchy.isAssignable]
  | objectArray dimensions name =>
    have same : graph.hierarchy.isSubclass name name = .ok true := subclass_self name
    simp [TypeHierarchy.isAssignable, same]

theorem isAssignable_eq_true {value expected : RefType} :
    graph.hierarchy.isAssignable value expected = .ok true ↔ graph.Assignable value expected := by
  by_cases same : expected = value
  · subst same
    exact ⟨fun _ => .self _, fun _ => isAssignable_self _⟩
  · rw [← VerificationType.isAssignableFrom_eq_true, VerificationType.isAssignableFrom,
      if_neg same, VerificationType.answer_eq_ok]

/-- Whether one known type fits another is always answered, and fitting is a partial order. -/
theorem isAssignable_partialOrder (wellFormed : graph.WellFormed) :
    (∀ {value expected}, graph.Knows value → graph.Knows expected →
      ∃ fits, graph.hierarchy.isAssignable value expected = .ok fits) ∧
    (∀ type, graph.hierarchy.isAssignable type type = .ok true) ∧
    (∀ {lower middle upper}, graph.hierarchy.isAssignable lower middle = .ok true →
      graph.hierarchy.isAssignable middle upper = .ok true →
        graph.hierarchy.isAssignable lower upper = .ok true) ∧
    (∀ {first second}, graph.hierarchy.isAssignable first second = .ok true →
      graph.hierarchy.isAssignable second first = .ok true → first = second) := by
  refine ⟨?_, isAssignable_self, ?_, ?_⟩
  · intro value expected known known'
    exact VerificationType.isAssignable_ok wellFormed.toOrdered known known'
  · intro lower middle upper below above
    rw [isAssignable_eq_true] at below above ⊢
    exact VerificationType.assignable_trans wellFormed below above
  · intro first second below above
    rw [isAssignable_eq_true] at below above
    exact VerificationType.assignable_antisymm wellFormed.toOrdered below above

/-- Three dimensions of integers fit two dimensions of what all arrays are, and thus one. -/
theorem isAssignable_nested : library.WellFormed ∧
    library.hierarchy.isAssignable (.primitiveArray 2 .int) (.objectArray 1 .serializable) =
      .ok true ∧
    library.hierarchy.isAssignable (.objectArray 1 .serializable) (.objectArray 0 .cloneable) =
      .ok true ∧
    library.hierarchy.isAssignable (.primitiveArray 2 .int) (.objectArray 0 .cloneable) =
      .ok true := by
  have below : library.hierarchy.isAssignable (.primitiveArray 2 .int)
      (.objectArray 1 .serializable) = .ok true := by decide
  have above : library.hierarchy.isAssignable (.objectArray 1 .serializable)
      (.objectArray 0 .cloneable) = .ok true := by decide
  obtain ⟨-, -, trans, -⟩ := isAssignable_partialOrder library_wellFormed
  exact ⟨library_wellFormed, below, above, trans below above⟩

/-- The walk up from a class ends at the lowest class that the other one is below as well. -/
theorem superclassAbove_closest (ordered : graph.Ordered) {info above : ClassInfo}
    (found : graph.find? first = some info) (found' : graph.find? second = some above)
    (loose : ¬graph.Subclass second first) :
    ∃ top, graph.hierarchy.superclassAbove second (graph.hierarchy.classCount + 1) first = .ok top ∧
      graph.hierarchy.Climbs second first top ∧
      graph.ClosestClass (.object first) (.object second) top := by
  have enough : graph.unseen [] < graph.hierarchy.classCount + 1 :=
    Nat.lt_succ_of_le List.countP_le_length
  have rooted := ordered.subclass_root found'
  revert loose
  refine ordered.superclass_induction
    (motive := fun steps _ name => ¬graph.Subclass second name →
      ∃ top, graph.hierarchy.superclassAbove second steps name = .ok top ∧
        graph.hierarchy.Climbs second name top ∧
        graph.ClosestClass (.object name) (.object second) top) ?_ ?_ ?_ found enough (by simp)
  · intro _ _ _ _ loose
    exact absurd rooted loose
  · intro steps _ name info _ found interface _
    have up : graph.hierarchy.superclass name = .ok (some .object) :=
      superclass_eq_ok.mpr ⟨info, found, ordered.interfaces found interface⟩
    exact ⟨.object, bind_eq_ok.mpr ⟨_, up, bind_eq_ok.mpr ⟨true, rooted, rfl⟩⟩,
      .found up rooted, .of_interface ordered found interface (.classes rooted)⟩
  · intro steps _ name info super upper _ found _ superclass stored plain ih loose
    have isClass := isClass_of_found stored plain
    have apart : ¬graph.Assignable (.object second) (.object name) := by
      rwa [assignable_object]
    have up : graph.hierarchy.superclass name = .ok (some super) :=
      superclass_eq_ok.mpr ⟨info, found, superclass⟩
    by_cases subclass : graph.Subclass second super
    · exact ⟨super, bind_eq_ok.mpr ⟨_, up, bind_eq_ok.mpr ⟨true, subclass, rfl⟩⟩,
        .found up subclass,
        .of_superclass ordered found superclass apart (closestClass_self isClass (.classes subclass))⟩
    · obtain ⟨top, walked, climbs, closest⟩ := ih subclass
      have missed : graph.hierarchy.isSubclass second super = .ok false :=
        ordered.closed.isSubclass_eq_false found' stored subclass
      exact ⟨top, bind_eq_ok.mpr ⟨_, up, bind_eq_ok.mpr ⟨false, missed, walked⟩⟩,
        .further up missed climbs, .of_superclass ordered found superclass apart closest⟩

theorem commonSuperclass_of_apart {info above : ClassInfo}
    (found : graph.find? first = some info) (found' : graph.find? second = some above)
    (loose : graph.isSubclass second first = .ok false)
    (loose' : graph.isSubclass first second = .ok false) :
    graph.hierarchy.commonSuperclass first second =
      if info.isInterface || above.isInterface then .ok .object
      else graph.hierarchy.superclassAbove second (graph.hierarchy.classCount + 1) first := by
  have interface : graph.hierarchy.isInterface first = .ok info.isInterface :=
    isInterface_eq_ok.mpr ⟨info, found, rfl⟩
  have interface' : graph.hierarchy.isInterface second = .ok above.isInterface :=
    isInterface_eq_ok.mpr ⟨above, found', rfl⟩
  have asked : graph.hierarchy.isSubclass second first = .ok false := loose
  have asked' : graph.hierarchy.isSubclass first second = .ok false := loose'
  simp only [TypeHierarchy.commonSuperclass, asked, asked', interface, interface', bind, Except.bind,
    pure, Except.pure, Bool.false_eq_true, ↓reduceIte]
  cases info.isInterface <;> cases above.isInterface <;> rfl

/-- The superclass that two types share is what they have in common. Where the walk up is started, it
ends by itself. -/
theorem commonSuperclass_meets (ordered : graph.Ordered) {info above : ClassInfo}
    (found : graph.find? first = some info) (found' : graph.find? second = some above) :
    ∃ joined, graph.hierarchy.commonSuperclass first second = .ok joined ∧
      graph.Meets (.object first) (.object second) (.object joined) ∧
      (¬graph.Subclass second first → ¬graph.Subclass first second → info.isInterface = false →
        above.isInterface = false → graph.hierarchy.Climbs second first joined) := by
  by_cases lower : graph.Subclass second first
  · exact ⟨first, bind_eq_ok.mpr ⟨true, lower, rfl⟩, .left (.classes lower),
      fun loose => absurd lower loose⟩
  have loose := ordered.closed.isSubclass_eq_false found' found lower
  by_cases upper : graph.Subclass first second
  · exact ⟨second, bind_eq_ok.mpr ⟨false, loose, bind_eq_ok.mpr ⟨true, upper, rfl⟩⟩,
      .right (.classes upper), fun _ loose' => absurd upper loose'⟩
  have loose' := ordered.closed.isSubclass_eq_false found found' upper
  -- neither is below the other
  have apart {joined : BinaryName}
      (closest : graph.ClosestClass (.object first) (.object second) joined) :
      graph.Meets (.object first) (.object second) (.object joined) :=
    .apart (assignable_object.not.mpr lower) (assignable_object.not.mpr upper)
      (.classes (fun _ _ _ array => by cases array) closest)
  rw [commonSuperclass_of_apart found found' loose loose']
  have rooted := ordered.subclass_root found
  have rooted' := ordered.subclass_root found'
  cases kind : info.isInterface with
  | true =>
    refine ⟨.object, rfl, apart (.of_interface ordered found kind (.classes rooted')), ?_⟩
    intro _ _ plain
    cases plain
  | false =>
    cases kind' : above.isInterface with
    | true =>
      have closest := ClosestClass.of_interface ordered found' kind' (.classes rooted)
      refine ⟨.object, rfl, apart closest.symm, ?_⟩
      intro _ _ _ plain
      cases plain
    | false =>
      obtain ⟨top, walked, climbs, closest⟩ := superclassAbove_closest ordered found found' lower
      exact ⟨top, walked, apart closest, fun _ _ _ _ => climbs⟩

theorem merge_meets (ordered : graph.Ordered) {info above : ClassInfo}
    (found : graph.find? first = some info) (found' : graph.find? second = some above) :
    ∃ met, VerificationType.merge graph.hierarchy (.object (.object first))
        (.object (.object second)) = .ok (.object met) ∧
      graph.Meets (.object first) (.object second) met := by
  have known : graph.Knows (.object first) := .inr ⟨info, found⟩
  have known' : graph.Knows (.object second) := .inr ⟨above, found'⟩
  apply VerificationType.merge_object_of ordered known known'
  intro apart
  obtain ⟨top, walked, closest⟩ := VerificationType.closestAbove_object ordered known known' apart
  exact ⟨.object top, bind_eq_ok.mpr ⟨top, walked, rfl⟩,
    .classes (fun _ _ _ array => by cases array) closest⟩

/-- No class above two types is below what they have in common. -/
theorem Meets.inherits (ordered : graph.Ordered) {above : ClassInfo} {joined : BinaryName}
    (meets : graph.Meets (.object first) (.object second) (.object joined))
    (found : graph.find? other = some above) (plain : above.isInterface = false)
    (left : graph.Subclass first other) (right : graph.Subclass second other) :
    ReflTransGen graph.Inherits joined other := by
  have fits : graph.Subclass joined other := by
    cases meets with
    | left => exact left
    | right => exact right
    | apart _ _ closest =>
      cases closest with
      | classes _ closest =>
        exact assignable_object.mp (closest.least (isClass_of_found found plain)
          (.classes left) (.classes right))
  rcases ordered.closed.subclass_iff.mp fits with same | ⟨_, top, _, stored, path⟩
  · exact same ▸ .refl
  · cases found.symm.trans stored
    rw [plain, above_false] at path
    exact path

/-- Two types share one superclass, whichever of them comes first, and they merge into it. It is above
both, and every class above both is above it. Where the walk up is started, it ends by itself. -/
theorem commonSuperclass_least (ordered : graph.Ordered) {info above : ClassInfo}
    (found : graph.find? first = some info) (found' : graph.find? second = some above) :
    ∃ joined, graph.hierarchy.commonSuperclass first second = .ok joined ∧
      graph.hierarchy.commonSuperclass second first = .ok joined ∧
      VerificationType.merge graph.hierarchy (.object (.object first)) (.object (.object second)) =
        .ok (.object (.object joined)) ∧
      graph.Subclass first joined ∧ graph.Subclass second joined ∧
      (∀ {other upper}, graph.find? other = some upper → upper.isInterface = false →
        graph.Subclass first other → graph.Subclass second other →
          ReflTransGen graph.Inherits joined other) ∧
      (¬graph.Subclass second first → ¬graph.Subclass first second → info.isInterface = false →
        above.isInterface = false →
          graph.hierarchy.Climbs second first joined ∧ graph.hierarchy.Climbs first second joined) := by
  obtain ⟨joined, shared, meets, climbs⟩ := commonSuperclass_meets ordered found found'
  obtain ⟨joined', shared', meets', climbs'⟩ := commonSuperclass_meets ordered found' found
  obtain ⟨met, merged, meets''⟩ := merge_meets ordered found found'
  cases meets.unique ordered meets'.symm
  cases meets.unique ordered meets''
  obtain ⟨upper, upper'⟩ := meets.upper
  refine ⟨joined, shared, shared', merged, assignable_object.mp upper, assignable_object.mp upper',
    ?_, ?_⟩
  · intro other top stored plain left right
    exact meets.inherits ordered stored plain left right
  · intro loose loose' plain plain'
    exact ⟨climbs loose loose' plain plain', climbs' loose' loose plain' plain⟩

/-- Two boxed numbers share the class of numbers, and not the interface that both have. -/
theorem commonSuperclass_boxes : library.Ordered ∧
    ∃ info above, library.find? .boxedInteger = some info ∧
      library.find? .boxedLong = some above ∧
      library.hierarchy.commonSuperclass .boxedInteger .boxedLong = .ok .number ∧
      library.hierarchy.commonSuperclass .boxedLong .boxedInteger = .ok .number ∧
      VerificationType.merge library.hierarchy (.object (.object .boxedInteger))
        (.object (.object .boxedLong)) = .ok (.object (.object .number)) ∧
      library.Subclass .boxedInteger .number ∧ library.Subclass .boxedLong .number := by
  have ordered := library_wellFormed.toOrdered
  have found : library.find? .boxedInteger =
      some ⟨.boxedInteger, some .number, [.comparable], false⟩ := by
    rw [library_eq]
    decide +kernel
  have found' : library.find? .boxedLong =
      some ⟨.boxedLong, some .number, [.comparable], false⟩ := by
    rw [library_eq]
    decide +kernel
  have number : library.hierarchy.commonSuperclass .boxedInteger .boxedLong = .ok .number := by
    rw [library_eq]
    decide +kernel
  obtain ⟨joined, shared, shared', merged, left, right, -⟩ :=
    commonSuperclass_least ordered found found'
  cases number.symm.trans shared
  exact ⟨ordered, _, _, found, found', shared, shared', merged, left, right⟩

end ClassGraph

end MethodFlow
