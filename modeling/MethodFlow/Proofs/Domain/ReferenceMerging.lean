import MethodFlow.Domain.VerificationType
import MethodFlow.Proofs.Frame.Absorption
import MethodFlow.Proofs.Hierarchy.WellFormed

namespace MethodFlow

/-- The first reference type fits the second one. -/
inductive ClassGraph.Assignable (graph : ClassGraph) : RefType → RefType → Prop where
  | self (type : RefType) : Assignable graph type type
  | classes {sub super : BinaryName} (subclass : graph.Subclass sub super) :
      Assignable graph (.object sub) (.object super)
  | arrays {value : RefType} {super : BinaryName} (array : value.isArray = true)
      (above : super.isAboveArrays = true) : Assignable graph value (.object super)
  | elements {dimensions : Nat} {sub super : BinaryName} (subclass : graph.Subclass sub super) :
      Assignable graph (.objectArray dimensions sub) (.objectArray dimensions super)
  | primitives {dimensions fewer : Nat} {element : BaseType} {super : BinaryName}
      (deeper : fewer < dimensions) (above : super.isAboveArrays = true) :
      Assignable graph (.primitiveArray dimensions element) (.objectArray fewer super)
  | nested {dimensions fewer : Nat} {element super : BinaryName} (deeper : fewer < dimensions)
      (above : super.isAboveArrays = true) :
      Assignable graph (.objectArray dimensions element) (.objectArray fewer super)

namespace VerificationType

variable {graph : ClassGraph}

theorem answer_eq_ok {α : Type} {outcome : Except Unresolved α} {value : α} :
    answer outcome = .ok value ↔ outcome = .ok value := by
  cases outcome <;> simp [answer]

theorem isAssignableFrom_eq_true {expected value : RefType} :
    isAssignableFrom graph.hierarchy expected value = .ok true ↔ graph.Assignable value expected := by
  unfold isAssignableFrom
  split
  · rename_i same
    subst same
    simp [ClassGraph.Assignable.self]
  · rename_i different
    rw [answer_eq_ok]
    constructor
    · intro answered
      cases value with
      | object sub =>
        cases expected with
        | object super => exact .classes answered
        | objectArray => cases answered
        | primitiveArray => cases answered
      | primitiveArray dimensions element =>
        cases expected with
        | object super => exact .arrays rfl (by simpa [TypeHierarchy.isAssignable] using answered)
        | objectArray fewer super =>
          obtain ⟨deeper, above⟩ : fewer < dimensions ∧ super.isAboveArrays = true := by
            simpa [TypeHierarchy.isAssignable] using answered
          exact .primitives deeper above
        | primitiveArray =>
          simp only [TypeHierarchy.isAssignable, Except.ok.injEq, Bool.and_eq_true,
            decide_eq_true_eq] at answered
          obtain ⟨rfl, rfl⟩ := answered
          exact .self _
      | objectArray dimensions element =>
        cases expected with
        | object super => exact .arrays rfl (by simpa [TypeHierarchy.isAssignable] using answered)
        | primitiveArray => cases answered
        | objectArray fewer super =>
          simp only [TypeHierarchy.isAssignable] at answered
          split at answered
          · cases answered
          · split at answered
            · rename_i same
              exact same ▸ .elements answered
            · exact .nested (by omega) (by simpa using answered)
    · intro fits
      cases fits with
      | self => exact absurd rfl different
      | classes subclass => exact subclass
      | arrays array above =>
        cases value with
        | object => cases array
        | objectArray | primitiveArray => simp [TypeHierarchy.isAssignable, above]
      | @elements dimensions sub super subclass =>
        have answered : graph.hierarchy.isSubclass sub super = .ok true := subclass
        simp [TypeHierarchy.isAssignable, answered]
      | primitives deeper above => simp [TypeHierarchy.isAssignable, deeper, above]
      | nested deeper above =>
        simp [TypeHierarchy.isAssignable, above, Nat.lt_asymm deeper, Nat.ne_of_gt deeper]

theorem assignable_trans (wellFormed : graph.WellFormed) {lower middle upper : RefType}
    (below : graph.Assignable lower middle) (above : graph.Assignable middle upper) :
    graph.Assignable lower upper := by
  cases below with
  | self => exact above
  | classes subclass =>
    cases above with
    | self => exact .classes subclass
    | classes subclass' => exact .classes (wellFormed.toOrdered.subclass_trans subclass subclass')
    | arrays array _ => cases array
  | arrays array high =>
    cases above with
    | self => exact .arrays array high
    | classes subclass => exact .arrays array (wellFormed.isAboveArrays_of_subclass high subclass)
    | arrays array' _ => cases array'
  | elements subclass =>
    cases above with
    | self => exact .elements subclass
    | arrays _ high => exact .arrays rfl high
    | elements subclass' => exact .elements (wellFormed.toOrdered.subclass_trans subclass subclass')
    | nested deeper high => exact .nested deeper high
  | primitives deeper high =>
    cases above with
    | self => exact .primitives deeper high
    | arrays _ high' => exact .arrays rfl high'
    | elements subclass =>
      exact .primitives deeper (wellFormed.isAboveArrays_of_subclass high subclass)
    | nested deeper' high' => exact .primitives (Nat.lt_trans deeper' deeper) high'
  | nested deeper high =>
    cases above with
    | self => exact .nested deeper high
    | arrays _ high' => exact .arrays rfl high'
    | elements subclass => exact .nested deeper (wellFormed.isAboveArrays_of_subclass high subclass)
    | nested deeper' high' => exact .nested (Nat.lt_trans deeper' deeper) high'

theorem assignable_antisymm (ordered : graph.Ordered) {first second : RefType}
    (below : graph.Assignable first second) (above : graph.Assignable second first) :
    first = second := by
  cases below with
  | self => rfl
  | classes subclass =>
    cases above with
    | self => rfl
    | classes subclass' => rw [ordered.subclass_antisymm subclass subclass']
    | arrays array => cases array
  | arrays array =>
    cases above with
    | self => rfl
    | classes => cases array
    | arrays array' => cases array'
  | elements subclass =>
    cases above with
    | self => rfl
    | elements subclass' => rw [ordered.subclass_antisymm subclass subclass']
    | nested deeper => exact absurd deeper (Nat.lt_irrefl _)
  | primitives => cases above
  | nested deeper =>
    cases above with
    | self => rfl
    | elements => exact absurd deeper (Nat.lt_irrefl _)
    | nested deeper' => exact absurd deeper (Nat.lt_asymm deeper')

theorem assignable_root (wellFormed : graph.WellFormed) {type : RefType}
    (stored : ∀ name, type = .object name → ∃ info, graph.find? name = some info) :
    graph.Assignable type (.object .object) := by
  cases type with
  | object name =>
    obtain ⟨info, found⟩ := stored name rfl
    exact .classes (wellFormed.toOrdered.subclass_root found)
  | objectArray | primitiveArray => exact .arrays rfl (by decide)

theorem stored_of_classAbove {visited : List BinaryName} {name : BinaryName}
    {above : Option BinaryName} (fresh : visited.contains name = false)
    (found : classAbove graph.hierarchy visited (.object name) = .ok above) :
    ∃ info, graph.find? name = some info := by
  simp only [classAbove, fresh, Bool.false_eq_true, ↓reduceIte, bind_eq_ok, answer_eq_ok] at found
  obtain ⟨answer, interface, -⟩ := found
  obtain ⟨info, found, -⟩ := ClassGraph.isInterface_eq_ok.mp interface
  exact ⟨info, found⟩

theorem classAbove_eq_some (wellFormed : graph.WellFormed) {visited : List BinaryName}
    {type : RefType} {above : BinaryName}
    (found : classAbove graph.hierarchy visited type = .ok (some above)) :
    graph.Assignable type (.object above) ∧
      graph.Assignable (.object above) (.object .object) := by
  cases type with
  | object name =>
    simp only [classAbove] at found
    split at found
    · cases found
    · simp only [bind_eq_ok, answer_eq_ok] at found
      obtain ⟨interface, -, answered⟩ := found
      split at answered
      · cases answered
      · obtain ⟨info, stored, superclass⟩ :=
          ClassGraph.superclass_eq_ok.mp (answer_eq_ok.mp answered)
        obtain ⟨subclass, upper, stored'⟩ :=
          wellFormed.toOrdered.subclass_of_superclass stored superclass
        refine ⟨.classes subclass, assignable_root wellFormed ?_⟩
        rintro _ ⟨⟩
        exact ⟨upper, stored'⟩
  | objectArray | primitiveArray =>
    cases found
    exact ⟨.arrays rfl (by decide), .self _⟩

theorem closestAbove_upper (wellFormed : graph.WellFormed) {other : RefType} {steps : Nat}
    {visited : List BinaryName} {candidate : RefType} {above : BinaryName}
    (rooted : graph.Assignable candidate (.object .object))
    (rooted' : graph.Assignable other (.object .object))
    (found : closestAbove graph.hierarchy other steps visited candidate = .ok above) :
    graph.Assignable candidate (.object above) ∧ graph.Assignable other (.object above) := by
  induction steps generalizing visited candidate with
  | zero =>
    cases found
    exact ⟨rooted, rooted'⟩
  | succ steps ih =>
    obtain ⟨next, up, continued⟩ := bind_eq_ok.mp found
    cases next with
    | none =>
      cases continued
      exact ⟨rooted, rooted'⟩
    | some next =>
      obtain ⟨fits, rooted''⟩ := classAbove_eq_some wellFormed up
      obtain ⟨answer, asked, continued⟩ := bind_eq_ok.mp continued
      cases answer with
      | true =>
        cases continued
        exact ⟨fits, isAssignableFrom_eq_true.mp asked⟩
      | false =>
        obtain ⟨upper, upper'⟩ := ih rooted'' continued
        exact ⟨assignable_trans wellFormed fits upper, upper'⟩

theorem isAssignableFrom_of_ne {expected value : RefType} {fits : Bool} (different : expected ≠ value)
    (asked : isAssignableFrom graph.hierarchy expected value = .ok fits) :
    graph.hierarchy.isAssignable value expected = .ok fits := by
  rw [isAssignableFrom, if_neg different] at asked
  exact answer_eq_ok.mp asked

/-- Two classes that were compared are stored, and thus below the root. -/
theorem rooted_of_isSubclass (wellFormed : graph.WellFormed) {sub super : BinaryName} {fits : Bool}
    (different : sub ≠ super) (asked : graph.isSubclass sub super = .ok fits) :
    graph.Assignable (.object sub) (.object .object) ∧
      graph.Assignable (.object super) (.object .object) := by
  obtain ⟨info, above, found, found'⟩ := ClassGraph.stored_of_isSubclass different asked
  constructor
  · exact .classes (wellFormed.toOrdered.subclass_root found)
  · exact .classes (wellFormed.toOrdered.subclass_root found')

/-- A walk up that ends has looked both types up, as far as they are classes. -/
theorem rooted_of_closestAbove (wellFormed : graph.WellFormed) {candidate other : RefType}
    {steps : Nat} {above : BinaryName} {fits : Bool} (different : candidate ≠ other)
    (asked : isAssignableFrom graph.hierarchy candidate other = .ok fits)
    (found : closestAbove graph.hierarchy other (steps + 1) [] candidate = .ok above) :
    graph.Assignable candidate (.object .object) ∧ graph.Assignable other (.object .object) := by
  have answered := isAssignableFrom_of_ne different asked
  obtain ⟨next, up, continued⟩ := bind_eq_ok.mp found
  cases candidate with
  | object name =>
    obtain ⟨info, stored⟩ := stored_of_classAbove (by simp) up
    refine ⟨.classes (wellFormed.toOrdered.subclass_root stored), ?_⟩
    cases other with
    | object name' =>
      have distinct : name' ≠ name := fun same => different (same ▸ rfl)
      exact (rooted_of_isSubclass wellFormed distinct answered).1
    | objectArray | primitiveArray => exact .arrays rfl (by decide)
  | objectArray | primitiveArray =>
    refine ⟨.arrays rfl (by decide), ?_⟩
    cases other with
    | object name' =>
      cases up
      obtain ⟨answer, asked', -⟩ := bind_eq_ok.mp continued
      by_cases root : name' = .object
      · exact root ▸ .self _
      · have distinct : RefType.object .object ≠ .object name' := by
          simpa using fun same => root (Eq.symm same)
        exact (rooted_of_isSubclass wellFormed root
          (isAssignableFrom_of_ne distinct asked')).1
    | objectArray | primitiveArray => exact .arrays rfl (by decide)

theorem assignable_elements {dimensions : Nat} {sub super : BinaryName}
    (fits : graph.Assignable (.object sub) (.object super)) :
    graph.Assignable (.objectArray dimensions sub) (.objectArray dimensions super) := by
  cases fits with
  | self => exact .self _
  | classes subclass => exact .elements subclass
  | arrays array _ => cases array

theorem mergeReferences_upper (wellFormed : graph.WellFormed) {first second merged : RefType}
    {fits : Bool} (different : first ≠ second)
    (asked : isAssignableFrom graph.hierarchy first second = .ok fits)
    (met : mergeReferences graph.hierarchy first second = .ok merged) :
    graph.Assignable first merged ∧ graph.Assignable second merged := by
  have plain {above : BinaryName}
      (found : closestAbove graph.hierarchy second (graph.hierarchy.classCount + 2) [] first =
        .ok above) :
      graph.Assignable first (.object above) ∧ graph.Assignable second (.object above) := by
    obtain ⟨rooted, rooted'⟩ := rooted_of_closestAbove wellFormed different asked found
    exact closestAbove_upper wellFormed rooted rooted' found
  cases first with
  | object | primitiveArray =>
    obtain ⟨above, found, same⟩ := bind_eq_ok.mp met
    cases same
    exact plain found
  | objectArray dimensions element =>
    cases second with
    | object | primitiveArray =>
      obtain ⟨above, found, same⟩ := bind_eq_ok.mp met
      cases same
      exact plain found
    | objectArray dimensions' element' =>
      by_cases alike : dimensions = dimensions'
      · subst alike
        simp only [mergeReferences, ↓reduceIte] at met
        obtain ⟨above, found, same⟩ := bind_eq_ok.mp met
        cases same
        have distinct : element' ≠ element := fun same => different (same ▸ rfl)
        have answered := isAssignableFrom_of_ne different asked
        simp only [TypeHierarchy.isAssignable, Nat.lt_irrefl, ↓reduceIte] at answered
        obtain ⟨rooted', rooted⟩ := rooted_of_isSubclass wellFormed distinct answered
        obtain ⟨upper, upper'⟩ := closestAbove_upper wellFormed rooted rooted' found
        exact ⟨assignable_elements upper, assignable_elements upper'⟩
      · simp only [mergeReferences, alike, ↓reduceIte] at met
        obtain ⟨above, found, same⟩ := bind_eq_ok.mp met
        cases same
        exact plain found

/-- The second type fits the first one, as far as merging goes. -/
inductive Below (graph : ClassGraph) : VerificationType → VerificationType → Prop where
  | self (type : VerificationType) : Below graph type type
  | top (type : VerificationType) : Below graph type top
  | null (type : RefType) : Below graph null (object type)
  | references {value expected : RefType} (fits : graph.Assignable value expected) :
      Below graph (object value) (object expected)

theorem eq_of_below {value upper : VerificationType} (below : Below graph value upper)
    (proper : upper ≠ top) (unlike : upper.isReference = false) : value = upper := by
  cases below with
  | self => rfl
  | top => exact absurd rfl proper
  | null | references => cases unlike

theorem isReference_of_below {value upper : VerificationType} (below : Below graph value upper)
    (reference : upper.isReference = true) : value.isReference = true := by
  cases below with
  | self => exact reference
  | top => cases reference
  | null | references => rfl

theorem assignable_of_below {type type' : RefType} (below : Below graph (object type) (object type')) :
    graph.Assignable type type' := by
  cases below with
  | self => exact .self _
  | references fits => exact fits

theorem below_trans (wellFormed : graph.WellFormed) {lower middle upper : VerificationType}
    (first : Below graph lower middle) (second : Below graph middle upper) :
    Below graph lower upper := by
  cases first with
  | self => exact second
  | top => cases second <;> exact .top _
  | null =>
    cases second with
    | self => exact .null _
    | top => exact .top _
    | references => exact .null _
  | references fits =>
    cases second with
    | self => exact .references fits
    | top => exact .top _
    | references fits' => exact .references (assignable_trans wellFormed fits fits')

theorem below_merge (wellFormed : graph.WellFormed) {first second merged : VerificationType}
    (met : merge graph.hierarchy first second = .ok merged) :
    Below graph first merged ∧ Below graph second merged := by
  unfold merge at met
  split at met
  · rename_i same
    cases met
    exact ⟨.self _, same ▸ .self _⟩
  · rename_i different
    split at met
    · cases met
      exact ⟨.null _, .self _⟩
    · cases met
      exact ⟨.self _, .null _⟩
    · rename_i type type'
      have distinct : type ≠ type' := fun same => different (same ▸ rfl)
      simp only [bind_eq_ok] at met
      obtain ⟨fits, asked, continued⟩ := met
      split at continued
      · rename_i holds
        cases continued
        exact ⟨.self _, .references (isAssignableFrom_eq_true.mp (holds ▸ asked))⟩
      · obtain ⟨fits', asked', continued⟩ := bind_eq_ok.mp continued
        split at continued
        · rename_i holds
          cases continued
          exact ⟨.references (isAssignableFrom_eq_true.mp (holds ▸ asked')), .self _⟩
        · obtain ⟨reference, found, same⟩ := bind_eq_ok.mp continued
          cases same
          obtain ⟨upper, upper'⟩ := mergeReferences_upper wellFormed distinct asked found
          exact ⟨.references upper, .references upper'⟩
    · cases met
      exact ⟨.top _, .top _⟩

/-- A type absorbs exactly the types below it. -/
theorem absorbs_iff (wellFormed : graph.WellFormed) {upper lower : VerificationType} :
    (verifier graph.hierarchy).Absorbs upper lower ↔ Below graph lower upper := by
  constructor
  · intro absorbs
    exact (below_merge wellFormed absorbs).2
  · intro below
    show merge graph.hierarchy upper lower = .ok upper
    cases below with
    | self => simp [merge]
    | top => 
      unfold merge
      split
      · rfl
      · split <;> simp_all
    | null => simp [merge]
    | references fits =>
      have asked := isAssignableFrom_eq_true.mpr fits
      simp [merge, asked, bind, Except.bind, pure, Except.pure]

theorem verifier_joins (wellFormed : graph.WellFormed) : (verifier graph.hierarchy).Joins where
  self type := (absorbs_iff wellFormed).mpr (.self type)
  left merged := (absorbs_iff wellFormed).mpr (below_merge wellFormed merged).1
  right merged := (absorbs_iff wellFormed).mpr (below_merge wellFormed merged).2
  trans above below := by
    rw [absorbs_iff wellFormed] at above below ⊢
    exact below_trans wellFormed below above

theorem verifier_replaces (wellFormed : graph.WellFormed) :
    (verifier graph.hierarchy).Replaces := by
  intro upper lower value absorbs merged
  replace merged : merge graph.hierarchy lower upper = .ok value := merged
  cases (absorbs_iff wellFormed).mp absorbs with
  | self =>
    simp only [merge, ↓reduceIte, Except.ok.injEq] at merged
    exact merged.symm
  | top =>
    unfold merge at merged
    split at merged
    · rename_i same
      cases merged
      exact same
    · split at merged <;> simp_all
  | null =>
    cases merged
    rfl
  | @references type type' fits =>
    -- the first type fits the second one, and not the other way round unless they are the same
    have asked := isAssignableFrom_eq_true.mpr fits
    unfold merge at merged
    split at merged
    · rename_i same
      cases merged
      exact same
    · obtain ⟨answer, asked', continued⟩ := bind_eq_ok.mp merged
      cases answer with
      | true =>
        have same := assignable_antisymm wellFormed.toOrdered fits (isAssignableFrom_eq_true.mp asked')
        cases continued
        rw [same]
      | false =>
        simp only [asked, bind, Except.bind, Bool.false_eq_true, ↓reduceIte, pure, Except.pure,
          Except.ok.injEq] at continued
        exact continued.symm

theorem verifier_shrinks (hierarchy : TypeHierarchy) : (verifier hierarchy).Shrinks := by
  intro old new value merged
  have narrow (type : VerificationType) : 1 ≤ type.width := by cases type <;> simp [width]
  replace merged : merge hierarchy old new = .ok value := merged
  show value.width ≤ old.width ∧ value.width ≤ new.width
  unfold merge at merged
  split at merged
  · rename_i same
    cases merged
    exact ⟨Nat.le_refl _, Nat.le_of_eq (congrArg width same)⟩
  · split at merged
    · cases merged
      exact ⟨Nat.le_refl _, Nat.le_refl _⟩
    · cases merged
      exact ⟨Nat.le_refl _, Nat.le_refl _⟩
    · -- two references merge into a reference
      simp only [bind_eq_ok] at merged
      obtain ⟨fits, -, merged⟩ := merged
      split at merged
      · cases merged
        exact ⟨Nat.le_refl _, Nat.le_refl _⟩
      · obtain ⟨fits', -, merged⟩ := bind_eq_ok.mp merged
        split at merged
        · cases merged
          exact ⟨Nat.le_refl _, Nat.le_refl _⟩
        · obtain ⟨reference, -, same⟩ := bind_eq_ok.mp merged
          cases same
          exact ⟨Nat.le_refl _, Nat.le_refl _⟩
    · cases merged
      exact ⟨narrow old, narrow new⟩

end VerificationType

end MethodFlow
