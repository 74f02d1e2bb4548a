import MethodFlow.Proofs.Domain.Meeting

/-! Merging three verification types in either grouping. A reference type has no lowest supertype
with another one where interfaces or arrays of fewer dimensions are among its supertypes, so the two
groupings agree exactly where each result is above what the other grouping merged first. -/

namespace MethodFlow

namespace ClassGraph

variable {graph : ClassGraph} {first second third upper : RefType}

/-- The class that a type names, if it names one, is not an interface. -/
def NamesClass (graph : ClassGraph) : RefType → Prop
  | .object name | .objectArray _ name => graph.IsClass name
  | .primitiveArray _ _ => True

/-- A class, or an array with some number of dimensions of classes or primitive values. -/
def Level (graph : ClassGraph) (dimensions : Nat) : RefType → Prop
  | .object name => graph.IsClass name
  | .objectArray additional name => additional = dimensions ∧ graph.IsClass name
  | .primitiveArray additional _ => additional = dimensions

theorem Level.namesClass {dimensions : Nat} (level : graph.Level dimensions first) :
    graph.NamesClass first := by
  cases first with
  | object => exact level
  | objectArray => exact level.2
  | primitiveArray => trivial

theorem Closest.namesClass {met : RefType} (closest : graph.Closest first second met) :
    graph.NamesClass met := by
  cases closest with
  | elements closest | classes _ closest => exact closest.isClass

theorem assignable_of_elements {dimensions : Nat} {sub super : BinaryName}
    (fits : graph.Assignable (.objectArray dimensions sub) (.objectArray dimensions super)) :
    graph.Assignable (.object sub) (.object super) := by
  cases fits with
  | self => exact .self _
  | elements subclass => exact .classes subclass
  | nested deeper => exact absurd deeper (Nat.lt_irrefl _)

/-- Between two arrays of objects with as many dimensions are only such arrays. -/
theorem objectArray_between {dimensions : Nat} {sub super : BinaryName}
    (below : graph.Assignable (.objectArray dimensions sub) first)
    (above : graph.Assignable first (.objectArray dimensions super)) :
    ∃ element, first = .objectArray dimensions element := by
  cases below with
  | self => exact ⟨sub, rfl⟩
  | arrays => cases above
  | elements => exact ⟨_, rfl⟩
  | nested deeper =>
    cases above with
    | self => exact absurd deeper (Nat.lt_irrefl _)
    | elements => exact absurd deeper (Nat.lt_irrefl _)
    | nested deeper' => exact absurd deeper' (Nat.lt_asymm deeper)

/-- What two types have in common is below every type above both, apart from interfaces and arrays
that only some arrays fit. -/
theorem Closest.least {met : RefType} (closest : graph.Closest first second met)
    (fits : graph.Assignable first upper) (fits' : graph.Assignable second upper)
    (plain : graph.NamesClass upper)
    (alike : upper.isArray = true → ∃ dimensions element element',
      first = .objectArray dimensions element ∧ second = .objectArray dimensions element') :
    graph.Assignable met upper := by
  cases closest with
  | elements closest =>
    cases fits with
    | self =>
      exact VerificationType.assignable_elements
        (closest.least plain (.self _) (assignable_of_elements fits'))
    | arrays _ above => exact .arrays rfl above
    | elements subclass =>
      exact VerificationType.assignable_elements
        (closest.least plain (.classes subclass) (assignable_of_elements fits'))
    | nested deeper above => exact .nested deeper above
  | classes unlike closest =>
    cases upper with
    | object name => exact closest.least plain fits fits'
    | objectArray | primitiveArray =>
      obtain ⟨dimensions, element, element', same, same'⟩ := alike rfl
      exact absurd same' (unlike _ _ _ same)

theorem Meets.regrouped (wellFormed : graph.WellFormed) {left right merged merged' : RefType}
    (meets : graph.Meets first second left) (meets' : graph.Meets second third right)
    (met : graph.Meets left third merged) (met' : graph.Meets first right merged')
    (fits : graph.Assignable left merged') : graph.Assignable merged merged' := by
  have trans {lower middle upper : RefType} := @VerificationType.assignable_trans graph wellFormed
    lower middle upper
  have third_fits : graph.Assignable third merged' := trans meets'.upper.2 met'.upper.2
  cases met with
  | left => exact fits
  | right => exact third_fits
  | apart loose loose' closest =>
    -- The result of the other grouping is none of the three types: it is made from two of them.
    have made : graph.Closest first right merged' ∨
        (right = merged' ∧ graph.Closest second third merged') := by
      cases met' with
      | left => exact absurd (trans third_fits meets.upper.1) loose
      | apart _ _ closest' => exact .inl closest'
      | right =>
        cases meets' with
        | left => exact absurd (trans third_fits meets.upper.2) loose
        | right => exact absurd fits loose'
        | apart _ _ closest' => exact .inr ⟨rfl, closest'⟩
    refine closest.least fits third_fits ?_ ?_
    · rcases made with closest' | ⟨-, closest'⟩
      · exact closest'.namesClass
      · exact closest'.namesClass
    · intro array
      rcases made with closest' | ⟨rfl, closest'⟩
      · cases closest' with
        | classes => cases array
        | elements =>
          obtain ⟨element, rfl⟩ := objectArray_between meets.upper.1 fits
          cases meets' with
          | left fits' => exact absurd (trans fits' meets.upper.2) loose
          | right => exact ⟨_, _, _, rfl, rfl⟩
          | apart _ _ closest' =>
            cases closest' with
            | elements => exact ⟨_, _, _, rfl, rfl⟩
      · cases closest' with
        | classes => cases array
        | elements =>
          obtain ⟨element, rfl⟩ := objectArray_between meets.upper.2 fits
          exact ⟨_, _, _, rfl, rfl⟩

theorem Meets.level {dimensions : Nat} {met : RefType} (meets : graph.Meets first second met)
    (level : graph.Level dimensions first) (level' : graph.Level dimensions second) :
    graph.Level dimensions met := by
  cases meets with
  | left => exact level
  | right => exact level'
  | apart _ _ closest =>
    cases closest with
    | elements closest => exact ⟨level.1, closest.isClass⟩
    | classes _ closest => exact closest.isClass

/-- An array of one level that fits another one is of objects if the other one is, and else the
same. -/
theorem eq_or_objectArray_of_level {dimensions : Nat} (level : graph.Level dimensions first)
    (level' : graph.Level dimensions upper) (array : upper.isArray = true)
    (fits : graph.Assignable first upper) :
    first = upper ∨ ∃ element, first = .objectArray dimensions element := by
  cases fits with
  | self => exact .inl rfl
  | classes | arrays => cases array
  | elements => exact .inr ⟨_, by rw [level.1]⟩
  | primitives deeper => exact absurd (level.trans level'.1.symm) (Nat.ne_of_gt deeper)
  | nested deeper => exact absurd (level.1.trans level'.1.symm) (Nat.ne_of_gt deeper)

/-- Among the types of one level, what two of them merge into is their lowest supertype. -/
theorem Meets.least {dimensions : Nat} {met : RefType} (meets : graph.Meets first second met)
    (level : graph.Level dimensions first) (level' : graph.Level dimensions second)
    (level'' : graph.Level dimensions upper) (fits : graph.Assignable first upper)
    (fits' : graph.Assignable second upper) : graph.Assignable met upper := by
  cases meets with
  | left => exact fits
  | right => exact fits'
  | apart loose loose' closest =>
    refine closest.least fits fits' level''.namesClass fun array => ?_
    rcases eq_or_objectArray_of_level level level'' array fits with rfl | ⟨element, rfl⟩
    · exact absurd fits' loose
    · rcases eq_or_objectArray_of_level level' level'' array fits' with rfl | ⟨element', rfl⟩
      · exact absurd fits loose'
      · exact ⟨_, _, _, rfl, rfl⟩

theorem library_classes : ∀ name ∈ [BinaryName.boxedInteger, .boxedLong, .string],
    library.IsClass name := by
  have shown : ∀ name ∈ [BinaryName.boxedInteger, .boxedLong, .string],
      library.isInterface name = .ok false := by
    rw [library_eq]
    decide +kernel
  exact fun name member => .inr (shown name member)

end ClassGraph

namespace VerificationType

variable {graph : ClassGraph} {first second third : VerificationType}

/-- The type is one of the level of a reference type, or no type of a class or an array. -/
def OfLevel (graph : ClassGraph) (dimensions : Nat) : VerificationType → Prop
  | object type => graph.Level dimensions type
  | _ => True

theorem below_antisymm (wellFormed : graph.WellFormed) (below : Below graph first second)
    (above : Below graph second first) : first = second := by
  cases below with
  | self => rfl
  | top => cases above <;> rfl
  | null => cases above
  | references fits =>
    cases above with
    | self => rfl
    | references fits' => rw [assignable_antisymm wellFormed.toOrdered fits fits']

theorem merge_null {hierarchy : TypeHierarchy} {type : VerificationType}
    (reference : type.isReference = true) : merge hierarchy null type = .ok type := by
  rcases eq_of_isReference reference with rfl | ⟨type, rfl⟩ <;> rfl

theorem merge_null_right {hierarchy : TypeHierarchy} {type : VerificationType}
    (reference : type.isReference = true) : merge hierarchy type null = .ok type := by
  rcases eq_of_isReference reference with rfl | ⟨type, rfl⟩ <;> rfl

theorem meets_of_merge (wellFormed : graph.WellFormed) {type type' : RefType}
    {merged : VerificationType} (known : graph.Knows type) (known' : graph.Knows type')
    (met : merge graph.hierarchy (object type) (object type') = .ok merged) :
    ∃ result, merged = object result ∧ graph.Meets type type' result := by
  obtain ⟨result, met', meets⟩ := merge_object wellFormed known known'
  cases met.symm.trans met'
  exact ⟨result, rfl, meets⟩

variable {left right merged merged' : VerificationType}

/-- What the left grouping yields is below what the right one yields if what it merges first is. -/
theorem below_regrouped (wellFormed : graph.WellFormed) (known : first.KnownIn graph)
    (known' : second.KnownIn graph) (known'' : third.KnownIn graph)
    (met : merge graph.hierarchy first second = .ok left)
    (met' : merge graph.hierarchy second third = .ok right)
    (grouped : merge graph.hierarchy left third = .ok merged)
    (grouped' : merge graph.hierarchy first right = .ok merged')
    (below : Below graph left merged') : Below graph merged merged' := by
  have trans {lower middle upper : VerificationType} := @below_trans graph wellFormed
    lower middle upper
  have below_right := (below_merge wellFormed grouped').2
  have third_below := trans (below_merge wellFormed met').2 below_right
  cases reference : merged'.isReference with
  | false =>
    by_cases proper : merged' = top
    · exact proper ▸ .top _
    · have same := eq_of_below below proper reference
      have same' := eq_of_below third_below proper reference
      simp only [same, same', merge, ↓reduceIte, Except.ok.injEq] at grouped
      exact grouped ▸ .self _
  | true =>
    have first_below := trans (below_merge wellFormed met).1 below
    have second_below := trans (below_merge wellFormed met).2 below
    rcases eq_of_isReference (isReference_of_below second_below reference) with rfl | ⟨second, rfl⟩
    · -- null adds nothing, and the groupings are one merge of the other two
      cases (merge_null_right (isReference_of_below first_below reference)).symm.trans met
      cases (merge_null (isReference_of_below third_below reference)).symm.trans met'
      cases grouped.symm.trans grouped'
      exact .self _
    rcases eq_of_isReference (isReference_of_below first_below reference) with rfl | ⟨first, rfl⟩
    · cases met
      cases met'.symm.trans grouped
      exact below_right
    rcases eq_of_isReference (isReference_of_below third_below reference) with rfl | ⟨third, rfl⟩
    · cases (merge_null_right (isReference_of_below below reference)).symm.trans grouped
      exact below
    obtain ⟨left, rfl, meets⟩ := meets_of_merge wellFormed known known' met
    obtain ⟨right, rfl, meets'⟩ := meets_of_merge wellFormed known' known'' met'
    obtain ⟨merged, rfl, joined⟩ :=
      meets_of_merge wellFormed (meets.known known known') known'' grouped
    obtain ⟨merged', rfl, joined'⟩ :=
      meets_of_merge wellFormed known (meets'.known known' known'') grouped'
    exact .references
      (meets.regrouped wellFormed meets' joined joined' (assignable_of_below below))

theorem below_of_uppers (wellFormed : graph.WellFormed) {dimensions : Nat} {upper : VerificationType}
    (known : first.KnownIn graph) (known' : second.KnownIn graph)
    (level : first.OfLevel graph dimensions) (level' : second.OfLevel graph dimensions)
    (level'' : upper.OfLevel graph dimensions)
    (met : merge graph.hierarchy first second = .ok merged) (below : Below graph first upper)
    (below' : Below graph second upper) : Below graph merged upper := by
  cases reference : upper.isReference with
  | false =>
    by_cases proper : upper = top
    · exact proper ▸ .top _
    · have same := eq_of_below below proper reference
      have same' := eq_of_below below' proper reference
      simp only [same, same', merge, ↓reduceIte, Except.ok.injEq] at met
      exact met ▸ .self _
  | true =>
    rcases eq_of_isReference (isReference_of_below below reference) with rfl | ⟨first, rfl⟩
    · cases (merge_null (isReference_of_below below' reference)).symm.trans met
      exact below'
    rcases eq_of_isReference (isReference_of_below below' reference) with rfl | ⟨second, rfl⟩
    · cases met
      exact below
    obtain ⟨merged, rfl, meets⟩ := meets_of_merge wellFormed known known' met
    cases upper with
    | object upper =>
      exact .references (meets.least level level' level'' (assignable_of_below below)
        (assignable_of_below below'))
    | null => cases below
    | _ => cases reference

theorem ofLevel_merge (wellFormed : graph.WellFormed) {dimensions : Nat}
    (known : first.KnownIn graph) (known' : second.KnownIn graph)
    (level : first.OfLevel graph dimensions) (level' : second.OfLevel graph dimensions)
    (met : merge graph.hierarchy first second = .ok merged) : merged.OfLevel graph dimensions := by
  by_cases same : first = second
  · simp only [merge, same, ↓reduceIte, Except.ok.injEq] at met
    exact met ▸ level'
  cases references : first.isReference && second.isReference with
  | false =>
    cases (merge_eq_top same references).symm.trans met
    trivial
  | true =>
    obtain ⟨reference, reference'⟩ := Bool.and_eq_true_iff.mp references
    rcases eq_of_isReference reference with rfl | ⟨first, rfl⟩
    · cases (merge_null reference').symm.trans met
      exact level'
    rcases eq_of_isReference reference' with rfl | ⟨second, rfl⟩
    · cases met
      exact level
    obtain ⟨merged, rfl, meets⟩ := meets_of_merge wellFormed known known' met
    exact meets.level level level'

/-- Merging three types in either grouping is defined. The results are equal exactly where each of
them is above what the other grouping merged first, and so among types of one level. -/
theorem merge_assoc_iff (wellFormed : graph.WellFormed) (known : first.KnownIn graph)
    (known' : second.KnownIn graph) (known'' : third.KnownIn graph) :
    ∃ left right merged merged', merge graph.hierarchy first second = .ok left ∧
      merge graph.hierarchy second third = .ok right ∧
      merge graph.hierarchy left third = .ok merged ∧
      merge graph.hierarchy first right = .ok merged' ∧
      (merged = merged' ↔ Below graph left merged' ∧ Below graph right merged) ∧
      ∀ dimensions, first.OfLevel graph dimensions → second.OfLevel graph dimensions →
        third.OfLevel graph dimensions → merged = merged' := by
  obtain ⟨left, met, commuted, left_known⟩ := merge_comm_ok wellFormed known known'
  obtain ⟨right, met', commuted', right_known⟩ := merge_comm_ok wellFormed known' known''
  obtain ⟨merged, grouped, turned, -⟩ := merge_comm_ok wellFormed left_known known''
  obtain ⟨merged', grouped', turned', -⟩ := merge_comm_ok wellFormed known right_known
  have equal (below : Below graph left merged') (below' : Below graph right merged) :
      merged = merged' := by
    -- the other direction is the same one with the first and the third type exchanged
    have lower := below_regrouped wellFormed known known' known'' met met' grouped grouped' below
    have upper := below_regrouped wellFormed known'' known' known commuted' commuted turned' turned
      below'
    exact below_antisymm wellFormed lower upper
  refine ⟨left, right, merged, merged', met, met', grouped, grouped', ⟨?_, ?_⟩, ?_⟩
  · rintro rfl
    exact ⟨(below_merge wellFormed grouped).1, (below_merge wellFormed grouped').2⟩
  · rintro ⟨below, below'⟩
    exact equal below below'
  · intro dimensions level level' level''
    have trans {lower middle upper : VerificationType} := @below_trans graph wellFormed
      lower middle upper
    have left_level := ofLevel_merge wellFormed known known' level level' met
    have right_level := ofLevel_merge wellFormed known' known'' level' level'' met'
    have merged_level := ofLevel_merge wellFormed left_known known'' left_level level'' grouped
    have merged_level' := ofLevel_merge wellFormed known right_known level right_level grouped'
    have uppers := below_merge wellFormed grouped
    have uppers' := below_merge wellFormed grouped'
    apply equal
    · exact below_of_uppers wellFormed known known' level level' merged_level' met uppers'.1
        (trans (below_merge wellFormed met').1 uppers'.2)
    · exact below_of_uppers wellFormed known' known'' level' level'' merged_level met'
        (trans (below_merge wellFormed met).2 uppers.1) uppers.2

/-- Arrays of three library classes merge into arrays of objects in either grouping. -/
theorem merge_assoc_boxes :
    KnownIn ClassGraph.library (object (.objectArray 0 .boxedInteger)) ∧
      KnownIn ClassGraph.library (object (.objectArray 0 .boxedLong)) ∧
      KnownIn ClassGraph.library (object (.objectArray 0 .string)) ∧
      ∃ left right merged,
        merge ClassGraph.library.hierarchy (object (.objectArray 0 .boxedInteger))
          (object (.objectArray 0 .boxedLong)) = .ok left ∧
        merge ClassGraph.library.hierarchy (object (.objectArray 0 .boxedLong))
          (object (.objectArray 0 .string)) = .ok right ∧
        merge ClassGraph.library.hierarchy left (object (.objectArray 0 .string)) = .ok merged ∧
        merge ClassGraph.library.hierarchy (object (.objectArray 0 .boxedInteger)) right =
          .ok merged := by
  have known : KnownIn ClassGraph.library (object (.objectArray 0 .boxedInteger)) :=
    ClassGraph.library_named _ (by simp)
  have known' : KnownIn ClassGraph.library (object (.objectArray 0 .boxedLong)) :=
    ClassGraph.library_named _ (by simp)
  have known'' : KnownIn ClassGraph.library (object (.objectArray 0 .string)) :=
    ClassGraph.library_named _ (by simp)
  obtain ⟨left, right, merged, merged', met, met', grouped, grouped', -, equal⟩ :=
    merge_assoc_iff ClassGraph.library_wellFormed known known' known''
  have same := equal 0 ⟨rfl, ClassGraph.library_classes _ (by simp)⟩
    ⟨rfl, ClassGraph.library_classes _ (by simp)⟩ ⟨rfl, ClassGraph.library_classes _ (by simp)⟩
  exact ⟨known, known', known'', left, right, merged, met, met', grouped, same ▸ grouped'⟩

/-- Strings and boxed integers merge into objects, though both are comparable. So with comparables
as the third type one grouping ends at objects, and the other one at comparables. -/
theorem merge_not_assoc :
    ClassGraph.library.WellFormed ∧
      KnownIn ClassGraph.library (object (.object .string)) ∧
      KnownIn ClassGraph.library (object (.object .boxedInteger)) ∧
      KnownIn ClassGraph.library (object (.object .comparable)) ∧
      (do
        let left ← merge ClassGraph.library.hierarchy (object (.object .string))
          (object (.object .boxedInteger))
        merge ClassGraph.library.hierarchy left (object (.object .comparable))) =
        .ok (object (.object .object)) ∧
      (do
        let right ← merge ClassGraph.library.hierarchy (object (.object .boxedInteger))
          (object (.object .comparable))
        merge ClassGraph.library.hierarchy (object (.object .string)) right) =
        .ok (object (.object .comparable)) := by
  refine ⟨ClassGraph.library_wellFormed, ?_, ?_, ?_, by decide +kernel, by decide +kernel⟩
  · exact ClassGraph.library_named _ (by simp)
  · exact ClassGraph.library_named _ (by simp)
  · exact ClassGraph.library_named _ (by simp)

end VerificationType

end MethodFlow
