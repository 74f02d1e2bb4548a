import MethodFlow.Proofs.Domain.ReferenceMerging

namespace MethodFlow

namespace ClassGraph

open Relation (ReflTransGen TransGen)

variable {graph : ClassGraph} {first second : RefType} {name other super : BinaryName}

/-- The root, or a class or interface that is stored. -/
def Named (graph : ClassGraph) (name : BinaryName) : Prop :=
  name = .object ∨ ∃ info, graph.find? name = some info

/-- A class, and not an interface. -/
def IsClass (graph : ClassGraph) (name : BinaryName) : Prop :=
  name = .object ∨ graph.isInterface name = .ok false

/-- What a type is made of is the root, stored or primitive. -/
def Knows (graph : ClassGraph) : RefType → Prop
  | .object name | .objectArray _ name => graph.Named name
  | .primitiveArray _ _ => True

theorem IsClass.named (isClass : graph.IsClass name) : graph.Named name := by
  rcases isClass with root | interface
  · exact .inl root
  · obtain ⟨info, found, -⟩ := isInterface_eq_ok.mp interface
    exact .inr ⟨info, found⟩

theorem isClass_of_found {info : ClassInfo} (found : graph.find? name = some info)
    (interface : info.isInterface = false) : graph.IsClass name :=
  .inr (isInterface_eq_ok.mpr ⟨info, found, interface⟩)

namespace Ordered

theorem isInterface_of_isClass (ordered : graph.Ordered) {info : ClassInfo}
    (isClass : graph.IsClass name) (found : graph.find? name = some info) :
    info.isInterface = false := by
  rcases isClass with rfl | interface
  · exact ordered.root_not_interface found
  · obtain ⟨info', found', same⟩ := isInterface_eq_ok.mp interface
    cases found.symm.trans found'
    exact same

theorem assignable_root (ordered : graph.Ordered) {type : RefType} (known : graph.Knows type) :
    graph.Assignable type (.object .object) := by
  cases type with
  | object name =>
    rcases known with rfl | ⟨info, found⟩
    · exact .self _
    · exact .classes (ordered.subclass_root found)
  | objectArray | primitiveArray => exact .arrays rfl (by decide)

/-- What is above a class and not the class itself is above its superclass, if it is a class. -/
theorem subclass_superclass (ordered : graph.Ordered) {info : ClassInfo}
    (found : graph.find? name = some info) (superclass : info.superclass = some super)
    (isClass : graph.IsClass other) (different : name ≠ other)
    (subclass : graph.Subclass name other) : graph.Subclass super other := by
  rcases ordered.closed.subclass_iff.mp subclass with same | ⟨info', top, found', stored, path⟩
  · exact absurd same different
  · have plain := ordered.isInterface_of_isClass isClass stored
    rw [plain] at path
    rcases path.cases_head with same | ⟨next, ⟨own, own_found, declared⟩, rest⟩
    · exact absurd same different
    · cases found.symm.trans own_found
      simp only [nextTypes, superclass, Option.toList_some, Bool.false_eq_true, ↓reduceIte,
        List.append_nil, List.mem_singleton] at declared
      subst declared
      obtain ⟨-, upper, found_upper⟩ := ordered.subclass_of_superclass found superclass
      exact ordered.closed.subclass_iff.mpr (.inr ⟨upper, top, found_upper, stored, plain ▸ rest⟩)

theorem eq_root_of_interface (ordered : graph.Ordered) {info : ClassInfo}
    (found : graph.find? name = some info) (interface : info.isInterface = true)
    (isClass : graph.IsClass other) (subclass : graph.Subclass name other) : other = .object := by
  have different : name ≠ other := by
    rintro rfl
    simp [ordered.isInterface_of_isClass isClass found] at interface
  have rooted := ordered.subclass_superclass found (ordered.interfaces found interface)
    isClass different subclass
  rcases ordered.closed.subclass_iff.mp rooted with same | ⟨_, _, _, _, path⟩
  · exact same.symm
  · exact ordered.eq_root_of_path path

end Ordered

theorem WellFormed.eq_root_of_array (wellFormed : graph.WellFormed) (array : first.isArray = true)
    (isClass : graph.IsClass other) (fits : graph.Assignable first (.object other)) :
    other = .object := by
  cases fits with
  | self => cases array
  | classes => cases array
  | arrays _ above =>
    simp only [BinaryName.isAboveArrays, Bool.or_eq_true, decide_eq_true_eq, or_assoc] at above
    rcases above with root | special
    · exact root
    · rcases isClass with root | interface
      · exact root
      · obtain ⟨info, found, plain⟩ := isInterface_eq_ok.mp interface
        simp [(wellFormed.arrays special found).1] at plain

structure ClosestClass (graph : ClassGraph) (first second : RefType) (name : BinaryName) :
    Prop where
  isClass : graph.IsClass name
  left : graph.Assignable first (.object name)
  right : graph.Assignable second (.object name)
  least : ∀ {other}, graph.IsClass other → graph.Assignable first (.object other) →
    graph.Assignable second (.object other) → graph.Assignable (.object name) (.object other)

theorem ClosestClass.symm (closest : graph.ClosestClass first second name) :
    graph.ClosestClass second first name where
  isClass := closest.isClass
  left := closest.right
  right := closest.left
  least isClass left right := closest.least isClass right left

theorem ClosestClass.unique (ordered : graph.Ordered)
    (closest : graph.ClosestClass first second name)
    (closest' : graph.ClosestClass first second other) : name = other := by
  have below := closest.least closest'.isClass closest'.left closest'.right
  have above := closest'.least closest.isClass closest.left closest.right
  cases VerificationType.assignable_antisymm ordered below above
  rfl

theorem closestClass_self (isClass : graph.IsClass name)
    (fits : graph.Assignable second (.object name)) :
    graph.ClosestClass (.object name) second name where
  isClass := isClass
  left := .self _
  right := fits
  least _ left _ := left

theorem closestClass_root
    (only : ∀ other, graph.IsClass other → graph.Assignable first (.object other) → other = .object)
    (rooted : graph.Assignable first (.object .object))
    (rooted' : graph.Assignable second (.object .object)) :
    graph.ClosestClass first second .object where
  isClass := .inl rfl
  left := rooted
  right := rooted'
  least isClass left _ := only _ isClass left ▸ .self _

/-- An interface has nothing but the root in common with other types. -/
theorem ClosestClass.of_interface (ordered : graph.Ordered) {info : ClassInfo}
    (found : graph.find? name = some info) (interface : info.isInterface = true)
    (rooted : graph.Assignable second (.object .object)) :
    graph.ClosestClass (.object name) second .object := by
  refine closestClass_root ?_ (.classes (ordered.subclass_root found)) rooted
  intro upper isClass fits
  cases fits with
  | self => simp [ordered.isInterface_of_isClass isClass found] at interface
  | classes subclass => exact ordered.eq_root_of_interface found interface isClass subclass
  | arrays array => cases array

/-- A class that the other type does not fit has with it what its superclass has. -/
theorem ClosestClass.of_superclass (ordered : graph.Ordered) {info : ClassInfo}
    (found : graph.find? name = some info) (superclass : info.superclass = some super)
    (apart : ¬graph.Assignable second (.object name))
    (closest : graph.ClosestClass (.object super) second other) :
    graph.ClosestClass (.object name) second other where
  isClass := closest.isClass
  left := by
    have up := (ordered.subclass_of_superclass found superclass).1
    cases closest.left with
    | self => exact .classes up
    | classes subclass => exact .classes (ordered.subclass_trans up subclass)
    | arrays array => cases array
  right := closest.right
  least isClass left right := by
    refine closest.least isClass ?_ right
    cases left with
    | self => exact absurd right apart
    | arrays array => cases array
    | classes subclass =>
      exact .classes (ordered.subclass_superclass found superclass isClass
        (fun same => apart (same ▸ right)) subclass)

/-- What two types have in common of which neither fits the other: the lowest class above both, or
above the elements of arrays of objects with as many dimensions. -/
inductive Closest (graph : ClassGraph) : RefType → RefType → RefType → Prop where
  | elements {dimensions : Nat} {first second name : BinaryName}
      (closest : graph.ClosestClass (.object first) (.object second) name) :
      Closest graph (.objectArray dimensions first) (.objectArray dimensions second)
        (.objectArray dimensions name)
  | classes {first second : RefType} {name : BinaryName}
      (unlike : ∀ dimensions element element', first = .objectArray dimensions element →
        second ≠ .objectArray dimensions element')
      (closest : graph.ClosestClass first second name) : Closest graph first second (.object name)

/-- What two references merge into. -/
inductive Meets (graph : ClassGraph) : RefType → RefType → RefType → Prop where
  | left {first second : RefType} (fits : graph.Assignable second first) :
      Meets graph first second first
  | right {first second : RefType} (fits : graph.Assignable first second) :
      Meets graph first second second
  | apart {first second met : RefType} (loose : ¬graph.Assignable second first)
      (loose' : ¬graph.Assignable first second) (closest : graph.Closest first second met) :
      Meets graph first second met

theorem Closest.symm {met : RefType} (closest : graph.Closest first second met) :
    graph.Closest second first met := by
  cases closest with
  | elements closest => exact .elements closest.symm
  | classes unlike closest =>
    exact .classes (fun _ _ _ array array' => unlike _ _ _ array' array) closest.symm

theorem Closest.unique (ordered : graph.Ordered) {met met' : RefType}
    (closest : graph.Closest first second met) (closest' : graph.Closest first second met') :
    met = met' := by
  cases closest with
  | elements closest =>
    cases closest' with
    | elements closest' => rw [closest.unique ordered closest']
    | classes unlike => exact absurd rfl (unlike _ _ _ rfl)
  | classes unlike closest =>
    cases closest' with
    | elements => exact absurd rfl (unlike _ _ _ rfl)
    | classes _ closest' => rw [closest.unique ordered closest']

theorem Closest.upper {met : RefType} (closest : graph.Closest first second met) :
    graph.Assignable first met ∧ graph.Assignable second met := by
  cases closest with
  | elements closest =>
    exact ⟨VerificationType.assignable_elements closest.left,
      VerificationType.assignable_elements closest.right⟩
  | classes _ closest => exact ⟨closest.left, closest.right⟩

theorem Closest.known {met : RefType} (closest : graph.Closest first second met) :
    graph.Knows met := by
  cases closest with
  | elements closest | classes _ closest => exact closest.isClass.named

namespace Meets

variable {met met' : RefType}

theorem symm (meets : graph.Meets first second met) : graph.Meets second first met := by
  cases meets with
  | left fits => exact .right fits
  | right fits => exact .left fits
  | apart loose loose' closest => exact .apart loose' loose closest.symm

theorem upper (meets : graph.Meets first second met) :
    graph.Assignable first met ∧ graph.Assignable second met := by
  cases meets with
  | left fits => exact ⟨.self _, fits⟩
  | right fits => exact ⟨fits, .self _⟩
  | apart _ _ closest => exact closest.upper

theorem known (meets : graph.Meets first second met) (known : graph.Knows first)
    (known' : graph.Knows second) : graph.Knows met := by
  cases meets with
  | left => exact known
  | right => exact known'
  | apart _ _ closest => exact closest.known

theorem unique (ordered : graph.Ordered) (meets : graph.Meets first second met)
    (meets' : graph.Meets first second met') : met = met' := by
  have same := @VerificationType.assignable_antisymm graph ordered
  cases meets with
  | left fits =>
    cases meets' with
    | left => rfl
    | right fits' => exact same fits' fits
    | apart loose => exact absurd fits loose
  | right fits =>
    cases meets' with
    | left fits' => exact same fits' fits
    | right => rfl
    | apart _ loose' => exact absurd fits loose'
  | apart loose loose' closest =>
    cases meets' with
    | left fits => exact absurd fits loose
    | right fits => exact absurd fits loose'
    | apart _ _ closest' => exact closest.unique ordered closest'

end Meets

theorem library_named : ∀ name ∈ [BinaryName.boxedInteger, .boxedLong, .string, .comparable],
    library.Named name := by
  have found : ∀ name ∈ [BinaryName.boxedInteger, .boxedLong, .string, .comparable],
      (library.find? name).isSome := by
    rw [library_eq]
    decide +kernel
  exact fun name member => .inr (Option.isSome_iff_exists.mp (found name member))

end ClassGraph

namespace VerificationType

open Relation (TransGen)

variable {graph : ClassGraph}

/-- What a type is made of is the root, stored or primitive. -/
def KnownIn (graph : ClassGraph) : VerificationType → Prop
  | object type => graph.Knows type
  | _ => True

theorem stored_of_named (ordered : graph.Ordered) {name other : BinaryName}
    (different : name ≠ other) (named : graph.Named name) (named' : graph.Named other) :
    (∃ info, graph.find? name = some info) ∧ ∃ info, graph.find? other = some info := by
  rcases named with rfl | ⟨info, found⟩
  · rcases named' with rfl | ⟨info, found⟩
    · exact absurd rfl different
    · exact ⟨ordered.root_stored found, info, found⟩
  · rcases named' with rfl | stored
    · exact ⟨⟨info, found⟩, ordered.root_stored found⟩
    · exact ⟨⟨info, found⟩, stored⟩

theorem isSubclass_ok (ordered : graph.Ordered) {sub super : BinaryName}
    (named : graph.Named sub) (named' : graph.Named super) :
    ∃ fits, graph.isSubclass sub super = .ok fits := by
  by_cases same : sub = super
  · exact ⟨true, by simp [ClassGraph.isSubclass, same, pure, Except.pure]⟩
  · obtain ⟨⟨info, found⟩, above, found'⟩ := stored_of_named ordered same named named'
    exact ordered.closed.isSubclass_ok found found'

theorem isAssignable_ok (ordered : graph.Ordered) {value expected : RefType}
    (known : graph.Knows value) (known' : graph.Knows expected) :
    ∃ fits, graph.hierarchy.isAssignable value expected = .ok fits := by
  cases value with
  | object sub =>
    cases expected with
    | object super => exact isSubclass_ok ordered known known'
    | objectArray | primitiveArray => exact ⟨_, rfl⟩
  | primitiveArray => cases expected <;> exact ⟨_, rfl⟩
  | objectArray dimensions sub =>
    cases expected with
    | object | primitiveArray => exact ⟨_, rfl⟩
    | objectArray fewer super =>
      simp only [TypeHierarchy.isAssignable]
      split
      · exact ⟨_, rfl⟩
      · split
        · exact isSubclass_ok ordered known known'
        · exact ⟨_, rfl⟩

theorem isAssignableFrom_ok (ordered : graph.Ordered) {expected value : RefType}
    (known : graph.Knows expected) (known' : graph.Knows value) :
    ∃ fits, isAssignableFrom graph.hierarchy expected value = .ok fits := by
  unfold isAssignableFrom
  split
  · exact ⟨true, rfl⟩
  · simp only [answer_eq_ok]
    exact isAssignable_ok ordered known' known

theorem isAssignableFrom_eq_false (ordered : graph.Ordered) {expected value : RefType}
    (known : graph.Knows expected) (known' : graph.Knows value)
    (loose : ¬graph.Assignable value expected) :
    isAssignableFrom graph.hierarchy expected value = .ok false := by
  obtain ⟨fits, asked⟩ := isAssignableFrom_ok ordered known known'
  cases fits with
  | true => exact absurd (isAssignableFrom_eq_true.mp asked) loose
  | false => exact asked

theorem classAbove_of_found {visited : List BinaryName} {name : BinaryName} {info : ClassInfo}
    (found : graph.find? name = some info) (fresh : visited.contains name = false) :
    classAbove graph.hierarchy visited (.object name) =
      .ok (if info.isInterface then none else info.superclass) := by
  have interface : graph.hierarchy.isInterface name = .ok info.isInterface :=
    ClassGraph.isInterface_eq_ok.mpr ⟨info, found, rfl⟩
  have superclass : graph.hierarchy.superclass name = .ok info.superclass :=
    ClassGraph.superclass_eq_ok.mpr ⟨info, found, rfl⟩
  simp only [classAbove, fresh, interface, superclass, answer, bind, Except.bind, pure, Except.pure,
    Bool.false_eq_true, ↓reduceIte]
  split <;> rfl

/-- The walk up from a class finds the lowest class that the other type fits as well. -/
theorem closestAbove_closest (ordered : graph.Ordered) {other : RefType}
    (known : graph.Knows other) {steps : Nat} {visited : List BinaryName} {name : BinaryName}
    {info : ClassInfo} (found : graph.find? name = some info)
    (enough : graph.unseen visited < steps)
    (below : ∀ lower ∈ visited, TransGen (graph.Above true) lower name)
    (loose : ¬graph.Assignable other (.object name)) :
    ∃ top, closestAbove graph.hierarchy other steps visited (.object name) = .ok top ∧
      graph.ClosestClass (.object name) other top := by
  have rooted := ordered.assignable_root known
  revert loose
  refine ordered.superclass_induction
    (motive := fun steps visited name => ¬graph.Assignable other (.object name) →
      ∃ top, closestAbove graph.hierarchy other steps visited (.object name) = .ok top ∧
        graph.ClosestClass (.object name) other top) ?_ ?_ ?_ found enough below
  · intro _ _ _ _ loose
    exact absurd rooted loose
  · intro steps visited name info fresh found interface _
    have up := classAbove_of_found found fresh
    rw [interface] at up
    exact ⟨.object, bind_eq_ok.mpr ⟨none, up, rfl⟩,
      .of_interface ordered found interface rooted⟩
  · intro steps visited name info super above fresh found plain superclass found' plain' ih loose
    have isClass := ClassGraph.isClass_of_found found' plain'
    have up := classAbove_of_found found fresh
    rw [plain, superclass] at up
    by_cases fits : graph.Assignable other (.object super)
    · refine ⟨super, ?_,
        .of_superclass ordered found superclass loose (ClassGraph.closestClass_self isClass fits)⟩
      exact bind_eq_ok.mpr ⟨some super, up,
        bind_eq_ok.mpr ⟨true, isAssignableFrom_eq_true.mpr fits, rfl⟩⟩
    · obtain ⟨top, walked, closest⟩ := ih fits
      refine ⟨top, ?_, .of_superclass ordered found superclass loose closest⟩
      have missed : isAssignableFrom graph.hierarchy (.object super) other = .ok false :=
        isAssignableFrom_eq_false ordered isClass.named known fits
      exact bind_eq_ok.mpr ⟨some super, up, bind_eq_ok.mpr ⟨false, missed, walked⟩⟩

/-- So does the walk as it is started, from a class or interface. -/
theorem closestAbove_object (ordered : graph.Ordered) {name : BinaryName} {other : RefType}
    (named : graph.Named name) (known : graph.Knows other)
    (loose : ¬graph.Assignable other (.object name)) :
    ∃ top, closestAbove graph.hierarchy other (graph.hierarchy.classCount + 2) [] (.object name) =
      .ok top ∧ graph.ClosestClass (.object name) other top := by
  rcases named with rfl | ⟨info, found⟩
  · exact absurd (ordered.assignable_root known) loose
  · have enough : graph.unseen [] < graph.classes.length + 2 :=
      Nat.lt_add_right 1 (Nat.lt_succ_of_le List.countP_le_length)
    exact closestAbove_closest ordered known found enough (by simp) loose

/-- And so it does from a type of any form. -/
theorem closestAbove_start (wellFormed : graph.WellFormed) {candidate other : RefType}
    (known : graph.Knows candidate) (known' : graph.Knows other)
    (loose : ¬graph.Assignable other candidate) :
    ∃ top, closestAbove graph.hierarchy other (graph.hierarchy.classCount + 2) [] candidate =
      .ok top ∧ graph.ClosestClass candidate other top := by
  have rooted := wellFormed.toOrdered.assignable_root known'
  cases candidate with
  | object name => exact closestAbove_object wellFormed.toOrdered known known' loose
  | objectArray | primitiveArray =>
    refine ⟨.object, ?_, ClassGraph.closestClass_root ?_ (.arrays rfl (by decide)) rooted⟩
    · exact bind_eq_ok.mpr ⟨some .object, rfl,
        bind_eq_ok.mpr ⟨true, isAssignableFrom_eq_true.mpr rooted, rfl⟩⟩
    · intro upper isClass fits
      exact wellFormed.eq_root_of_array rfl isClass fits

theorem mergeReferences_closest (wellFormed : graph.WellFormed) {first second : RefType}
    (known : graph.Knows first) (known' : graph.Knows second)
    (loose : ¬graph.Assignable second first) :
    ∃ met, mergeReferences graph.hierarchy first second = .ok met ∧
      graph.Closest first second met := by
  have plain (unlike : ∀ dimensions element element', first = .objectArray dimensions element →
      second ≠ .objectArray dimensions element') :
      ∃ met, (do
        let above ← closestAbove graph.hierarchy second (graph.hierarchy.classCount + 2) [] first
        return RefType.ofDimensions 0 above) = .ok met ∧ graph.Closest first second met := by
    obtain ⟨top, walked, closest⟩ := closestAbove_start wellFormed known known' loose
    exact ⟨.object top, bind_eq_ok.mpr ⟨top, walked, rfl⟩, .classes unlike closest⟩
  cases first with
  | object | primitiveArray => exact plain (fun _ _ _ array => by cases array)
  | objectArray dimensions element =>
    cases second with
    | object | primitiveArray => exact plain (fun _ _ _ _ array => by cases array)
    | objectArray dimensions' element' =>
      by_cases alike : dimensions = dimensions'
      · subst alike
        have element_known : graph.Knows (.object element) := known
        have element_known' : graph.Knows (.object element') := known'
        obtain ⟨top, walked, closest⟩ := closestAbove_start wellFormed element_known element_known'
          (fun fits => loose (assignable_elements fits))
        refine ⟨.objectArray dimensions top, ?_, .elements closest⟩
        simp only [mergeReferences, ↓reduceIte]
        exact bind_eq_ok.mpr ⟨top, walked, rfl⟩
      · simp only [mergeReferences, alike, ↓reduceIte]
        apply plain
        rintro _ _ _ ⟨⟩ ⟨⟩
        exact alike rfl

/-- Two references merge into what they have in common, if that is found where neither fits the
other. -/
theorem merge_object_of (ordered : graph.Ordered) {first second : RefType}
    (known : graph.Knows first) (known' : graph.Knows second)
    (apart : ¬graph.Assignable second first → ∃ met,
      mergeReferences graph.hierarchy first second = .ok met ∧ graph.Closest first second met) :
    ∃ met, merge graph.hierarchy (object first) (object second) = .ok (object met) ∧
      graph.Meets first second met := by
  by_cases same : first = second
  · exact ⟨first, by simp [merge, same], .left (same ▸ .self _)⟩
  have different : object first ≠ object second := by simpa using same
  simp only [merge, different, ↓reduceIte]
  by_cases fits : graph.Assignable second first
  · exact ⟨first, bind_eq_ok.mpr ⟨true, isAssignableFrom_eq_true.mpr fits, rfl⟩, .left fits⟩
  have asked := isAssignableFrom_eq_false ordered known known' fits
  by_cases fits' : graph.Assignable first second
  · exact ⟨second, bind_eq_ok.mpr ⟨false, asked,
      bind_eq_ok.mpr ⟨true, isAssignableFrom_eq_true.mpr fits', rfl⟩⟩, .right fits'⟩
  have asked' := isAssignableFrom_eq_false ordered known' known fits'
  obtain ⟨met, merged, closest⟩ := apart fits
  exact ⟨met, bind_eq_ok.mpr ⟨false, asked, bind_eq_ok.mpr ⟨false, asked',
    bind_eq_ok.mpr ⟨met, merged, rfl⟩⟩⟩, .apart fits fits' closest⟩

theorem merge_object (wellFormed : graph.WellFormed) {first second : RefType}
    (known : graph.Knows first) (known' : graph.Knows second) :
    ∃ met, merge graph.hierarchy (object first) (object second) = .ok (object met) ∧
      graph.Meets first second met :=
  merge_object_of wellFormed.toOrdered known known' (mergeReferences_closest wellFormed known known')

theorem eq_of_isReference {type : VerificationType} (reference : type.isReference = true) :
    type = null ∨ ∃ class_, type = object class_ := by
  cases type with
  | null => exact .inl rfl
  | object class_ => exact .inr ⟨class_, rfl⟩
  | _ => cases reference

theorem merge_references (wellFormed : graph.WellFormed) {first second : VerificationType}
    (known : first.KnownIn graph) (known' : second.KnownIn graph)
    (reference : first.isReference = true) (reference' : second.isReference = true) :
    ∃ merged, merge graph.hierarchy first second = .ok merged ∧
      merge graph.hierarchy second first = .ok merged ∧ merged.KnownIn graph ∧
      merged.isReference = true := by
  rcases eq_of_isReference reference with rfl | ⟨type, rfl⟩ <;>
    rcases eq_of_isReference reference' with rfl | ⟨type', rfl⟩
  · exact ⟨null, rfl, rfl, known, rfl⟩
  · exact ⟨object type', rfl, rfl, known', rfl⟩
  · exact ⟨object type, rfl, rfl, known, rfl⟩
  · obtain ⟨met, merged, meets⟩ := merge_object wellFormed known known'
    obtain ⟨met', merged', meets'⟩ := merge_object wellFormed known' known
    cases meets.unique wellFormed.toOrdered meets'.symm
    exact ⟨object met, merged, merged', meets.known known known', rfl⟩

/-- A value that is no reference has nothing in common with another one. -/
theorem merge_eq_top {hierarchy : TypeHierarchy} {first second : VerificationType}
    (different : first ≠ second) (unlike : (first.isReference && second.isReference) = false) :
    merge hierarchy first second = .ok top := by
  rw [merge.eq_def, if_neg different]
  split
  · cases unlike
  · cases unlike
  · cases unlike
  · rfl

theorem merge_comm_ok (wellFormed : graph.WellFormed) {first second : VerificationType}
    (known : first.KnownIn graph) (known' : second.KnownIn graph) :
    ∃ merged, merge graph.hierarchy first second = .ok merged ∧
      merge graph.hierarchy second first = .ok merged ∧ merged.KnownIn graph := by
  by_cases same : first = second
  · exact ⟨first, by simp [merge, same], by simp [merge, same], known⟩
  · cases references : first.isReference && second.isReference with
    | false =>
      exact ⟨top, merge_eq_top same references,
        merge_eq_top (Ne.symm same) (Bool.and_comm .. ▸ references), trivial⟩
    | true =>
      obtain ⟨reference, reference'⟩ := Bool.and_eq_true_iff.mp references
      obtain ⟨merged, met, met', known'', -⟩ :=
        merge_references wellFormed known known' reference reference'
      exact ⟨merged, met, met', known''⟩

/-- A reference that is below another type of a value fits it as the hierarchy says. -/
theorem fits_of_below {value merged : VerificationType} (below : Below graph value merged)
    (reference : value.isReference = true) (reference' : merged.isReference = true) :
    value = merged ∨ value = null ∨ ∃ type expected, value = object type ∧
      merged = object expected ∧ graph.hierarchy.isAssignable type expected = .ok true := by
  cases below with
  | self => exact .inl rfl
  | top => cases reference'
  | null => exact .inr (.inl rfl)
  | @references type expected fits =>
    by_cases same : expected = type
    · exact .inl (same ▸ rfl)
    · exact .inr (.inr ⟨type, expected, rfl, rfl,
        isAssignableFrom_of_ne same (isAssignableFrom_eq_true.mpr fits)⟩)

/-- Merging is a join: it is defined for all known types, either of the two may come first, a type
merged with itself stays, the result absorbs both, and two references merge into one that both fit.
-/
theorem merge_join (wellFormed : graph.WellFormed) {first second : VerificationType}
    (known : first.KnownIn graph) (known' : second.KnownIn graph) :
    ∃ merged, merge graph.hierarchy first second = .ok merged ∧
      merge graph.hierarchy second first = .ok merged ∧
      merge graph.hierarchy first first = .ok first ∧
      merge graph.hierarchy merged first = .ok merged ∧
      merge graph.hierarchy merged second = .ok merged ∧
      (first.isReference = true → second.isReference = true → merged.isReference = true ∧
        ∀ side ∈ [first, second], side = merged ∨ side = null ∨ ∃ type expected,
          side = object type ∧ merged = object expected ∧
            graph.hierarchy.isAssignable type expected = .ok true) := by
  obtain ⟨merged, met, met', -⟩ := merge_comm_ok wellFormed known known'
  obtain ⟨below, below'⟩ := below_merge wellFormed met
  have joins := verifier_joins wellFormed
  refine ⟨merged, met, met', joins.self first, joins.left met, joins.right met, ?_⟩
  intro reference reference'
  obtain ⟨merged', met'', -, -, reference''⟩ :=
    merge_references wellFormed known known' reference reference'
  cases met.symm.trans met''
  refine ⟨reference'', ?_⟩
  intro side member
  rcases List.mem_cons.mp member with rfl | member
  · exact fits_of_below below reference reference''
  · cases List.mem_singleton.mp member
    exact fits_of_below below' reference' reference''

/-- Arrays of arrays of two boxed numbers merge into those of numbers. -/
theorem merge_join_boxes :
    KnownIn ClassGraph.library (object (.objectArray 1 .boxedInteger)) ∧
      KnownIn ClassGraph.library (object (.objectArray 1 .boxedLong)) ∧
      ∃ merged, merged = object (.objectArray 1 .number) ∧
        merge ClassGraph.library.hierarchy (object (.objectArray 1 .boxedInteger))
          (object (.objectArray 1 .boxedLong)) = .ok merged ∧
        merge ClassGraph.library.hierarchy (object (.objectArray 1 .boxedLong))
          (object (.objectArray 1 .boxedInteger)) = .ok merged := by
  have known : KnownIn ClassGraph.library (object (.objectArray 1 .boxedInteger)) :=
    ClassGraph.library_named _ (by simp)
  have known' : KnownIn ClassGraph.library (object (.objectArray 1 .boxedLong)) :=
    ClassGraph.library_named _ (by simp)
  have numbers : merge ClassGraph.library.hierarchy (object (.objectArray 1 .boxedInteger))
      (object (.objectArray 1 .boxedLong)) = .ok (object (.objectArray 1 .number)) := by
    decide +kernel
  obtain ⟨merged, met, met', -⟩ := merge_join ClassGraph.library_wellFormed known known'
  cases numbers.symm.trans met
  exact ⟨known, known', _, rfl, met, met'⟩

end VerificationType

end MethodFlow
