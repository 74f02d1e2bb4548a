import MethodFlow.Domain.VerificationType
import MethodFlow.Proofs.Frame.Mirroring
import MethodFlow.Proofs.Hierarchy.Extension

/-! Verification types over a class graph that has grown. Where no class was missing, checks and merges
come out as before, for they ask about stored classes only. -/

namespace MethodFlow

/-- The fault is that a class is not stored. -/
def Fault.IsUnresolved (fault : Fault) : Prop := ∃ name, fault = .unresolvedClass name

variable {graph bigger : ClassGraph}

namespace ClassGraph.Extends

variable (extended : bigger.Extends graph)

include extended

theorem isAssignable (sub super : RefType) :
    Mirrors (fun _ => True) id (graph.hierarchy.isAssignable sub super)
      (bigger.hierarchy.isAssignable sub super) := by
  cases sub with
  | object name =>
    cases super with
    | object name' => exact extended.isSubclass name name'
    | primitiveArray | objectArray => exact .same _
  | primitiveArray dimensions element => cases super <;> exact .same _
  | objectArray dimensions element =>
    cases super with
    | object | primitiveArray => exact .same _
    | objectArray dimensions' element' =>
      simp only [TypeHierarchy.isAssignable]
      split
      · exact .same _
      · split
        · exact extended.isSubclass element element'
        · exact .same _

end ClassGraph.Extends

namespace VerificationType

theorem answer_mirrors {α : Type} {first second : Except Unresolved α}
    (mirrors : Mirrors (fun _ => True) id first second) :
    Mirrors Fault.IsUnresolved id (answer first) (answer second) := by
  rcases mirrors with rfl | ⟨unresolved, rfl, -⟩
  · cases first with
    | error unresolved => exact .error _
    | ok value => exact .ok value
  · exact .letGo ⟨unresolved.name, rfl⟩

section Answers

variable (extended : bigger.Extends graph)

include extended

theorem isAssignableFrom_mirrors (expected value : RefType) :
    Mirrors Fault.IsUnresolved id (isAssignableFrom graph.hierarchy expected value)
      (isAssignableFrom bigger.hierarchy expected value) := by
  unfold isAssignableFrom
  split
  · exact .same _
  · exact answer_mirrors (extended.isAssignable value expected)

theorem isSubtype_mirrors (value expected : VerificationType) :
    Mirrors Fault.IsUnresolved id (isSubtype graph.hierarchy value expected)
      (isSubtype bigger.hierarchy value expected) := by
  unfold isSubtype
  split
  · exact .same _
  · split
    · exact .same _
    · refine (isAssignableFrom_mirrors extended _ _).andThen fun fits => ?_
      cases fits with
      | true => exact .same _
      | false =>
        rename_i type _
        cases type with
        | object name => exact answer_mirrors (extended.isInterface name)
        | primitiveArray | objectArray => exact .same _
    · exact .same _

theorem classAbove_mirrors (visited : List BinaryName) (candidate : RefType) :
    Mirrors Fault.IsUnresolved id (classAbove graph.hierarchy visited candidate)
      (classAbove bigger.hierarchy visited candidate) := by
  cases candidate with
  | object name =>
    simp only [classAbove]
    split
    · exact .same _
    · refine (answer_mirrors (extended.isInterface name)).andThen fun interface => ?_
      cases interface with
      | true => exact .same _
      | false => exact answer_mirrors (extended.superclass name)
  | primitiveArray | objectArray => exact .same _

end Answers

/-- The steps of a walk up that meet no class: one, where it starts at an array. -/
def leadIn : RefType → Nat
  | .object _ => 0
  | _ => 1

/-- A step of a walk that goes on has met a stored class for the first time, or has left an array. -/
theorem unseen_lt_of_classAbove {visited : List BinaryName} {candidate : RefType}
    {above : BinaryName} (found : classAbove graph.hierarchy visited candidate = .ok (some above)) :
    graph.unseen (withVisited visited candidate) < graph.unseen visited + leadIn candidate := by
  cases candidate with
  | object name =>
    simp only [classAbove] at found
    split at found
    · cases found
    · rename_i fresh
      obtain ⟨interface, answered, -⟩ := bind_eq_ok.mp found
      cases stored : graph.resolve name with
      | error unresolved =>
        simp [ClassGraph.hierarchy, ClassGraph.isInterface, stored, Except.map, answer] at answered
      | ok info => exact graph.unseen_cons_lt stored (by simpa using fresh)
  | primitiveArray | objectArray => exact Nat.lt_succ_self _

section Merging

variable (extended : bigger.Extends graph)

include extended

/-- A walk with as many steps as there are classes to meet has no use for more, and ends among classes
that were stored before. -/
theorem closestAbove_mirrors (other : RefType) {steps steps' : Nat} {visited : List BinaryName}
    {candidate : RefType} (enough : graph.unseen visited + leadIn candidate < steps)
    (further : steps ≤ steps') :
    Mirrors Fault.IsUnresolved id (closestAbove graph.hierarchy other steps visited candidate)
      (closestAbove bigger.hierarchy other steps' visited candidate) := by
  induction steps generalizing steps' visited candidate with
  | zero => exact absurd enough (Nat.not_lt_zero _)
  | succ steps ih =>
    obtain ⟨steps', rfl⟩ : ∃ fewer, steps' = fewer + 1 := ⟨steps' - 1, by omega⟩
    unfold closestAbove
    refine (classAbove_mirrors extended visited candidate).bind fun above? found => ?_
    cases above? with
    | none => exact .same _
    | some above =>
      refine (isAssignableFrom_mirrors extended (.object above) other).andThen fun fits => ?_
      cases fits with
      | true => exact .same _
      | false =>
        have fewer := unseen_lt_of_classAbove found
        exact ih (show _ + 0 < steps by omega) (by omega)

theorem mergeReferences_mirrors (first second : RefType) :
    Mirrors Fault.IsUnresolved id (mergeReferences graph.hierarchy first second)
      (mergeReferences bigger.hierarchy first second) := by
  have walk (candidate other : RefType) :
      Mirrors Fault.IsUnresolved id
        (closestAbove graph.hierarchy other (graph.hierarchy.classCount + 2) [] candidate)
        (closestAbove bigger.hierarchy other (bigger.hierarchy.classCount + 2) [] candidate) := by
    have classes : graph.unseen [] ≤ graph.hierarchy.classCount := List.countP_le_length
    have lead : leadIn candidate ≤ 1 := by cases candidate <;> simp [leadIn]
    exact closestAbove_mirrors extended other (by omega)
      (Nat.add_le_add_right extended.count 2)
  unfold mergeReferences
  exact (walk _ _).andThen fun above => .same _

theorem merge_mirrors (first second : VerificationType) :
    Mirrors Fault.IsUnresolved id (merge graph.hierarchy first second)
      (merge bigger.hierarchy first second) := by
  unfold merge
  split
  · exact .same _
  · split
    · exact .same _
    · exact .same _
    · refine (isAssignableFrom_mirrors extended _ _).andThen fun fits => ?_
      -- the branch that is not taken differs between the two, so it is dropped first
      cases fits with
      | true =>
        simp only [↓reduceIte]
        exact .same _
      | false =>
        simp only [Bool.false_eq_true, ↓reduceIte]
        refine (isAssignableFrom_mirrors extended _ _).andThen fun fits => ?_
        cases fits with
        | true =>
          simp only [↓reduceIte]
          exact .same _
        | false =>
          simp only [Bool.false_eq_true, ↓reduceIte]
          exact (mergeReferences_mirrors extended _ _).andThen fun _ => .same _
    · exact .same _

end Merging

section Checks

variable (extended : bigger.Extends graph)

include extended

theorem expect_mirrors (context : Option String) (value expected : VerificationType) :
    Mirrors Fault.IsUnresolved id ((checkedTypes graph.hierarchy).expect context value expected)
      ((checkedTypes bigger.hierarchy).expect context value expected) :=
  (isSubtype_mirrors extended value expected).andThen fun _ => .same _

theorem expectBoth_mirrors (first second expected expected' : VerificationType) :
    Mirrors Fault.IsUnresolved id
      ((checkedTypes graph.hierarchy).expectBoth first second expected expected')
      ((checkedTypes bigger.hierarchy).expectBoth first second expected expected') :=
  (expect_mirrors extended _ _ _).andThen fun _ => expect_mirrors extended _ _ _

theorem expectedArray_mirrors (kind : ArrayKind) (array : VerificationType) :
    Mirrors Fault.IsUnresolved id ((checkedTypes graph.hierarchy).expectedArray kind array)
      ((checkedTypes bigger.hierarchy).expectedArray kind array) := by
  unfold CheckedValues.expectedArray
  split
  · exact (isSubtype_mirrors extended _ _).andThen fun _ => .same _
  · exact .same _

theorem checkCopy_mirrors (site : Site) (value : VerificationType) :
    Mirrors Fault.IsUnresolved id ((checkedTypes graph.hierarchy).checkCopy site value)
      ((checkedTypes bigger.hierarchy).checkCopy site value) := by
  unfold CheckedValues.checkCopy
  split
  · split
    all_goals first
      | exact expect_mirrors extended _ _ _
      | exact .same _
  · split
    all_goals first
      | exact expect_mirrors extended _ _ _
      | exact .same _
  · exact .same _

theorem checkUnary_mirrors (site : Site) (value : VerificationType) :
    Mirrors Fault.IsUnresolved id ((checkedTypes graph.hierarchy).checkUnary site value)
      ((checkedTypes bigger.hierarchy).checkUnary site value) := by
  unfold CheckedValues.checkUnary
  split <;> split
  all_goals first
    | exact expect_mirrors extended _ _ _
    | exact .same _

theorem checkBinary_mirrors (site : Site) (first second : VerificationType) :
    Mirrors Fault.IsUnresolved id ((checkedTypes graph.hierarchy).checkBinary site first second)
      ((checkedTypes bigger.hierarchy).checkBinary site first second) := by
  unfold CheckedValues.checkBinary
  split
  · split
    · exact (expectedArray_mirrors extended _ _).andThen fun _ => expectBoth_mirrors extended _ _ _ _
    all_goals first
      | exact expectBoth_mirrors extended _ _ _ _
      | exact .same _
  · split
    · exact expectBoth_mirrors extended _ _ _ _
    · exact .same _
    · exact .same _

theorem checkTernary_mirrors (site : Site) (array index value : VerificationType) :
    Mirrors Fault.IsUnresolved id
      ((checkedTypes graph.hierarchy).checkTernary site array index value)
      ((checkedTypes bigger.hierarchy).checkTernary site array index value) := by
  unfold CheckedValues.checkTernary
  split
  · unfold CheckedValues.checkReferenceStore
    have same : (checkedTypes bigger.hierarchy).isReferenceArray array =
        (checkedTypes graph.hierarchy).isReferenceArray array := rfl
    rw [same]
    split
    · refine (expect_mirrors extended _ _ _).andThen fun _ => (Mirrors.same _).andThen fun _ =>
        (Mirrors.same _).andThen fun element? => ?_
      cases element? with
      | none => exact .same _
      | some element => exact expect_mirrors extended _ _ _
    · exact .same _
  · exact (expectedArray_mirrors extended _ _).andThen fun _ =>
      (expect_mirrors extended _ _ _).andThen fun _ =>
        (expect_mirrors extended _ _ _).andThen fun _ => expect_mirrors extended _ _ _
  · exact .same _

theorem checkArguments_mirrors (index : Nat) (values : List VerificationType)
    (parameters : List FieldType) :
    Mirrors Fault.IsUnresolved id
      ((checkedTypes graph.hierarchy).checkArguments index values parameters)
      ((checkedTypes bigger.hierarchy).checkArguments index values parameters) := by
  induction values generalizing index parameters with
  | nil => exact .same _
  | cons value values ih =>
    cases parameters with
    | nil => exact .same _
    | cons parameter parameters =>
      exact (expect_mirrors extended _ _ _).andThen fun _ => ih _ _

theorem checkDimensions_mirrors (values : List VerificationType) :
    Mirrors Fault.IsUnresolved id ((checkedTypes graph.hierarchy).checkDimensions values)
      ((checkedTypes bigger.hierarchy).checkDimensions values) := by
  induction values with
  | nil => exact .same _
  | cons value values ih => exact (expect_mirrors extended _ _ _).andThen fun _ => ih

theorem checkNary_mirrors (site : Site) (values : List VerificationType) :
    Mirrors Fault.IsUnresolved id ((checkedTypes graph.hierarchy).checkNary site values)
      ((checkedTypes bigger.hierarchy).checkNary site values) := by
  unfold CheckedValues.checkNary
  split
  · split
    · exact checkDimensions_mirrors extended _
    · unfold CheckedValues.checkInvocation
      split
      · exact (expect_mirrors extended _ _ _).andThen fun _ => checkArguments_mirrors extended _ _ _
      · exact checkArguments_mirrors extended _ _ _
    · exact checkArguments_mirrors extended _ _ _
    · exact .same _
  · exact .same _

omit extended in
private theorem valueOf_verifier (hierarchy : TypeHierarchy) :
    (verifier hierarchy).valueOf = types.valueOf := rfl

omit extended in
private theorem produce_verifier (hierarchy : TypeHierarchy) (site : Site) :
    (verifier hierarchy).produce site = types.produced site := rfl

theorem verifier_mirroredAt (site : Site) :
    (verifier graph.hierarchy).MirroredAt Fault.IsUnresolved (verifier bigger.hierarchy) site where
  valueOf := by rw [valueOf_verifier, valueOf_verifier]
  produce := by
    rw [produce_verifier, produce_verifier]
    exact .same _
  copy value := (checkCopy_mirrors extended site value).andThen fun _ => .same _
  unary value := (checkUnary_mirrors extended site value).andThen fun _ => .same _
  binary first second := (checkBinary_mirrors extended site first second).andThen fun _ => .same _
  ternary first second third :=
    (checkTernary_mirrors extended site first second third).andThen fun _ => .same _
  nary values := (checkNary_mirrors extended site values).andThen fun _ => .same _
  checkReturn value expected := expect_mirrors extended _ value expected

end Checks

end VerificationType

end MethodFlow
