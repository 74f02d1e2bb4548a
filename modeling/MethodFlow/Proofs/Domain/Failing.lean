import MethodFlow.Proofs.Domain.Pairing
import MethodFlow.Proofs.Frame.Failing

namespace MethodFlow

variable {V : Type} [AbstractValue V]

/-- A fault that speaks of the operands of an operation. -/
def Fault.isOfOperands : Fault → Bool
  | .mismatch _ _ _ | .unresolvedClass _ => true
  | _ => false

/-- The faults of operands are allowed. -/
abbrev OfOperands (fault : Fault) : Prop := fault.isOfOperands = true

namespace TypeValues

variable {types : TypeValues V} {site : Site}

omit [AbstractValue V] in
theorem produced_failsOnly (asked : site.operation.arity = .producing) :
    FailsOnly OfOperands (types.produced site) := by
  obtain ⟨index, i | b⟩ := site
  · cases i <;> cases asked <;> exact .ok _
  · cases b <;> cases asked
    exact .ok _

omit [AbstractValue V] in
theorem unaryResult_answered (asked : site.operation.arity = .unary) :
    Answered OfOperands site.operation.yields (types.unaryResult site) := by
  obtain ⟨index, i | b⟩ := site
  · cases i <;> cases asked <;> first | exact .some _ | exact .none
  · cases b <;> cases asked <;> exact .none

omit [AbstractValue V] in
theorem binaryResult_answered (elements : ∀ array, FailsOnly OfOperands (types.elementOf array))
    (asked : site.operation.arity = .binary) (first : V) :
    Answered OfOperands site.operation.yields (types.binaryResult site first) := by
  obtain ⟨index, i | b⟩ := site
  · cases i with
    | arrayLoad kind =>
      cases kind with
      | reference => exact .found (elements first)
      | _ => exact .some _
    | _ => cases asked <;> first | exact .some _ | exact .none
  · cases b <;> cases asked <;> exact .none

omit [AbstractValue V] in
theorem ternaryResult_failsOnly (asked : site.operation.arity = .ternary) :
    FailsOnly OfOperands (ternaryResult site : Except Fault (Option V)) := by
  obtain ⟨index, i | b⟩ := site
  · cases i <;> cases asked
    exact .ok _
  · cases b <;> cases asked

omit [AbstractValue V] in
theorem naryResult_answered (asked : site.operation.arity = .nary) :
    Answered OfOperands site.operation.yields (types.naryResult site) := by
  obtain ⟨index, i | b⟩ := site
  · cases i <;> cases asked <;> first | exact .some _ | exact .returned _ _
  · cases b <;> cases asked

omit [AbstractValue V] in
theorem domain_answers (elements : ∀ array, FailsOnly OfOperands (types.elementOf array))
    (merge : V → V → Except Fault V) (height : Nat → Nat) :
    (types.domain merge height).Answers site OfOperands where
  produce asked := produced_failsOnly asked
  copy value := .ok value
  unary asked _ := unaryResult_answered asked
  binary asked first _ := binaryResult_answered elements asked first
  ternary asked _ _ _ := ternaryResult_failsOnly asked
  nary asked _ := naryResult_answered asked
  checkReturn _ _ := .ok ()

end TypeValues

namespace CheckedValues

/-- Comparing values fails with nothing but faults of operands. -/
structure Confined (types : CheckedValues V) : Prop where
  elementOf : ∀ array, FailsOnly OfOperands (types.elementOf array)
  isSubtype : ∀ value expected, FailsOnly OfOperands (types.isSubtype value expected)
  storedElement : ∀ array, FailsOnly OfOperands (types.storedElement array)

namespace Confined

variable {types : CheckedValues V} {site : Site} {context : Option String} {value : V}

theorem expect (confined : types.Confined) (context : Option String) (value expected : V) :
    FailsOnly OfOperands (types.expect context value expected) := by
  refine (confined.isSubtype value expected).andThen fun fits => ?_
  cases fits with
  | true => exact .ok ()
  | false => exact .error rfl

omit [AbstractValue V] in
theorem expectedArray (confined : types.Confined) (kind : ArrayKind) (array : V) :
    FailsOnly OfOperands (types.expectedArray kind array) := by
  unfold CheckedValues.expectedArray
  split
  · refine (confined.isSubtype _ _).andThen fun fits => ?_
    cases fits <;> exact .ok _
  · exact .ok _

end Confined

theorem expectReference_failsOnly {types : CheckedValues V} (context : Option String) (value : V) :
    FailsOnly OfOperands (types.expectReference context value) := by
  unfold expectReference
  split
  · exact .ok ()
  · exact .error rfl

theorem expectArray_failsOnly {types : CheckedValues V} (value : V) :
    FailsOnly OfOperands (types.expectArray value) := by
  unfold expectArray
  split
  · exact .ok ()
  · exact .error rfl

namespace Confined

variable {types : CheckedValues V} {site : Site}

theorem checkCopy (confined : types.Confined) (value : V) :
    FailsOnly OfOperands (types.checkCopy site value) := by
  unfold CheckedValues.checkCopy
  repeat' split
  all_goals first
    | exact .ok _
    | exact .error rfl
    | exact confined.expect ..
    | exact expectReference_failsOnly ..

theorem checkUnary (confined : types.Confined) (asked : site.operation.arity = .unary) (value : V) :
    FailsOnly OfOperands (types.checkUnary site value) := by
  obtain ⟨index, i | b⟩ := site
  · cases i <;> cases asked <;> first
      | exact confined.expect ..
      | exact expectReference_failsOnly ..
      | exact expectArray_failsOnly ..
  · cases b with
    | valueReturn kind =>
      cases kind <;> first | exact confined.expect .. | exact expectReference_failsOnly ..
    | _ => cases asked <;> first | exact confined.expect .. | exact expectReference_failsOnly ..

theorem expectBoth (confined : types.Confined) (first second expected expected' : V) :
    FailsOnly OfOperands (types.expectBoth first second expected expected') :=
  (confined.expect ..).andThen fun _ => confined.expect ..

theorem checkBinary (confined : types.Confined) (asked : site.operation.arity = .binary)
    (first second : V) : FailsOnly OfOperands (types.checkBinary site first second) := by
  obtain ⟨index, i | b⟩ := site
  · cases i with
    | arrayLoad kind => exact (confined.expectedArray ..).andThen fun _ => confined.expectBoth ..
    | _ => cases asked <;> exact confined.expectBoth ..
  · cases b with
    | ifReferences =>
      exact (expectReference_failsOnly ..).andThen fun _ => expectReference_failsOnly ..
    | _ => cases asked <;> exact confined.expectBoth ..

theorem checkReferenceStore (confined : types.Confined) (array index value : V) :
    FailsOnly OfOperands (types.checkReferenceStore array index value) := by
  unfold CheckedValues.checkReferenceStore
  split
  · refine (confined.expect ..).andThen fun _ => (expectReference_failsOnly ..).andThen fun _ =>
      (confined.storedElement array).andThen fun element => ?_
    cases element with
    | none => exact .ok ()
    | some element => exact confined.expect ..
  · exact .error rfl

theorem checkTernary (confined : types.Confined) (asked : site.operation.arity = .ternary)
    (first second third : V) : FailsOnly OfOperands (types.checkTernary site first second third) := by
  unfold CheckedValues.checkTernary
  split
  · exact confined.checkReferenceStore first second third
  · exact (confined.expectedArray ..).andThen fun _ => (confined.expect ..).andThen fun _ =>
      (confined.expect ..).andThen fun _ => confined.expect ..
  · rename_i others
    obtain ⟨index, i | b⟩ := site
    · cases i <;> cases asked
      exact absurd rfl (others _)
    · cases b <;> cases asked

theorem checkArguments (confined : types.Confined) (index : Nat) (values : List V)
    (parameters : List FieldType) :
    FailsOnly OfOperands (types.checkArguments index values parameters) := by
  fun_induction CheckedValues.checkArguments types index values parameters with
  | case1 index value values parameter parameters ih =>
    exact (confined.expect ..).andThen fun _ => ih
  | case2 => exact .ok ()

theorem checkDimensions (confined : types.Confined) (values : List V) :
    FailsOnly OfOperands (types.checkDimensions values) := by
  induction values with
  | nil => exact .ok ()
  | cons value values ih => exact (confined.expect ..).andThen fun _ => ih

theorem checkInvocation (confined : types.Confined) (kind : InvokeKind) (method : MethodRef)
    (values : List V) : FailsOnly OfOperands (types.checkInvocation kind method values) := by
  unfold CheckedValues.checkInvocation
  split
  · exact (confined.expect ..).andThen fun _ => confined.checkArguments ..
  · exact confined.checkArguments ..

theorem checkNary (confined : types.Confined) (asked : site.operation.arity = .nary)
    (values : List V) : FailsOnly OfOperands (types.checkNary site values) := by
  obtain ⟨index, i | b⟩ := site
  · cases i <;> cases asked <;> first
      | exact confined.checkDimensions values
      | exact confined.checkInvocation ..
      | exact confined.checkArguments ..
  · cases b <;> cases asked

theorem domain (confined : types.Confined) (merge : V → V → Except Fault V) (height : Nat → Nat) :
    (types.domain merge height).Answers site OfOperands where
  produce asked := TypeValues.produced_failsOnly asked
  copy value := (confined.checkCopy value).andThen fun _ => .ok value
  unary asked value := .after (confined.checkUnary asked value) (TypeValues.unaryResult_answered asked)
  binary asked first second := .after (confined.checkBinary asked first second)
    (TypeValues.binaryResult_answered confined.elementOf asked first)
  ternary asked first second third := (confined.checkTernary asked first second third).andThen fun _ =>
    TypeValues.ternaryResult_failsOnly asked
  nary asked values := .after (confined.checkNary asked values) (TypeValues.naryResult_answered asked)
  checkReturn _ _ := confined.expect ..

end Confined

end CheckedValues

namespace VerificationType

variable (hierarchy : TypeHierarchy)

theorem answer_failsOnly {α : Type} (outcome : Except Unresolved α) :
    FailsOnly OfOperands (answer outcome) := by
  cases outcome with
  | ok value => exact .ok value
  | error unresolved => exact .error rfl

theorem isAssignableFrom_failsOnly (expected value : RefType) :
    FailsOnly OfOperands (isAssignableFrom hierarchy expected value) := by
  unfold isAssignableFrom
  split
  · exact .ok true
  · exact answer_failsOnly _

theorem elementOf_failsOnly (array : VerificationType) :
    FailsOnly OfOperands (elementOf array) := by
  unfold elementOf
  repeat' split
  all_goals first | exact .ok _ | exact .error rfl

theorem isSubtype_failsOnly (value expected : VerificationType) :
    FailsOnly OfOperands (isSubtype hierarchy value expected) := by
  unfold isSubtype
  split
  · exact .ok true
  · split
    · exact .ok true
    · refine (isAssignableFrom_failsOnly ..).andThen fun fits => ?_
      cases fits with
      | true => exact .ok true
      | false =>
        simp only [Bool.false_eq_true, ↓reduceIte]
        split
        · exact answer_failsOnly _
        · exact .ok false
    · exact .ok false

theorem checkedTypes_confined : (checkedTypes hierarchy).Confined where
  elementOf := elementOf_failsOnly
  isSubtype := isSubtype_failsOnly hierarchy
  storedElement array := by
    show FailsOnly OfOperands (storedElement array)
    unfold storedElement
    split
    · exact .ok none
    · exact (elementOf_failsOnly array).map some

theorem classAbove_failsOnly (visited : List BinaryName) (type : RefType) :
    FailsOnly OfOperands (classAbove hierarchy visited type) := by
  unfold classAbove
  split
  · split
    · exact .ok none
    · refine (answer_failsOnly _).andThen fun interface => ?_
      cases interface with
      | true => exact .ok none
      | false => exact answer_failsOnly _
  · exact .ok _

theorem closestAbove_failsOnly (other : RefType) (steps : Nat) (visited : List BinaryName)
    (candidate : RefType) :
    FailsOnly OfOperands (closestAbove hierarchy other steps visited candidate) := by
  induction steps generalizing visited candidate with
  | zero => exact .ok _
  | succ steps ih =>
    refine (classAbove_failsOnly ..).andThen fun next => ?_
    cases next with
    | none => exact .ok _
    | some above =>
      refine (isAssignableFrom_failsOnly ..).andThen fun fits => ?_
      cases fits with
      | true => exact .ok above
      | false => exact ih ..

theorem merge_failsOnly (first second : VerificationType) :
    FailsOnly OfOperands (merge hierarchy first second) := by
  unfold merge
  split
  · exact .ok first
  · split
    · exact .ok _
    · exact .ok _
    · refine (isAssignableFrom_failsOnly ..).andThen fun fits => ?_
      cases fits with
      | true => exact .ok _
      | false =>
        refine (isAssignableFrom_failsOnly ..).andThen fun fits' => ?_
        cases fits' with
        | true => exact .ok _
        | false =>
          refine FailsOnly.andThen ?_ fun _ => .ok _
          exact (closestAbove_failsOnly ..).andThen fun _ => .ok _
    · exact .ok top

end VerificationType

theorem ValueKind.checkedTypes_confined : checkedTypes.Confined where
  elementOf _ := .ok reference
  isSubtype _ _ := .ok _
  storedElement _ := .ok none

/-- A value that an invocation makes is as wide as its type, and there if the type is. -/
theorem Provenance.returned_answered (returned : Option FieldType) (index : Nat) :
    Answered OfOperands returned.isSome
      (.ok ((returned.map FieldType.width).map fun size => madeAt size index)) := by
  rw [Option.map_map]
  exact .returned _ _

theorem Provenance.domain_answers (site : Site) : domain.Answers site OfOperands where
  produce _ := .ok _
  copy _ := .ok _
  unary _ _ := .some _
  binary _ _ _ := .some _
  ternary _ _ _ _ := .ok _
  nary asked _ := by
    obtain ⟨index, i | b⟩ := site
    · cases i <;> cases asked <;> first | exact .some _ | exact returned_answered _ _
    · cases b <;> cases asked
  checkReturn _ _ := .ok ()

theorem Domain.Policy.answers {domain : Domain V} (policy : domain.Policy) (site : Site) :
    domain.Answers site OfOperands := by
  obtain ⟨hierarchy, _, chosen⟩ := policy
  cases chosen with
  | basic => exact TypeValues.domain_answers (fun _ => .ok _) _ _
  | verify => exact ValueKind.checkedTypes_confined.domain _ _
  | simple => exact (VerificationType.checkedTypes_confined hierarchy).domain _ _
  | source => exact Provenance.domain_answers site

theorem Domain.Policy.merge_failsOnly {domain : Domain V} (policy : domain.Policy) (old new : V) :
    FailsOnly OfOperands (domain.merge old new) := by
  obtain ⟨hierarchy, _, chosen⟩ := policy
  cases chosen with
  | simple => exact VerificationType.merge_failsOnly hierarchy old new
  | _ => exact .ok _

/-- A fault of a domain that does not know an operation, or leaves it without a value. -/
def Fault.isOfDispatch : Fault → Bool
  | .unexpectedInstruction _ | .missingValue => true
  | _ => false

/-- No frame asks a policy for what it does not know, whatever the frame holds. -/
theorem Domain.Policy.execute_dispatched {domain : Domain V} (policy : domain.Policy)
    (frame : Frame V) (site : Site) {fault : Fault}
    (failed : frame.execute domain site = .error fault) :
    fault ≠ .missingValue ∧ ∀ shown, fault ≠ .unexpectedInstruction shown := by
  have confines : Frame.Confines domain site (fun fault => fault.isOfDispatch = false)
      fun _ => True := by
    refine ⟨⟨fun _ _ => ⟨trivial, trivial⟩, fun _ _ _ => trivial, fun _ _ => trivial⟩,
      (policy.answers site).mono ?_, ?_, fun _ _ => Frame.push_failsOnly fun _ => rfl,
      fun _ _ _ => rfl⟩
    · intro fault operands
      cases fault <;> first | rfl | cases operands
    · intro fault stack
      cases fault <;> first | rfl | cases stack
  have known : fault.isOfDispatch = false := (confines.execute trivial).allows fault failed
  refine ⟨?_, fun shown => ?_⟩
  · rintro rfl
    cases known
  · rintro rfl
    cases known

def ValueKind.loneLong : Frame ValueKind := ⟨[], .ofList [.long], none, none⟩

/-- A `long` is not negated as an `int`, and that is all that is wrong. -/
theorem ValueKind.loneLong_dispatched :
    Domain.Policy verifier ∧ ∃ fault,
      loneLong.execute verifier ⟨0, .instruction (.negate .int)⟩ = .error fault ∧
      fault = .mismatch none "I" "J" ∧
      fault ≠ .missingValue ∧ ∀ shown, fault ≠ .unexpectedInstruction shown := by
  have failed : loneLong.execute verifier ⟨0, .instruction (.negate .int)⟩ =
      .error (.mismatch none "I" "J") := rfl
  exact ⟨verifier_policy, _, failed, rfl,
    Domain.Policy.execute_dispatched verifier_policy _ _ failed⟩

end MethodFlow
