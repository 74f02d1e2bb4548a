import MethodFlow.Proofs.Domain.Outlining
import MethodFlow.Proofs.Hierarchy.Ancestry

namespace MethodFlow

namespace ValueKind

variable {value expected first second third : ValueKind} {context : Option String}

theorem isSubtype_of_eq (same : value = expected) :
    checkedTypes.isSubtype value expected = .ok true := by
  simp [checkedTypes, same]

theorem expect_of_eq (same : value = expected) :
    checkedTypes.expect context value expected = .ok () :=
  CheckedValues.expect_eq_ok.mpr (isSubtype_of_eq same)

theorem expectReference_of_eq (reference : value = .reference) :
    checkedTypes.expectReference context value = .ok () := by
  rw [CheckedValues.expectReference_eq_ok]
  simp [checkedTypes, reference]

theorem expectedArray_eq (kind : ArrayKind) (value : ValueKind) :
    checkedTypes.expectedArray kind value = .ok .reference := by
  unfold CheckedValues.expectedArray
  split
  · refine bind_eq_ok.mpr ⟨_, rfl, ?_⟩
    split <;> rfl
  · rfl

end ValueKind

namespace VerificationType

variable {hierarchy : TypeHierarchy} {context : Option String} {site : Site}
  {value expected first second third : VerificationType} {type type' : FieldType}

section Checks

theorem kind_of_isSubtype (fits : isSubtype hierarchy value expected = .ok true) :
    value.kind = expected.kind := by
  unfold isSubtype at fits
  split at fits
  · rename_i same
    rw [same]
  · split at fits
    · rfl
    · rfl
    · cases fits

theorem kind_of_isReference (reference : value.isReference = true) : value.kind = .reference := by
  cases value <;> first | rfl | cases reference

theorem kind_of_isArray (array : value.isArray = true) : value.kind = .reference := by
  cases value <;> first | rfl | cases array

theorem kind_of_isReferenceArray (array : value.isReferenceArray = true) :
    value.kind = .reference := by
  cases value <;> first | rfl | cases array

theorem kind_of_expect (passed : (checkedTypes hierarchy).expect context value expected = .ok ()) :
    value.kind = expected.kind :=
  kind_of_isSubtype (CheckedValues.expect_eq_ok.mp passed)

theorem kind_of_expectReference
    (passed : (checkedTypes hierarchy).expectReference context value = .ok ()) :
    value.kind = .reference :=
  kind_of_isReference (CheckedValues.expectReference_eq_ok.mp passed)

theorem kind_of_expectedArray {kind : ArrayKind}
    (chosen : (checkedTypes hierarchy).expectedArray kind value = .ok expected) :
    expected.kind = .reference := by
  unfold CheckedValues.expectedArray at chosen
  split at chosen
  · obtain ⟨booleans, -, chosen⟩ := bind_eq_ok.mp chosen
    split at chosen
    · cases chosen
      rfl
    · cases chosen
      rfl
  · cases chosen
    rfl

theorem expect_kind
    (passed : (checkedTypes hierarchy).expect context value ((checkedTypes hierarchy).typed type) =
      .ok ()) :
    ValueKind.checkedTypes.expect context value.kind (ValueKind.checkedTypes.typed type) = .ok () :=
  ValueKind.expect_of_eq ((kind_of_expect passed).trans (kind_ofType type))

theorem expectReference_kind
    (passed : (checkedTypes hierarchy).expectReference context value = .ok ()) :
    ValueKind.checkedTypes.expectReference context value.kind = .ok () :=
  ValueKind.expectReference_of_eq (kind_of_expectReference passed)

theorem expectArray_kind (passed : (checkedTypes hierarchy).expectArray value = .ok ()) :
    ValueKind.checkedTypes.expectArray value.kind = .ok () := by
  rw [CheckedValues.expectArray_eq_ok] at passed ⊢
  simp [ValueKind.checkedTypes, kind_of_isArray passed]

theorem expectBoth_kind
    (passed : (checkedTypes hierarchy).expectBoth first second ((checkedTypes hierarchy).typed type)
      ((checkedTypes hierarchy).typed type') = .ok ()) :
    ValueKind.checkedTypes.expectBoth first.kind second.kind (ValueKind.checkedTypes.typed type)
      (ValueKind.checkedTypes.typed type') = .ok () := by
  obtain ⟨_, one, two⟩ := bind_eq_ok.mp passed
  exact bind_eq_ok.mpr ⟨(), expect_kind one, expect_kind two⟩

theorem checkCopy_kind (passed : (checkedTypes hierarchy).checkCopy site value = .ok ()) :
    ValueKind.checkedTypes.checkCopy site value.kind = .ok () := by
  unfold CheckedValues.checkCopy at passed ⊢
  split at passed
  · split at passed
    all_goals first
      | exact expect_kind passed
      | exact expectReference_kind passed
  · split at passed
    all_goals try exact expect_kind passed
    split at passed
    · rename_i either
      refine if_pos ?_
      rcases Bool.or_eq_true_iff.mp either with reference | returnAddress
      · simp [ValueKind.checkedTypes, kind_of_isReference reference]
      · obtain rfl : value = .returnAddress := by simpa [checkedTypes] using returnAddress
        rfl
    · cases passed
  · rfl

theorem checkUnary_kind (passed : (checkedTypes hierarchy).checkUnary site value = .ok ()) :
    ValueKind.checkedTypes.checkUnary site value.kind = .ok () := by
  unfold CheckedValues.checkUnary at passed ⊢
  split at passed <;> split at passed <;>
    first
    | exact expect_kind passed
    | exact expectReference_kind passed
    | exact expectArray_kind passed
    | cases passed

theorem checkBinary_kind (passed : (checkedTypes hierarchy).checkBinary site first second = .ok ()) :
    ValueKind.checkedTypes.checkBinary site first.kind second.kind = .ok () := by
  unfold CheckedValues.checkBinary at passed ⊢
  split at passed
  · split at passed
    · obtain ⟨expected, chosen, passed⟩ := bind_eq_ok.mp passed
      obtain ⟨_, array, index⟩ := bind_eq_ok.mp passed
      have reference := (kind_of_expect array).trans (kind_of_expectedArray chosen)
      exact bind_eq_ok.mpr ⟨_, ValueKind.expectedArray_eq _ _,
        bind_eq_ok.mpr ⟨(), ValueKind.expect_of_eq reference, expect_kind index⟩⟩
    all_goals first
      | exact expectBoth_kind passed
      | cases passed
  · split at passed
    · exact expectBoth_kind passed
    · obtain ⟨_, one, two⟩ := bind_eq_ok.mp passed
      exact bind_eq_ok.mpr ⟨(), expectReference_kind one, expectReference_kind two⟩
    · cases passed

/-- As kinds, the elements of an array are not compared with what is stored. -/
theorem checkTernary_kind
    (passed : (checkedTypes hierarchy).checkTernary site first second third = .ok ()) :
    ValueKind.checkedTypes.checkTernary site first.kind second.kind third.kind = .ok () := by
  unfold CheckedValues.checkTernary at passed ⊢
  split at passed
  · unfold CheckedValues.checkReferenceStore at passed ⊢
    split at passed
    · rename_i array
      obtain ⟨_, index, passed⟩ := bind_eq_ok.mp passed
      obtain ⟨_, stored, -⟩ := bind_eq_ok.mp passed
      have reference : ValueKind.checkedTypes.isReferenceArray first.kind = true := by
        simp [ValueKind.checkedTypes, kind_of_isReferenceArray array]
      rw [if_pos reference]
      exact bind_eq_ok.mpr ⟨(), expect_kind index,
        bind_eq_ok.mpr ⟨(), expectReference_kind stored, rfl⟩⟩
    · cases passed
  · simp only [bind_eq_ok] at passed ⊢
    obtain ⟨expected, chosen, _, array, _, index, stored⟩ := passed
    have reference := (kind_of_expect array).trans (kind_of_expectedArray chosen)
    exact ⟨_, ValueKind.expectedArray_eq _ _, (), ValueKind.expect_of_eq reference, (),
      expect_kind index, expect_kind stored⟩
  · cases passed

variable {values : List VerificationType}

theorem checkArguments_kind {index : Nat} {parameters : List FieldType}
    (passed : (checkedTypes hierarchy).checkArguments index values parameters = .ok ()) :
    ValueKind.checkedTypes.checkArguments index (values.map kind) parameters = .ok () := by
  induction values generalizing index parameters with
  | nil => rfl
  | cons value values ih =>
    cases parameters with
    | nil => rfl
    | cons parameter parameters =>
      obtain ⟨_, one, others⟩ := bind_eq_ok.mp passed
      exact bind_eq_ok.mpr ⟨(), expect_kind one, ih others⟩

theorem checkDimensions_kind (passed : (checkedTypes hierarchy).checkDimensions values = .ok ()) :
    ValueKind.checkedTypes.checkDimensions (values.map kind) = .ok () := by
  induction values with
  | nil => rfl
  | cons value values ih =>
    obtain ⟨_, one, others⟩ := bind_eq_ok.mp passed
    exact bind_eq_ok.mpr ⟨(), expect_kind one, ih others⟩

theorem checkInvocation_kind {kind : InvokeKind} {method : MethodRef}
    (passed : (checkedTypes hierarchy).checkInvocation kind method values = .ok ()) :
    ValueKind.checkedTypes.checkInvocation kind method (values.map VerificationType.kind) =
      .ok () := by
  unfold CheckedValues.checkInvocation at passed ⊢
  cases received : kind.hasReceiver <;> simp only [received] at passed ⊢
  · exact checkArguments_kind passed
  · cases values with
    | nil => exact checkArguments_kind passed
    | cons receiver values =>
      obtain ⟨_, owner, others⟩ := bind_eq_ok.mp passed
      exact bind_eq_ok.mpr ⟨(), expect_kind owner, checkArguments_kind others⟩

theorem checkNary_kind (passed : (checkedTypes hierarchy).checkNary site values = .ok ()) :
    ValueKind.checkedTypes.checkNary site (values.map kind) = .ok () := by
  unfold CheckedValues.checkNary at passed ⊢
  split at passed
  · split at passed
    · exact checkDimensions_kind passed
    · exact checkInvocation_kind passed
    · exact checkArguments_kind passed
    · cases passed
  · cases passed

end Checks

/-- The verifier of kinds follows that of types: the results are those without checks, and the checks
pass. -/
theorem checkedKinds_follow (site : Site) :
    ValueKind.verifier.Follows (verifier hierarchy) site (fun seen type => seen = type.kind)
      (fun seen type => seen = type.kind) where
  unusable := (@kinds_follow hierarchy site).unusable
  cut := (@kinds_follow hierarchy site).cut
  cut' := (@kinds_follow hierarchy site).cut'
  produce produced := (kinds_follow site).produce produced
  copy := by
    rintro _ type copied rfl copies
    obtain ⟨_, passed, ended⟩ := bind_eq_ok.mp copies
    cases ended
    exact ⟨_, bind_eq_ok.mpr ⟨(), checkCopy_kind passed, rfl⟩, rfl, fun _ => width_kind type⟩
  load loads same copies := (kinds_follow site).load loads same copies
  unary := by
    rintro _ type result rfl computed
    obtain ⟨result', found, matched⟩ := (kinds_follow site).unary rfl computed
    obtain ⟨_, passed, -⟩ := bind_eq_ok.mp computed
    exact ⟨result', bind_eq_ok.mpr ⟨(), checkUnary_kind passed, found⟩, matched⟩
  binary := by
    intro _ _ first second result matched matched' computed
    obtain ⟨result', found, yields⟩ := (kinds_follow site).binary matched matched' computed
    obtain ⟨_, passed, -⟩ := bind_eq_ok.mp computed
    cases matched.related
    cases matched'.related
    exact ⟨result', bind_eq_ok.mpr ⟨(), checkBinary_kind passed, found⟩, yields⟩
  ternary := by
    intro _ _ _ first second third result matched matched' matched'' computed
    obtain ⟨result', found⟩ := (kinds_follow site).ternary matched matched' matched'' computed
    obtain ⟨_, passed, -⟩ := bind_eq_ok.mp computed
    cases matched.related
    cases matched'.related
    cases matched''.related
    exact ⟨result', bind_eq_ok.mpr ⟨(), checkTernary_kind passed, found⟩⟩
  nary := by
    intro seen values result matched computed
    obtain ⟨result', found, yields⟩ := (kinds_follow site).nary matched computed
    obtain ⟨_, passed, -⟩ := bind_eq_ok.mp computed
    obtain rfl := Frame.eq_map_of_views (matched.imp fun _ _ => Matches.related)
    exact ⟨result', bind_eq_ok.mpr ⟨(), checkNary_kind passed, found⟩, yields⟩
  checkReturn := by
    rintro _ value _ expected result rfl - rfl passed
    exact ValueKind.expect_of_eq (kind_of_expect passed)

end VerificationType

namespace Frame

variable {V W : Type} [AbstractValue V] [AbstractValue W] {view : V → W} {frame : Frame V}
  {seen : Frame W}

/-- Nothing but what is seen of a frame is beside it in this way. -/
theorem Alongside.eq_viewed
    (along : seen.Alongside (fun seen value => seen = view value) (fun seen value => seen = view value)
      frame) : seen = frame.viewed view := by
  have results : seen.returnValue = frame.returnValue.map view := by
    have rel := along.returnValue
    revert rel
    cases seen.returnValue <;> cases frame.returnValue <;> rintro ⟨⟩
    · rfl
    · rename_i related
      exact congrArg some related
  obtain ⟨locals, stack, maxStack, returnValue⟩ := seen
  have placed : stack = .ofList stack.toList := along.placed
  have values : stack.toList = frame.stackValues.map view :=
    eq_map_of_views (along.stack.imp fun _ _ => Matches.related)
  have locals' : locals = frame.locals.map view := eq_map_of_views along.locals
  have bounds : maxStack = frame.maxStack := along.maxStack
  subst locals' bounds results
  rw [viewed, ← values, ← placed]

end Frame

namespace VerificationType

variable {hierarchy : TypeHierarchy} {frame other merged : Frame VerificationType}

theorem kinds_alongside (placed : frame.stack.Placed) :
    (frame.viewed kind).Alongside (fun seen type => seen = type.kind)
      (fun seen type => seen = type.kind) frame :=
  Frame.viewed_alongside width_kind (fun _ => rfl) placed

theorem execute_kind {site : Site} {after : Frame VerificationType} (placed : frame.stack.Placed)
    (executed : frame.execute (verifier hierarchy) site = .ok after) :
    (frame.viewed kind).execute ValueKind.verifier site = .ok (after.viewed kind) := by
  obtain ⟨seen, ran, along⟩ :=
    (kinds_alongside placed).execute (checkedKinds_follow site) executed
  rw [ran, along.eq_viewed]

theorem mergeValues_kind {olds news values : List VerificationType}
    (merged : Frame.mergeValues (verifier hierarchy) olds news = .ok values) :
    Frame.mergeValues ValueKind.verifier (olds.map kind) (news.map kind) = .ok (values.map kind) := by
  induction olds generalizing news values with
  | nil =>
    cases merged
    rfl
  | cons old olds ih =>
    cases news with
    | nil =>
      cases merged
      rfl
    | cons new news =>
      simp only [Frame.mergeValues, bind_eq_ok] at merged
      obtain ⟨value, met, rest, others, ended⟩ := merged
      cases ended
      have met' : ValueKind.verifier.merge old.kind new.kind = .ok value.kind :=
        congrArg Except.ok (kind_merge met).symm
      exact bind_eq_ok.mpr ⟨_, met', bind_eq_ok.mpr ⟨_, ih others, rfl⟩⟩

/-- The kinds change only if the types do. -/
theorem merge_kind {changed : Bool} (placed : frame.stack.Placed) (placed' : other.stack.Placed)
    (succeeds : frame.merge (verifier hierarchy) other = .ok (merged, changed)) :
    ∃ changed', (frame.viewed kind).merge ValueKind.verifier (other.viewed kind) =
        .ok (merged.viewed kind, changed') ∧ (changed' = true → changed = true) := by
  obtain ⟨lengths, slots, locals, values, metLocals, metValues, rfl, changes⟩ :=
    (Frame.merge_eq_ok placed).mp succeeds
  have heights {frame : Frame VerificationType} (placed : frame.stack.Placed) :
      (frame.viewed kind).stackLength = frame.stackLength ∧
        (frame.viewed kind).stackSlots = frame.stackSlots := by
    have beside := kinds_alongside placed
    refine ⟨?_, beside.stackSlots_eq⟩
    simp only [Frame.stackLength, SlotVec.length_eq]
    exact beside.stack.length_eq
  let changed' := !decide (locals.map kind = (frame.viewed kind).locals ∧
    values.map kind = (frame.viewed kind).stackValues)
  refine ⟨changed', (Frame.merge_eq_ok (SlotVec.placed_ofList _)).mpr ⟨?_, ?_, locals.map kind,
    values.map kind, mergeValues_kind metLocals, ?_, ?_, by simp [changed']⟩, ?_⟩
  · rw [(heights placed).1, (heights placed').1, lengths]
  · rw [(heights placed).2, (heights placed').2, slots]
  · rw [Frame.stackValues_viewed, Frame.stackValues_viewed]
    exact mergeValues_kind metValues
  · simp [Frame.viewed, Frame.stackValues]
  · intro turned
    cases changed with
    | true => rfl
    | false =>
      obtain ⟨rfl, rfl⟩ := changes.mp rfl
      have unchanged : changed' = false := by
        simp only [changed', Frame.stackValues_viewed]
        simp [Frame.viewed]
      exact absurd turned (by simp [unchanged])

/-- What the verifier of types does with frames, the verifier of kinds does with their kinds. -/
theorem verifier_refines (hierarchy : TypeHierarchy) {frame : Frame VerificationType}
    (placed : frame.stack.Placed) :
    (∀ site after, frame.execute (verifier hierarchy) site = .ok after →
      (frame.viewed kind).execute ValueKind.verifier site = .ok (after.viewed kind)) ∧
    ∀ other merged changed, other.stack.Placed →
      frame.merge (verifier hierarchy) other = .ok (merged, changed) →
      ∃ changed', (frame.viewed kind).merge ValueKind.verifier (other.viewed kind) =
        .ok (merged.viewed kind, changed') ∧ (changed' = true → changed = true) :=
  ⟨fun _ _ executed => execute_kind placed executed,
    fun _ _ _ placed' succeeds => merge_kind placed placed' succeeds⟩

/-- A boxed integer that is to be stored into an array of numbers. -/
def numberArray : Frame VerificationType :=
  ⟨[object (.object .number), long, top],
    .ofList [object (.objectArray 0 .number), integer, object (.object .boxedInteger)], some 3, none⟩

/-- A number that is to be stored into null, beside other locals. -/
def nullArray : Frame VerificationType :=
  ⟨[object (.object .comparable), integer, top],
    .ofList [null, integer, object (.object .number)], some 3, none⟩

/-- A store into an array of references. -/
def referenceStore : Site := ⟨4, .instruction (.arrayStore .reference)⟩

/-- That interfaces of the hierarchy extend each other is no obstacle. -/
theorem numberArray_refines : ∃ after merged changed',
    numberArray.stack.Placed ∧ nullArray.stack.Placed ∧
    numberArray.execute (verifier ClassGraph.ringed.hierarchy) referenceStore = .ok after ∧
    (after.locals = [object (.object .number), long, top] ∧ after.stackValues = []) ∧
    (numberArray.viewed kind).execute ValueKind.verifier referenceStore = .ok (after.viewed kind) ∧
    numberArray.merge (verifier ClassGraph.ringed.hierarchy) nullArray = .ok (merged, true) ∧
    merged.locals = [object (.object .comparable), top, top] ∧
    (numberArray.viewed kind).merge ValueKind.verifier (nullArray.viewed kind) =
      .ok (merged.viewed kind, changed') := by
  have placed : numberArray.stack.Placed := SlotVec.placed_ofList _
  have placed' : nullArray.stack.Placed := SlotVec.placed_ofList _
  have stored : (numberArray.execute (verifier ClassGraph.ringed.hierarchy) referenceStore).map
      (fun after => (after.locals, after.stackValues)) =
        .ok ([object (.object .number), long, top], []) := by
    decide +kernel
  have met : (numberArray.merge (verifier ClassGraph.ringed.hierarchy) nullArray).map
      (fun outcome => (outcome.1.locals, outcome.2)) =
        .ok ([object (.object .comparable), top, top], true) := by
    decide +kernel
  obtain ⟨after, executed, parts⟩ := map_eq_ok.mp stored
  obtain ⟨⟨merged, changed⟩, succeeds, parts'⟩ := map_eq_ok.mp met
  simp only [Prod.mk.injEq] at parts parts'
  obtain ⟨locals, rfl⟩ := parts'
  obtain ⟨executes, merges⟩ := verifier_refines ClassGraph.ringed.hierarchy placed
  obtain ⟨changed', met', -⟩ := merges _ _ _ placed' succeeds
  exact ⟨after, merged, changed', placed, placed', executed, parts, executes _ _ executed, succeeds,
    locals, met'⟩

end VerificationType

end MethodFlow
