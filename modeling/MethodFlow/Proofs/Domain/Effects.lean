import MethodFlow.Proofs.Domain.Addressing
import MethodFlow.Proofs.Domain.Refinement
import MethodFlow.Proofs.Frame.Fading

/-! What an operation does to the height of the stack. Where operands are checked, their widths are those
of the types that are expected of them, so that the effect is known from the operation alone. -/

namespace MethodFlow

/-- Slots that an instruction takes off the stack; a shuffle takes off what it drops. -/
def Instruction.pops : Instruction → Nat
  | .nop | .pushNull | .shortConstant _ | .pushByte _ | .pushShort _ | .loadConstant _
  | .loadWideConstant _ | .load _ _ | .increment _ _ | .getStatic _ | .newObject _ => 0
  | .store kind _ => kind.width
  | .arrayLoad _ => 2
  | .arrayStore kind => 2 + kind.operand.width
  | .shuffle shape => shape.drops
  | .negate kind => kind.type.width
  | .arithmetic _ kind => kind.type.width + kind.type.width
  | .bitwise _ kind => kind.type.width + kind.type.width
  | .shift _ kind => kind.type.width + 1
  | .compare comparison => comparison.type.width + comparison.type.width
  | .convert conversion => conversion.source.type.width
  | .getField _ => 1
  | .putStatic field => field.descriptor.width
  | .putField field => 1 + field.descriptor.width
  | .invoke kind method => method.descriptor.parameterLength kind.hasReceiver
  | .invokeDynamic call => call.descriptor.parameterLength false
  | .newMultiArray _ dimensions => dimensions
  | .newPrimitiveArray _ | .newArray _ | .arrayLength | .checkCast _ | .instanceOf _
  | .monitorEnter | .monitorExit => 1

/-- Slots that an instruction puts on the stack; a shuffle puts there what it adds. -/
def Instruction.pushes : Instruction → Nat
  | .nop | .store _ _ | .arrayStore _ | .increment _ _ | .putStatic _ | .putField _ | .monitorEnter
  | .monitorExit => 0
  | .shortConstant constant => constant.type.width
  | .loadConstant constant | .loadWideConstant constant => constant.type.width
  | .load kind _ => kind.width
  | .arrayLoad kind => kind.operand.width
  | .shuffle shape => shape.adds
  | .arithmetic _ kind | .negate kind => kind.type.width
  | .shift _ kind | .bitwise _ kind => kind.type.width
  | .convert conversion => conversion.target.type.width
  | .getStatic field | .getField field => field.descriptor.width
  | .invoke _ method => (method.descriptor.returnType.map FieldType.width).getD 0
  | .invokeDynamic call => (call.descriptor.returnType.map FieldType.width).getD 0
  | .pushNull | .pushByte _ | .pushShort _ | .compare _ | .newObject _ | .newPrimitiveArray _
  | .newArray _ | .arrayLength | .checkCast _ | .instanceOf _ | .newMultiArray _ _ => 1

/-- Slots that a branch takes off the stack. -/
def Branch.pops {L : Type} : Branch L → Nat
  | .ifZero _ _ | .ifNull _ _ | .tableSwitch _ _ _ | .lookupSwitch _ _ | .throw => 1
  | .ifInts _ _ | .ifReferences _ _ => 2
  | .valueReturn kind => kind.width
  | .goto _ | .voidReturn | .jsr _ | .ret _ => 0

/-- Slots that a branch puts on the stack. -/
def Branch.pushes {L : Type} : Branch L → Nat
  | .jsr _ => 1
  | _ => 0

namespace Operation

def pops : Operation → Nat
  | .instruction i => i.pops
  | .branch b => b.pops

def pushes : Operation → Nat
  | .instruction i => i.pushes
  | .branch b => b.pushes

/-- Slots by which an operation raises the stack, or lowers it if there are fewer. -/
def stackEffect (operation : Operation) : Int := operation.pushes - operation.pops

end Operation

namespace Frame

variable {V : Type} [AbstractValue V] {domain : Domain V} {site : Site} {frame rest after : Frame V}
  {value : V}

/-- Slots that the values on the stack take. -/
def filled (frame : Frame V) : Nat := (frame.stackValues.map width).sum

theorem filled_eq (placed : frame.stack.Placed) : frame.stackSlots = frame.filled := placed.slots_eq

theorem filled_takes {values : List V} (taken : Takes frame values rest) :
    frame.filled = rest.filled + (values.map width).sum := by
  simp [filled, stackValues_takes taken, List.sum_reverse]

theorem filled_pop (popped : frame.pop = .ok (value, rest)) :
    frame.filled = rest.filled + width value := by
  simpa using filled_takes (.one popped)

theorem filled_push (pushed : frame.push value = .ok after) :
    after.filled = frame.filled + width value := by
  simp [filled, stackValues_push pushed]

theorem filled_viewed {W : Type} [AbstractValue W] {view : V → W}
    (widths : ∀ value, width (view value) = width value) (frame : Frame V) :
    (frame.viewed view).filled = frame.filled := by
  rw [filled, stackValues_viewed, List.map_map, Function.comp_def, funext widths, filled]

/-- Slots of a result, if it is pushed. -/
def pushedSlots (pushes : Bool) (result : Option V) : Nat :=
  if pushes then (result.map width).getD 0 else 0

theorem pushedSlots_eq {pushes : Bool} {result : Option V} {slots : Nat}
    (wide : (result.map width).getD 0 = slots) (dropped : pushes = false → slots = 0) :
    pushedSlots pushes result = slots := by
  cases pushes with
  | true => exact wide
  | false => exact (dropped rfl).symm

theorem filled_pushResult {pushes : Bool} {result : Option V}
    (pushed : (if pushes then frame.pushProduced result else .ok frame) = .ok after) :
    after.filled = frame.filled + pushedSlots pushes result := by
  cases pushes with
  | false =>
    cases pushed
    rfl
  | true =>
    cases result with
    | none => cases pushed
    | some value => exact filled_push pushed

theorem filled_produce (executed : frame.executeProduce domain site = .ok after) :
    ∃ value, domain.produce site = .ok value ∧ after.filled = frame.filled + width value := by
  obtain ⟨value, produced, pushed⟩ := bind_eq_ok.mp executed
  exact ⟨value, produced, filled_push pushed⟩

theorem filled_unary {pushes : Bool} (executed : frame.executeUnary domain site pushes = .ok after) :
    ∃ value result, domain.unary site value = .ok result ∧
      after.filled + width value = frame.filled + pushedSlots pushes result := by
  simp only [executeUnary, bind_eq_ok, Prod.exists] at executed
  obtain ⟨value, rest, popped, result, computed, pushed⟩ := executed
  refine ⟨value, result, computed, ?_⟩
  rw [filled_pushResult pushed, filled_pop popped]
  omega

theorem filled_binary {pushes : Bool} (executed : frame.executeBinary domain site pushes = .ok after) :
    ∃ first second result, domain.binary site first second = .ok result ∧
      after.filled + (width first + width second) = frame.filled + pushedSlots pushes result := by
  simp only [executeBinary, bind_eq_ok, Prod.exists] at executed
  obtain ⟨second, below, popped, first, rest, popped', result, computed, pushed⟩ := executed
  refine ⟨first, second, result, computed, ?_⟩
  rw [filled_pushResult pushed, filled_pop popped, filled_pop popped']
  omega

theorem filled_nary {count : Nat} {pushes : Bool}
    (executed : frame.executeNary domain site count pushes = .ok after) :
    ∃ values result, values.length = count ∧ domain.nary site values = .ok result ∧
      after.filled + (values.map width).sum = frame.filled + pushedSlots pushes result := by
  simp only [executeNary, bind_eq_ok, Prod.exists, popMany_eq_ok] at executed
  obtain ⟨values, rest, ⟨length, taken⟩, result, computed, pushed⟩ := executed
  refine ⟨values, result, length, computed, ?_⟩
  rw [filled_pushResult pushed, filled_takes taken, List.map_reverse, List.sum_reverse]
  omega

end Frame

namespace ValueKind

variable {context : Option String} {value first second third : ValueKind} {type type' : FieldType}
  {site : Site} {result : Option ValueKind}

section Operands

theorem width_of_expect
    (passed : checkedTypes.expect context value (checkedTypes.typed type) = .ok ()) :
    MethodFlow.width value = type.width := by
  rw [eq_of_expect passed]
  exact Provenance.width_ofType type

theorem width_of_expectReference (passed : checkedTypes.expectReference context value = .ok ()) :
    MethodFlow.width value = 1 := by
  obtain rfl : value = .reference := by
    simpa [checkedTypes] using CheckedValues.expectReference_eq_ok.mp passed
  rfl

theorem width_of_expectArray (passed : checkedTypes.expectArray value = .ok ()) :
    MethodFlow.width value = 1 := by
  obtain rfl : value = .reference := by
    simpa [checkedTypes] using CheckedValues.expectArray_eq_ok.mp passed
  rfl

theorem widths_of_expectBoth
    (passed : checkedTypes.expectBoth first second (checkedTypes.typed type)
      (checkedTypes.typed type') = .ok ()) :
    MethodFlow.width first + MethodFlow.width second = type.width + type'.width := by
  obtain ⟨_, one, two⟩ := bind_eq_ok.mp passed
  rw [width_of_expect one, width_of_expect two]

theorem widths_of_checkArguments {index : Nat} {values : List ValueKind} {parameters : List FieldType}
    (length : values.length = parameters.length)
    (passed : checkedTypes.checkArguments index values parameters = .ok ()) :
    (values.map MethodFlow.width).sum =
      parameters.foldr (fun type slots => type.width + slots) 0 := by
  induction values generalizing index parameters with
  | nil =>
    cases parameters with
    | nil => rfl
    | cons => cases length
  | cons value values ih =>
    cases parameters with
    | nil => cases length
    | cons parameter parameters =>
      obtain ⟨_, one, others⟩ := bind_eq_ok.mp passed
      simp only [List.map_cons, List.sum_cons, List.foldr_cons]
      rw [width_of_expect one, ih (Nat.succ.inj length) others]

theorem widths_of_checkDimensions {values : List ValueKind}
    (passed : checkedTypes.checkDimensions values = .ok ()) :
    (values.map MethodFlow.width).sum = values.length := by
  induction values with
  | nil => rfl
  | cons value values ih =>
    obtain ⟨_, one, others⟩ := bind_eq_ok.mp passed
    simp only [List.map_cons, List.sum_cons, List.length_cons]
    rw [width_of_expect one, ih others, Nat.add_comm]
    rfl

theorem widths_of_checkInvocation {kind : InvokeKind} {method : MethodRef} {values : List ValueKind}
    (length : values.length =
      method.descriptor.parameters.length + if kind.hasReceiver then 1 else 0)
    (passed : checkedTypes.checkInvocation kind method values = .ok ()) :
    (values.map MethodFlow.width).sum = method.descriptor.parameterLength kind.hasReceiver := by
  unfold CheckedValues.checkInvocation at passed
  unfold MethodDescriptor.parameterLength
  cases received : kind.hasReceiver <;> simp only [received] at length passed ⊢
  · rw [widths_of_checkArguments length passed]
    exact (Nat.zero_add _).symm
  · cases values with
    | nil => cases length
    | cons receiver values =>
      obtain ⟨_, owner, others⟩ := bind_eq_ok.mp passed
      simp only [List.map_cons, List.sum_cons]
      rw [width_of_expect owner, widths_of_checkArguments (Nat.succ.inj length) others]
      rfl

end Operands

section Operations

theorem width_of_copy {copied : ValueKind} (copies : verifier.copy site value = .ok copied) :
    MethodFlow.width copied = MethodFlow.width value := by
  obtain ⟨_, -, ended⟩ := bind_eq_ok.mp copies
  cases ended
  rfl

theorem width_of_load {kind : Kind} {slot : Nat} {copied : ValueKind}
    (operated : site.operation = .instruction (.load kind slot))
    (copies : verifier.copy site value = .ok copied) : MethodFlow.width value = kind.width := by
  obtain ⟨_, passed, -⟩ := bind_eq_ok.mp copies
  unfold CheckedValues.checkCopy at passed
  rw [operated] at passed
  cases kind with
  | reference => exact width_of_expectReference passed
  | int | long | float | double => exact width_of_expect passed

theorem width_typed (type : FieldType) : MethodFlow.width (types.typed type) = type.width :=
  Provenance.width_ofType type

theorem width_produced (produced : verifier.produce site = .ok value) :
    MethodFlow.width value = site.operation.pushes := by
  obtain ⟨index, i | b⟩ := site
  · cases i <;> cases produced <;> first | rfl | exact width_typed _
  · cases b <;> cases produced
    rfl

theorem widths_unary (unlocal : ∀ slot amount, site.operation ≠ .instruction (.increment slot amount))
    (computed : verifier.unary site value = .ok result) :
    MethodFlow.width value = site.operation.pops ∧
      (result.map MethodFlow.width).getD 0 = site.operation.pushes := by
  obtain ⟨_, passed, found⟩ := bind_eq_ok.mp computed
  obtain ⟨index, i | b⟩ := site
  · cases i with
    | increment slot amount => exact absurd rfl (unlocal slot amount)
    | _ =>
      cases found <;> first
        | exact ⟨width_of_expect passed, width_typed _⟩
        | exact ⟨width_of_expect passed, rfl⟩
        | exact ⟨width_of_expectReference passed, width_typed _⟩
        | exact ⟨width_of_expectReference passed, rfl⟩
        | exact ⟨width_of_expectArray passed, rfl⟩
  · cases b with
    | valueReturn kind =>
      cases found
      cases kind with
      | reference => exact ⟨width_of_expectReference passed, rfl⟩
      | int | long | float | double => exact ⟨width_of_expect passed, rfl⟩
    | _ =>
      cases found <;> first
        | exact ⟨width_of_expect passed, rfl⟩
        | exact ⟨width_of_expectReference passed, rfl⟩

theorem widths_binary (computed : verifier.binary site first second = .ok result) :
    MethodFlow.width first + MethodFlow.width second = site.operation.pops ∧
      (result.map MethodFlow.width).getD 0 = site.operation.pushes := by
  obtain ⟨_, passed, found⟩ := bind_eq_ok.mp computed
  obtain ⟨index, i | b⟩ := site
  · cases i with
    | arrayLoad kind =>
      -- which array is expected depends on the one that is there, but either is a reference
      obtain ⟨array, chosen, both⟩ := bind_eq_ok.mp passed
      cases (expectedArray_eq kind first).symm.trans chosen
      refine ⟨@widths_of_expectBoth _ _ (.object .object) .int both, ?_⟩
      cases kind <;> cases found <;> rfl
    | _ =>
      cases found <;> first
        | exact ⟨widths_of_expectBoth passed, width_typed _⟩
        | exact ⟨widths_of_expectBoth passed, rfl⟩
  · cases b with
    | ifReferences comparison target =>
      cases found
      obtain ⟨_, one, two⟩ := bind_eq_ok.mp passed
      rw [width_of_expectReference one, width_of_expectReference two]
      exact ⟨rfl, rfl⟩
    | _ =>
      cases found <;> exact ⟨widths_of_expectBoth passed, rfl⟩

theorem widths_ternary (computed : verifier.ternary site first second third = .ok result) :
    MethodFlow.width first + MethodFlow.width second + MethodFlow.width third =
      site.operation.pops := by
  obtain ⟨_, passed, found⟩ := bind_eq_ok.mp computed
  unfold CheckedValues.checkTernary at passed
  split at passed
  · rename_i operated
    unfold CheckedValues.checkReferenceStore at passed
    split at passed
    · rename_i array
      obtain ⟨_, index, passed⟩ := bind_eq_ok.mp passed
      obtain ⟨_, stored, -⟩ := bind_eq_ok.mp passed
      obtain rfl : first = .reference := by simpa [checkedTypes] using array
      rw [width_of_expect index, width_of_expectReference stored, operated]
      rfl
    · cases passed
  · rename_i kind _ operated
    obtain ⟨expected, chosen, passed⟩ := bind_eq_ok.mp passed
    obtain ⟨_, array, passed⟩ := bind_eq_ok.mp passed
    obtain ⟨_, index, stored⟩ := bind_eq_ok.mp passed
    cases (expectedArray_eq kind first).symm.trans chosen
    obtain rfl := eq_of_expect array
    rw [width_of_expect index, width_of_expect stored, operated]
    rfl
  · cases passed

theorem pushedSlots_returned (returned : Option FieldType) :
    Frame.pushedSlots returned.isSome (returned.map checkedTypes.typed) =
      (returned.map FieldType.width).getD 0 := by
  cases returned with
  | none => rfl
  | some type => exact width_typed type

end Operations

section Execution

variable {frame after : Frame ValueKind}

theorem unary_effect {pushes : Bool}
    (unlocal : ∀ slot amount, site.operation ≠ .instruction (.increment slot amount))
    (dropped : pushes = false → site.operation.pushes = 0)
    (executed : frame.executeUnary verifier site pushes = .ok after) :
    after.filled + site.operation.pops = frame.filled + site.operation.pushes := by
  obtain ⟨value, result, computed, slots⟩ := Frame.filled_unary executed
  obtain ⟨popped, pushed⟩ := widths_unary unlocal computed
  rwa [popped, Frame.pushedSlots_eq pushed dropped] at slots

theorem binary_effect {pushes : Bool} (dropped : pushes = false → site.operation.pushes = 0)
    (executed : frame.executeBinary verifier site pushes = .ok after) :
    after.filled + site.operation.pops = frame.filled + site.operation.pushes := by
  obtain ⟨first, second, result, computed, slots⟩ := Frame.filled_binary executed
  obtain ⟨popped, pushed⟩ := widths_binary computed
  rwa [popped, Frame.pushedSlots_eq pushed dropped] at slots

theorem produce_effect (unpopped : site.operation.pops = 0)
    (executed : frame.executeProduce verifier site = .ok after) :
    after.filled + site.operation.pops = frame.filled + site.operation.pushes := by
  obtain ⟨value, produced, slots⟩ := Frame.filled_produce executed
  rw [unpopped, slots, width_produced produced]
  rfl

theorem instruction_effect {i : Instruction} (operated : site.operation = .instruction i)
    (executed : frame.executeInstruction verifier site i = .ok after) :
    after.filled + i.pops = frame.filled + i.pushes := by
  obtain ⟨index, _⟩ := site
  cases operated
  cases i with
  | nop =>
    cases executed
    rfl
  | load kind slot =>
    obtain ⟨stored, read, continued⟩ := bind_eq_ok.mp executed
    obtain ⟨value, copied, pushed⟩ := bind_eq_ok.mp continued
    rw [Frame.filled_push pushed, width_of_copy copied, width_of_load rfl copied]
    rfl
  | store kind slot =>
    simp only [Frame.executeInstruction, bind_eq_ok, Prod.exists] at executed
    obtain ⟨top, rest, popped, value, copied, stored⟩ := executed
    have same : after.filled = rest.filled :=
      congrArg (fun values => (values.map MethodFlow.width).sum) (Frame.stackValues_store stored)
    rw [same, Frame.filled_pop popped, ← width_of_copy copied, verifier_conveys.stored rfl copied]
    rfl
  | arrayStore kind =>
    simp only [Frame.executeInstruction, bind_eq_ok, Prod.exists] at executed
    obtain ⟨third, _, popped, second, _, popped', first, rest, popped'', result, computed, ended⟩ :=
      executed
    cases ended
    have widths : _ = (Instruction.arrayStore kind).pops := widths_ternary computed
    rw [Frame.filled_pop popped, Frame.filled_pop popped', Frame.filled_pop popped'', ← widths,
      Instruction.pushes]
    omega
  | increment slot amount =>
    simp only [Frame.executeInstruction, bind_eq_ok] at executed
    obtain ⟨stored, read, result, computed, written⟩ := executed
    cases result with
    | none => cases written
    | some value =>
      exact congrArg (fun values => (values.map MethodFlow.width).sum)
        (Frame.stackValues_setLocal written)
  | shuffle shape => exact Frame.height_shuffle width_of_copy executed
  | invoke kind method =>
    obtain ⟨values, result, length, computed, slots⟩ := Frame.filled_nary executed
    obtain ⟨_, passed, found⟩ := bind_eq_ok.mp computed
    cases found
    rwa [widths_of_checkInvocation length passed, pushedSlots_returned] at slots
  | invokeDynamic call =>
    obtain ⟨values, result, length, computed, slots⟩ := Frame.filled_nary executed
    obtain ⟨_, passed, found⟩ := bind_eq_ok.mp computed
    cases found
    have arguments : call.descriptor.parameterLength false = _ := Nat.zero_add _
    rwa [widths_of_checkArguments length passed, ← arguments, pushedSlots_returned] at slots
  | newMultiArray type dimensions =>
    obtain ⟨values, result, length, computed, slots⟩ := Frame.filled_nary executed
    obtain ⟨_, passed, found⟩ := bind_eq_ok.mp computed
    cases found
    rwa [widths_of_checkDimensions passed, length] at slots
  | pushNull | shortConstant | pushByte | pushShort | loadConstant | loadWideConstant | getStatic
  | newObject => exact produce_effect rfl executed
  | negate | convert | getField | newPrimitiveArray | newArray | arrayLength | checkCast
  | instanceOf | putStatic | monitorEnter | monitorExit =>
    exact unary_effect (by simp) (by simp [Operation.pushes, Instruction.pushes]) executed
  | arrayLoad | arithmetic | shift | bitwise | compare | putField =>
    exact binary_effect (by simp [Operation.pushes, Instruction.pushes]) executed

theorem branch_effect {b : Branch Label} (operated : site.operation = .branch b)
    (executed : frame.executeBranch verifier site b = .ok after) :
    after.filled + b.pops = frame.filled + b.pushes := by
  obtain ⟨index, _⟩ := site
  cases operated
  cases b with
  | goto | ret =>
    cases executed
    rfl
  | voidReturn =>
    simp only [Frame.executeBranch] at executed
    split at executed
    · cases executed
    · cases executed
      rfl
  | valueReturn kind =>
    simp only [Frame.executeBranch, Frame.executeReturn, bind_eq_ok, Prod.exists] at executed
    obtain ⟨value, rest, popped, result, computed, continued⟩ := executed
    obtain ⟨width, -⟩ := widths_unary (by simp) computed
    have same : after = rest := by
      split at continued
      · obtain ⟨_, -, ended⟩ := bind_eq_ok.mp continued
        cases ended
        rfl
      · cases continued
    rw [same, Frame.filled_pop popped, width]
    rfl
  | jsr => exact produce_effect rfl executed
  | ifInts | ifReferences => exact binary_effect (fun _ => rfl) executed
  | ifZero | tableSwitch | lookupSwitch | throw | ifNull =>
    exact unary_effect (by simp) (fun _ => rfl) executed

theorem execute_effect (executed : frame.execute verifier site = .ok after) :
    after.filled + site.operation.pops = frame.filled + site.operation.pushes := by
  unfold Frame.execute at executed
  split at executed
  · rename_i i operated
    rw [operated]
    exact instruction_effect operated executed
  · rename_i b operated
    rw [operated]
    exact branch_effect operated executed

end Execution

end ValueKind

/-- A verified operation changes the height of the stack as it does on every other frame. -/
theorem Domain.Checked.height_changes {V : Type} [AbstractValue V] {domain : Domain V}
    (checked : domain.Checked) {site : Site} {frame after : Frame V} (placed : frame.stack.Placed)
    (executed : frame.execute domain site = .ok after) :
    (after.stackSlots : Int) - frame.stackSlots = site.operation.stackEffect := by
  have effect : after.filled + site.operation.pops = frame.filled + site.operation.pushes := by
    obtain ⟨hierarchy, chosen | chosen⟩ := checked
    · cases chosen
      exact ValueKind.execute_effect executed
    · cases chosen
      -- types are as wide as their kinds, and what passes as types passes as kinds
      have seen := ValueKind.execute_effect (VerificationType.execute_kind placed executed)
      rwa [Frame.filled_viewed VerificationType.width_kind,
        Frame.filled_viewed VerificationType.width_kind] at seen
  rw [Frame.filled_eq placed, Frame.filled_eq (Frame.placed_execute placed executed),
    Operation.stackEffect]
  omega

namespace VerificationType

/-- Invokes a method that takes a `long` and an `int` and returns a `double`. -/
def invocation : Site :=
  ⟨2, .instruction (.invoke .virtual
    ⟨.number, ⟨"scale".toList, by decide⟩, ⟨[.long, .int], some .double⟩, false⟩)⟩

/-- The receiver, its arguments and one more value. -/
def arguments : Frame VerificationType :=
  ⟨[], .ofList [top, object (.object .boxedInteger), long, integer], some 5, none⟩

theorem arguments_height_changes :
    Domain.Checked (verifier ClassGraph.library.hierarchy) ∧ arguments.stack.Placed ∧
    ∃ after, arguments.execute (verifier ClassGraph.library.hierarchy) invocation = .ok after ∧
      (after.stackSlots : Int) - arguments.stackSlots = -2 := by
  have placed : arguments.stack.Placed := SlotVec.placed_ofList _
  have found : (arguments.execute (verifier ClassGraph.library.hierarchy) invocation).map
      Frame.stackValues = .ok [top, double] := by
    decide +kernel
  obtain ⟨after, executed, -⟩ := map_eq_ok.mp found
  have changes := Domain.Checked.height_changes ⟨_, .inr .simple⟩ placed executed
  exact ⟨⟨_, .inr .simple⟩, placed, after, executed, changes⟩

end VerificationType

end MethodFlow
