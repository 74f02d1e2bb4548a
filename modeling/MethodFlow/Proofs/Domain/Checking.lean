import MethodFlow.Proofs.Domain.Weakening
import MethodFlow.Proofs.Frame.Mirroring

namespace MethodFlow

namespace ValueKind

variable {site : Site}

/-- Whatever the verifier finds, the domain without checks finds. -/
theorem verifier_mirroredAt (site : Site) : verifier.MirroredAt (fun _ => True) domain site where
  valueOf := rfl
  produce := .same _
  copy _ := .of_ok fun _ copied => by
    obtain ⟨_, -, ended⟩ := bind_eq_ok.mp copied
    exact ended
  unary _ := .of_ok fun _ computed => by
    obtain ⟨_, -, result⟩ := bind_eq_ok.mp computed
    exact result
  binary _ _ := .of_ok fun _ computed => by
    obtain ⟨_, -, result⟩ := bind_eq_ok.mp computed
    exact result
  ternary _ _ _ := .of_ok fun _ computed => by
    obtain ⟨_, -, result⟩ := bind_eq_ok.mp computed
    exact result
  nary _ := .of_ok fun _ computed => by
    obtain ⟨_, -, result⟩ := bind_eq_ok.mp computed
    exact result
  checkReturn _ _ := .of_ok fun _ _ => rfl

section Agreement

variable {value upper : ValueKind}

/-- Where its checks let a value pass, the verifier types an operation as the domain does. -/
theorem copy_eq_of_refines {copied : ValueKind} (refines : value.Refines upper)
    (passed : verifier.copy site upper = .ok copied) :
    verifier.copy site value = domain.copy site value := by
  obtain ⟨_, checked, -⟩ := bind_eq_ok.mp passed
  exact bind_eq_ok.mpr ⟨(), checkedTypes_lowers.checkCopy refines checked, rfl⟩

theorem copy_eq_of_shuffle {shape : Shuffle}
    (operated : site.operation = .instruction (.shuffle shape)) :
    verifier.copy site = domain.copy site := by
  funext value
  refine bind_eq_ok.mpr ⟨(), ?_, rfl⟩
  unfold CheckedValues.checkCopy
  rw [operated]

theorem unary_eq_of_refines {result : Option ValueKind} (refines : value.Refines upper)
    (passed : verifier.unary site upper = .ok result) :
    verifier.unary site value = domain.unary site value := by
  obtain ⟨_, checked, typed⟩ := bind_eq_ok.mp passed
  cases refines.eq (checkedTypes_lowers.unary checked)
  exact passed.trans typed.symm

theorem binary_eq_of_refines {first second upper upper' : ValueKind} {result : Option ValueKind}
    (refines : first.Refines upper) (refines' : second.Refines upper')
    (passed : verifier.binary site upper upper' = .ok result) :
    verifier.binary site first second = domain.binary site first second := by
  obtain ⟨_, checked, typed⟩ := bind_eq_ok.mp passed
  obtain ⟨usable, usable'⟩ := checkedTypes_lowers.binary checked
  cases refines.eq usable
  cases refines'.eq usable'
  exact passed.trans typed.symm

theorem ternary_eq_of_refines {first second third upper₁ upper₂ upper₃ : ValueKind}
    {result : Option ValueKind} (refines₁ : first.Refines upper₁) (refines₂ : second.Refines upper₂)
    (refines₃ : third.Refines upper₃)
    (passed : verifier.ternary site upper₁ upper₂ upper₃ = .ok result) :
    verifier.ternary site first second third = domain.ternary site first second third := by
  obtain ⟨_, checked, typed⟩ := bind_eq_ok.mp passed
  obtain ⟨usable₁, usable₂, usable₃⟩ := checkedTypes_lowers.ternary checked
  cases refines₁.eq usable₁
  cases refines₂.eq usable₂
  cases refines₃.eq usable₃
  exact passed.trans typed.symm

theorem nary_eq_of_refines {values uppers : List ValueKind} {result : Option ValueKind}
    (refines : List.Forall₂ Refines values uppers)
    (passed : verifier.nary site uppers = .ok result) :
    verifier.nary site values = domain.nary site values := by
  obtain ⟨_, checked, typed⟩ := bind_eq_ok.mp passed
  have same : verifier.nary site values = .ok result :=
    bind_eq_ok.mpr ⟨(), checkedTypes_lowers.checkNary refines checked, typed⟩
  exact same.trans typed.symm

end Agreement

end ValueKind

open ValueKind

/-- A frame holds the values of another one, or that one has lost them, whatever slots they take. -/
structure Frame.Below (frame upper : Frame ValueKind) : Prop where
  locals : List.Forall₂ ValueKind.Refines frame.locals upper.locals
  stack : List.Forall₂ ValueKind.Refines frame.stackValues upper.stackValues
  placed : frame.stack.Placed
  returnValue : frame.returnValue = upper.returnValue

namespace Frame.Below

variable {frame upper rest' after' : Frame ValueKind} {site : Site}

theorem pop (below : frame.Below upper) {value' : ValueKind}
    (popped : upper.pop = .ok (value', rest')) :
    ∃ value rest, frame.pop = .ok (value, rest) ∧ value.Refines value' ∧ rest.Below rest' := by
  have stack := below.stack
  rw [stackValues_pop popped] at stack
  have under := List.forall₂_take_append _ _ _ stack
  have top := List.forall₂_drop_append _ _ _ stack
  obtain ⟨value, _, refines, none, single⟩ := List.forall₂_cons_right_iff.mp top
  cases none
  have whole : frame.stackValues = frame.stackValues.take rest'.stackValues.length ++ [value] := by
    rw [← single, List.take_append_drop]
  obtain ⟨stack', -, rfl⟩ := pop_eq_ok.mp popped
  refine ⟨value, _, pop_of_values below.placed whole, refines, below.locals, ?_,
    SlotVec.placed_ofList _, below.returnValue⟩
  simpa only [stackValues, SlotVec.toList_ofList] using under

theorem takes (below : frame.Below upper) {values' : List ValueKind}
    (taken : Takes upper values' rest') :
    ∃ values rest, Takes frame values rest ∧ List.Forall₂ ValueKind.Refines values values' := by
  induction taken generalizing frame with
  | none => exact ⟨[], frame, .none, .nil⟩
  | more popped _ ih =>
    obtain ⟨value, under, popped', refines, below'⟩ := below.pop popped
    obtain ⟨values, rest, further, others⟩ := ih below'
    exact ⟨value :: values, rest, .more popped' further, .cons refines others⟩

theorem read (below : frame.Below upper) {slot : Nat} {value' : ValueKind}
    (found : upper.local? slot = .ok value') :
    ∃ value, frame.local? slot = .ok value ∧ value.Refines value' := by
  obtain ⟨inside', rfl⟩ := List.getElem?_eq_some_iff.mp (local?_eq_ok.mp found)
  have inside : slot < frame.locals.length := below.locals.length_eq ▸ inside'
  exact ⟨_, local?_eq_ok.mpr (List.getElem?_eq_getElem inside), below.locals.get inside inside'⟩

theorem unary (below : frame.Below upper) {pushes : Bool}
    (passed : upper.executeUnary verifier site pushes = .ok after') :
    frame.executeUnary verifier site pushes = frame.executeUnary domain site pushes := by
  simp only [executeUnary, bind_eq_ok, Prod.exists] at passed
  obtain ⟨value', _, popped', result', computed', -⟩ := passed
  obtain ⟨value, rest, popped, refines, -⟩ := below.pop popped'
  simp only [executeUnary, popped, unary_eq_of_refines refines computed', bind, Except.bind]

theorem binary (below : frame.Below upper) {pushes : Bool}
    (passed : upper.executeBinary verifier site pushes = .ok after') :
    frame.executeBinary verifier site pushes = frame.executeBinary domain site pushes := by
  simp only [executeBinary, bind_eq_ok, Prod.exists] at passed
  obtain ⟨second', _, popped', first', _, popped₂', result', computed', -⟩ := passed
  obtain ⟨second, _, popped, refines', below'⟩ := below.pop popped'
  obtain ⟨first, rest, popped₂, refines, -⟩ := below'.pop popped₂'
  simp only [executeBinary, popped, popped₂, binary_eq_of_refines refines refines' computed', bind,
    Except.bind]

theorem nary (below : frame.Below upper) {count : Nat} {pushes : Bool}
    (passed : upper.executeNary verifier site count pushes = .ok after') :
    frame.executeNary verifier site count pushes = frame.executeNary domain site count pushes := by
  simp only [executeNary, bind_eq_ok, Prod.exists] at passed
  obtain ⟨values', rest', popped', result', computed', -⟩ := passed
  obtain ⟨length, taken'⟩ := popMany_eq_ok.mp popped'
  obtain ⟨values, rest, taken, refines⟩ := below.takes taken'
  have popped : frame.popMany count = .ok (values.reverse, rest) := by
    refine popMany_eq_ok.mpr ⟨?_, by rwa [List.reverse_reverse]⟩
    rw [List.length_reverse, refines.length_eq, List.length_reverse, length]
  have refines' : List.Forall₂ ValueKind.Refines values.reverse values' := by
    simpa using List.rel_reverse refines
  simp only [executeNary, popped, nary_eq_of_refines refines' computed', bind, Except.bind]

theorem instruction (below : frame.Below upper) {i : Instruction}
    (operated : site.operation = .instruction i)
    (passed : upper.executeInstruction verifier site i = .ok after') :
    frame.executeInstruction verifier site i = frame.executeInstruction domain site i := by
  cases i with
  | nop => rfl
  | load kind slot =>
    simp only [executeInstruction, bind_eq_ok] at passed
    obtain ⟨stored', read', value', copied', -⟩ := passed
    obtain ⟨stored, read, refines⟩ := below.read read'
    simp only [executeInstruction, read, copy_eq_of_refines refines copied', bind, Except.bind]
  | store kind slot =>
    simp only [executeInstruction, bind_eq_ok, Prod.exists] at passed
    obtain ⟨top', _, popped', value', copied', -⟩ := passed
    obtain ⟨top, rest, popped, refines, -⟩ := below.pop popped'
    simp only [executeInstruction, popped, copy_eq_of_refines refines copied', bind, Except.bind]
    rfl
  | arrayStore kind =>
    simp only [executeInstruction, bind_eq_ok, Prod.exists] at passed
    obtain ⟨third', _, popped', second', _, popped₂', first', _, popped₃', _, computed', -⟩ := passed
    obtain ⟨third, _, popped, refines₃, below₁⟩ := below.pop popped'
    obtain ⟨second, _, popped₂, refines₂, below₂⟩ := below₁.pop popped₂'
    obtain ⟨first, rest, popped₃, refines₁, -⟩ := below₂.pop popped₃'
    simp only [executeInstruction, popped, popped₂, popped₃,
      ternary_eq_of_refines refines₁ refines₂ refines₃ computed', bind, Except.bind]
  | increment slot amount =>
    simp only [executeInstruction, bind_eq_ok] at passed
    obtain ⟨stored', read', result', computed', -⟩ := passed
    obtain ⟨stored, read, refines⟩ := below.read read'
    simp only [executeInstruction, read, unary_eq_of_refines refines computed', bind, Except.bind]
  | shuffle shape =>
    have copies (items : List (Shuffled ValueKind)) :
        copyShuffled verifier site items = copyShuffled domain site items := by
      induction items with
      | nil => rfl
      | cons item rest ih =>
        cases item <;> simp only [copyShuffled, ih, copy_eq_of_shuffle operated]
    simp only [executeInstruction, executeShuffle, copies]
  | pushNull | shortConstant | pushByte | pushShort | loadConstant | loadWideConstant | getStatic
  | newObject => rfl
  | negate | convert | getField | newPrimitiveArray | newArray | arrayLength | checkCast
  | instanceOf | putStatic | monitorEnter | monitorExit => exact below.unary passed
  | arrayLoad | arithmetic | shift | bitwise | compare | putField => exact below.binary passed
  | invoke | invokeDynamic | newMultiArray => exact below.nary passed

theorem branch {L : Type} (below : frame.Below upper) {b : Branch L}
    (passed : upper.executeBranch verifier site b = .ok after') :
    frame.executeBranch verifier site b = frame.executeBranch domain site b := by
  cases b with
  | goto | ret | voidReturn | jsr => rfl
  | valueReturn kind =>
    simp only [executeBranch, executeReturn, bind_eq_ok, Prod.exists] at passed
    obtain ⟨value', rest', popped', result', computed', continued'⟩ := passed
    obtain ⟨value, rest, popped, refines, below'⟩ := below.pop popped'
    have same : value = value' := by
      obtain ⟨_, checked, -⟩ := bind_eq_ok.mp computed'
      exact refines.eq (checkedTypes_lowers.unary checked)
    simp only [executeBranch, executeReturn, popped, unary_eq_of_refines refines computed', bind,
      Except.bind, below'.returnValue]
    cases declared : rest'.returnValue with
    | none => rfl
    | some expected =>
      rw [declared] at continued'
      obtain ⟨_, checked, -⟩ := bind_eq_ok.mp continued'
      rw [← same] at checked
      simp only [checked]
      rfl
  | ifInts | ifReferences => exact below.binary passed
  | ifZero | tableSwitch | lookupSwitch | throw | ifNull => exact below.unary passed

/-- What the checks let pass of an approximation of a frame they let pass of the frame. -/
theorem execute (below : frame.Below upper) (passed : upper.execute verifier site = .ok after') :
    frame.execute verifier site = frame.execute domain site := by
  unfold Frame.execute at passed ⊢
  split at passed
  · rename_i i operated
    exact below.instruction operated passed
  · exact below.branch passed

end Frame.Below

end MethodFlow
