import MethodFlow.Proofs.Frame.Popping
import MethodFlow.Proofs.Frame.Shape
import MethodFlow.Proofs.Mirrors

/-! Operations under a bound of the stack and without one. They do the same, unless the stack gets higher
than the bound: what an operation pushes, it pushes last, so that the stack is never higher on the way. -/

namespace MethodFlow

variable {V : Type} [AbstractValue V]

namespace Frame

variable {domain : Domain V} {site : Site} {limit : Option Nat} {bound : Nat}

omit [AbstractValue V] in
/-- The frame under another bound of the stack. -/
def under (limit : Option Nat) (frame : Frame V) : Frame V := { frame with maxStack := limit }

omit [AbstractValue V] in
@[simp] theorem returnValue_under (frame : Frame V) :
    (frame.under limit).returnValue = frame.returnValue := rfl

omit [AbstractValue V] in
theorem under_self {frame : Frame V} (declared : frame.maxStack = limit) : frame.under limit = frame := by
  subst declared
  rfl

omit [AbstractValue V] in
/-- What comes of a computation under a bound, beside what comes of it without one: the same, or an
overflow where the stack gets higher. -/
inductive Bounds (bound : Nat) : Except Fault (Frame V) → Except Fault (Frame V) → Prop where
  | same (outcome : Except Fault (Frame V)) :
      Bounds bound (outcome.map (under none)) (outcome.map (under (some bound)))
  | full {outcome : Except Fault (Frame V)}
      (higher : ∀ after, outcome = .ok after → bound < after.stackSlots) :
      Bounds bound outcome (.error (.stackOverflow bound))

namespace Bounds

omit [AbstractValue V]

variable {α β γ : Type} {first : Except Fault α}

theorem ok (frame : Frame V) : Bounds bound (.ok (frame.under none)) (.ok (frame.under (some bound))) :=
  .same (.ok frame)

theorem error (fault : Fault) :
    Bounds bound (.error fault : Except Fault (Frame V)) (.error fault) :=
  .same (.error fault)

/-- Without the bound, what is done under it is done as well, or it was an overflow. -/
theorem mirrors {free limited : Except Fault (Frame V)} (bounds : Bounds bound free limited) :
    Mirrors (fun fault => fault = .stackOverflow bound) (under none) limited free := by
  cases bounds with
  | same outcome =>
    left
    cases outcome <;> rfl
  | full => exact .letGo rfl

/-- What is done without a bound is done under it as well if the stack gets no higher. -/
theorem eq_ok {free limited : Except Fault (Frame V)} (bounds : Bounds bound free limited)
    {after : Frame V} (succeeds : free = .ok after) (within : after.stackSlots ≤ bound) :
    limited = .ok (after.under (some bound)) := by
  cases bounds with
  | same outcome =>
    cases outcome with
    | error fault => cases succeeds
    | ok frame =>
      cases succeeds
      rfl
  | full higher => exact absurd (higher after succeeds) (Nat.not_lt_of_le within)

/-- What is done alike before may have its result changed. -/
theorem bind {change : α → β} {change' : α → γ} {next : β → Except Fault (Frame V)}
    {next' : γ → Except Fault (Frame V)}
    (further : ∀ value, Bounds bound (next (change value)) (next' (change' value))) :
    Bounds bound (first.map change >>= next) (first.map change' >>= next') := by
  cases first with
  | error fault => exact .error fault
  | ok value => exact further value

theorem andThen {next next' : α → Except Fault (Frame V)}
    (further : ∀ value, Bounds bound (next value) (next' value)) :
    Bounds bound (first >>= next) (first >>= next') := by
  cases first with
  | error fault => exact .error fault
  | ok value => exact further value

end Bounds

section Steps

variable {frame : Frame V}

omit [AbstractValue V] in
/-- The bound of the stack is no part of the stack. -/
theorem leaves_under : LeavesStack (under limit : Frame V → Frame V) := by
  intro frame
  unfold pop under
  dsimp only
  split <;> rfl

omit [AbstractValue V] in
theorem setLocal_under (slot : Nat) (value : V) :
    (frame.under limit).setLocal slot value = (frame.setLocal slot value).map (under limit) := by
  unfold setLocal under
  dsimp only
  split <;> rfl

theorem clearBefore_under (slot : Nat) :
    (frame.under limit).clearBefore domain slot =
      (frame.clearBefore domain slot).map (under limit) := by
  cases slot with
  | zero => rfl
  | succ previous =>
    have read : (frame.under limit).local? previous = frame.local? previous := rfl
    simp only [clearBefore, read, setLocal_under]
    cases frame.local? previous with
    | error fault => rfl
    | ok before =>
      simp only [bind, Except.bind]
      split <;> rfl

theorem store_under (slot : Nat) (value : V) :
    (frame.under limit).store domain slot value =
      (frame.store domain slot value).map (under limit) := by
  unfold store
  rw [setLocal_under]
  refine bind_change fun first => ?_
  by_cases wide : width value = 2
  · simp only [wide, ↓reduceIte, setLocal_under]
    exact bind_change fun second => clearBefore_under slot
  · simp only [wide, ↓reduceIte]
    exact clearBefore_under slot

theorem push_under (value : V) :
    (frame.under none).push value = .ok (under none { frame with stack := frame.stack.push value }) ∧
      (frame.under (some bound)).push value =
        if bound < frame.stackSlots + width value then .error (.stackOverflow bound)
        else .ok (under (some bound) { frame with stack := frame.stack.push value }) :=
  ⟨rfl, rfl⟩

theorem stackSlots_pushAll {after : Frame V} {values : List V}
    (pushed : frame.pushAll values = .ok after) : frame.stackSlots ≤ after.stackSlots := by
  induction values generalizing frame with
  | nil =>
    cases pushed
    exact Nat.le_refl _
  | cons value values ih =>
    obtain ⟨middle, first, others⟩ := bind_eq_ok.mp pushed
    obtain ⟨rfl, -⟩ := push_eq_ok.mp first
    exact Nat.le_trans (Nat.le_add_right _ _) (ih others)

theorem pushAll_bounds (values : List V) :
    Bounds bound ((frame.under none).pushAll values) ((frame.under (some bound)).pushAll values) := by
  induction values generalizing frame with
  | nil => exact .ok frame
  | cons value values ih =>
    obtain ⟨free, limited⟩ : _ ∧ (frame.under (some bound)).push value = _ := push_under value
    unfold pushAll
    rw [free, limited]
    split
    · rename_i higher
      refine .full fun after pushed => ?_
      exact Nat.lt_of_lt_of_le higher (stackSlots_pushAll pushed)
    · exact ih

theorem push_bounds (value : V) :
    Bounds bound ((frame.under none).push value) ((frame.under (some bound)).push value) := by
  have single {frame : Frame V} : frame.pushAll [value] = frame.push value := by
    unfold pushAll pushAll
    cases frame.push value <;> rfl
  rw [← single, ← single]
  exact pushAll_bounds [value]

theorem pushResult_bounds (pushes : Bool) (result : Option V) :
    Bounds bound (if pushes then (frame.under none).pushProduced result else .ok (frame.under none))
      (if pushes then (frame.under (some bound)).pushProduced result
        else .ok (frame.under (some bound))) := by
  cases pushes with
  | false => exact .ok frame
  | true =>
    cases result with
    | none => exact .error _
    | some value => exact push_bounds value

theorem produce_bounds :
    Bounds bound ((frame.under none).executeProduce domain site)
      ((frame.under (some bound)).executeProduce domain site) :=
  .andThen fun value => push_bounds value

theorem unary_bounds (pushes : Bool) :
    Bounds bound ((frame.under none).executeUnary domain site pushes)
      ((frame.under (some bound)).executeUnary domain site pushes) := by
  unfold executeUnary
  rw [leaves_under _, leaves_under _]
  exact .bind fun (value, rest) => .andThen fun result => pushResult_bounds pushes result

theorem binary_bounds (pushes : Bool) :
    Bounds bound ((frame.under none).executeBinary domain site pushes)
      ((frame.under (some bound)).executeBinary domain site pushes) := by
  unfold executeBinary
  rw [leaves_under _, leaves_under _]
  refine .bind fun (second, rest) => ?_
  simp only [Prod.map, id, leaves_under _]
  exact .bind fun (first, rest) => .andThen fun result => pushResult_bounds pushes result

theorem nary_bounds (count : Nat) (pushes : Bool) :
    Bounds bound ((frame.under none).executeNary domain site count pushes)
      ((frame.under (some bound)).executeNary domain site count pushes) := by
  unfold executeNary
  rw [leaves_under.popMany, leaves_under.popMany]
  exact .bind fun (values, rest) => .andThen fun result => pushResult_bounds pushes result

theorem shuffle_bounds (shape : Shuffle) :
    Bounds bound ((frame.under none).executeShuffle domain site shape)
      ((frame.under (some bound)).executeShuffle domain site shape) := by
  unfold executeShuffle
  rw [leaves_under.popShuffled, leaves_under.popShuffled]
  exact .bind fun (items, rest) => .andThen fun values => pushAll_bounds values

theorem instruction_bounds (i : Instruction) :
    Bounds bound ((frame.under none).executeInstruction domain site i)
      ((frame.under (some bound)).executeInstruction domain site i) := by
  cases i with
  | nop => exact .ok frame
  | load kind slot => exact .andThen fun stored => .andThen fun value => push_bounds value
  | store kind slot =>
    simp only [executeInstruction, leaves_under _]
    refine .bind fun taken => .andThen fun value => ?_
    obtain ⟨popped, rest⟩ := taken
    simp only [Prod.map, id, store_under]
    exact .same _
  | arrayStore kind =>
    simp only [executeInstruction, leaves_under _]
    refine .bind fun popped => ?_
    obtain ⟨third, rest⟩ := popped
    simp only [Prod.map, id, leaves_under _]
    refine .bind fun popped => ?_
    obtain ⟨second, rest⟩ := popped
    simp only [Prod.map, id, leaves_under _]
    exact .bind fun popped => .andThen fun _ => .ok popped.2
  | increment slot amount =>
    refine .andThen fun stored => .andThen fun result => ?_
    cases result with
    | none => exact .error _
    | some value =>
      simp only [setLocal_under]
      exact .same _
  | shuffle shape => exact shuffle_bounds shape
  | pushNull | shortConstant | pushByte | pushShort | loadConstant | loadWideConstant | getStatic
  | newObject => exact produce_bounds
  | negate | convert | getField | newPrimitiveArray | newArray | arrayLength | checkCast
  | instanceOf | putStatic | monitorEnter | monitorExit => exact unary_bounds _
  | arrayLoad | arithmetic | shift | bitwise | compare | putField => exact binary_bounds _
  | invoke | invokeDynamic | newMultiArray => exact nary_bounds _ _

theorem branch_bounds {L : Type} (b : Branch L) :
    Bounds bound ((frame.under none).executeBranch domain site b)
      ((frame.under (some bound)).executeBranch domain site b) := by
  cases b with
  | goto | ret => exact .ok frame
  | voidReturn =>
    simp only [executeBranch, returnValue_under]
    cases frame.returnValue with
    | none => exact .ok frame
    | some expected => exact .error _
  | valueReturn kind =>
    simp only [executeBranch, executeReturn, leaves_under _]
    refine .bind fun popped => .andThen fun _ => ?_
    obtain ⟨value, rest⟩ := popped
    simp only [Prod.map, id, returnValue_under]
    cases rest.returnValue with
    | none => exact .error _
    | some expected => exact .andThen fun _ => .ok rest
  | jsr => exact produce_bounds
  | ifInts | ifReferences => exact binary_bounds _
  | ifZero | tableSwitch | lookupSwitch | throw | ifNull => exact unary_bounds _

/-- Under a bound, an operation does what it does without one, unless the stack gets higher. -/
theorem execute_bounds :
    Bounds bound ((frame.under none).execute domain site)
      ((frame.under (some bound)).execute domain site) := by
  unfold Frame.execute
  split
  · exact instruction_bounds _
  · exact branch_bounds _

theorem merge_under (other : Frame V) :
    (frame.under limit).merge domain (other.under limit) =
      (frame.merge domain other).map (Prod.map (under limit) id) := by
  refine merge_change (under limit) id (fun _ _ _ => rfl) Iff.rfl ?_
  rw [Except.map_id]
  rfl

end Steps

end Frame

end MethodFlow
