import MethodFlow.Frame.Execute

namespace MethodFlow

namespace Frame

variable {V : Type} {change : Frame V → Frame V}

/-- Popping from a changed frame leaves the rest changed. -/
def LeavesStack (change : Frame V → Frame V) : Prop :=
  ∀ frame : Frame V, (change frame).pop = frame.pop.map (Prod.map id change)

/-- Steps go on with a changed value as they do with the value itself, and change the result. -/
theorem bind_change {α α' β β' : Type} {first : Except Fault α} {change : α → α'} {change' : β → β'}
    {next : α → Except Fault β} {next' : α' → Except Fault β'}
    (further : ∀ value, next' (change value) = (next value).map change') :
    first.map change >>= next' = (first >>= next).map change' := by
  cases first with
  | error fault => rfl
  | ok value => exact further value

/-- Merging changed frames changes the merged frame, where merging their locals changes those. Different
locals have to stay different, for a merge tells whether it changed any. -/
theorem merge_change [AbstractValue V] {domain : Domain V} (change : Frame V → Frame V)
    (alter : List V → List V) {frame other : Frame V}
    (alters : ∀ frame locals stack, change { frame with locals := locals, stack := stack } =
      { change frame with locals := alter locals, stack := stack })
    (injective : ∀ {locals locals'}, alter locals = alter locals' ↔ locals = locals')
    (merges : mergeValues domain (alter frame.locals) (alter other.locals) =
      (mergeValues domain frame.locals other.locals).map alter) :
    (change frame).merge domain (change other) =
      (frame.merge domain other).map (Prod.map change id) := by
  have kept (frame : Frame V) : change frame =
      { change frame with locals := alter frame.locals, stack := frame.stack } :=
    alters frame frame.locals frame.stack
  have stack (frame : Frame V) : (change frame).stack = frame.stack := by rw [kept]
  have locals (frame : Frame V) : (change frame).locals = alter frame.locals := by rw [kept]
  unfold merge stackLength stackSlots stackValues
  rw [stack, stack, locals, locals, merges]
  split
  · rfl
  · cases mergeValues domain frame.locals other.locals with
    | error fault => rfl
    | ok merged =>
      simp only [bind, Except.bind, Except.map, injective]
      split
      · rfl
      · split
        · rfl
        · exact congrArg (fun frame => Except.ok (frame, true)) (alters frame merged _).symm

namespace LeavesStack

variable {frame : Frame V} (leaves : LeavesStack change)

include leaves

theorem popMany (count : Nat) :
    (change frame).popMany count = (frame.popMany count).map (Prod.map id change) := by
  induction count generalizing frame with
  | zero => rfl
  | succ count ih =>
    unfold Frame.popMany
    rw [leaves]
    refine bind_change fun popped => ?_
    obtain ⟨top, rest⟩ := popped
    simp only [Prod.map, id, ih]
    exact bind_change fun _ => rfl

variable [AbstractValue V]

theorem popWidth (expected : Nat) :
    (change frame).popWidth expected = (frame.popWidth expected).map (Prod.map id change) := by
  unfold Frame.popWidth
  rw [leaves]
  refine bind_change fun (value, rest) => ?_
  simp only [Prod.map, id]
  split <;> rfl

theorem shuffleUnderTwo (top : V) :
    (change frame).shuffleUnderTwo top = (frame.shuffleUnderTwo top).map (Prod.map id change) := by
  unfold Frame.shuffleUnderTwo
  rw [leaves]
  refine bind_change fun (second, rest) => ?_
  simp only [Prod.map, id]
  split
  · rw [leaves.popWidth]
    exact bind_change fun _ => rfl
  · rfl
  · rfl

theorem popShuffled (shape : Shuffle) :
    (change frame).popShuffled shape = (frame.popShuffled shape).map (Prod.map id change) := by
  cases shape with
  | pop | dup =>
    simp only [Frame.popShuffled, leaves.popWidth]
    exact bind_change fun _ => rfl
  | dupX1 | swap =>
    simp only [Frame.popShuffled, leaves.popWidth]
    refine bind_change fun popped => ?_
    obtain ⟨top, rest⟩ := popped
    simp only [Prod.map, id, leaves.popWidth]
    exact bind_change fun _ => rfl
  | dupX2 =>
    simp only [Frame.popShuffled, leaves.popWidth]
    exact bind_change fun popped => leaves.shuffleUnderTwo popped.1
  | pop2 | dup2 =>
    simp only [Frame.popShuffled, leaves _]
    refine bind_change fun popped => ?_
    obtain ⟨top, rest⟩ := popped
    simp only [Prod.map, id]
    split
    · rw [leaves.popWidth]
      exact bind_change fun _ => rfl
    · rfl
    · rfl
  | dup2X1 =>
    simp only [Frame.popShuffled, leaves _]
    refine bind_change fun popped => ?_
    obtain ⟨top, rest⟩ := popped
    simp only [Prod.map, id]
    split
    · rw [leaves.popWidth]
      refine bind_change fun popped => ?_
      obtain ⟨second, rest⟩ := popped
      simp only [Prod.map, id, leaves.popWidth]
      exact bind_change fun _ => rfl
    · rw [leaves.popWidth]
      exact bind_change fun _ => rfl
    · rfl
  | dup2X2 =>
    simp only [Frame.popShuffled, leaves _]
    refine bind_change fun popped => ?_
    obtain ⟨top, rest⟩ := popped
    simp only [Prod.map, id]
    split
    · rw [leaves.popWidth]
      refine bind_change fun popped => ?_
      obtain ⟨second, rest⟩ := popped
      simp only [Prod.map, id, leaves _]
      refine bind_change fun popped => ?_
      obtain ⟨third, rest⟩ := popped
      simp only [Prod.map, id]
      split
      · rw [leaves.popWidth]
        exact bind_change fun _ => rfl
      · rfl
      · rfl
    · exact leaves.shuffleUnderTwo top
    · rfl

end LeavesStack

end Frame

end MethodFlow
