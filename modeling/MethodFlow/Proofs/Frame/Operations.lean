import Mathlib.Algebra.GroupWithZero.Nat
import Mathlib.Data.List.Induction
import MethodFlow.Frame.Execute

namespace MethodFlow

theorem bind_eq_ok {ε α β : Type} {first : Except ε α} {next : α → Except ε β} {result : β} :
    first >>= next = .ok result ↔ ∃ value, first = .ok value ∧ next value = .ok result := by
  cases first with
  | error fault => simp [bind, Except.bind]
  | ok value => simp [bind, Except.bind]

theorem mapError_eq_ok {ε ε' α : Type} {rename : ε → ε'} {outcome : Except ε α} {value : α} :
    outcome.mapError rename = .ok value ↔ outcome = .ok value := by
  cases outcome <;> simp [Except.mapError]

theorem map_eq_ok {ε α β : Type} {project : α → β} {outcome : Except ε α} {image : β} :
    outcome.map project = .ok image ↔ ∃ value, outcome = .ok value ∧ project value = image := by
  cases outcome <;> simp [Except.map]

theorem isOk_iff {ε α : Type} {outcome : Except ε α} :
    outcome.isOk = true ↔ ∃ value, outcome = .ok value := by
  cases outcome <;> simp [Except.isOk, Except.toBool]

namespace SlotVec

variable {α : Type}

theorem length_eq (vec : SlotVec α) : vec.length = vec.toList.length := by
  simp [length, toList]

theorem toList_pop? {vec rest : SlotVec α} {value : α} (popped : vec.pop? = some (value, rest)) :
    vec.toList = rest.toList ++ [value] := by
  unfold pop? at popped
  split at popped
  · cases popped
  · rename_i slot top found
    cases popped
    obtain ⟨below, same⟩ := List.getLast?_eq_some_iff.mp found
    simp [toList, same]

variable [HasWidth α]

/-- Every entry carries the slot that follows from the entries below it. -/
def Placed (vec : SlotVec α) : Prop := vec = ofList vec.toList

theorem ofList_concat (values : List α) (value : α) :
    ofList (values ++ [value]) = (ofList values).push value := by
  simp [ofList, extend, List.foldl_append]

theorem placed_ofList (values : List α) : (ofList values).Placed := by
  simp [Placed]

theorem Placed.push {vec : SlotVec α} (placed : vec.Placed) (value : α) :
    (vec.push value).Placed := by
  unfold Placed at placed ⊢
  rw [toList_push, ofList_concat, ← placed]

theorem slots_ofList (values : List α) : (ofList values).slots = (values.map width).sum := by
  induction values using List.reverseRecOn with
  | nil => rfl
  | append_singleton values value ih => simp [ofList_concat, SlotVec.push, ih]

theorem Placed.slots_eq {vec : SlotVec α} (placed : vec.Placed) :
    vec.slots = (vec.toList.map width).sum := by
  rw [← slots_ofList, ← placed]

theorem pop?_push (vec : SlotVec α) (value : α) : (vec.push value).pop? = some (value, vec) := by
  simp [SlotVec.push, pop?]

theorem Placed.pop? {vec rest : SlotVec α} {value : α} (placed : vec.Placed)
    (popped : vec.pop? = some (value, rest)) : rest.Placed := by
  have values := toList_pop? popped
  rw [placed, values, ofList_concat, pop?_push, Option.some.injEq, Prod.mk.injEq] at popped
  rw [← popped.2]
  exact placed_ofList _

end SlotVec

namespace Frame

variable {V : Type}

theorem pop_eq_ok {frame rest : Frame V} {value : V} :
    frame.pop = .ok (value, rest) ↔
      ∃ stack, frame.stack.pop? = some (value, stack) ∧ rest = { frame with stack := stack } := by
  unfold pop
  split
  · rename_i top stack found
    simp only [found, Except.ok.injEq, Prod.mk.injEq, Option.some.injEq]
    constructor
    · rintro ⟨rfl, rfl⟩
      exact ⟨stack, ⟨rfl, rfl⟩, rfl⟩
    · rintro ⟨stack, ⟨rfl, rfl⟩, rfl⟩
      exact ⟨rfl, rfl⟩
  · rename_i found
    simp [found]

theorem local?_eq_ok {frame : Frame V} {index : Nat} {value : V} :
    frame.local? index = .ok value ↔ frame.locals[index]? = some value := by
  unfold local?
  split <;> simp_all

theorem setLocal_eq_ok {frame after : Frame V} {index : Nat} {value : V} :
    frame.setLocal index value = .ok after ↔
      index < frame.locals.length ∧
        after = { frame with locals := frame.locals.set index value } := by
  unfold setLocal
  split
  · rename_i inside
    simp [inside, eq_comm]
  · rename_i outside
    simp [outside]

/-- Popping the listed values, the top one first, leads from one frame to another. -/
inductive Takes : Frame V → List V → Frame V → Prop where
  | none {frame : Frame V} : Takes frame [] frame
  | more {frame rest last : Frame V} {value : V} {values : List V}
      (popped : frame.pop = .ok (value, rest)) (further : Takes rest values last) :
      Takes frame (value :: values) last

theorem takes_cons {frame last : Frame V} {value : V} {values : List V} :
    Takes frame (value :: values) last ↔
      ∃ rest, frame.pop = .ok (value, rest) ∧ Takes rest values last := by
  constructor
  · intro taken
    cases taken with
    | more popped further => exact ⟨_, popped, further⟩
  · rintro ⟨rest, popped, further⟩
    exact .more popped further

theorem takes_nil {frame last : Frame V} : Takes frame [] last ↔ frame = last := by
  constructor
  · intro taken
    cases taken
    rfl
  · rintro rfl
    exact .none

theorem Takes.one {frame rest : Frame V} {value : V} (popped : frame.pop = .ok (value, rest)) :
    Takes frame [value] rest :=
  .more popped .none

theorem popMany_eq_ok {frame rest : Frame V} {count : Nat} {values : List V} :
    frame.popMany count = .ok (values, rest) ↔
      values.length = count ∧ Takes frame values.reverse rest := by
  induction count generalizing frame values with
  | zero =>
    simp only [popMany, Except.ok.injEq, Prod.mk.injEq, List.length_eq_zero_iff]
    constructor
    · rintro ⟨rfl, rfl⟩
      exact ⟨rfl, .none⟩
    · rintro ⟨rfl, taken⟩
      cases taken
      exact ⟨rfl, rfl⟩
  | succ count ih =>
    simp only [popMany, bind_eq_ok, Prod.exists, pure, Except.pure, Except.ok.injEq,
      Prod.mk.injEq]
    constructor
    · rintro ⟨top, below, popped, others, last, taken, rfl, rfl⟩
      obtain ⟨length, taken⟩ := ih.mp taken
      refine ⟨by simp [length], ?_⟩
      rw [List.reverse_append]
      exact .more popped taken
    · rintro ⟨length, taken⟩
      obtain ⟨others, top, rfl⟩ : ∃ others top, values = others ++ [top] :=
        ⟨values.dropLast, values.getLast (by rintro rfl; simp at length),
          (List.dropLast_concat_getLast _).symm⟩
      rw [List.reverse_append] at taken
      cases taken with
      | more popped further =>
        refine ⟨top, _, popped, others, rest, ih.mpr ⟨by simpa using length, further⟩, rfl, rfl⟩

variable [AbstractValue V]

/-- A stack is known by its values. -/
theorem restacked {frame : Frame V} (placed : frame.stack.Placed) :
    ({ frame with stack := .ofList frame.stackValues } : Frame V) = frame := by
  rw [show SlotVec.ofList frame.stackValues = frame.stack from placed.symm]

theorem popWidth_eq_ok {frame rest : Frame V} {value : V} {expected : Nat} :
    frame.popWidth expected = .ok (value, rest) ↔
      frame.pop = .ok (value, rest) ∧ width value = expected := by
  simp only [popWidth, bind_eq_ok, Prod.exists]
  constructor
  · rintro ⟨top, below, popped, checked⟩
    split at checked
    · rename_i fits
      cases checked
      exact ⟨popped, fits⟩
    · cases checked
  · rintro ⟨popped, fits⟩
    exact ⟨value, rest, popped, by simp [fits, pure, Except.pure]⟩

theorem push_eq_ok {frame after : Frame V} {value : V} :
    frame.push value = .ok after ↔
      after = { frame with stack := frame.stack.push value } ∧
        ∀ bound, frame.maxStack = some bound → frame.stackSlots + width value ≤ bound := by
  unfold push
  split
  · rename_i bound found
    split
    · rename_i full
      simp only [reduceCtorEq, false_iff, not_and]
      intro _ fits
      exact absurd (fits bound found) (by omega)
    · rename_i room
      simp only [Except.ok.injEq, found, Option.some.injEq, forall_eq']
      constructor
      · rintro rfl
        exact ⟨rfl, by omega⟩
      · rintro ⟨rfl, _⟩
        rfl
  · rename_i found
    simp [found, eq_comm]

end Frame

end MethodFlow
