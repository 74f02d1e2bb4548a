/-! Sequences of values that take different numbers of slots. Every entry carries the slot it starts
at, so that the height of an operand stack is known without a pass over it. -/

namespace MethodFlow

/-- Values that take a number of slots. -/
class HasWidth (α : Type) where
  width : α → Nat

export HasWidth (width)

/-- Values from bottom to top, each with the slot it starts at, and the slots that all of them
take. -/
structure SlotVec (α : Type) where
  entries : List (Nat × α)
  slots : Nat
deriving Repr

namespace SlotVec

variable {α : Type}

def empty : SlotVec α := ⟨[], 0⟩

/-- The values without their positions. -/
def toList (vec : SlotVec α) : List α := vec.entries.map Prod.snd

@[simp] theorem toList_empty : (empty : SlotVec α).toList = [] := rfl

/-- How many values there are. -/
def length (vec : SlotVec α) : Nat := vec.entries.length

def isEmpty (vec : SlotVec α) : Bool := vec.entries.isEmpty

/-- The value at an index, with the slot it starts at. -/
def get? (vec : SlotVec α) (index : Nat) : Option (Nat × α) := vec.entries[index]?

/-- Two vectors are alike when they hold the same values at the same slots. -/
def alike [DecidableEq α] (first second : SlotVec α) : Bool := first.entries == second.entries

/-- The top value and the vector without it. -/
def pop? (vec : SlotVec α) : Option (α × SlotVec α) :=
  match vec.entries.getLast? with
  | none => none
  | some (slot, value) => some (value, ⟨vec.entries.dropLast, slot⟩)

/-- The entries with their indices, from bottom to top. -/
def indexed (vec : SlotVec α) : List (Nat × Nat × α) :=
  vec.entries.mapIdx fun index (slot, value) => (slot, index, value)

/-- The shown form, with the slot of each value. -/
def shown (showValue : α → String) (vec : SlotVec α) : String :=
  "[" ++ ", ".intercalate
    (vec.entries.map fun (slot, value) => "#" ++ toString slot ++ " = " ++ showValue value) ++ "]"

variable [HasWidth α]

/-- Adds a value on top. -/
def push (vec : SlotVec α) (value : α) : SlotVec α :=
  ⟨vec.entries ++ [(vec.slots, value)], vec.slots + width value⟩

/-- Adds values on top, the last one uppermost. -/
def extend (vec : SlotVec α) (values : List α) : SlotVec α := values.foldl push vec

def ofList (values : List α) : SlotVec α := extend empty values

/-- Gives the entries the slots they take from a slot on, and finds the slot after them. -/
def relocate (start : Nat) : List (Nat × α) → List (Nat × α) × Nat
  | [] => ([], start)
  | (_, value) :: rest =>
    let (moved, last) := relocate (start + width value) rest
    ((start, value) :: moved, last)

/-- The slot after the entries before an index. -/
def slotAfter (entries : List (Nat × α)) (index : Nat) : Nat :=
  match index with
  | 0 => 0
  | previous + 1 =>
    match entries[previous]? with
    | some (slot, value) => slot + width value
    | none => 0

/-- Replaces the value at an index. Only a change of width moves the entries from there on. -/
def set? (vec : SlotVec α) (index : Nat) (value : α) : Option (α × SlotVec α) :=
  match vec.entries[index]? with
  | none => none
  | some (slot, old) =>
    let entries := vec.entries.set index (slot, value)
    if width old = width value then some (old, ⟨entries, vec.slots⟩)
    else
      let (moved, slots) := relocate (slotAfter entries index) (entries.drop index)
      some (old, ⟨entries.take index ++ moved, slots⟩)

@[simp] theorem toList_push (vec : SlotVec α) (value : α) :
    (vec.push value).toList = vec.toList ++ [value] := by
  simp [push, toList]

@[simp] theorem toList_extend (vec : SlotVec α) (values : List α) :
    (vec.extend values).toList = vec.toList ++ values := by
  induction values generalizing vec with
  | nil => simp [extend]
  | cons value rest step =>
    have := step (vec.push value)
    simpa [extend] using this

@[simp] theorem toList_ofList (values : List α) : (ofList values).toList = values := by
  simp [ofList]

end SlotVec

end MethodFlow
