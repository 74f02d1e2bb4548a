/-! Subroutines, as seen from one of the points inside them. The records at the points of one
subroutine are kept alike by merging them along control flow, as frames are. -/

namespace MethodFlow

/-- What is known at a point about the subroutine it lies in. -/
structure Subroutine where
  /-- Where the subroutine starts; the body of the method itself has no start. -/
  start : Option Nat
  /-- The locals that the subroutine reads or writes. -/
  used : List Bool
  /-- The calls that lead here, in the order they were met. -/
  callers : List Nat
deriving DecidableEq, Repr

namespace Subroutine

/-- A subroutine that has used none of its locals. -/
def fresh (start : Option Nat) (maxLocals : Nat) (caller : Option Nat) : Subroutine :=
  ⟨start, List.replicate maxLocals false, caller.toList⟩

/-- Marks a local as used; there may be no such local. -/
def use (subroutine : Subroutine) (slot : Nat) : Subroutine :=
  { subroutine with used := subroutine.used.set slot true }

/-- Marks so many locals from one on. -/
def useFrom (subroutine : Subroutine) (slot : Nat) : Nat → Subroutine
  | 0 => subroutine
  | count + 1 => (subroutine.useFrom slot count).use (slot + count)

/-- Marks that either list has, as far as the first one goes. -/
def mergeUsed : List Bool → List Bool → List Bool
  | mark :: marks, other :: others => (mark || other) :: mergeUsed marks others
  | marks, _ => marks

/-- Callers of the first list, then those that only the second one has. -/
def mergeCallers (callers : List Nat) : List Nat → List Nat
  | [] => callers
  | caller :: rest =>
    mergeCallers (if callers.contains caller then callers else callers ++ [caller]) rest

/-- Merges another record into this one, and tells whether this one changed. Callers are taken over
only from a record of the same subroutine. -/
def merge (subroutine other : Subroutine) : Subroutine × Bool :=
  let used := mergeUsed subroutine.used other.used
  let callers :=
    if subroutine.start = other.start then mergeCallers subroutine.callers other.callers
    else subroutine.callers
  (⟨subroutine.start, used, callers⟩, used ≠ subroutine.used || callers ≠ subroutine.callers)

theorem mergeUsed_length (marks others : List Bool) :
    (mergeUsed marks others).length = marks.length := by
  induction marks generalizing others with
  | nil => cases others <;> rfl
  | cons mark rest step => cases others <;> simp [mergeUsed, step]

end Subroutine

end MethodFlow
