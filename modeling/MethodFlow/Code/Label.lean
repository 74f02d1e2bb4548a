namespace MethodFlow

/-- A label, by its number within a method. -/
structure Label where
  number : Nat
deriving DecidableEq, Repr

namespace Label

/-- The first label that a method hands out. -/
def first : Label := ⟨0⟩

def next (label : Label) : Label := ⟨label.number + 1⟩

/-- The letter `l` and the number. -/
def shown (label : Label) : String := "l" ++ toString label.number

end Label

end MethodFlow
