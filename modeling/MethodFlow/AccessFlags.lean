namespace MethodFlow

structure AccessFlags where
  bits : UInt16
deriving DecidableEq, Repr

namespace AccessFlags

def empty : AccessFlags := ⟨0⟩
def static : AccessFlags := ⟨0x0008⟩
def native : AccessFlags := ⟨0x0100⟩
def abstract : AccessFlags := ⟨0x0400⟩

/-- The flags of either set. -/
def union (first second : AccessFlags) : AccessFlags := ⟨first.bits ||| second.bits⟩

/-- Do the sets share a flag? -/
def intersects (first second : AccessFlags) : Bool := first.bits &&& second.bits != 0

/-- Bits by keyword. -/
def keywords : List (String × UInt16) :=
  [("public", 0x0001), ("private", 0x0002), ("protected", 0x0004), ("static", 0x0008),
    ("final", 0x0010), ("synchronized", 0x0020), ("bridge", 0x0040), ("varargs", 0x0080),
    ("native", 0x0100), ("abstract", 0x0400), ("strict", 0x0800), ("strictfp", 0x0800),
    ("synthetic", 0x1000)]

/-- The flag that a keyword stands for. -/
def ofKeyword? (keyword : String) : Option AccessFlags := (keywords.lookup keyword).map mk

def isStatic (flags : AccessFlags) : Bool := flags.intersects static

/-- Abstract and native methods have no code. -/
def hasNoCode (flags : AccessFlags) : Bool := flags.intersects (abstract.union native)

end AccessFlags

end MethodFlow
