import MethodFlow.Descriptor.Basic
import MethodFlow.Hierarchy.ClassGraph

namespace MethodFlow

/-- Answers about classes. Any of them may be that a class is not known. -/
structure TypeHierarchy where
  isInterface : BinaryName → Except Unresolved Bool
  /-- Only the root has no superclass; that of an interface is the root. -/
  superclass : BinaryName → Except Unresolved (Option BinaryName)
  /-- Is the first class the second, or below it? -/
  isSubclass : BinaryName → BinaryName → Except Unresolved Bool
  /-- A walk up the superclasses that takes more steps than this meets a class again. -/
  classCount : Nat

/-- The hierarchy that the stored classes declare. -/
def ClassGraph.hierarchy (graph : ClassGraph) : TypeHierarchy where
  isInterface := graph.isInterface
  superclass := graph.superclass
  isSubclass := graph.isSubclass
  classCount := graph.classes.length

/-- The supertypes that every array has. -/
def BinaryName.isAboveArrays (name : BinaryName) : Bool :=
  name = .object || name = .cloneable || name = .serializable

namespace TypeHierarchy

/-- Can a value of the first type be kept where the second is declared? Arrays of objects follow
their elements; an array of more dimensions is an element like any other. -/
def isAssignable (hierarchy : TypeHierarchy) : RefType → RefType → Except Unresolved Bool
  | .object sub, .object super => hierarchy.isSubclass sub super
  | .object _, _ => .ok false
  | _, .object super => .ok super.isAboveArrays
  | .primitiveArray dimensions element, .primitiveArray dimensions' element' =>
    .ok (dimensions = dimensions' && element = element')
  | .primitiveArray dimensions _, .objectArray dimensions' element' =>
    .ok (dimensions' < dimensions && element'.isAboveArrays)
  | .objectArray _ _, .primitiveArray _ _ => .ok false
  | .objectArray dimensions element, .objectArray dimensions' element' =>
    if dimensions < dimensions' then .ok false
    else if dimensions = dimensions' then hierarchy.isSubclass element element'
    else .ok element'.isAboveArrays

/-- The first superclass above a class that another class is below, or the root. So many steps go up at
most. In a hierarchy whose superclasses run in a circle the walk might never end; here it gives the root
when the steps are used up. -/
def superclassAbove (hierarchy : TypeHierarchy) (other : BinaryName) :
    Nat → BinaryName → Except Unresolved BinaryName
  | 0, _ => .ok .object
  | steps + 1, candidate => do
    match ← hierarchy.superclass candidate with
    | none => return .object
    | some above =>
      if ← hierarchy.isSubclass other above then return above
      hierarchy.superclassAbove other steps above

/-- The closest class above two classes. Interfaces have no superclass of their own in common with
anything. -/
def commonSuperclass (hierarchy : TypeHierarchy) (first second : BinaryName) :
    Except Unresolved BinaryName := do
  if ← hierarchy.isSubclass second first then
    return first
  if ← hierarchy.isSubclass first second then
    return second
  if ← hierarchy.isInterface first then
    return .object
  if ← hierarchy.isInterface second then
    return .object
  hierarchy.superclassAbove second (hierarchy.classCount + 1) first

end TypeHierarchy

end MethodFlow
