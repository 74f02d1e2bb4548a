import MethodFlow.AccessFlags
import MethodFlow.Code.Node
import MethodFlow.Fault

namespace MethodFlow

/-- A handler of the exceptions thrown between two labels. -/
structure ExceptionHandler where
  /-- Where the protected range starts. -/
  first : Label
  /-- The first position after the protected range. -/
  past : Label
  /-- Where a caught exception is handled. -/
  handler : Label
  /-- The class of the exceptions caught; without one, all are. -/
  catchType : Option BinaryName
deriving DecidableEq

/-- The class of the exceptions that a handler gets. -/
def ExceptionHandler.caught (handler : ExceptionHandler) : BinaryName :=
  handler.catchType.getD .throwable

/-- A method with its code and the limits declared for it. -/
structure Method where
  flags : AccessFlags
  name : UnqualifiedName
  descriptor : MethodDescriptor
  nodes : List Node
  /-- Earlier handlers take precedence. -/
  handlers : List ExceptionHandler
  maxStack : Nat
  maxLocals : Nat
deriving DecidableEq

/-- Where each label is placed, in order of placement. -/
abbrev LabelTable := List (Label × Nat)

/-- The index of a label. -/
def LabelTable.find? (table : LabelTable) (label : Label) : Option Nat := table.lookup label

namespace Method

/-- A method without code. -/
def empty (flags : AccessFlags) (name : UnqualifiedName) (descriptor : MethodDescriptor) : Method :=
  ⟨flags, name, descriptor, [], [], 0, 0⟩

def isStatic (method : Method) : Bool := method.flags.isStatic

/-- Places the labels of nodes from an index on. -/
def placeLabels (table : LabelTable) (index : Nat) : List Node → Except LocatedFault LabelTable
  | [] => .ok table
  | node :: rest =>
    match node.label? with
    | none => placeLabels table (index + 1) rest
    | some label =>
      match table.find? label with
      | some _ => .error (Fault.duplicateLabel label |>.at index)
      | none => placeLabels (table ++ [(label, index)]) (index + 1) rest

/-- Where each label is placed; a label may be placed only once. -/
def labelTable (method : Method) : Except LocatedFault LabelTable :=
  placeLabels [] 0 method.nodes

/-- Slots that the parameters take, the receiver included. -/
def parameterSlots (method : Method) : Nat :=
  method.descriptor.parameterLength (!method.isStatic)

/-- Locals that the parameters and the code need. -/
def neededLocals (method : Method) : Nat :=
  (method.nodes.filterMap Node.localsEnd?).foldl max method.parameterSlots

end Method

end MethodFlow
