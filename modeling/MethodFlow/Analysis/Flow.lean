import MethodFlow.Code.Method

/-! The control flow of a method: its code with labels resolved to indices, and with every point's
handlers beside it. -/

namespace MethodFlow

/-- What happens at a point of the code. A branch is kept with its labels and with its targets. -/
inductive Action where
  | idle
  | instruction (i : Instruction)
  | branch (labelled : Branch Label) (resolved : Branch Nat)

/-- A point of the code, and the handlers that cover it with the indices they start at. -/
structure Point where
  action : Action
  handlers : List (Nat × ExceptionHandler)

/-- The points of a method, in order. -/
abbrev Flow := List Point

structure ResolvedHandler where
  first : Nat
  past : Nat
  target : Nat
  handler : ExceptionHandler

/-- Does the handler protect an index? -/
def ResolvedHandler.covers (resolved : ResolvedHandler) (index : Nat) : Bool :=
  resolved.first ≤ index && index < resolved.past

/-- The index of a label that has to be placed. -/
def LabelTable.resolve (table : LabelTable) (label : Label) : Except Fault Nat :=
  match table.find? label with
  | some index => .ok index
  | none => .error (.undefinedLabel label)

/-- A fault becomes one at an index. -/
def locate {α : Type} (index : Nat) : Except Fault α → Except LocatedFault α
  | .ok value => .ok value
  | .error fault => .error (fault.at index)

/-- The action of a node. -/
def Node.action (table : LabelTable) : Node → Except Fault Action
  | .label _ | .line _ => .ok .idle
  | .operation (.instruction i) => .ok (.instruction i)
  | .operation (.branch b) => do
    let resolved ← b.mapLabels table.resolve
    return .branch b resolved

/-- The actions of nodes from an index on. -/
def resolveActions (table : LabelTable) (index : Nat) :
    List Node → Except LocatedFault (List Action)
  | [] => .ok []
  | node :: rest => do
    let action ← locate index (node.action table)
    let actions ← resolveActions table (index + 1) rest
    return action :: actions

/-- Resolves the labels of a handler. Its range must not end before it starts. -/
def resolveHandler (table : LabelTable) (handler : ExceptionHandler) :
    Except Fault ResolvedHandler := do
  let first ← table.resolve handler.first
  let past ← table.resolve handler.past
  let target ← table.resolve handler.handler
  if past < first then
    throw .invalidHandlerRange
  return ⟨first, past, target, handler⟩

/-- The handlers of a method; what is wrong with one is reported at the start of the code. -/
def resolveHandlers (table : LabelTable) : List ExceptionHandler →
    Except LocatedFault (List ResolvedHandler)
  | [] => .ok []
  | handler :: rest => do
    let resolved ← locate 0 (resolveHandler table handler)
    let more ← resolveHandlers table rest
    return resolved :: more

/-- The handlers that cover an index, in order of precedence. -/
def handlersAt (handlers : List ResolvedHandler) (index : Nat) : List (Nat × ExceptionHandler) :=
  (handlers.filter (·.covers index)).map fun resolved => (resolved.target, resolved.handler)

/-- The control flow of a method. -/
def Method.flow (method : Method) : Except LocatedFault Flow := do
  let table ← method.labelTable
  let actions ← resolveActions table 0 method.nodes
  let handlers ← resolveHandlers table method.handlers
  return actions.mapIdx fun index action => ⟨action, handlersAt handlers index⟩

namespace Action

/-- Can control go on to the next index? -/
def fallsThrough : Action → Bool
  | idle | instruction _ => true
  | branch _ resolved => resolved.fallsThrough

/-- Is this a call of a subroutine? -/
def isCall : Action → Bool
  | branch _ (.jsr _) => true
  | _ => false

/-- The targets of a jump; entering a subroutine is none. -/
def jumps : Action → List Nat
  | idle | instruction _ | branch _ (.jsr _) => []
  | branch _ resolved => resolved.jumpTargets

/-- Where control goes from an index, other than into a handler, a subroutine or back from one. -/
def successors (action : Action) (index : Nat) : List Nat :=
  (if action.fallsThrough then [index + 1] else []) ++ action.jumps

end Action

end MethodFlow
