import MethodFlow.Domain.Basic

/-! Frames: the values in locals and on the stack before an operation. A wide value takes one local
of its own and leaves the next one unusable; on the stack it is one entry of two slots. -/

namespace MethodFlow

structure Frame (V : Type) where
  locals : List V
  stack : SlotVec V
  /-- Slots that the stack may take; without a number there is no bound. -/
  maxStack : Option Nat
  /-- The value that returns have to fit; a method without a result has none. -/
  returnValue : Option V

namespace Frame

variable {V : Type}

/-- A frame with an empty stack. -/
def entry (locals : List V) (maxStack : Option Nat) (returnValue : Option V) : Frame V :=
  ⟨locals, .empty, maxStack, returnValue⟩

/-- The values on the stack, from bottom to top. -/
def stackValues (frame : Frame V) : List V := frame.stack.toList

/-- Number of values on the stack. -/
def stackLength (frame : Frame V) : Nat := frame.stack.length

/-- Height of the stack in slots. -/
def stackSlots (frame : Frame V) : Nat := frame.stack.slots

/-- The value on the stack with so many values above it. -/
def peek? (frame : Frame V) (depth : Nat) : Option V := frame.stackValues.reverse[depth]?

def local? (frame : Frame V) (index : Nat) : Except Fault V :=
  match frame.locals[index]? with
  | some value => .ok value
  | none => .error (.invalidLocal index frame.locals.length)

def setLocal (frame : Frame V) (index : Nat) (value : V) : Except Fault (Frame V) :=
  if index < frame.locals.length then .ok { frame with locals := frame.locals.set index value }
  else .error (.invalidLocal index frame.locals.length)

def clearStack (frame : Frame V) : Frame V := { frame with stack := .empty }

/-- The top value and the frame without it. -/
def pop (frame : Frame V) : Except Fault (V × Frame V) :=
  match frame.stack.pop? with
  | some (value, stack) => .ok (value, { frame with stack := stack })
  | none => .error .emptyStack

/-- Pops a number of values; they are listed as they were pushed. -/
def popMany (frame : Frame V) : Nat → Except Fault (List V × Frame V)
  | 0 => .ok ([], frame)
  | count + 1 => do
    let (top, frame) ← frame.pop
    let (below, frame) ← frame.popMany count
    return (below ++ [top], frame)

variable [AbstractValue V]

def push (frame : Frame V) (value : V) : Except Fault (Frame V) :=
  match frame.maxStack with
  | some bound =>
    if bound < frame.stackSlots + width value then .error (.stackOverflow bound)
    else .ok { frame with stack := frame.stack.push value }
  | none => .ok { frame with stack := frame.stack.push value }

/-- Pushes values in order. -/
def pushAll (frame : Frame V) : List V → Except Fault (Frame V)
  | [] => .ok frame
  | value :: rest => do
    let frame ← frame.push value
    frame.pushAll rest

/-- Pushes a value that has to be there. -/
def pushProduced (frame : Frame V) : Option V → Except Fault (Frame V)
  | some value => frame.push value
  | none => .error .missingValue

/-- Pops a value of the given width. -/
def popWidth (frame : Frame V) (expected : Nat) : Except Fault (V × Frame V) := do
  let (value, frame) ← frame.pop
  if width value = expected then
    return (value, frame)
  throw (.invalidWidth (width value))

/-- Stores into a local. A wide value makes the next local unusable, and a wide value that loses its
second slot becomes unusable itself. -/
def store (domain : Domain V) (frame : Frame V) (index : Nat) (value : V) :
    Except Fault (Frame V) := do
  let frame ← frame.setLocal index value
  let frame ← if width value = 2 then frame.setLocal (index + 1) domain.unusable else .ok frame
  match index with
  | 0 => return frame
  | previous + 1 =>
    let before ← frame.local? previous
    if width before = 2 then frame.setLocal previous domain.unusable else return frame

/-- Merges values pairwise; those that have no partner stay. -/
def mergeValues (domain : Domain V) : List V → List V → Except Fault (List V)
  | old :: olds, new :: news => do
    let value ← domain.merge old new
    let rest ← mergeValues domain olds news
    return value :: rest
  | olds, _ => .ok olds

/-- Merges another frame into this one, and tells whether this one changed. The stacks must have as
many values in as many slots. -/
def merge (domain : Domain V) (frame other : Frame V) : Except Fault (Frame V × Bool) := do
  if frame.stackLength ≠ other.stackLength ∨ frame.stackSlots ≠ other.stackSlots then
    throw (.incompatibleStackHeights frame.stackSlots other.stackSlots)
  let locals ← mergeValues domain frame.locals other.locals
  let values ← mergeValues domain frame.stackValues other.stackValues
  if locals = frame.locals ∧ values = frame.stackValues then
    return (frame, false)
  return ({ frame with locals := locals, stack := .ofList values }, true)

/-- Locals as a subroutine leaves them, with those it did not use taken from its call site. -/
def restoreLocals : List V → List V → List Bool → List V
  | value :: values, caller :: callers, used =>
    (if used.headD false then value else caller) :: restoreLocals values callers used.tail
  | values, [], _ => values
  | [], _ :: _, _ => []

/-- The frame after a subroutine: `frame` is the one at its `ret`, `caller` the one at its call. -/
def mergeSubroutine (frame caller : Frame V) (used : List Bool) : Frame V :=
  { frame with locals := restoreLocals frame.locals caller.locals used }

/-- Do two frames agree in everything, the bound and the expected result included? -/
def alike (frame other : Frame V) : Bool :=
  frame.locals = other.locals && frame.stack.alike other.stack && frame.maxStack = other.maxStack &&
    frame.returnValue = other.returnValue

/-- The locals, a bar and the stack. -/
def shown (frame : Frame V) : String :=
  String.join (frame.locals.map fun value => AbstractValue.shown value ++ " ") ++ "|" ++
    String.join (frame.stackValues.map fun value => " " ++ AbstractValue.shown value)

end Frame

end MethodFlow
