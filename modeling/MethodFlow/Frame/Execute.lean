import MethodFlow.Frame.Basic

namespace MethodFlow

/-- What a shuffle pushes: a value it popped, or a copy of one. -/
inductive Shuffled (V : Type) where
  | kept (value : V)
  | copied (value : V)

namespace Frame

variable {V : Type} [AbstractValue V]

open Shuffled

/-- The lower operands of a shuffle that puts a copy of `top` under two slots. -/
def shuffleUnderTwo (top : V) (frame : Frame V) : Except Fault (List (Shuffled V) × Frame V) := do
  let (second, frame) ← frame.pop
  match width second with
  | 1 =>
    let (third, frame) ← frame.popWidth 1
    return ([copied top, kept third, kept second, kept top], frame)
  | 2 => return ([copied top, kept second, kept top], frame)
  | other => throw (.invalidWidth other)

/-- Pops the operands of a shuffle. The result is what it pushes, in order. -/
def popShuffled (shape : Shuffle) (frame : Frame V) :
    Except Fault (List (Shuffled V) × Frame V) :=
  match shape with
  | .pop => do
    let (_, frame) ← frame.popWidth 1
    return ([], frame)
  | .pop2 => do
    let (top, frame) ← frame.pop
    match width top with
    | 1 =>
      let (_, frame) ← frame.popWidth 1
      return ([], frame)
    | 2 => return ([], frame)
    | other => throw (.invalidWidth other)
  | .dup => do
    let (top, frame) ← frame.popWidth 1
    return ([kept top, copied top], frame)
  | .dupX1 => do
    let (top, frame) ← frame.popWidth 1
    let (second, frame) ← frame.popWidth 1
    return ([copied top, kept second, kept top], frame)
  | .dupX2 => do
    let (top, frame) ← frame.popWidth 1
    frame.shuffleUnderTwo top
  | .dup2 => do
    let (top, frame) ← frame.pop
    match width top with
    | 1 =>
      let (second, frame) ← frame.popWidth 1
      return ([kept second, kept top, copied second, copied top], frame)
    | 2 => return ([kept top, copied top], frame)
    | other => throw (.invalidWidth other)
  | .dup2X1 => do
    let (top, frame) ← frame.pop
    match width top with
    | 1 =>
      let (second, frame) ← frame.popWidth 1
      let (third, frame) ← frame.popWidth 1
      return ([copied second, copied top, kept third, kept second, kept top], frame)
    | 2 =>
      let (second, frame) ← frame.popWidth 1
      return ([copied top, kept second, kept top], frame)
    | other => throw (.invalidWidth other)
  | .dup2X2 => do
    let (top, frame) ← frame.pop
    match width top with
    | 1 =>
      let (second, frame) ← frame.popWidth 1
      let (third, frame) ← frame.pop
      match width third with
      | 1 =>
        let (fourth, frame) ← frame.popWidth 1
        return ([copied second, copied top, kept fourth, kept third, kept second, kept top], frame)
      | 2 => return ([copied second, copied top, kept third, kept second, kept top], frame)
      | other => throw (.invalidWidth other)
    | 2 => frame.shuffleUnderTwo top
    | other => throw (.invalidWidth other)
  | .swap => do
    let (top, frame) ← frame.popWidth 1
    let (second, frame) ← frame.popWidth 1
    return ([copied top, copied second], frame)

/-- The values that a shuffle pushes. -/
def copyShuffled (domain : Domain V) (site : Site) :
    List (Shuffled V) → Except Fault (List V)
  | [] => .ok []
  | kept value :: rest => do
    let values ← copyShuffled domain site rest
    return value :: values
  | copied value :: rest => do
    let value ← domain.copy site value
    let values ← copyShuffled domain site rest
    return value :: values

/-- The effect of a shuffle. -/
def executeShuffle (domain : Domain V) (site : Site) (shape : Shuffle) (frame : Frame V) :
    Except Fault (Frame V) := do
  let (items, frame) ← frame.popShuffled shape
  let values ← copyShuffled domain site items
  frame.pushAll values

/-- Pops one operand for an operation; `pushes` tells whether its result is pushed. -/
def executeUnary (domain : Domain V) (site : Site) (pushes : Bool) (frame : Frame V) :
    Except Fault (Frame V) := do
  let (value, frame) ← frame.pop
  let result ← domain.unary site value
  if pushes then frame.pushProduced result else return frame

/-- Pops two operands for an operation. -/
def executeBinary (domain : Domain V) (site : Site) (pushes : Bool) (frame : Frame V) :
    Except Fault (Frame V) := do
  let (second, frame) ← frame.pop
  let (first, frame) ← frame.pop
  let result ← domain.binary site first second
  if pushes then frame.pushProduced result else return frame

/-- Pops any number of operands for an operation. -/
def executeNary (domain : Domain V) (site : Site) (count : Nat) (pushes : Bool) (frame : Frame V) :
    Except Fault (Frame V) := do
  let (values, frame) ← frame.popMany count
  let result ← domain.nary site values
  if pushes then frame.pushProduced result else return frame

/-- Pushes what an operation makes of nothing. -/
def executeProduce (domain : Domain V) (site : Site) (frame : Frame V) :
    Except Fault (Frame V) := do
  let value ← domain.produce site
  frame.push value

/-- The effect of an instruction. -/
def executeInstruction (domain : Domain V) (site : Site) (i : Instruction) (frame : Frame V) :
    Except Fault (Frame V) :=
  match i with
  | .nop => .ok frame
  | .pushNull | .shortConstant _ | .pushByte _ | .pushShort _ | .loadConstant _
  | .loadWideConstant _ | .getStatic _ | .newObject _ => frame.executeProduce domain site
  | .load _ slot => do
    let stored ← frame.local? slot
    let value ← domain.copy site stored
    frame.push value
  | .store _ slot => do
    let (popped, frame) ← frame.pop
    let value ← domain.copy site popped
    frame.store domain slot value
  | .arrayLoad _ | .arithmetic _ _ | .shift _ _ | .bitwise _ _ | .compare _ =>
    frame.executeBinary domain site true
  | .arrayStore _ => do
    let (third, frame) ← frame.pop
    let (second, frame) ← frame.pop
    let (first, frame) ← frame.pop
    let _ ← domain.ternary site first second third
    return frame
  | .shuffle shape => frame.executeShuffle domain site shape
  | .negate _ | .convert _ | .getField _ | .newPrimitiveArray _ | .newArray _ | .arrayLength
  | .checkCast _ | .instanceOf _ => frame.executeUnary domain site true
  | .increment slot _ => do
    let stored ← frame.local? slot
    match ← domain.unary site stored with
    | some value => frame.setLocal slot value
    | none => throw .missingValue
  | .putStatic _ | .monitorEnter | .monitorExit => frame.executeUnary domain site false
  | .putField _ => frame.executeBinary domain site false
  | .invoke kind method =>
    frame.executeNary domain site
      (method.descriptor.parameters.length + if kind.hasReceiver then 1 else 0)
      method.descriptor.returnType.isSome
  | .invokeDynamic call =>
    frame.executeNary domain site call.descriptor.parameters.length
      call.descriptor.returnType.isSome
  | .newMultiArray _ dimensions => frame.executeNary domain site dimensions true

/-- Pops a returned value and checks it against the expected one. -/
def executeReturn (domain : Domain V) (site : Site) (frame : Frame V) :
    Except Fault (Frame V) := do
  let (value, frame) ← frame.pop
  let _ ← domain.unary site value
  match frame.returnValue with
  | some expected =>
    domain.checkReturn site value expected
    return frame
  | none => throw (.incompatibleReturn "void" (AbstractValue.detail value))

/-- The effect of a branch, wherever it goes. -/
def executeBranch {L : Type} (domain : Domain V) (site : Site) (b : Branch L) (frame : Frame V) :
    Except Fault (Frame V) :=
  match b with
  | .ifZero _ _ | .tableSwitch _ _ _ | .lookupSwitch _ _ | .throw | .ifNull _ _ =>
    frame.executeUnary domain site false
  | .ifInts _ _ | .ifReferences _ _ => frame.executeBinary domain site false
  | .goto _ | .ret _ => .ok frame
  | .jsr _ => frame.executeProduce domain site
  | .valueReturn _ => frame.executeReturn domain site
  | .voidReturn =>
    match frame.returnValue with
    | some expected => .error (.incompatibleReturn (AbstractValue.detail expected) "void")
    | none => .ok frame

/-- The frame after an operation. -/
def execute (domain : Domain V) (site : Site) (frame : Frame V) : Except Fault (Frame V) :=
  match site.operation with
  | .instruction i => frame.executeInstruction domain site i
  | .branch b => frame.executeBranch domain site b

end Frame

end MethodFlow
