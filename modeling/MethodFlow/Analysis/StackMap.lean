import MethodFlow.Analysis.Analyzer
import MethodFlow.Domain.VerificationType

/-! Stack maps: the verification types at every point that is jumped to, each entry relative to the
one before it and the first to the frame on entry. Types are listed one a value, and the unusable
locals at the end are left out. -/

namespace MethodFlow

/-- Types at a point, relative to the previous entry. -/
inductive StackMapFrame where
  /-- The same locals and an empty stack. -/
  | same
  /-- The same locals and one value on the stack. -/
  | sameLocalsOneStack (value : VerificationType)
  /-- One to three locals fewer at the end, and an empty stack. -/
  | chop (count : Nat)
  /-- One to three locals more at the end, and an empty stack. -/
  | append (locals : List VerificationType)
  /-- Locals and stack in full. -/
  | full (locals stack : List VerificationType)
deriving DecidableEq

structure StackMapEntry where
  index : Nat
  frame : StackMapFrame
deriving DecidableEq

/-- Values of locals without the second slots of wide ones. -/
def compressValues : List VerificationType → List VerificationType
  | [] => []
  | [value] => [value]
  | value :: next :: rest =>
    value :: if value.width = 2 then compressValues rest else compressValues (next :: rest)

/-- Values without the unusable ones at the end. -/
def dropTop (values : List VerificationType) : List VerificationType :=
  (values.reverse.dropWhile (· = .top)).reverse

/-- The locals of a frame as a stack map lists them. -/
def Frame.compressedLocals (frame : Frame VerificationType) : List VerificationType :=
  dropTop (compressValues frame.locals)

/-- The most compact form of locals and stack after the given locals. -/
def StackMapFrame.relativeTo (previous locals stack : List VerificationType) : StackMapFrame :=
  match stack with
  | [] =>
    if locals.length ≤ previous.length then
      let fewer := previous.length - locals.length
      if fewer < 4 && locals.isPrefixOf previous then if fewer = 0 then .same else .chop fewer
      else .full locals []
    else if locals.length - previous.length < 4 && previous.isPrefixOf locals then
      .append (locals.drop previous.length)
    else .full locals []
  | [value] => if locals = previous then .sameLocalsOneStack value else .full locals [value]
  | _ => .full locals stack

/-- The labels that branches and handlers lead to. -/
def Method.targetLabels (method : Method) : List Label :=
  (method.nodes.filterMap Node.branch?).flatMap Branch.jumpTargets ++
    method.handlers.map ExceptionHandler.handler

/-- The indices that branches and handlers lead to, ascending. -/
def Method.targets (method : Method) (table : LabelTable) : List Nat :=
  let indices := method.targetLabels.filterMap table.find?
  (List.range method.nodes.length).filter indices.contains

/-- Entries for the frames at some indices, after the given locals. -/
def stackMapEntries (analysis : Analysis VerificationType) (previous : List VerificationType) :
    List Nat → List StackMapEntry
  | [] => []
  | index :: rest =>
    match analysis.frame? index with
    | none => stackMapEntries analysis previous rest
    | some frame =>
      let locals := frame.compressedLocals
      ⟨index, .relativeTo previous locals frame.stackValues⟩ :: stackMapEntries analysis locals rest

/-- The stack map of a method, from its analysis. -/
def stackMap (method : Method) (analysis : Analysis VerificationType) :
    Except LocatedFault (List StackMapEntry) := do
  let table ← method.labelTable
  match analysis.initialFrame with
  | none => return []
  | some entry => return stackMapEntries analysis entry.compressedLocals (method.targets table)

namespace StackMapFrame

private def shownTypes (types : List VerificationType) : String :=
  Text.shownList (types.map VerificationType.shown)

def shown : StackMapFrame → String
  | same => "same"
  | sameLocalsOneStack value => "same_locals_1_stack_item " ++ value.shown
  | chop count => "chop " ++ toString count
  | append locals => "append " ++ shownTypes locals
  | full locals stack => "full locals " ++ shownTypes locals ++ " stack " ++ shownTypes stack

end StackMapFrame

end MethodFlow
