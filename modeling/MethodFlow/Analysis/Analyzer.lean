import MethodFlow.Analysis.Solver

namespace MethodFlow

/-- What an analysis finds. Points that control cannot reach have no frame, and a method without
code has no points. -/
structure Analysis (V : Type) where
  frames : List (Option (Frame V))
  initialFrame : Option (Frame V)
  /-- How many operations were executed to get here. -/
  processed : Nat

namespace Analysis

variable {V : Type}

/-- The frame before a point that control can reach. -/
def frame? (analysis : Analysis V) (index : Nat) : Option (Frame V) :=
  (analysis.frames[index]?).join

/-- The points that control cannot reach. -/
def unreachable (analysis : Analysis V) : List Nat :=
  (List.range analysis.frames.length).filter fun index => (analysis.frame? index).isNone

/-- The greatest height of the stack at any point, in slots. -/
def maxStack (analysis : Analysis V) : Nat :=
  (analysis.frames.filterMap fun frame => frame.map Frame.stackSlots).foldl max 0

end Analysis

/-- A computation that may fail, with what it reported in order. -/
structure Traced (α : Type) where
  result : Except AnalysisFailure α
  events : List Event

namespace Traced

variable {α β : Type}

/-- The result of a computation that has stopped or not; events come the latest first. -/
def ofExcept (events : α → List Event) : Except Stopped α → Traced α
  | .ok value => ⟨.ok value, (events value).reverse⟩
  | .error stopped => ⟨.error stopped.failure, stopped.events.reverse⟩

/-- Carries on with the result, if there is one. -/
def andThen (traced : Traced α) (next : α → Except AnalysisFailure β) : Traced β :=
  ⟨traced.result.bind next, traced.events⟩

end Traced

/-- The largest number of steps that an analysis takes. The stack of code that declares no bound
grows by at most two slots at each point on the way to another. -/
def stepBound (nodes maxLocals : Nat) (maxStack : Option Nat) (height : Nat) : Nat :=
  let slots := max (maxStack.getD 0) (2 * nodes + 2)
  nodes * (nodes + 1) * (2 + height * (maxLocals + slots) + maxLocals + nodes)

variable {V : Type} [AbstractValue V]

/-- Values of parameters, each in its first slot. -/
def parameterLocals (domain : Domain V) : List FieldType → List V
  | [] => []
  | type :: rest =>
    domain.parameter type ::
      (if type.width = 2 then domain.unusable :: parameterLocals domain rest
      else parameterLocals domain rest)

/-- The frame on entry to a method: its receiver and parameters, and nothing usable after them. -/
def initialFrame (domain : Domain V) (owner : BinaryName) (method : Method) (maxLocals : Nat)
    (maxStack : Option Nat) : Except LocatedFault (Frame V) :=
  let receiver := if method.isStatic then [] else [domain.parameter (.object owner)]
  let locals := receiver ++ parameterLocals domain method.descriptor.parameters
  if maxLocals < locals.length then .error (Fault.invalidLocal maxLocals maxLocals |>.at 0)
  else
    .ok (.entry (locals ++ List.replicate (maxLocals - locals.length) domain.unusable) maxStack
      (domain.returned method.descriptor.returnType))

/-- Analyzes a method with code under the given limits. -/
def settle (domain : Domain V) (owner : BinaryName) (method : Method) (maxLocals : Nat)
    (maxStack : Option Nat) (events : List Event) :
    Except Stopped (Analysis V × List Event) := do
  let located {α : Type} : Except LocatedFault α → Except Stopped α :=
    fun outcome => outcome.mapError fun fault => ⟨.fault fault, events⟩
  let flow ← located method.flow
  let subroutines ← located (flow.subroutines maxLocals)
  let entry ← located (initialFrame domain owner method maxLocals maxStack)
  let start : AnalysisState V := .initial subroutines events
  let state ← start.merge domain 0 entry none
  let steps := stepBound flow.length maxLocals maxStack (domain.height flow.length)
  let state ← state.solve domain flow maxLocals steps
  let analysis : Analysis V := ⟨state.frames, some entry, state.processed⟩
  let total := analysis.frames.length
  let reachable := total - analysis.unreachable.length
  return (analysis, .finished owner method.name reachable total state.processed :: state.events)

/-- Analyzes a method under the given limits. There is nothing to do without code. -/
def analyzeWithin (domain : Domain V) (owner : BinaryName) (method : Method) (maxLocals : Nat)
    (maxStack : Option Nat) : Traced (Analysis V) :=
  let events := [Event.started owner method.name method.descriptor]
  if method.flags.hasNoCode then ⟨.ok ⟨[], none, 0⟩, events⟩
  else
    let traced := Traced.ofExcept Prod.snd (settle domain owner method maxLocals maxStack events)
    traced.andThen fun (analysis, _) => .ok analysis

/-- Analyzes a method under its declared limits, with a log. -/
def analyzeTraced (domain : Domain V) (owner : BinaryName) (method : Method) :
    Traced (Analysis V) :=
  analyzeWithin domain owner method method.maxLocals (some method.maxStack)

/-- Analyzes a method under its declared limits. -/
def analyze (domain : Domain V) (owner : BinaryName) (method : Method) :
    Except AnalysisFailure (Analysis V) :=
  (analyzeTraced domain owner method).result

/-- A limit that a class file has room for; a larger one is a fault at an index. -/
def checkedLimit (limit : Limit) (value : Nat) (index : Option Nat) :
    Except AnalysisFailure Nat :=
  if value ≤ Limit.largest then .ok value
  else .error (.fault (Fault.limitTooLarge limit value |>.at (index.getD 0)))

/-- Analyzes a method with as many locals as it needs and any stack, with a log, and gives it the
limits found. -/
def computeLimitsTraced (domain : Domain V) (owner : BinaryName) (method : Method) :
    Traced (Analysis V × Method) :=
  let needed := method.neededLocals
  let where? := method.nodes.findIdx? fun node => node.localsEnd? = some needed
  match checkedLimit .maxLocals needed where? with
  | .error failure => ⟨.error failure, []⟩
  | .ok maxLocals =>
    (analyzeWithin domain owner method needed none).andThen fun analysis =>
      let highest := analysis.maxStack
      let where? := analysis.frames.findIdx? fun frame =>
        frame.map Frame.stackSlots = some highest
      (checkedLimit .maxStack highest where?).map fun maxStack =>
        (analysis, { method with maxStack := maxStack, maxLocals := maxLocals })

/-- Analyzes a method with as many locals as it needs and any stack, and gives it the limits
found. -/
def computeLimits (domain : Domain V) (owner : BinaryName) (method : Method) :
    Except AnalysisFailure (Analysis V × Method) :=
  (computeLimitsTraced domain owner method).result

end MethodFlow
