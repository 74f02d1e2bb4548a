import MethodFlow.Analysis.StackMap
import MethodFlow.Domain.Provenance
import MethodFlow.Domain.ValueKind
import MethodFlow.Hierarchy.Library
import MethodFlow.Listing.Reader
import MethodFlow.Settings

namespace MethodFlow

/-- What a run leaves behind: its exit status and what it wrote. -/
structure Report where
  status : Nat
  output : String
  errors : String
deriving DecidableEq, Repr

namespace Report

/-- A number in at least four places. -/
def column (value : Nat) : String := String.ofList ((toString value).toList.leftpad 4 ' ')

/-- A text in at least forty places. -/
def wide (text : String) : String := String.ofList (text.toList.rightpad 40 ' ')

/-- The line of a node, with the frame before it. -/
def nodeLine {V : Type} [AbstractValue V] (analysis : Analysis V) (index : Nat) (node : Node) :
    String :=
  let frame :=
    match analysis.frame? index with
    | some frame => frame.shown
    | none => "unreachable"
  column index ++ ": " ++ wide frame ++ " " ++ node.shown ++ "\n"

/-- The lines of a method. -/
def methodLines {V : Type} [AbstractValue V] (settings : Settings) (owner : BinaryName)
    (method : Method) (analysis : Analysis V) : String :=
  let header :=
    s!"{owner}.{method.name}{method.descriptor} " ++
      s!"(max stack {method.maxStack}, max locals {method.maxLocals})\n"
  header ++
    if settings.printFrames then String.join (method.nodes.mapIdx (nodeLine analysis)) else ""

/-- The lines of a stack map. -/
def stackMapLines (entries : List StackMapEntry) : String :=
  String.join (entries.map fun entry => column entry.index ++ ": " ++ entry.frame.shown ++ "\n")

def failureMessage : AnalysisFailure → String
  | .fault located => located.message
  | .unsettled => "Analysis did not settle"

/-- Analyzes a method over a domain; `after` adds to the lines on a success. -/
def analyzed {V : Type} [AbstractValue V] (settings : Settings) (owner : BinaryName)
    (listed : MethodListing) (domain : Domain V)
    (after : Method → Analysis V → Except AnalysisFailure String) :
    String × Option AnalysisFailure :=
  let outcome :=
    if settings.computeLimits || !listed.explicitLimits then
      MethodFlow.computeLimits domain owner listed.method
    else (analyze domain owner listed.method).map fun analysis => (analysis, listed.method)
  match outcome with
  | .error failure => ("", some failure)
  | .ok (analysis, method) =>
    let lines := methodLines settings owner method analysis
    match after method analysis with
    | .ok more => (lines ++ more, none)
    | .error failure => (lines, some failure)

/-- What is added for verification types: the stack map, if it was asked for. -/
def withStackMap (settings : Settings) (method : Method) (analysis : Analysis VerificationType) :
    Except AnalysisFailure String :=
  if settings.printStackMap then
    match stackMap method analysis with
    | .ok entries => .ok (stackMapLines entries)
    | .error located => .error (.fault located)
  else .ok ""

/-- The lines of a method and why its analysis failed, if it did. -/
def ofMethod (settings : Settings) (graph : ClassGraph) (owner : BinaryName)
    (listed : MethodListing) : String × Option AnalysisFailure :=
  match settings.policy with
  | .basic => analyzed settings owner listed ValueKind.domain fun _ _ => .ok ""
  | .verify => analyzed settings owner listed ValueKind.verifier fun _ _ => .ok ""
  | .simple =>
    analyzed settings owner listed (VerificationType.verifier graph.hierarchy)
      (withStackMap settings)
  | .source => analyzed settings owner listed Provenance.domain fun _ _ => .ok ""

/-- Reports on methods in order, up to the first that fails unless the run is to go on. -/
def ofMethods (settings : Settings) (graph : ClassGraph) :
    List (ClassInfo × MethodListing) → Report
  | [] => ⟨0, "", ""⟩
  | (info, listed) :: rest =>
    let (lines, failure) := ofMethod settings graph info.name listed
    match failure with
    | none =>
      let more := ofMethods settings graph rest
      { more with output := lines ++ more.output }
    | some failure =>
      let error := s!"{info.name}.{listed.method.name}: " ++ failureMessage failure ++ "\n"
      if settings.keepGoing then
        let more := ofMethods settings graph rest
        ⟨1, lines ++ more.output, error ++ more.errors⟩
      else ⟨1, lines, error⟩

/-- The classes of a listing, over those of the library. -/
def graphOf (listing : Listing) : ClassGraph :=
  ClassGraph.library.addAll (listing.classes.map ClassListing.info)

/-- The shown form of an error in a listing. -/
def shownError (error : ListingError) : String :=
  Text.shownRecord "ListingError"
    [("line", toString error.line), ("message", Text.quoted error.fault.message.toList)]

/-- Reports on the text of a listing. -/
def ofText (settings : Settings) (text : String) : Report :=
  match Listing.parse text settings.defaultOwner with
  | .error error => ⟨1, "", "Error: " ++ shownError error ++ "\n"⟩
  | .ok listing => ofMethods settings (graphOf listing) listing.methods

end Report

end MethodFlow
