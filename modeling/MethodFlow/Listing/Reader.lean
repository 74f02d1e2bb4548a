import MethodFlow.Hierarchy.ClassGraph
import MethodFlow.Listing.Instruction

/-! Listings of classes and their methods. A line holds a directive, which starts with a point, or a
label, an instruction or both; a comment starts at a `;` after a blank. Methods outside of any class
belong to a default owner. -/

namespace MethodFlow

structure MethodListing where
  method : Method
  /-- Were both limits declared? Otherwise those of the method are only placeholders. -/
  explicitLimits : Bool

/-- A class of a listing, with its methods in order. -/
structure ClassListing where
  info : ClassInfo
  methods : List MethodListing

structure Listing where
  classes : List ClassListing

/-- The methods of a listing, each with its class. -/
def Listing.methods (listing : Listing) : List (ClassInfo × MethodListing) :=
  listing.classes.flatMap fun entry => entry.methods.map fun method => (entry.info, method)

namespace Listing

open MethodFlow.Text

/-- The method that has been read. A limit that was not declared is what its locals need, or zero
for the stack. -/
def OpenMethod.finish (openMethod : OpenMethod) : MethodListing :=
  let method := openMethod.builder.method
  let placeholder := min method.neededLocals largestShort
  { method :=
      { method with
        maxStack := openMethod.maxStack.getD 0
        maxLocals := openMethod.maxLocals.getD placeholder }
    explicitLimits := openMethod.maxStack.isSome && openMethod.maxLocals.isSome }

structure Progress where
  /-- The classes so far, the latest first. -/
  classes : List ClassListing
  current : Option OpenMethod

/-- A line with a directive: its name, and the words after it. -/
structure Directive where
  name : List Char
  arguments : List (List Char)

namespace Directive

/-- The only argument. -/
def argument (directive : Directive) : Except ListingFault (List Char) :=
  match directive.arguments with
  | [argument] => .ok argument
  | arguments => .error (.argumentCount directive.name 1 arguments.length)

end Directive

namespace Progress

def start : Progress := ⟨[], none⟩

/-- A class as a listing opens it. -/
def opened (name : BinaryName) (superclass : Option BinaryName) (isInterface : Bool) :
    ClassListing :=
  ⟨⟨name, superclass, [], isInterface⟩, []⟩

/-- Changes the class that is open, which is the default owner before any other. -/
def updateClass (progress : Progress) (owner : BinaryName) (change : ClassListing → ClassListing) :
    Progress :=
  match progress.classes with
  | [] => { progress with classes := [change (opened owner (some .object) false)] }
  | latest :: earlier => { progress with classes := change latest :: earlier }

/-- Fails inside a method. -/
def outsideMethod (progress : Progress) : Except ListingFault Unit :=
  match progress.current with
  | none => .ok ()
  | some method => .error (.unfinishedMethod method.builder.method.name)

/-- The method that is open. -/
def openMethod (progress : Progress) (directive : String) : Except ListingFault OpenMethod :=
  orFault (.outsideMethod directive) progress.current

/-- Opens a class. -/
def openClass (progress : Progress) (directive : Directive) : Except ListingFault Progress := do
  progress.outsideMethod
  match directive.arguments.reverse with
  | [] => throw (.missingClassName directive.name)
  | name :: modifiers => do
    let isInterface :=
      directive.name = ".interface".toList || modifiers.contains "interface".toList
    let name ← readBinaryName name
    let superclass := if name = .object then none else some .object
    return { progress with classes := opened name superclass isInterface :: progress.classes }

/-- Declares the superclass of the open class. -/
def superclass (progress : Progress) (owner : BinaryName) (directive : Directive) :
    Except ListingFault Progress := do
  progress.outsideMethod
  let name ← directive.argument >>= readBinaryName
  return progress.updateClass owner fun entry => { entry with info.superclass := some name }

/-- Declares an interface of the open class. -/
def implements (progress : Progress) (owner : BinaryName) (directive : Directive) :
    Except ListingFault Progress := do
  progress.outsideMethod
  let name ← directive.argument >>= readBinaryName
  return progress.updateClass owner fun entry =>
    { entry with info.interfaces := entry.info.interfaces ++ [name] }

/-- The flags of modifiers. -/
def readFlags (flags : AccessFlags) : List (List Char) → Except ListingFault AccessFlags
  | [] => .ok flags
  | modifier :: rest =>
    match AccessFlags.ofKeyword? (String.ofList modifier) with
    | none => .error (.unknownModifier modifier)
    | some flag => readFlags (flags.union flag) rest

/-- Opens a method. -/
def openSignature (progress : Progress) (directive : Directive) :
    Except ListingFault Progress := do
  progress.outsideMethod
  match directive.arguments.reverse with
  | [] => throw .missingSignature
  | signature :: modifiers => do
    let flags ← readFlags .empty modifiers.reverse
    let (name, descriptor) ← splitMember signature
    let descriptor ← readMethodDescriptor descriptor
    let name ← readUnqualifiedName name
    return { progress with current := some ⟨.empty flags name descriptor, [], none, none⟩ }

/-- Declares a limit of the open method. -/
def limit (progress : Progress) (directive : Directive) : Except ListingFault Progress := do
  match directive.arguments with
  | [what, value] => do
    let method ← progress.openMethod ".limit"
    let value ← readShort value
    if what = "stack".toList then
      return { progress with current := some { method with maxStack := some value } }
    if what = "locals".toList then
      return { progress with current := some { method with maxLocals := some value } }
    throw (.unknownLimit what)
  | arguments => throw (.argumentCount directive.name 2 arguments.length)

/-- The class of the exceptions to catch, unless all are. -/
def readCatchType (token : List Char) : Except ListingFault (Option BinaryName) :=
  if token = "any".toList ∨ token = "all".toList then .ok none
  else (readBinaryName token).map some

/-- Adds a handler to the open method. -/
def addHandler (progress : Progress) (directive : Directive) : Except ListingFault Progress := do
  match directive.arguments with
  | [type, wordFrom, first, wordTo, past, wordUsing, handler] => do
    if wordFrom ≠ "from".toList ∨ wordTo ≠ "to".toList ∨ wordUsing ≠ "using".toList then
      throw .catchForm
    let catchType ← readCatchType type
    let method ← progress.openMethod ".catch"
    let (first, method) ← method.label first
    let (past, method) ← method.label past
    let (handler, method) ← method.label handler
    let builder := method.builder.addHandler ⟨first, past, handler, catchType⟩
    return { progress with current := some { method with builder := builder } }
  | arguments => throw (.argumentCount directive.name 7 arguments.length)

/-- Adds a line number to the open method. -/
def lineNumber (progress : Progress) (directive : Directive) : Except ListingFault Progress := do
  let number ← directive.argument >>= readShort
  let method ← progress.openMethod ".line"
  return { progress with current := some (method.push (.line number)) }

/-- Closes the open method, which belongs to the open class. The end of a class changes nothing. -/
def close (progress : Progress) (owner : BinaryName) (directive : Directive) :
    Except ListingFault Progress := do
  let what ← directive.argument
  if what = "method".toList then
    let method ← progress.openMethod ".end method"
    let progress := { progress with current := none }
    return progress.updateClass owner fun entry =>
      { entry with methods := entry.methods ++ [method.finish] }
  if what = "class".toList then
    progress.outsideMethod
    return progress
  throw (.unknownEnd what)

/-- Reads a directive. -/
def directive (progress : Progress) (owner : BinaryName) (directive : Directive) :
    Except ListingFault Progress :=
  match String.ofList directive.name with
  | ".class" | ".interface" => progress.openClass directive
  | ".super" => progress.superclass owner directive
  | ".implements" => progress.implements owner directive
  | ".method" => progress.openSignature directive
  | ".limit" => progress.limit directive
  | ".catch" => progress.addHandler directive
  | ".line" => progress.lineNumber directive
  | ".end" => progress.close owner directive
  | _ => .error (.unknownDirective directive.name)

/-- Reads a line without blanks at its ends. -/
def trimmedLine (progress : Progress) (owner : BinaryName) (line : List Char) :
    Except ListingFault Progress :=
  match line with
  | [] => .ok progress
  | '.' :: _ =>
    match words line with
    | name :: arguments => progress.directive owner ⟨name, arguments⟩
    | [] => .ok progress
  | _ => do
    let method ← orFault .strayInstruction progress.current
    let method ← method.line line
    return { progress with current := some method }

/-- Reads a line. -/
def line (progress : Progress) (owner : BinaryName) (line : List Char) :
    Except ListingFault Progress :=
  progress.trimmedLine owner (trim (uncomment line))

/-- Reads lines from a number on. At the end every method has to be closed. -/
def readLines (progress : Progress) (owner : BinaryName) (number : Nat) :
    List (List Char) → Except ListingError Progress
  | [] =>
    match progress.outsideMethod with
    | .ok () => .ok progress
    | .error fault => .error ⟨number - 1, fault⟩
  | text :: rest =>
    match progress.line owner text with
    | .ok progress => progress.readLines owner (number + 1) rest
    | .error fault => .error ⟨number, fault⟩

end Progress

/-- Reads a listing. -/
def ofChars (text : List Char) (owner : BinaryName) : Except ListingError Listing :=
  (Progress.start.readLines owner 1 (lines text)).map fun progress =>
    ⟨progress.classes.reverse⟩

/-- Reads a listing; methods outside of any class belong to the owner. -/
def parse (text : String) (owner : BinaryName) : Except ListingError Listing :=
  ofChars text.toList owner

end Listing

end MethodFlow
