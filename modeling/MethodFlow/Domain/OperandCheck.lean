import MethodFlow.Domain.Typing

/-! Checks that operands are of the types an operation needs, for any domain that can compare its
values with those of types. The first operand that does not fit is the one reported. -/

namespace MethodFlow

/-- How a domain compares values with what is expected of them. -/
structure CheckedValues (V : Type) extends TypeValues V where
  isReference : V → Bool
  isReturnAddress : V → Bool
  isArray : V → Bool
  /-- Is this an array of references, or null? -/
  isReferenceArray : V → Bool
  /-- Can the first value stand where the second is expected? -/
  isSubtype : V → V → Except Fault Bool
  /-- The value expected of what is stored in an array of references, where the domain can tell. -/
  storedElement : V → Except Fault (Option V)

/-- The primitive type of the elements of an array, if it is one. -/
def ArrayKind.element? : ArrayKind → Option BaseType
  | .int => some .int
  | .long => some .long
  | .float => some .float
  | .double => some .double
  | .reference => none
  | .byte => some .byte
  | .char => some .char
  | .short => some .short

/-- Type of the arrays that elements are loaded from and stored to. -/
def ArrayKind.arrayType (kind : ArrayKind) : FieldType :=
  .arrayOf (match kind.element? with
    | some element => .base element
    | none => .object .object)

namespace CheckedValues

variable {V : Type} [AbstractValue V]

/-- An operand that does not fit, against a description of what is needed. -/
def described (context : Option String) (description : String) (value : V) : Fault :=
  .mismatch context description (AbstractValue.shown value)

def expect (types : CheckedValues V) (context : Option String) (value expected : V) :
    Except Fault Unit := do
  if ← types.isSubtype value expected then
    return ()
  throw (described context (AbstractValue.shown expected) value)

def expectReference (types : CheckedValues V) (context : Option String) (value : V) :
    Except Fault Unit :=
  if types.isReference value then .ok ()
  else .error (described context "an object reference" value)

def expectArray (types : CheckedValues V) (value : V) : Except Fault Unit :=
  if types.isArray value then .ok ()
  else .error (described none "an array reference" value)

/-- The arrays that an element is loaded from or stored to. The operations on bytes are also those
on booleans. -/
def expectedArray (types : CheckedValues V) (kind : ArrayKind) (array : V) : Except Fault V := do
  if kind = .byte then
    let booleans := types.typed (.arrayOf (.base .boolean))
    if ← types.isSubtype array booleans then
      return booleans
  return types.typed kind.arrayType

/-- Checks the operand of loads, stores and shuffles. -/
def checkCopy (types : CheckedValues V) (site : Site) (value : V) : Except Fault Unit :=
  match site.operation with
  | .instruction (.load kind _) =>
    match kind with
    | .int => types.expect none value (types.typed .int)
    | .long => types.expect none value (types.typed .long)
    | .float => types.expect none value (types.typed .float)
    | .double => types.expect none value (types.typed .double)
    | .reference => types.expectReference none value
  | .instruction (.store kind _) =>
    match kind with
    | .int => types.expect none value (types.typed .int)
    | .long => types.expect none value (types.typed .long)
    | .float => types.expect none value (types.typed .float)
    | .double => types.expect none value (types.typed .double)
    | .reference =>
      if types.isReference value || types.isReturnAddress value then .ok ()
      else .error (described none "an object reference or a return address" value)
  | _ => .ok ()

/-- Checks the operand of operations with one. -/
def checkUnary (types : CheckedValues V) (site : Site) (value : V) : Except Fault Unit :=
  match site.operation with
  | .instruction i =>
    match i with
    | .negate kind => types.expect none value (types.typed kind.type)
    | .increment _ _ | .newPrimitiveArray _ | .newArray _ =>
      types.expect none value (types.typed .int)
    | .convert conversion => types.expect none value (types.typed conversion.source.type)
    | .getField field => types.expect none value (types.typed (.object field.owner))
    | .putStatic field => types.expect none value (types.typed field.descriptor)
    | .arrayLength => types.expectArray value
    | .checkCast _ | .instanceOf _ | .monitorEnter | .monitorExit =>
      types.expectReference none value
    | _ => .error site.unexpected
  | .branch b =>
    match b with
    | .ifZero _ _ | .tableSwitch _ _ _ | .lookupSwitch _ _ | .valueReturn .int =>
      types.expect none value (types.typed .int)
    | .valueReturn .float => types.expect none value (types.typed .float)
    | .valueReturn .long => types.expect none value (types.typed .long)
    | .valueReturn .double => types.expect none value (types.typed .double)
    | .valueReturn .reference | .throw | .ifNull _ _ => types.expectReference none value
    | _ => .error site.unexpected

def firstArgument : Option String := some "First argument"
def secondArgument : Option String := some "Second argument"
def thirdArgument : Option String := some "Third argument"

/-- Checks two operands against the values expected of them. -/
def expectBoth (types : CheckedValues V) (first second expected expected' : V) :
    Except Fault Unit := do
  types.expect firstArgument first expected
  types.expect secondArgument second expected'

/-- Checks the operands of operations with two. -/
def checkBinary (types : CheckedValues V) (site : Site) (first second : V) : Except Fault Unit :=
  match site.operation with
  | .instruction i =>
    match i with
    | .arrayLoad kind => do
      let array ← types.expectedArray kind first
      types.expectBoth first second array (types.typed .int)
    | .arithmetic _ kind =>
      types.expectBoth first second (types.typed kind.type) (types.typed kind.type)
    | .shift _ kind => types.expectBoth first second (types.typed kind.type) (types.typed .int)
    | .bitwise _ kind =>
      types.expectBoth first second (types.typed kind.type) (types.typed kind.type)
    | .compare comparison =>
      types.expectBoth first second (types.typed comparison.type) (types.typed comparison.type)
    | .putField field =>
      types.expectBoth first second (types.typed (.object field.owner))
        (types.typed field.descriptor)
    | _ => .error site.unexpected
  | .branch b =>
    match b with
    | .ifInts _ _ => types.expectBoth first second (types.typed .int) (types.typed .int)
    | .ifReferences _ _ => do
      types.expectReference firstArgument first
      types.expectReference secondArgument second
    | _ => .error site.unexpected

/-- Checks the operands of a store into an array of references. -/
def checkReferenceStore (types : CheckedValues V) (array index value : V) : Except Fault Unit := do
  if types.isReferenceArray array then
    types.expect secondArgument index (types.typed .int)
    types.expectReference thirdArgument value
    match ← types.storedElement array with
    | some element => types.expect thirdArgument value element
    | none => return ()
  else
    throw (described firstArgument "an array of references" array)

/-- Checks the operands of stores into arrays. -/
def checkTernary (types : CheckedValues V) (site : Site) (array index value : V) :
    Except Fault Unit :=
  match site.operation with
  | .instruction (.arrayStore .reference) => types.checkReferenceStore array index value
  | .instruction (.arrayStore kind) => do
    let expected ← types.expectedArray kind array
    types.expect firstArgument array expected
    types.expect secondArgument index (types.typed .int)
    types.expect thirdArgument value (types.typed kind.operand)
  | _ => .error site.unexpected

/-- Checks arguments against parameters, numbering them from `index`. -/
def checkArguments (types : CheckedValues V) (index : Nat) :
    List V → List FieldType → Except Fault Unit
  | value :: values, parameter :: parameters => do
    types.expect (some s!"Argument {index}") value (types.typed parameter)
    types.checkArguments (index + 1) values parameters
  | _, _ => .ok ()

/-- Checks that every value is an `int`. -/
def checkDimensions (types : CheckedValues V) : List V → Except Fault Unit
  | [] => .ok ()
  | value :: values => do
    types.expect none value (types.typed .int)
    types.checkDimensions values

/-- Checks the receiver and the arguments of an invocation. -/
def checkInvocation (types : CheckedValues V) (kind : InvokeKind) (method : MethodRef)
    (values : List V) : Except Fault Unit :=
  match kind.hasReceiver, values with
  | true, receiver :: arguments => do
    types.expect (some "Method owner") receiver (types.typed (.object method.owner))
    types.checkArguments 1 arguments method.descriptor.parameters
  | _, arguments => types.checkArguments 1 arguments method.descriptor.parameters

/-- Checks the operands of operations with any number of them. -/
def checkNary (types : CheckedValues V) (site : Site) (values : List V) : Except Fault Unit :=
  match site.operation with
  | .instruction i =>
    match i with
    | .newMultiArray _ _ => types.checkDimensions values
    | .invoke kind method => types.checkInvocation kind method values
    | .invokeDynamic call => types.checkArguments 1 values call.descriptor.parameters
    | _ => .error site.unexpected
  | .branch _ => .error site.unexpected

/-- The domain that types the operations and checks their operands first. -/
def domain (types : CheckedValues V) (merge : V → V → Except Fault V) (height : Nat → Nat) :
    Domain V where
  valueOf := types.valueOf
  produce := types.produced
  copy site value := do
    types.checkCopy site value
    return value
  unary site value := do
    types.checkUnary site value
    types.unaryResult site
  binary site first second := do
    types.checkBinary site first second
    types.binaryResult site first
  ternary site first second third := do
    types.checkTernary site first second third
    TypeValues.ternaryResult site
  nary site values := do
    types.checkNary site values
    types.naryResult site
  checkReturn _ value expected := types.expect (some "Incompatible return type") value expected
  merge := merge
  height := height

end CheckedValues

end MethodFlow
