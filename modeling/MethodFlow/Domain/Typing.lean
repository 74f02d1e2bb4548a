import MethodFlow.Domain.Basic

namespace MethodFlow

/-- How a domain reads types as values. -/
structure TypeValues (V : Type) where
  valueOf : Option FieldType → V
  /-- The value of the null reference. -/
  null : V
  /-- The value that entering a subroutine pushes. -/
  returnAddress : V
  /-- The value of the elements of an array of references. -/
  elementOf : V → Except Fault V

/-- Type of an element as an operand: the small integers are handled as `int`. References are at
least objects. -/
def ArrayKind.operand : ArrayKind → FieldType
  | .int | .byte | .char | .short => .int
  | .long => .long
  | .float => .float
  | .double => .double
  | .reference => .object .object

namespace TypeValues

variable {V : Type}

/-- The value of a type. -/
def typed (types : TypeValues V) (type : FieldType) : V := types.valueOf (some type)

/-- What an operation without operands pushes. -/
def produced (types : TypeValues V) (site : Site) : Except Fault V :=
  match site.operation with
  | .instruction i =>
    match i with
    | .pushNull => .ok types.null
    | .shortConstant constant => .ok (types.typed constant.type)
    | .pushByte _ | .pushShort _ => .ok (types.typed .int)
    | .loadConstant constant | .loadWideConstant constant => .ok (types.typed constant.type)
    | .getStatic field => .ok (types.typed field.descriptor)
    | .newObject name => .ok (types.typed (.object name))
    | _ => .error site.unexpected
  | .branch (.jsr _) => .ok types.returnAddress
  | .branch _ => .error site.unexpected

/-- What an operation with one operand pushes. -/
def unaryResult (types : TypeValues V) (site : Site) : Except Fault (Option V) :=
  match site.operation with
  | .instruction i =>
    match i with
    | .negate kind => .ok (some (types.typed kind.type))
    | .increment _ _ | .arrayLength | .instanceOf _ => .ok (some (types.typed .int))
    | .convert conversion => .ok (some (types.typed conversion.target.type))
    | .getField field => .ok (some (types.typed field.descriptor))
    | .newPrimitiveArray element => .ok (some (types.typed (.arrayOf (.base element))))
    | .newArray element => .ok (some (types.typed (.arrayOf (.ref element))))
    | .checkCast type => .ok (some (types.typed (.ref type)))
    | .putStatic _ | .monitorEnter | .monitorExit => .ok none
    | _ => .error site.unexpected
  | .branch b =>
    match b with
    | .ifZero _ _ | .ifNull _ _ | .tableSwitch _ _ _ | .lookupSwitch _ _ | .valueReturn _
    | .throw => .ok none
    | _ => .error site.unexpected

/-- What an operation with two operands pushes, from the first of them. -/
def binaryResult (types : TypeValues V) (site : Site) (first : V) : Except Fault (Option V) :=
  match site.operation with
  | .instruction i =>
    match i with
    | .arrayLoad .reference => (types.elementOf first).map some
    | .arrayLoad kind => .ok (some (types.typed kind.operand))
    | .arithmetic _ kind => .ok (some (types.typed kind.type))
    | .shift _ kind | .bitwise _ kind => .ok (some (types.typed kind.type))
    | .compare _ => .ok (some (types.typed .int))
    | .putField _ => .ok none
    | _ => .error site.unexpected
  | .branch b =>
    match b with
    | .ifInts _ _ | .ifReferences _ _ => .ok none
    | _ => .error site.unexpected

/-- Stores into arrays push nothing. -/
def ternaryResult (site : Site) : Except Fault (Option V) :=
  match site.operation with
  | .instruction (.arrayStore _) => .ok none
  | _ => .error site.unexpected

/-- What an operation with any number of operands pushes. -/
def naryResult (types : TypeValues V) (site : Site) : Except Fault (Option V) :=
  match site.operation with
  | .instruction i =>
    match i with
    | .invoke _ method => .ok (method.descriptor.returnType.map types.typed)
    | .invokeDynamic call => .ok (call.descriptor.returnType.map types.typed)
    | .newMultiArray type _ => .ok (some (types.typed (.ref type)))
    | _ => .error site.unexpected
  | .branch _ => .error site.unexpected

/-- The domain that types the operations and checks nothing. -/
def domain (types : TypeValues V) (merge : V → V → Except Fault V) (height : Nat → Nat) :
    Domain V where
  valueOf := types.valueOf
  produce := types.produced
  copy _ value := .ok value
  unary site _ := types.unaryResult site
  binary site first _ := types.binaryResult site first
  ternary site _ _ _ := ternaryResult site
  nary site _ := types.naryResult site
  checkReturn _ _ _ := .ok ()
  merge := merge
  height := height

end TypeValues

end MethodFlow
