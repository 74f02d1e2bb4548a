import MethodFlow.Code.Builder
import MethodFlow.Listing.Mnemonic
import MethodFlow.Listing.Operand

/-! Reading an instruction into the method that is open. Labels are numbered in the order in which
they are first placed or used. -/

namespace MethodFlow.Listing

open MethodFlow.Text

/-- A method whose end has not been reached. -/
structure OpenMethod where
  builder : MethodBuilder
  /-- The labels met so far, by name. -/
  labels : List (List Char × Label)
  maxStack : Option Nat
  maxLocals : Option Nat

namespace OpenMethod

/-- The label of a name; a new name gets a new label. -/
def label (method : OpenMethod) (name : List Char) : Except ListingFault (Label × OpenMethod) :=
  if name.isEmpty || name.contains ':' then .error (.invalidLabel name)
  else
    match method.labels.lookup name with
    | some label => .ok (label, method)
    | none =>
      let (label, builder) := method.builder.freshLabel
      .ok (label, { method with builder := builder, labels := method.labels ++ [(name, label)] })

/-- The labels of names, in order. -/
def labelAll (method : OpenMethod) : List (List Char) →
    Except ListingFault (List Label × OpenMethod)
  | [] => .ok ([], method)
  | name :: rest => do
    let (label, method) ← method.label name
    let (labels, method) ← method.labelAll rest
    return (label :: labels, method)

def push (method : OpenMethod) (node : Node) : OpenMethod :=
  { method with builder := method.builder.push node }

end OpenMethod

/-- A mnemonic with what follows it on its line. -/
structure Statement where
  mnemonic : List Char
  /-- The rest of the line. -/
  operand : List Char
  /-- The words of the rest. -/
  arguments : List (List Char)

/-- Splits a line after its mnemonic. -/
def Statement.ofLine (line : List Char) : Statement :=
  let (mnemonic, operand) := splitWord line
  ⟨mnemonic, operand, words operand⟩

namespace Statement

/-- Fails if there are arguments. -/
def noArguments (statement : Statement) : Except ListingFault Unit :=
  match statement.arguments with
  | [] => .ok ()
  | _ => .error (.noArguments statement.mnemonic)

/-- The only argument. -/
def oneArgument (statement : Statement) : Except ListingFault (List Char) :=
  match statement.arguments with
  | [argument] => .ok argument
  | _ => .error (.oneArgument statement.mnemonic)

/-- The arguments before `default LABEL`, and that label. -/
def switchDefault (statement : Statement) : Except ListingFault (List (List Char) × List Char) :=
  match statement.arguments.reverse with
  | default :: keyword :: leading =>
    if keyword = "default".toList then .ok (leading.reverse, default) else .error .switchDefault
  | _ => .error .switchDefault

/-- The method of an invocation. For an interface a count may follow it, which says nothing new; for
any other invocation a word may say that the method is of an interface. -/
def invoked (statement : Statement) (kind : InvokeKind) : Except ListingFault MethodRef :=
  match kind, statement.arguments with
  | .interface, [target] => readMethodRef target true
  | .interface, [target, count] => do
    let _ ← readUnsigned 255 count
    readMethodRef target true
  | _, [target] => readMethodRef target false
  | _, [target, word] =>
    if word = "interface".toList then readMethodRef target true
    else .error (.malformedInvoke statement.mnemonic)
  | _, _ => .error (.malformedInvoke statement.mnemonic)

/-- A table of labels. The default is the first to be met. -/
def tableSwitch (statement : Statement) (method : OpenMethod) :
    Except ListingFault (Branch Label × OpenMethod) := do
  let (leading, default) ← statement.switchDefault
  match leading with
  | [] => throw .switchLow
  | low :: names => do
    let (default, method) ← method.label default
    let low ← readSigned 31 low
    let (targets, method) ← method.labelAll names
    return (.tableSwitch default low targets, method)

/-- Keys with their labels, in the order written. -/
def switchPairs (method : OpenMethod) : List (List Char) →
    Except ListingFault (List (Int × Label) × OpenMethod)
  | [] => .ok ([], method)
  | pair :: rest =>
    match cutAt (· = ':') pair with
    | (_, none) => .error (.switchPair pair)
    | (key, some name) => do
      let key ← readSigned 31 key
      let (label, method) ← method.label name
      let (pairs, method) ← switchPairs method rest
      return ((key, label) :: pairs, method)

/-- Does a key stand beside an equal one? -/
def hasRepeatedKey : List (Int × Label) → Bool
  | first :: second :: rest => first.1 = second.1 || hasRepeatedKey (second :: rest)
  | _ => false

/-- Labels by key. The default is the last to be met. -/
def lookupSwitch (statement : Statement) (method : OpenMethod) :
    Except ListingFault (Branch Label × OpenMethod) := do
  let (leading, default) ← statement.switchDefault
  let (pairs, method) ← switchPairs method leading
  let targets := pairs.mergeSort fun first second => first.1 ≤ second.1
  if hasRepeatedKey targets then
    throw .duplicateKey
  let (default, method) ← method.label default
  return (.lookupSwitch default targets, method)

/-- A local and an amount. -/
def increment (statement : Statement) : Except ListingFault Instruction :=
  match statement.arguments with
  | [slot, amount] => do
    let slot ← readShort slot
    let amount ← readSigned 15 amount
    return .increment slot amount
  | _ => .error .incrementForm

/-- An array type and how many of its dimensions to make. -/
def newMultiArray (statement : Statement) : Except ListingFault Instruction :=
  match statement.arguments with
  | [type, dimensions] => do
    let type ← readClass type
    let dimensions ← readUnsigned 255 dimensions
    return .newMultiArray type dimensions
  | _ => .error .multiArrayForm

/-- A call site by `name(…)…`. -/
def invokeDynamic (statement : Statement) : Except ListingFault Instruction := do
  let argument ← statement.oneArgument
  let (name, descriptor) ← splitMember argument
  let name ← readUnqualifiedName name
  let descriptor ← readMethodDescriptor descriptor
  return .invokeDynamic ⟨name, descriptor⟩

/-- The operation of a statement whose mnemonic has the given form. -/
def operation (statement : Statement) (method : OpenMethod) (form : Form) :
    Except ListingFault (Operation × OpenMethod) :=
  let plain (i : Except ListingFault Instruction) : Except ListingFault (Operation × OpenMethod) :=
    i.map fun i => (.instruction i, method)
  match form with
  | .plain i => plain (statement.noArguments.map fun _ => i)
  | .plainBranch b => do
    statement.noArguments
    return (.branch b, method)
  | .byteValue => plain (statement.oneArgument >>= readSigned 7 |>.map .pushByte)
  | .shortValue => plain (statement.oneArgument >>= readSigned 15 |>.map .pushShort)
  | .constant => plain ((readConstant statement.operand).map .loadConstant)
  | .wideConstant => plain (statement.oneArgument >>= readWideConstant |>.map .loadWideConstant)
  | .slot make => plain (statement.oneArgument >>= readShort |>.map make)
  | .increment => plain statement.increment
  | .field make => plain ((readFieldRef statement.arguments).map make)
  | .invoke kind => plain ((statement.invoked kind).map (.invoke kind))
  | .invokeDynamic => plain statement.invokeDynamic
  | .newObject => plain (statement.oneArgument >>= readBinaryName |>.map .newObject)
  | .newPrimitiveArray =>
    plain (statement.oneArgument >>= readPrimitive |>.map .newPrimitiveArray)
  | .classOperand make => plain (statement.oneArgument >>= readClass |>.map make)
  | .newMultiArray => plain statement.newMultiArray
  | .jump make =>
    match statement.arguments with
    | [name] => do
      let (label, method) ← method.label name
      return (.branch (make label), method)
    | _ => .error (.singleLabel statement.mnemonic)
  | .ret =>
    match statement.arguments with
    | [slot] => do
      let slot ← readShort slot
      return (.branch (.ret slot), method)
    | _ => .error .retForm
  | .tableSwitch => do
    let (b, method) ← statement.tableSwitch method
    return (.branch b, method)
  | .lookupSwitch => do
    let (b, method) ← statement.lookupSwitch method
    return (.branch b, method)

end Statement

/-- Reads an instruction, without a label before it. -/
def OpenMethod.instruction (method : OpenMethod) (line : List Char) :
    Except ListingFault OpenMethod := do
  let statement := Statement.ofLine line
  match form? statement.mnemonic with
  | none => throw (.unknownInstruction statement.mnemonic)
  | some form => do
    let (op, method) ← statement.operation method form
    return method.push (.operation op)

/-- Reads a label, an instruction, or both. -/
def OpenMethod.line (method : OpenMethod) (line : List Char) : Except ListingFault OpenMethod :=
  let first := line.takeWhile fun c => !isBlank c
  match dropLast? (· = ':') first with
  | none => method.instruction line
  | some name => do
    let (label, method) ← method.label name
    let method := method.push (.label label)
    let rest := trimStart (line.drop first.length)
    if rest.isEmpty then return method else method.instruction rest

end MethodFlow.Listing
