import MethodFlow.Code.Node
import MethodFlow.Decimal.Notation
import MethodFlow.Text.Quoted
import MethodFlow.Text.Shown

namespace MethodFlow

open Text

def BaseType.shown : BaseType → String
  | .byte => "Byte"
  | .char => "Char"
  | .double => "Double"
  | .float => "Float"
  | .int => "Int"
  | .long => "Long"
  | .short => "Short"
  | .boolean => "Boolean"

private def shownArray (additional : Nat) (element : String) : String :=
  shownRecord "ArrayType"
    [("additional_dimensions", toString additional), ("element_type", element)]

def RefType.shown : RefType → String
  | .object name => shownCall "Object" [toString name]
  | .objectArray additional element =>
    shownCall "ObjectArray" [shownArray additional (toString element)]
  | .primitiveArray additional element =>
    shownCall "PrimitiveArray" [shownArray additional element.shown]

def FieldType.shown : FieldType → String
  | .base type => shownCall "Base" [type.shown]
  | .ref type => shownCall "Ref" [type.shown]

def MethodDescriptor.shown (descriptor : MethodDescriptor) : String :=
  shownRecord "MethodDescriptor"
    [("parameters", shownList (descriptor.parameters.map FieldType.shown)),
      ("return_type", shownOption (descriptor.returnType.map FieldType.shown))]

def FieldRef.shown (field : FieldRef) : String :=
  shownRecord "FieldRef"
    [("class", toString field.owner), ("name", toString field.name),
      ("descriptor", field.descriptor.shown)]

def MethodRef.shown (method : MethodRef) : String :=
  shownRecord "MethodRef"
    [("class", toString method.owner), ("name", toString method.name),
      ("descriptor", method.descriptor.shown), ("is_interface", shownBool method.inInterface)]

def DynamicRef.shown (site : DynamicRef) : String :=
  shownRecord "InvokeDynamicRef"
    [("name", toString site.name), ("descriptor", site.descriptor.shown)]

def Constant.shown : Constant → String
  | .integer value => shownCall "Integer" [toString value]
  | .float value => shownCall "Float" [value.shown .single]
  | .long value => shownCall "Long" [toString value]
  | .double value => shownCall "Double" [value.shown .double]
  | .string value => shownCall "String" [quoted value]
  | .classRef type => shownCall "Class" [type.shown]
  | .methodType descriptor => shownCall "MethodType" [descriptor.shown]
  | .methodHandle method => shownCall "MethodHandle" [method.shown]

/-- The letter of a kind in the names of its instructions. -/
def Kind.letter : Kind → String
  | .int => "I"
  | .long => "L"
  | .float => "F"
  | .double => "D"
  | .reference => "A"

def NumberKind.letter : NumberKind → String
  | .int => "I"
  | .long => "L"
  | .float => "F"
  | .double => "D"

def IntegerKind.letter : IntegerKind → String
  | .int => "I"
  | .long => "L"

def ArrayKind.letter : ArrayKind → String
  | .int => "I"
  | .long => "L"
  | .float => "F"
  | .double => "D"
  | .reference => "A"
  | .byte => "B"
  | .char => "C"
  | .short => "S"

def ShortConstant.shown : ShortConstant → String
  | .intMinus1 => "IConstM1"
  | .int0 => "IConst0"
  | .int1 => "IConst1"
  | .int2 => "IConst2"
  | .int3 => "IConst3"
  | .int4 => "IConst4"
  | .int5 => "IConst5"
  | .long0 => "LConst0"
  | .long1 => "LConst1"
  | .float0 => "FConst0"
  | .float1 => "FConst1"
  | .float2 => "FConst2"
  | .double0 => "DConst0"
  | .double1 => "DConst1"

def Shuffle.shown : Shuffle → String
  | .pop => "Pop"
  | .pop2 => "Pop2"
  | .dup => "Dup"
  | .dupX1 => "DupX1"
  | .dupX2 => "DupX2"
  | .dup2 => "Dup2"
  | .dup2X1 => "Dup2X1"
  | .dup2X2 => "Dup2X2"
  | .swap => "Swap"

def ArithmeticOp.shown : ArithmeticOp → String
  | .add => "Add"
  | .sub => "Sub"
  | .mul => "Mul"
  | .div => "Div"
  | .rem => "Rem"

def ShiftOp.shown : ShiftOp → String
  | .left => "Left"
  | .logicalRight => "LogicalRight"
  | .arithmeticRight => "ArithmeticRight"

def BitwiseOp.shown : BitwiseOp → String
  | .and => "And"
  | .or => "Or"
  | .xor => "Xor"

def Conversion.shown : Conversion → String
  | .intToLong => "I2L"
  | .intToFloat => "I2F"
  | .intToDouble => "I2D"
  | .longToInt => "L2I"
  | .longToFloat => "L2F"
  | .longToDouble => "L2D"
  | .floatToInt => "F2I"
  | .floatToLong => "F2L"
  | .floatToDouble => "F2D"
  | .doubleToInt => "D2I"
  | .doubleToLong => "D2L"
  | .doubleToFloat => "D2F"
  | .intToByte => "I2B"
  | .intToChar => "I2C"
  | .intToShort => "I2S"

def NanOrder.shown : NanOrder → String
  | .less => "L"
  | .greater => "G"

def Comparison.shown : Comparison → String
  | .long => "LCmp"
  | .float nan => shownCall "FCmp" [nan.shown]
  | .double nan => shownCall "DCmp" [nan.shown]

def InvokeKind.shown : InvokeKind → String
  | .virtual => "Virtual"
  | .special => "Special"
  | .static => "Static"
  | .interface => "Interface"

def Instruction.shown : Instruction → String
  | .nop => "Nop"
  | .pushNull => "AConstNull"
  | .shortConstant constant => constant.shown
  | .pushByte value => shownCall "BiPush" [toString value]
  | .pushShort value => shownCall "SiPush" [toString value]
  | .loadConstant constant => shownCall "Ldc" [constant.shown]
  | .loadWideConstant constant => shownCall "Ldc2" [constant.shown]
  | .load kind slot => shownCall (kind.letter ++ "Load") [toString slot]
  | .arrayLoad kind => kind.letter ++ "ALoad"
  | .store kind slot => shownCall (kind.letter ++ "Store") [toString slot]
  | .arrayStore kind => kind.letter ++ "AStore"
  | .shuffle shape => shape.shown
  | .arithmetic op kind => kind.letter ++ op.shown
  | .negate kind => kind.letter ++ "Neg"
  | .shift op kind => shownCall (kind.letter ++ "Sh") [op.shown]
  | .bitwise op kind => kind.letter ++ op.shown
  | .increment slot amount => shownCall "IInc" [toString slot, toString amount]
  | .convert conversion => conversion.shown
  | .compare comparison => comparison.shown
  | .getStatic field => shownCall "GetStatic" [field.shown]
  | .putStatic field => shownCall "PutStatic" [field.shown]
  | .getField field => shownCall "GetField" [field.shown]
  | .putField field => shownCall "PutField" [field.shown]
  | .invoke kind method => shownCall "Invoke" [kind.shown, method.shown]
  | .invokeDynamic site => shownCall "InvokeDynamic" [site.shown]
  | .newObject name => shownCall "New" [toString name]
  | .newPrimitiveArray element => shownCall "NewArray" [element.shown]
  | .newArray element => shownCall "ANewArray" [element.shown]
  | .arrayLength => "ArrayLength"
  | .checkCast type => shownCall "CheckCast" [type.shown]
  | .instanceOf type => shownCall "InstanceOf" [type.shown]
  | .monitorEnter => "MonitorEnter"
  | .monitorExit => "MonitorExit"
  | .newMultiArray type dimensions => shownCall "MultiANewArray" [type.shown, toString dimensions]

def OrdComparison.shown : OrdComparison → String
  | .eq => "EQ"
  | .ge => "GE"
  | .gt => "GT"
  | .le => "LE"
  | .lt => "LT"
  | .ne => "NE"

def EqComparison.shown : EqComparison → String
  | .eq => "EQ"
  | .ne => "NE"

/-- The shown form of a branch, from that of its targets. -/
def Branch.shown {L : Type} (shownTarget : L → String) : Branch L → String
  | .ifZero comparison target => shownCall "If" [comparison.shown, shownTarget target]
  | .ifInts comparison target => shownCall "IfICmp" [comparison.shown, shownTarget target]
  | .ifReferences comparison target => shownCall "IfACmp" [comparison.shown, shownTarget target]
  | .ifNull comparison target => shownCall "IfNull" [comparison.shown, shownTarget target]
  | .goto target => shownCall "Goto" [shownTarget target]
  | .tableSwitch default low targets =>
    shownRecord "TableSwitch"
      [("default", shownTarget default), ("low", toString low),
        ("targets", shownList (targets.map shownTarget))]
  | .lookupSwitch default targets =>
    shownRecord "LookupSwitch"
      [("default", shownTarget default),
        ("targets", shownList (targets.map fun (key, target) =>
          shownPair (toString key) (shownTarget target)))]
  | .valueReturn kind => kind.letter ++ "Return"
  | .voidReturn => "Return"
  | .throw => "AThrow"
  | .jsr target => shownCall "Jsr" [shownTarget target]
  | .ret slot => shownCall "Ret" [toString slot]

def Operation.shown : Operation → String
  | .instruction i => shownCall "Instruction" [i.shown]
  | .branch b => shownCall "Branch" [b.shown Label.shown]

def Node.shown : Node → String
  | .label placed => shownCall "Label" [placed.shown]
  | .line number => shownCall "LineNumber" [toString number]
  | .operation op => op.shown

end MethodFlow
