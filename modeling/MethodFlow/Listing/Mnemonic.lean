import MethodFlow.Code.Node

namespace MethodFlow.Listing

/-- What follows a mnemonic, and the instruction or branch that it makes. -/
inductive Form where
  | plain (i : Instruction)
  | plainBranch (b : Branch Label)
  | byteValue
  | shortValue
  | constant
  | wideConstant
  | slot (make : Nat → Instruction)
  | increment
  | field (make : FieldRef → Instruction)
  | invoke (kind : InvokeKind)
  | invokeDynamic
  | newObject
  | newPrimitiveArray
  | classOperand (make : RefType → Instruction)
  | newMultiArray
  | jump (make : Label → Branch Label)
  | ret
  | tableSwitch
  | lookupSwitch

private def kinds : List (String × Kind) :=
  [("i", .int), ("l", .long), ("f", .float), ("d", .double), ("a", .reference)]

private def numberKinds : List (String × NumberKind) :=
  [("i", .int), ("l", .long), ("f", .float), ("d", .double)]

private def integerKinds : List (String × IntegerKind) := [("i", .int), ("l", .long)]

private def arrayKinds : List (String × ArrayKind) :=
  [("i", .int), ("l", .long), ("f", .float), ("d", .double), ("a", .reference), ("b", .byte),
    ("c", .char), ("s", .short)]

/-- Loads and stores, also with one of the first four locals in the mnemonic. -/
def localForms : List (String × Form) :=
  kinds.flatMap fun (letter, kind) =>
    [(letter ++ "load", Form.slot (.load kind)), (letter ++ "store", Form.slot (.store kind))] ++
      (List.range 4).flatMap fun slot =>
        [(letter ++ "load_" ++ toString slot, Form.plain (.load kind slot)),
          (letter ++ "store_" ++ toString slot, Form.plain (.store kind slot))]

def arrayForms : List (String × Form) :=
  arrayKinds.flatMap fun (letter, kind) =>
    [(letter ++ "aload", .plain (.arrayLoad kind)), (letter ++ "astore", .plain (.arrayStore kind))]

def constantForms : List (String × Form) :=
  [("aconst_null", .plain .pushNull),
    ("iconst_m1", .plain (.shortConstant .intMinus1)),
    ("iconst_0", .plain (.shortConstant .int0)),
    ("iconst_1", .plain (.shortConstant .int1)),
    ("iconst_2", .plain (.shortConstant .int2)),
    ("iconst_3", .plain (.shortConstant .int3)),
    ("iconst_4", .plain (.shortConstant .int4)),
    ("iconst_5", .plain (.shortConstant .int5)),
    ("lconst_0", .plain (.shortConstant .long0)),
    ("lconst_1", .plain (.shortConstant .long1)),
    ("fconst_0", .plain (.shortConstant .float0)),
    ("fconst_1", .plain (.shortConstant .float1)),
    ("fconst_2", .plain (.shortConstant .float2)),
    ("dconst_0", .plain (.shortConstant .double0)),
    ("dconst_1", .plain (.shortConstant .double1)),
    ("bipush", .byteValue), ("sipush", .shortValue),
    ("ldc", .constant), ("ldc_w", .constant), ("ldc2_w", .wideConstant)]

def shuffleForms : List (String × Form) :=
  [("pop", .plain (.shuffle .pop)), ("pop2", .plain (.shuffle .pop2)),
    ("dup", .plain (.shuffle .dup)), ("dup_x1", .plain (.shuffle .dupX1)),
    ("dup_x2", .plain (.shuffle .dupX2)), ("dup2", .plain (.shuffle .dup2)),
    ("dup2_x1", .plain (.shuffle .dup2X1)), ("dup2_x2", .plain (.shuffle .dup2X2)),
    ("swap", .plain (.shuffle .swap))]

def arithmeticForms : List (String × Form) :=
  (numberKinds.flatMap fun (letter, kind) =>
    [(letter ++ "add", .plain (.arithmetic .add kind)),
      (letter ++ "sub", .plain (.arithmetic .sub kind)),
      (letter ++ "mul", .plain (.arithmetic .mul kind)),
      (letter ++ "div", .plain (.arithmetic .div kind)),
      (letter ++ "rem", .plain (.arithmetic .rem kind)),
      (letter ++ "neg", .plain (.negate kind))]) ++
  integerKinds.flatMap fun (letter, kind) =>
    [(letter ++ "shl", .plain (.shift .left kind)),
      (letter ++ "shr", .plain (.shift .arithmeticRight kind)),
      (letter ++ "ushr", .plain (.shift .logicalRight kind)),
      (letter ++ "and", .plain (.bitwise .and kind)),
      (letter ++ "or", .plain (.bitwise .or kind)),
      (letter ++ "xor", .plain (.bitwise .xor kind))]

def conversionForms : List (String × Form) :=
  [("i2l", .plain (.convert .intToLong)), ("i2f", .plain (.convert .intToFloat)),
    ("i2d", .plain (.convert .intToDouble)), ("l2i", .plain (.convert .longToInt)),
    ("l2f", .plain (.convert .longToFloat)), ("l2d", .plain (.convert .longToDouble)),
    ("f2i", .plain (.convert .floatToInt)), ("f2l", .plain (.convert .floatToLong)),
    ("f2d", .plain (.convert .floatToDouble)), ("d2i", .plain (.convert .doubleToInt)),
    ("d2l", .plain (.convert .doubleToLong)), ("d2f", .plain (.convert .doubleToFloat)),
    ("i2b", .plain (.convert .intToByte)), ("i2c", .plain (.convert .intToChar)),
    ("i2s", .plain (.convert .intToShort)),
    ("lcmp", .plain (.compare .long)),
    ("fcmpl", .plain (.compare (.float .less))), ("fcmpg", .plain (.compare (.float .greater))),
    ("dcmpl", .plain (.compare (.double .less))), ("dcmpg", .plain (.compare (.double .greater)))]

def objectForms : List (String × Form) :=
  [("getstatic", .field .getStatic), ("putstatic", .field .putStatic),
    ("getfield", .field .getField), ("putfield", .field .putField),
    ("invokevirtual", .invoke .virtual), ("invokespecial", .invoke .special),
    ("invokestatic", .invoke .static), ("invokeinterface", .invoke .interface),
    ("invokedynamic", .invokeDynamic),
    ("new", .newObject), ("newarray", .newPrimitiveArray),
    ("anewarray", .classOperand .newArray), ("arraylength", .plain .arrayLength),
    ("checkcast", .classOperand .checkCast), ("instanceof", .classOperand .instanceOf),
    ("monitorenter", .plain .monitorEnter), ("monitorexit", .plain .monitorExit),
    ("multianewarray", .newMultiArray)]

def branchForms : List (String × Form) :=
  [("ifeq", .jump (.ifZero .eq)), ("ifne", .jump (.ifZero .ne)), ("iflt", .jump (.ifZero .lt)),
    ("ifge", .jump (.ifZero .ge)), ("ifgt", .jump (.ifZero .gt)), ("ifle", .jump (.ifZero .le)),
    ("if_icmpeq", .jump (.ifInts .eq)), ("if_icmpne", .jump (.ifInts .ne)),
    ("if_icmplt", .jump (.ifInts .lt)), ("if_icmpge", .jump (.ifInts .ge)),
    ("if_icmpgt", .jump (.ifInts .gt)), ("if_icmple", .jump (.ifInts .le)),
    ("if_acmpeq", .jump (.ifReferences .eq)), ("if_acmpne", .jump (.ifReferences .ne)),
    ("ifnull", .jump (.ifNull .eq)), ("ifnonnull", .jump (.ifNull .ne)),
    ("goto", .jump .goto), ("goto_w", .jump .goto), ("jsr", .jump .jsr), ("jsr_w", .jump .jsr),
    ("ret", .ret), ("tableswitch", .tableSwitch), ("lookupswitch", .lookupSwitch),
    ("ireturn", .plainBranch (.valueReturn .int)), ("lreturn", .plainBranch (.valueReturn .long)),
    ("freturn", .plainBranch (.valueReturn .float)),
    ("dreturn", .plainBranch (.valueReturn .double)),
    ("areturn", .plainBranch (.valueReturn .reference)),
    ("return", .plainBranch .voidReturn), ("athrow", .plainBranch .throw)]

/-- Every mnemonic with its form. -/
def forms : List (String × Form) :=
  [("nop", .plain .nop), ("iinc", .increment)] ++ localForms ++ arrayForms ++ constantForms ++
    shuffleForms ++ arithmeticForms ++ conversionForms ++ objectForms ++ branchForms

/-- The form of a mnemonic. -/
def form? (mnemonic : List Char) : Option Form := forms.lookup (String.ofList mnemonic)

end MethodFlow.Listing
