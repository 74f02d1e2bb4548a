import MethodFlow.Code.Method
import MethodFlow.Hierarchy.ClassGraph
import MethodFlow.Proofs.Descriptor.Names

namespace MethodFlow

def FieldRef.names (field : FieldRef) : List (List Char) :=
  field.owner.chars :: field.name.chars :: field.descriptor.names

def MethodRef.names (method : MethodRef) : List (List Char) :=
  method.owner.chars :: method.name.chars :: method.descriptor.names

def DynamicRef.names (site : DynamicRef) : List (List Char) :=
  site.name.chars :: site.descriptor.names

/-- The names in a constant. Strings are no names. -/
def Constant.names : Constant → List (List Char)
  | .classRef type => type.names
  | .methodType descriptor => descriptor.names
  | .methodHandle method => method.names
  | _ => []

/-- The names among the operands of an instruction. -/
def Instruction.names : Instruction → List (List Char)
  | .loadConstant constant | .loadWideConstant constant => constant.names
  | .getStatic field | .putStatic field | .getField field | .putField field => field.names
  | .invoke _ method => method.names
  | .invokeDynamic site => site.names
  | .newObject name => [name.chars]
  | .newArray type | .checkCast type | .instanceOf type | .newMultiArray type _ => type.names
  | _ => []

/-- Branches mention no names. -/
def Operation.names : Operation → List (List Char)
  | .instruction i => i.names
  | .branch _ => []

def Node.names : Node → List (List Char)
  | .operation op => op.names
  | _ => []

def ExceptionHandler.names (handler : ExceptionHandler) : List (List Char) :=
  handler.catchType.toList.map BinaryName.chars

/-- The names that a method mentions outside of its nodes. -/
def Method.declaredNames (method : Method) : List (List Char) :=
  method.name.chars :: method.descriptor.names ++ method.handlers.flatMap ExceptionHandler.names

def ClassInfo.names (info : ClassInfo) : List (List Char) :=
  (info.name :: info.superclass.toList ++ info.interfaces).map BinaryName.chars

end MethodFlow
