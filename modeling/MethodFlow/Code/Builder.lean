import MethodFlow.Code.Method

/-! Building the code of a method from front to back. Labels may be used before they are placed;
whether the code makes sense is left to the analysis. -/

namespace MethodFlow

/-- A method under construction, and the next label to hand out. -/
structure MethodBuilder where
  method : Method
  nextLabel : Label
deriving DecidableEq

namespace MethodBuilder

def empty (flags : AccessFlags) (name : UnqualifiedName) (descriptor : MethodDescriptor) :
    MethodBuilder :=
  ⟨.empty flags name descriptor, .first⟩

/-- Hands out a label that was not handed out before. -/
def freshLabel (builder : MethodBuilder) : Label × MethodBuilder :=
  (builder.nextLabel, { builder with nextLabel := builder.nextLabel.next })

/-- Index of the next node. -/
def nextIndex (builder : MethodBuilder) : Nat := builder.method.nodes.length

/-- Appends a node. -/
def push (builder : MethodBuilder) (node : Node) : MethodBuilder :=
  { builder with method.nodes := builder.method.nodes ++ [node] }

/-- Appends a handler, which the earlier ones take precedence over. -/
def addHandler (builder : MethodBuilder) (handler : ExceptionHandler) : MethodBuilder :=
  { builder with method.handlers := builder.method.handlers ++ [handler] }

/-- Declares the limits. -/
def limits (builder : MethodBuilder) (maxStack maxLocals : Nat) : MethodBuilder :=
  { builder with method.maxStack := maxStack, method.maxLocals := maxLocals }

end MethodBuilder

end MethodFlow
