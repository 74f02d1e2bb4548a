import MethodFlow.Hierarchy.ClassGraph

namespace MethodFlow

private def interface (name : BinaryName) : ClassInfo := ⟨name, some .object, [], true⟩

private def classBelow (superclass name : BinaryName) (interfaces : List BinaryName) : ClassInfo :=
  ⟨name, some superclass, interfaces, false⟩

/-- Library types, in order of insertion. -/
def libraryTypes : List ClassInfo :=
  [interface .charSequence, interface .cloneable, interface .comparable, interface .serializable,
    ⟨.object, none, [], false⟩,
    classBelow .object .string [.charSequence, .comparable, .serializable],
    classBelow .object .classObject [.serializable],
    classBelow .object .number [.serializable],
    classBelow .number .boxedInteger [.comparable],
    classBelow .number .boxedLong [.comparable],
    classBelow .number .boxedFloat [.comparable],
    classBelow .number .boxedDouble [.comparable],
    classBelow .object .throwable [.serializable],
    classBelow .throwable .error [],
    classBelow .throwable .exception [],
    classBelow .exception .runtimeException [],
    classBelow .runtimeException .arithmeticException [],
    classBelow .object .methodHandle [],
    classBelow .object .methodType [.serializable]]

/-- A graph of the library types alone. -/
def ClassGraph.library : ClassGraph := ClassGraph.empty.addAll libraryTypes

end MethodFlow
