import MethodFlow.Descriptor.Basic
import MethodFlow.Proofs.Text.Solidity

namespace MethodFlow

open MethodFlow.Text

/-- The name of the class that a type is, or is an array of. -/
def RefType.names : RefType → List (List Char)
  | .object name | .objectArray _ name => [name.chars]
  | .primitiveArray .. => []

def FieldType.names : FieldType → List (List Char)
  | .base _ => []
  | .ref type => type.names

/-- The names of the classes of parameters and result. -/
def MethodDescriptor.names (descriptor : MethodDescriptor) : List (List Char) :=
  descriptor.parameters.flatMap FieldType.names ++
    descriptor.returnType.toList.flatMap FieldType.names

theorem BaseType.letter_solid (type : BaseType) : isBlank type.letter = false := by
  cases type <;> decide

theorem BinaryName.solid_render (name : BinaryName) : Solid name.render ↔ Solid name.chars := by
  have around : isBlank 'L' = false ∧ isBlank ';' = false := by decide
  simp [render, around]

theorem RefType.solid_render (type : RefType) :
    Solid type.render ↔ ∀ name ∈ type.names, Solid name := by
  have bracket : isBlank '[' = false := by decide
  cases type with
  | object name => simp [render, names, name.solid_render]
  | objectArray additional element => simp [render, names, bracket, element.solid_render]
  | primitiveArray additional element => simp [render, names, bracket, element.letter_solid]

theorem FieldType.solid_render (type : FieldType) :
    Solid type.render ↔ ∀ name ∈ type.names, Solid name := by
  cases type with
  | base type => simp [render, names, type.letter_solid]
  | ref type => exact type.solid_render

theorem FieldType.solid_flatMap_render (types : List FieldType) :
    Solid (types.flatMap render) ↔ ∀ name ∈ types.flatMap names, Solid name := by
  induction types with
  | nil => simp
  | cons type types ih => simp only [List.flatMap_cons, solid_append, type.solid_render, ih,
      List.forall_mem_append]

theorem MethodDescriptor.solid_render (descriptor : MethodDescriptor) :
    Solid descriptor.render ↔ ∀ name ∈ descriptor.names, Solid name := by
  have around : isBlank '(' = false ∧ isBlank ')' = false ∧ isBlank 'V' = false := by decide
  obtain ⟨parameters, returnType⟩ := descriptor
  rw [names, List.forall_mem_append, ← FieldType.solid_flatMap_render]
  cases returnType with
  | none => simp [render, around]
  | some type => simp [render, around, type.solid_render]

end MethodFlow
