import MethodFlow.Listing.Operand
import MethodFlow.Proofs.Descriptor.RoundTrip

namespace MethodFlow

theorem UnqualifiedName.ofChars_eq_ok {text : List Char} {name : UnqualifiedName} :
    ofChars text = .ok name ↔ text = name.chars := by
  constructor
  · intro found
    unfold ofChars at found
    split at found
    · cases found
      rfl
    · cases found
  · rintro rfl
    exact ofChars_chars name

namespace Listing

open MethodFlow.Text

theorem orFault_eq_ok {α : Type} {fault : ListingFault} {found : Option α} {value : α} :
    orFault fault found = .ok value ↔ found = some value := by
  cases found <;> simp [orFault]

variable {token : List Char}

theorem readBinaryName_eq_ok {name : BinaryName} :
    readBinaryName token = .ok name ↔ token = name.chars := by
  rw [readBinaryName, mapError_eq_ok, BinaryName.ofChars_eq_ok]

theorem readUnqualifiedName_eq_ok {name : UnqualifiedName} :
    readUnqualifiedName token = .ok name ↔ token = name.chars := by
  rw [readUnqualifiedName, mapError_eq_ok, UnqualifiedName.ofChars_eq_ok]

theorem readMethodDescriptor_eq_ok {descriptor : MethodDescriptor} :
    readMethodDescriptor token = .ok descriptor ↔ descriptor.render = token := by
  rw [readMethodDescriptor, mapError_eq_ok]
  exact readWhole_eq_ok MethodDescriptor.read_eq_ok

theorem readFieldType_eq_ok {type : FieldType} :
    readFieldType token = .ok type ↔ type.render = token := by
  rw [readFieldType, mapError_eq_ok]
  exact readWhole_eq_ok FieldType.read_eq_ok

/-- A class is written as its name, an array as in a descriptor. -/
theorem eq_of_readClass {type : RefType} (read : readClass token = .ok type) :
    type.render = token ∨ ∃ name, type = .object name ∧ token = name.chars := by
  unfold readClass at read
  split at read
  · rw [mapError_eq_ok] at read
    exact .inl ((readWhole_eq_ok RefType.read_eq_ok).mp read)
  · obtain ⟨name, named, rfl⟩ := map_eq_ok.mp read
    exact .inr ⟨name, rfl, readBinaryName_eq_ok.mp named⟩

theorem eq_of_splitMember {name rest : List Char} (split : splitMember token = .ok (name, rest)) :
    token = name ++ rest := by
  unfold splitMember at split
  split at split
  · rename_i cut
    cases split
    obtain ⟨-, c, stops, rfl⟩ := eq_append_of_cutAt cut
    obtain rfl : c = '(' := of_decide_eq_true stops
    rfl
  · cases split

theorem eq_of_readMember {owner : BinaryName} {name : UnqualifiedName}
    (read : readMember token = .ok (owner, name)) : token = owner.chars ++ '/' :: name.chars := by
  unfold readMember at read
  split at read
  · cases read
  · rename_i before after cut
    obtain ⟨c, stops, rfl⟩ := eq_append_of_cutAtLast cut
    obtain rfl : c = '/' := of_decide_eq_true stops
    simp only [bind_eq_ok, readBinaryName_eq_ok, readUnqualifiedName_eq_ok] at read
    obtain ⟨_, rfl, _, rfl, same⟩ := read
    cases same
    rfl

theorem eq_of_readMethodRef {inInterface : Bool} {method : MethodRef}
    (read : readMethodRef token inInterface = .ok method) :
    token = method.owner.chars ++ '/' :: method.name.chars ++ method.descriptor.render := by
  simp only [readMethodRef, bind_eq_ok, Prod.exists, readMethodDescriptor_eq_ok] at read
  obtain ⟨member, _, split, owner, name, read, descriptor, rfl, same⟩ := read
  cases same
  rw [eq_of_splitMember split, eq_of_readMember read]

theorem eq_of_readFieldRef {operands : List (List Char)} {field : FieldRef}
    (read : readFieldRef operands = .ok field) :
    operands = [field.owner.chars ++ '/' :: field.name.chars, field.descriptor.render] := by
  unfold readFieldRef at read
  split at read
  · simp only [bind_eq_ok, Prod.exists, readFieldType_eq_ok] at read
    obtain ⟨owner, name, read, descriptor, rfl, same⟩ := read
    cases same
    rw [eq_of_readMember read]
  · cases read

end Listing

end MethodFlow
