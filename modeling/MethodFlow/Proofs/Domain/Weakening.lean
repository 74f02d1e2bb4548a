import MethodFlow.Domain.ValueKind
import MethodFlow.Proofs.Domain.Lowering
import MethodFlow.Proofs.Frame.Simulation

namespace MethodFlow.ValueKind

/-- A value is another one, or that one is not usable. -/
def Refines (value upper : ValueKind) : Prop := upper = value ∨ upper = .unusable

theorem Refines.refl (value : ValueKind) : value.Refines value := .inl rfl

theorem Refines.trans {value middle upper : ValueKind} (below : value.Refines middle)
    (above : middle.Refines upper) : value.Refines upper := by
  rcases above with rfl | rfl
  · exact below
  · exact .inr rfl

theorem Refines.eq {value upper : ValueKind} (refines : value.Refines upper)
    (usable : upper ≠ .unusable) : value = upper := by
  rcases refines with rfl | lost
  · rfl
  · exact absurd lost usable

theorem Refines.merge {old new upper : ValueKind} (refines : old.Refines upper)
    (refines' : new.Refines upper) : (merge old new).Refines upper := by
  rcases refines with rfl | rfl
  · rcases refines' with rfl | rfl
    · exact .inl (merge_self _).symm
    · exact .inr rfl
  · exact .inr rfl

theorem matches_merge {old new value upper : ValueKind} (matched : Matches Refines old upper)
    (matched' : Matches Refines new upper) (merged : verifier.merge old new = .ok value) :
    Matches Refines value upper := by
  cases merged
  refine ⟨matched.related.merge matched'.related, ?_⟩
  by_cases same : old = new
  · rw [same, merge_self]
    exact matched'.width
  · have lost : upper = .unusable := by
      by_contra usable
      exact same ((matched.related.eq usable).trans (matched'.related.eq usable).symm)
    rw [merge, if_neg same, lost]

theorem matches_trans {value middle upper : ValueKind} (below : Matches Refines value middle)
    (above : Matches Refines middle upper) : Matches Refines value upper :=
  ⟨below.related.trans above.related, below.width.trans above.width⟩

variable {context : Option String} {value expected : ValueKind}

theorem eq_of_isSubtype (fits : checkedTypes.isSubtype value expected = .ok true) :
    value = expected := by
  simpa [checkedTypes] using fits

theorem eq_of_expect (passed : checkedTypes.expect context value expected = .ok ()) :
    value = expected :=
  eq_of_isSubtype (CheckedValues.expect_eq_ok.mp passed)

theorem typed_usable (type : FieldType) : checkedTypes.typed type ≠ .unusable := by
  rcases type with base | ref
  · cases base <;> decide
  · exact fun same => nomatch same

/-- What a value that is less usable passes for, the value itself passes for. -/
theorem checkedTypes_lowers : checkedTypes.Lowers unusable Refines where
  isReference := rfl
  isArray := rfl
  isReferenceArray := rfl
  isSubtype type fits := typed_usable type (eq_of_isSubtype fits).symm
  unset := rfl
  narrow := by decide
  refl := .refl
  width_eq refines usable := by rw [refines.eq usable]
  reference := by
    rintro value upper (rfl | rfl) reference
    · exact reference
    · cases reference
  returnAddress := by
    rintro value upper (rfl | rfl) returnAddress
    · exact returnAddress
    · cases returnAddress
  array := by
    rintro value upper (rfl | rfl) array
    · exact array
    · cases array
  subtype refines usable fits := by rwa [refines.eq usable]
  answers _ _ := ⟨_, rfl⟩
  element := by
    rintro value upper element - - ⟨⟩
    exact ⟨.reference, rfl, .refl _, rfl⟩

theorem matches_refl (value : ValueKind) : Matches Refines value value := ⟨.refl value, rfl⟩

theorem yields_refl (result : Option ValueKind) : Yields Refines result result :=
  .refl .refl result

/-- The same usable value is expected of a result. -/
def Expects (expected upper : ValueKind) : Prop := expected = upper ∧ upper ≠ .unusable

/-- The verifier does with values what it does with less usable ones. -/
theorem verifier_follows (site : Site) : verifier.Follows verifier site Refines Expects := by
  refine checkedTypes_lowers.follows And.left ?_
  intro first second third first' second' third' operated refines₁ refines₂ refines₃ passed
  have checked : checkedTypes.checkTernary site first' second' third' = .ok () := by
    unfold CheckedValues.checkTernary
    rw [operated]
    exact passed
  obtain ⟨usable₁, usable₂, usable₃⟩ := checkedTypes_lowers.ternary checked
  rwa [refines₁.eq usable₁, refines₂.eq usable₂, refines₃.eq usable₃]

end MethodFlow.ValueKind
