import MethodFlow.Proofs.Domain.Kinds
import MethodFlow.Proofs.Domain.Policies
import MethodFlow.Proofs.Domain.Weakening
import MethodFlow.Proofs.Frame.Wholeness

namespace MethodFlow

variable {V : Type} [AbstractValue V]

namespace ValueKind

theorem width_ofType {type : FieldType} (wide : (ofType type).width = 2) : type.width = 2 := by
  rcases type with base | ref
  · cases base <;> first | rfl | cases wide
  · cases wide

theorem merge_wide {first second : ValueKind} (wide : (merge first second).width = 2) :
    first = merge first second ∧ second = merge first second := by
  by_cases same : first = second
  · subst same
    simp [merge]
  · rw [merge, if_neg same] at wide
    cases wide

theorem merge_unusable {first second : ValueKind} (lost : first = unusable ∨ second = unusable) :
    merge first second = unusable := by
  rcases lost with rfl | rfl
  · cases second <;> rfl
  · cases first <;> rfl

theorem verifier_pairs : verifier.Pairs where
  narrow := by decide
  parameter _ wide := width_ofType wide
  merged := by
    intro old new value merged wide
    cases merged
    exact merge_wide wide
  unusable := by
    intro old new value merged lost
    cases merged
    exact merge_unusable lost
  increment := by
    rintro ⟨index, _⟩ slot amount value result ⟨⟩ computed
    obtain ⟨_, passed, ended⟩ := bind_eq_ok.mp computed
    cases ended
    exact ⟨checkedTypes_lowers.unary passed, by decide⟩

end ValueKind

namespace VerificationType

variable {hierarchy : TypeHierarchy} {context : Option String} {value : VerificationType}

theorem eq_of_kind {type other : VerificationType} (same : type.kind = other.kind)
    (known : type.kind ≠ .reference) : type = other := by
  cases type <;> cases other <;> first | rfl | exact absurd rfl known | cases same

theorem number_of_expect {number : NumberKind}
    (passed : (checkedTypes hierarchy).expect context value (types.typed number.type) = .ok ()) :
    value = types.typed number.type := by
  have fits := CheckedValues.expect_eq_ok.mp passed
  by_contra different
  cases number <;> cases value <;> first | exact different rfl | cases fits

theorem verifier_pairs (hierarchy : TypeHierarchy) : (verifier hierarchy).Pairs where
  narrow := nofun
  parameter type wide := by
    have same : (ValueKind.ofType type).width = (ofType type).width := by
      rw [← kind_ofType, width_kind]
    exact ValueKind.width_ofType (same.trans wide)
  merged := by
    intro old new value merged wide
    have kinds := kind_merge merged
    replace wide : value.width = 2 := wide
    rw [← width_kind] at wide
    have known : value.kind ≠ .reference := by
      intro reference
      rw [reference] at wide
      cases wide
    obtain ⟨first, second⟩ := ValueKind.merge_wide (kinds ▸ wide)
    rw [← kinds] at first second
    exact ⟨(eq_of_kind first.symm known).symm, (eq_of_kind second.symm known).symm⟩
  unusable := by
    intro old new value merged lost
    have kinds := kind_merge merged
    have unusable : ValueKind.merge old.kind new.kind = .unusable :=
      ValueKind.merge_unusable (lost.imp (congrArg kind) (congrArg kind))
    rw [unusable] at kinds
    exact eq_of_kind (kinds.trans rfl) (by simp [kinds])
  increment := by
    rintro ⟨index, _⟩ slot amount value result ⟨⟩ computed
    obtain ⟨_, passed, ended⟩ := bind_eq_ok.mp computed
    cases ended
    obtain rfl : value = types.typed NumberKind.int.type := number_of_expect passed
    exact ⟨nofun, nofun⟩

end VerificationType

theorem Domain.Checked.pairs {domain : Domain V} (checked : domain.Checked) : domain.Pairs := by
  obtain ⟨hierarchy, chosen | chosen⟩ := checked
  · cases chosen
    exact ValueKind.verifier_pairs
  · cases chosen
    exact VerificationType.verifier_pairs hierarchy

end MethodFlow
