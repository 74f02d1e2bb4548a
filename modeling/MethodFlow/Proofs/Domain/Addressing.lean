import MethodFlow.Proofs.Domain.Pairing

namespace MethodFlow

variable {V : Type} [AbstractValue V]

/-- What a domain does to addresses that are stored, and how wide stored values are. -/
structure Domain.Conveys (domain : Domain V) (address : V) : Prop where
  narrow : width address ≠ 2
  merged : ∀ {old new value}, domain.merge old new = .ok value →
    (value = address ↔ old = address ∧ new = address)
  copied : ∀ {site value}, domain.copy site address = .ok value → value = address
  stored : ∀ {site kind slot value copied}, site.operation = .instruction (.store kind slot) →
    domain.copy site value = .ok copied → width copied = kind.width

namespace CheckedValues

variable {types : CheckedValues V}

theorem width_of_store
    (numbers : ∀ (number : NumberKind) (value : V),
      types.expect none value (types.typed number.type) = .ok () → width value = number.type.width)
    (references : ∀ value : V, (types.isReference value || types.isReturnAddress value) = true →
      width value = 1)
    {site : Site} {kind : Kind} {slot : Nat} {value : V}
    (operated : site.operation = .instruction (.store kind slot))
    (passed : types.checkCopy site value = .ok ()) : width value = kind.width := by
  unfold checkCopy at passed
  rw [operated] at passed
  cases kind with
  | int => exact numbers .int value passed
  | long => exact numbers .long value passed
  | float => exact numbers .float value passed
  | double => exact numbers .double value passed
  | reference =>
    dsimp only at passed
    split at passed
    · rename_i known
      exact references value known
    · cases passed

/-- A copy that is checked first is the value itself. -/
theorem conveys {merge : V → V → Except Fault V} {height : Nat → Nat} {address : V}
    (narrow : width address ≠ 2)
    (merged : ∀ {old new value}, merge old new = .ok value →
      (value = address ↔ old = address ∧ new = address))
    (numbers : ∀ (number : NumberKind) (value : V),
      types.expect none value (types.typed number.type) = .ok () → width value = number.type.width)
    (references : ∀ value : V, (types.isReference value || types.isReturnAddress value) = true →
      width value = 1) : (types.domain merge height).Conveys address where
  narrow := narrow
  merged := merged
  copied := by
    intro site value copied
    obtain ⟨_, -, ended⟩ := bind_eq_ok.mp copied
    cases ended
    rfl
  stored := by
    intro site kind slot value copied operated copies
    obtain ⟨_, passed, ended⟩ := bind_eq_ok.mp copies
    cases ended
    exact width_of_store numbers references operated passed

end CheckedValues

namespace ValueKind

theorem merge_eq_returnAddress {first second : ValueKind} :
    merge first second = returnAddress ↔ first = returnAddress ∧ second = returnAddress := by
  cases first <;> cases second <;> decide

theorem verifier_conveys : verifier.Conveys .returnAddress := by
  refine CheckedValues.conveys (by decide) ?_ ?_ ?_
  · intro old new value merged
    cases merged
    exact merge_eq_returnAddress
  · intro number value passed
    obtain rfl := eq_of_expect passed
    cases number <;> rfl
  · intro value known
    cases value <;> first | rfl | exact absurd known (by decide)

end ValueKind

theorem VerificationType.verifier_conveys (hierarchy : TypeHierarchy) :
    (verifier hierarchy).Conveys .returnAddress := by
  refine CheckedValues.conveys nofun ?_ ?_ ?_
  · intro old new value merged
    have kinds := kind_merge merged
    have known (type : VerificationType) : type = returnAddress ↔ type.kind = .returnAddress := by
      cases type <;> simp [kind]
    rw [known, known old, known new, kinds, ValueKind.merge_eq_returnAddress]
  · intro number value passed
    obtain rfl := number_of_expect passed
    cases number <;> rfl
  · intro value known
    cases value <;> first | rfl | cases known

theorem Domain.Addressed.conveys {domain : Domain V} {address : V}
    (addressed : domain.Addressed address) : domain.Conveys address := by
  obtain ⟨⟨hierarchy, chosen⟩, pushed⟩ := addressed
  have pushed := pushed ⟨0, .branch (.jsr ⟨0⟩)⟩ ⟨0⟩ rfl
  rcases chosen with chosen | chosen
  · cases chosen
    cases pushed
    exact ValueKind.verifier_conveys
  · cases chosen
    cases pushed
    exact VerificationType.verifier_conveys hierarchy

end MethodFlow
