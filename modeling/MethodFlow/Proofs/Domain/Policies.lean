import MethodFlow.Proofs.Domain.Joining
import MethodFlow.Proofs.Domain.ReferenceMerging
import MethodFlow.Settings

namespace MethodFlow

/-- How often a slot can change under a policy in code of so many nodes, where no hierarchy has a say. -/
def Policy.heights? : Policy → Option (Nat → Nat)
  | .basic | .verify => some fun _ => 1
  | .source => some fun nodes => nodes + 2
  | .simple => none

/-- The domain that a policy stands for, given a hierarchy of classes. -/
inductive Domain.Of (hierarchy : TypeHierarchy) :
    Policy → {V : Type} → [AbstractValue V] → Domain V → Prop where
  | basic : Of hierarchy .basic ValueKind.domain
  | verify : Of hierarchy .verify ValueKind.verifier
  | simple : Of hierarchy .simple (VerificationType.verifier hierarchy)
  | source : Of hierarchy .source Provenance.domain

namespace Domain

variable {V : Type} [AbstractValue V]

/-- The domains of the four policies, over any hierarchy of classes. -/
def Policy (domain : Domain V) : Prop := ∃ hierarchy policy, Of hierarchy policy domain

/-- The domains of the four policies; verification types need a well-formed graph. -/
def Provided (domain : Domain V) : Prop :=
  ∃ graph : ClassGraph, graph.WellFormed ∧ ∃ policy, Of graph.hierarchy policy domain

/-- The domains that check operands, over any hierarchy of classes. -/
def Checked (domain : Domain V) : Prop :=
  ∃ hierarchy, Of hierarchy .verify domain ∨ Of hierarchy .simple domain

/-- The domains that check operands, with the address that calls push. -/
structure Addressed (domain : Domain V) (address : V) : Prop where
  checked : domain.Checked
  pushed : ∀ site label, site.operation = .branch (.jsr label) → domain.produce site = .ok address

/-- The domain of kinds, without checks or with them. -/
def OfKinds (domain : Domain ValueKind) : Prop :=
  ∃ hierarchy, Of hierarchy .basic domain ∨ Of hierarchy .verify domain

/-- The domains in which a slot can change only so often in code of so many nodes. -/
def Bounded (domain : Domain V) (heights : Nat → Nat) : Prop :=
  ∃ hierarchy policy, Of hierarchy policy domain ∧ policy.heights? = some heights

variable {domain : Domain V}

theorem Provided.policy (provided : domain.Provided) : domain.Policy := by
  obtain ⟨graph, -, policy, chosen⟩ := provided
  exact ⟨graph.hierarchy, policy, chosen⟩

theorem Checked.policy (checked : domain.Checked) : domain.Policy := by
  obtain ⟨hierarchy, chosen | chosen⟩ := checked
  · exact ⟨hierarchy, _, chosen⟩
  · exact ⟨hierarchy, _, chosen⟩

theorem Bounded.policy {heights : Nat → Nat} (bounded : domain.Bounded heights) : domain.Policy := by
  obtain ⟨hierarchy, policy, chosen, -⟩ := bounded
  exact ⟨hierarchy, policy, chosen⟩

theorem OfKinds.eq_or_eq {domain : Domain ValueKind} (kinds : domain.OfKinds) :
    domain = ValueKind.domain ∨ domain = ValueKind.verifier := by
  obtain ⟨hierarchy, chosen | chosen⟩ := kinds
  · cases chosen
    exact .inl rfl
  · cases chosen
    exact .inr rfl

theorem OfKinds.bounded {domain : Domain ValueKind} (kinds : domain.OfKinds) :
    domain.Bounded fun _ => 1 := by
  obtain ⟨hierarchy, chosen | chosen⟩ := kinds
  · exact ⟨hierarchy, _, chosen, rfl⟩
  · exact ⟨hierarchy, _, chosen, rfl⟩

theorem Policy.shrinks (policy : domain.Policy) : domain.Shrinks := by
  obtain ⟨hierarchy, _, chosen⟩ := policy
  cases chosen with
  | basic => exact ValueKind.domain_shrinks
  | verify => exact ValueKind.verifier_shrinks
  | simple => exact VerificationType.verifier_shrinks hierarchy
  | source => exact Provenance.domain_shrinks

theorem Policy.narrows (policy : domain.Policy) : domain.Narrows :=
  Shrinks.narrows policy.shrinks

theorem Provided.joins (provided : domain.Provided) : domain.Joins := by
  obtain ⟨graph, wellFormed, _, chosen⟩ := provided
  cases chosen with
  | basic => exact ValueKind.domain_joins
  | verify => exact ValueKind.verifier_joins
  | simple => exact VerificationType.verifier_joins wellFormed
  | source => exact Provenance.domain_joins

theorem Provided.replaces (provided : domain.Provided) : domain.Replaces := by
  obtain ⟨graph, wellFormed, _, chosen⟩ := provided
  cases chosen with
  | basic => exact ValueKind.domain_replaces
  | verify => exact ValueKind.verifier_replaces
  | simple => exact VerificationType.verifier_replaces wellFormed
  | source => exact Provenance.domain_replaces

end Domain

theorem ValueKind.verifier_policy : verifier.Policy := ⟨ClassGraph.empty.hierarchy, _, .verify⟩

theorem ValueKind.verifier_checked : verifier.Checked := ⟨ClassGraph.empty.hierarchy, .inl .verify⟩

theorem ValueKind.verifier_ofKinds : Domain.OfKinds verifier :=
  ⟨ClassGraph.empty.hierarchy, .inr .verify⟩

theorem ValueKind.verifier_addressed : verifier.Addressed .returnAddress where
  checked := verifier_checked
  pushed := by
    rintro ⟨index, _⟩ label ⟨⟩
    rfl

end MethodFlow
