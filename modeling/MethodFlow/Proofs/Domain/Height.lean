import Mathlib.Data.List.Perm.Subperm
import MethodFlow.Proofs.Analysis.Values
import MethodFlow.Proofs.Domain.Joining

namespace MethodFlow

variable {V : Type} [AbstractValue V]

/-- Values have room for no more changes than the height, and a merge that changes one leaves it
less. -/
structure Domain.Measured (domain : Domain V) (nodes height : Nat) (allowed : V → Prop)
    (room : V → Nat) : Prop extends domain.Keeps nodes allowed where
  wide : ∀ value, allowed value → 1 ≤ width value
  bounded : ∀ value, allowed value → room value ≤ height
  lowers : ∀ {old new value}, allowed old → allowed new → domain.merge old new = .ok value →
    value = old ∨ room value < room old

namespace ValueKind

/-- Only a usable value can change. -/
def room : ValueKind → Nat
  | unusable => 0
  | _ => 1

private theorem measured_of_merge {domain : Domain ValueKind}
    (total : ∀ old new, domain.merge old new = .ok (merge old new)) (nodes : Nat) :
    domain.Measured nodes height (fun _ => True) room where
  closed _ _ := ⟨trivial, fun _ => trivial, fun _ _ => trivial, fun _ _ => trivial,
    fun _ _ _ => trivial, fun _ _ => trivial⟩
  typed _ := trivial
  merged _ _ _ := trivial
  wide value _ := by cases value <;> decide
  bounded value _ := by cases value <;> decide
  lowers := by
    intro old new value _ _ merged
    cases (total old new).symm.trans merged
    cases old <;> cases new <;> decide

theorem domain_measured (nodes : Nat) : domain.Measured nodes height (fun _ => True) room :=
  measured_of_merge (fun _ _ => rfl) nodes

theorem verifier_measured (nodes : Nat) : verifier.Measured nodes height (fun _ => True) room :=
  measured_of_merge (fun _ _ => rfl) nodes

end ValueKind

namespace Provenance

/-- A value of one or two slots that operations of the code may have made. -/
structure Within (nodes : Nat) (value : Provenance) : Prop where
  wide : 1 ≤ value.size
  narrow : value.size ≤ 2
  origins : ∀ index ∈ value.origins.indices, index < nodes

/-- A value can get narrower, and gain the indices that are not among its origins. -/
def room (nodes : Nat) (value : Provenance) : Nat :=
  (value.size - 1) + (nodes - value.origins.indices.length)

theorem width_bounds (type : FieldType) : 1 ≤ type.width ∧ type.width ≤ 2 := by
  rcases type with base | ref
  · cases base <;> decide
  · exact ⟨Nat.le_refl 1, Nat.le_succ 1⟩

theorem within_madeAt {nodes size index : Nat} (wide : 1 ≤ size) (narrow : size ≤ 2)
    (inside : index < nodes) : (madeAt size index).Within nodes :=
  ⟨wide, narrow, by simpa [madeAt, IndexSet.singleton] using inside⟩

theorem within_unmade {nodes size : Nat} (wide : 1 ≤ size) (narrow : size ≤ 2) :
    (unmade size).Within nodes :=
  ⟨wide, narrow, by simp [unmade, IndexSet.empty]⟩

theorem producedSize_bounds (operation : Operation) :
    1 ≤ producedSize operation ∧ producedSize operation ≤ 2 := by
  unfold producedSize
  split <;> first | exact width_bounds _ | decide

theorem unarySize_bounds (operation : Operation) :
    1 ≤ unarySize operation ∧ unarySize operation ≤ 2 := by
  unfold unarySize
  split <;> first | exact width_bounds _ | decide

theorem binarySize_bounds (operation : Operation) :
    1 ≤ binarySize operation ∧ binarySize operation ≤ 2 := by
  unfold binarySize
  split <;> first | exact width_bounds _ | decide

theorem narySize_bounds {operation : Operation} {size : Nat}
    (pushed : narySize operation = some size) : 1 ≤ size ∧ size ≤ 2 := by
  unfold narySize at pushed
  split at pushed
  · obtain ⟨type, -, rfl⟩ := Option.map_eq_some_iff.mp pushed
    exact width_bounds type
  · obtain ⟨type, -, rfl⟩ := Option.map_eq_some_iff.mp pushed
    exact width_bounds type
  · cases pushed
    decide

theorem Within.merge {nodes : Nat} {old new : Provenance} (within : old.Within nodes)
    (within' : new.Within nodes) : (merge old new).Within nodes where
  wide := by
    have := within.wide
    have := within'.wide
    rw [size_merge]
    omega
  narrow := by
    have := within.narrow
    rw [size_merge]
    omega
  origins index member :=
    (mem_merge.mp member).elim (within.origins index) (within'.origins index)

theorem Within.length_le {nodes : Nat} {value : Provenance} (within : value.Within nodes) :
    value.origins.indices.length ≤ nodes := by
  have inside : value.origins.indices ⊆ List.range nodes :=
    fun index member => List.mem_range.mpr (within.origins index member)
  simpa using (value.origins.nodup.subperm inside).length_le

theorem length_le_merge (old new : Provenance) :
    old.origins.indices.length ≤ (merge old new).origins.indices.length := by
  have inside : old.origins.indices ⊆ (merge old new).origins.indices :=
    fun index member => mem_merge.mpr (.inl member)
  exact (old.origins.nodup.subperm inside).length_le

theorem length_lt_merge {old new : Provenance} {index : Nat}
    (member : index ∈ new.origins.indices) (fresh : index ∉ old.origins.indices) :
    old.origins.indices.length < (merge old new).origins.indices.length := by
  have distinct : (index :: old.origins.indices).Nodup :=
    List.nodup_cons.mpr ⟨fresh, old.origins.nodup⟩
  have inside : index :: old.origins.indices ⊆ (merge old new).origins.indices :=
    List.cons_subset.mpr
      ⟨mem_merge.mpr (.inr member), fun other member => mem_merge.mpr (.inl member)⟩
  exact (distinct.subperm inside).length_le

/-- A merge that changes a provenance makes it narrower or adds an origin. -/
theorem room_merge_lt {nodes : Nat} {old new : Provenance} (within : old.Within nodes)
    (within' : new.Within nodes) (changed : merge old new ≠ old) :
    room nodes (merge old new) < room nodes old := by
  have least := (within.merge within').wide
  have most := (within.merge within').length_le
  have size := size_merge old new
  have origins := length_le_merge old new
  unfold room
  by_cases narrow : old.size ≤ new.size
  · obtain ⟨index, member, fresh⟩ : ∃ index ∈ new.origins.indices, index ∉ old.origins.indices := by
      by_contra none
      refine changed (merge_eq_left.mpr ⟨narrow, fun index member => ?_⟩)
      by_contra fresh
      exact none ⟨index, member, fresh⟩
    have more := length_lt_merge member fresh
    omega
  · omega

theorem domain_measured (nodes : Nat) :
    domain.Measured nodes (height nodes) (Within nodes) (room nodes) where
  closed site inside := by
    refine ⟨within_unmade (Nat.le_refl 1) (Nat.le_succ 1), ?_, ?_, ?_, ?_, ?_⟩
    · intro value produced
      cases produced
      exact within_madeAt (producedSize_bounds _).1 (producedSize_bounds _).2 inside
    · intro value copied within copies
      cases copies
      exact within_madeAt within.wide within.narrow inside
    · intro value result _ computed
      cases computed
      exact within_madeAt (unarySize_bounds _).1 (unarySize_bounds _).2 inside
    · intro first second result _ _ computed
      cases computed
      exact within_madeAt (binarySize_bounds _).1 (binarySize_bounds _).2 inside
    · intro values result _ computed
      obtain ⟨size, pushed, rfl⟩ := Option.map_eq_some_iff.mp (Except.ok.inj computed)
      exact within_madeAt (narySize_bounds pushed).1 (narySize_bounds pushed).2 inside
  typed type := by
    cases type with
    | none => exact within_unmade (Nat.le_refl 1) (Nat.le_succ 1)
    | some type => exact within_unmade (width_bounds type).1 (width_bounds type).2
  merged := by
    intro old new value within within' merged
    cases merged
    exact within.merge within'
  wide value within := within.wide
  bounded value within := by
    have := within.narrow
    show room nodes value ≤ nodes + 2
    unfold room
    omega
  lowers := by
    intro old new value within within' merged
    cases merged
    by_cases same : merge old new = old
    · exact .inl same
    · exact .inr (room_merge_lt within within' same)

end Provenance

end MethodFlow
