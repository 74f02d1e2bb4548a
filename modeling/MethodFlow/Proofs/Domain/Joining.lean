import MethodFlow.Domain.Provenance
import MethodFlow.Domain.ValueKind
import MethodFlow.Proofs.Frame.Absorption

namespace MethodFlow

variable {V : Type} [AbstractValue V]

omit [AbstractValue V] in
/-- A merge that never fails is a join if its results say so. -/
theorem Domain.Joins.of_total {domain : Domain V} {merge : V → V → V}
    (total : ∀ old new, domain.merge old new = .ok (merge old new))
    (self : ∀ value, merge value value = value)
    (left : ∀ old new, merge (merge old new) old = merge old new)
    (right : ∀ old new, merge (merge old new) new = merge old new)
    (trans : ∀ upper middle lower, merge upper middle = upper → merge middle lower = middle →
      merge upper lower = upper) : domain.Joins where
  self value := by simp [Domain.Absorbs, total, self]
  left := by
    intro old new value merged
    cases (total old new).symm.trans merged
    simp [Domain.Absorbs, total, left]
  right := by
    intro old new value merged
    cases (total old new).symm.trans merged
    simp [Domain.Absorbs, total, right]
  trans := by
    intro upper middle lower above below
    simp only [Domain.Absorbs, total, Except.ok.injEq] at above below ⊢
    exact trans upper middle lower above below

namespace ValueKind

theorem merge_eq_left {first second : ValueKind} :
    merge first second = first ↔ first = second ∨ first = unusable := by
  unfold merge
  split
  · rename_i same
    simp [same]
  · rename_i different
    simp [different, eq_comm]

private theorem joins_of_merge {domain : Domain ValueKind}
    (total : ∀ old new, domain.merge old new = .ok (merge old new)) : domain.Joins := by
  apply Domain.Joins.of_total total merge_self
  · intro old new
    cases old <;> cases new <;> rfl
  · intro old new
    cases old <;> cases new <;> rfl
  · intro upper middle lower above below
    rw [merge_eq_left] at above below ⊢
    rcases above with rfl | rfl
    · exact below
    · exact .inr rfl

private theorem shrinks_of_merge {domain : Domain ValueKind}
    (total : ∀ old new, domain.merge old new = .ok (merge old new)) : domain.Shrinks := by
  intro old new value merged
  cases (total old new).symm.trans merged
  cases old <;> cases new <;> decide

private theorem replaces_of_merge {domain : Domain ValueKind}
    (total : ∀ old new, domain.merge old new = .ok (merge old new)) : domain.Replaces := by
  intro upper lower value absorbs merged
  cases (total lower upper).symm.trans merged
  rw [Domain.Absorbs, total, Except.ok.injEq, merge_eq_left] at absorbs
  rcases absorbs with rfl | rfl
  · exact merge_self upper
  · cases lower <;> rfl

theorem domain_joins : domain.Joins := joins_of_merge fun _ _ => rfl

theorem verifier_joins : verifier.Joins := joins_of_merge fun _ _ => rfl

theorem verifier_absorbs {upper lower : ValueKind} :
    verifier.Absorbs upper lower ↔ upper = lower ∨ upper = unusable := by
  have total : verifier.merge upper lower = .ok (merge upper lower) := rfl
  rw [Domain.Absorbs, total, Except.ok.injEq, merge_eq_left]

theorem domain_shrinks : domain.Shrinks := shrinks_of_merge fun _ _ => rfl

theorem domain_narrows : domain.Narrows := domain_shrinks.narrows

theorem domain_replaces : domain.Replaces := replaces_of_merge fun _ _ => rfl

theorem verifier_shrinks : verifier.Shrinks := shrinks_of_merge fun _ _ => rfl

theorem verifier_narrows : verifier.Narrows := verifier_shrinks.narrows

theorem verifier_replaces : verifier.Replaces := replaces_of_merge fun _ _ => rfl

end ValueKind

namespace IndexSet

theorem mem_insert {index other : Nat} {set : IndexSet} :
    other ∈ (set.insert index).indices ↔ other = index ∨ other ∈ set.indices :=
  mem_insertInto

theorem mem_union {index : Nat} {first second : IndexSet} :
    index ∈ (first.union second).indices ↔ index ∈ first.indices ∨ index ∈ second.indices := by
  have general (indices : List Nat) (set : IndexSet) :
      index ∈ (indices.foldl (fun set index => set.insert index) set).indices ↔
        index ∈ set.indices ∨ index ∈ indices := by
    induction indices generalizing set with
    | nil => simp
    | cons head rest ih =>
      rw [List.foldl_cons, ih, mem_insert, List.mem_cons]
      tauto
  exact general second.indices first

theorem includes_iff {first second : IndexSet} :
    first.includes second = true ↔ ∀ index ∈ second.indices, index ∈ first.indices := by
  simp [includes]

theorem nodup (set : IndexSet) : set.indices.Nodup :=
  set.ascending.imp fun less => Nat.ne_of_lt less

theorem ext_of_mem {first second : IndexSet}
    (members : ∀ index, index ∈ first.indices ↔ index ∈ second.indices) : first = second := by
  obtain ⟨indices, ascending⟩ := first
  obtain ⟨indices', ascending'⟩ := second
  have perm : indices.Perm indices' :=
    (List.perm_ext_iff_of_nodup (nodup ⟨indices, ascending⟩) (nodup ⟨indices', ascending'⟩)).mpr
      members
  have same : indices = indices' :=
    perm.eq_of_pairwise (fun _ _ _ _ less less' => absurd less (Nat.lt_asymm less')) ascending
      ascending'
  subst same
  rfl

end IndexSet

namespace Provenance

theorem mem_merge {first second : Provenance} {index : Nat} :
    index ∈ (merge first second).origins.indices ↔
      index ∈ first.origins.indices ∨ index ∈ second.origins.indices := by
  unfold merge
  split
  · rename_i absorbed
    rw [Bool.and_eq_true, IndexSet.includes_iff] at absorbed
    exact ⟨.inl, fun member => member.elim id (absorbed.2 index)⟩
  · exact IndexSet.mem_union

theorem size_merge (first second : Provenance) :
    (merge first second).size = min first.size second.size := by
  unfold merge
  split
  · rename_i absorbed
    rw [Bool.and_eq_true, decide_eq_true_eq] at absorbed
    rw [← absorbed.1, Nat.min_self]
  · rfl

/-- A provenance absorbs those that are at least as wide and have none but its origins. -/
theorem merge_eq_left {first second : Provenance} :
    merge first second = first ↔ first.size ≤ second.size ∧
      ∀ index ∈ second.origins.indices, index ∈ first.origins.indices := by
  constructor
  · intro same
    constructor
    · have size := size_merge first second
      rw [same] at size
      omega
    · intro index member
      rw [← same]
      exact mem_merge.mpr (.inr member)
  · rintro ⟨narrow, inside⟩
    have size : (merge first second).size = first.size := by
      rw [size_merge]
      omega
    have origins : (merge first second).origins = first.origins :=
      IndexSet.ext_of_mem fun index =>
        mem_merge.trans ⟨fun member => member.elim id (inside index), .inl⟩
    obtain ⟨_, _⟩ := first
    cases merged : merge _ second with
    | mk size' origins' => simp_all

theorem domain_joins : domain.Joins := by
  apply Domain.Joins.of_total fun _ _ => rfl
  · intro value
    exact merge_eq_left.mpr ⟨Nat.le_refl _, fun _ member => member⟩
  · intro old new
    refine merge_eq_left.mpr ⟨?_, fun _ member => mem_merge.mpr (.inl member)⟩
    rw [size_merge]
    exact Nat.min_le_left _ _
  · intro old new
    refine merge_eq_left.mpr ⟨?_, fun _ member => mem_merge.mpr (.inr member)⟩
    rw [size_merge]
    exact Nat.min_le_right _ _
  · intro upper middle lower above below
    rw [merge_eq_left] at above below ⊢
    exact ⟨Nat.le_trans above.1 below.1, fun index member => above.2 index (below.2 index member)⟩

theorem domain_shrinks : domain.Shrinks := by
  intro old new value merged
  cases merged
  show (merge old new).size ≤ old.size ∧ (merge old new).size ≤ new.size
  rw [size_merge]
  exact ⟨Nat.min_le_left _ _, Nat.min_le_right _ _⟩

theorem domain_narrows : domain.Narrows := domain_shrinks.narrows

theorem domain_replaces : domain.Replaces := by
  intro upper lower value absorbs merged
  cases merged
  obtain ⟨narrow, inside⟩ := merge_eq_left.mp (Except.ok.inj absorbs)
  have size : (merge lower upper).size = upper.size := by
    rw [size_merge]
    exact Nat.min_eq_right narrow
  have origins : (merge lower upper).origins = upper.origins :=
    IndexSet.ext_of_mem fun index =>
      mem_merge.trans ⟨fun member => member.elim (inside index) id, .inr⟩
  cases merged : merge lower upper
  cases upper
  simp_all

end Provenance

end MethodFlow
