import MethodFlow.Proofs.Domain.Height
import MethodFlow.Proofs.Domain.Kinds
import MethodFlow.Proofs.Domain.Lowering
import MethodFlow.Proofs.Domain.Policies

/-! Grades of values. Values of one grade merge without loss of width, and a merge that keeps the width
of a value keeps its grade; the grade of what an operation yields is up to the operation alone. -/

namespace MethodFlow

variable {V : Type} [AbstractValue V]

/-- Grades that tell widths, that merging keeps with the width, and that operations fix. -/
structure Domain.Graded (domain : Domain V) (grade : V → Nat) : Prop where
  width : ∀ {value other}, grade value = grade other → width value = width other
  shrinks : domain.Shrinks
  same : ∀ {old new value}, domain.merge old new = .ok value → grade old = grade new →
    grade value = grade old
  left : ∀ {old new value}, domain.merge old new = .ok value →
    HasWidth.width value = HasWidth.width old → grade value = grade old
  right : ∀ {old new value}, domain.merge old new = .ok value →
    HasWidth.width value = HasWidth.width new → grade value = grade new
  copy : ∀ {site value copied}, domain.copy site value = .ok copied → grade copied = grade value
  unary : ∀ {site value value' result result'}, domain.unary site value = .ok result →
    domain.unary site value' = .ok result' → result.map grade = result'.map grade
  binary : ∀ {site first second first' second' result result'},
    domain.binary site first second = .ok result →
    domain.binary site first' second' = .ok result' → result.map grade = result'.map grade
  nary : ∀ {site values values' result result'}, domain.nary site values = .ok result →
    domain.nary site values' = .ok result' → result.map grade = result'.map grade

/-- Grades under which all narrow values are alike and wide ones are different: merging a wide value
with another value than itself makes it narrow. -/
structure Domain.Wide (domain : Domain V) (grade : V → Nat) : Prop where
  narrow : ∀ value, grade value = 1 ↔ width value = 1
  unique : ∀ {value other}, grade value = grade other → grade value ≠ 1 → value = other
  self : ∀ value, domain.merge value value = .ok value
  merged : ∀ {old new value}, domain.merge old new = .ok value →
    (value = old ∧ value = new) ∨ grade value = 1

namespace Domain.Wide

variable {domain : Domain V} {grade : V → Nat}

theorem width (wide : domain.Wide grade) {value other : V} (same : grade value = grade other) :
    HasWidth.width value = HasWidth.width other := by
  by_cases narrow : grade value = 1
  · rw [(wide.narrow value).mp narrow, (wide.narrow other).mp (same ▸ narrow)]
  · rw [wide.unique same narrow]

theorem same (wide : domain.Wide grade) {old new value : V}
    (merged : domain.merge old new = .ok value) (same : grade old = grade new) :
    grade value = grade old := by
  rcases wide.merged merged with ⟨rfl, -⟩ | lost
  · rfl
  · by_cases narrow : grade old = 1
    · exact lost.trans narrow.symm
    · rw [← wide.unique same narrow] at merged
      cases (wide.self old).symm.trans merged
      rfl

/-- A merge that keeps the width of one of its values keeps the grade. -/
theorem kept (wide : domain.Wide grade) {value other : V} (merged : value = other ∨ grade value = 1)
    (width : HasWidth.width value = HasWidth.width other) : grade value = grade other := by
  rcases merged with rfl | lost
  · rfl
  · rw [lost, eq_comm, wide.narrow, ← width]
    exact (wide.narrow value).mp lost

end Domain.Wide

/-- What is computed alike after checks is the same, whatever was checked. -/
private theorem eq_of_checked {ε α β γ : Type} {checked : Except ε α} {checked' : Except ε β}
    {computation : Except ε γ} {result result' : γ}
    (computed : (checked >>= fun _ => computation) = .ok result)
    (computed' : (checked' >>= fun _ => computation) = .ok result') : result = result' := by
  obtain ⟨_, -, computed⟩ := bind_eq_ok.mp computed
  obtain ⟨_, -, computed'⟩ := bind_eq_ok.mp computed'
  exact Except.ok.inj (computed.symm.trans computed')

namespace ValueKind

/-- The two kinds of wide values are told apart, narrow ones are not. -/
def grade : ValueKind → Nat
  | long => 2
  | double => 3
  | _ => 1

private theorem wide_of_merge {domain : Domain ValueKind}
    (total : ∀ old new, domain.merge old new = .ok (merge old new)) : domain.Wide grade where
  narrow value := by cases value <;> decide
  unique := by
    intro value other same wide
    cases value <;> cases other <;> first | rfl | exact absurd rfl wide | cases same
  self value := by rw [total, merge_self]
  merged := by
    intro old new value merged
    cases (total old new).symm.trans merged
    by_cases same : old = new
    · subst same
      exact .inl ⟨merge_self old, merge_self old⟩
    · exact .inr (by rw [merge, if_neg same]; rfl)

theorem domain_wide : domain.Wide grade := wide_of_merge fun _ _ => rfl

theorem verifier_wide : verifier.Wide grade := wide_of_merge fun _ _ => rfl

theorem domain_graded : domain.Graded grade where
  width := domain_wide.width
  shrinks := domain_shrinks
  same := domain_wide.same
  left merged := domain_wide.kept ((domain_wide.merged merged).imp And.left id)
  right merged := domain_wide.kept ((domain_wide.merged merged).imp And.right id)
  copy copied := by
    cases copied
    rfl
  unary computed computed' := by
    cases computed.symm.trans computed'
    rfl
  binary computed computed' := by
    cases computed.symm.trans computed'
    rfl
  nary computed computed' := by
    cases computed.symm.trans computed'
    rfl

theorem verifier_graded : verifier.Graded grade where
  width := verifier_wide.width
  shrinks := verifier_shrinks
  same := verifier_wide.same
  left merged := verifier_wide.kept ((verifier_wide.merged merged).imp And.left id)
  right merged := verifier_wide.kept ((verifier_wide.merged merged).imp And.right id)
  copy copied := by
    obtain ⟨_, -, ended⟩ := bind_eq_ok.mp copied
    cases ended
    rfl
  unary computed computed' := congrArg (Option.map grade) (eq_of_checked computed computed')
  binary computed computed' := congrArg (Option.map grade) (eq_of_checked computed computed')
  nary computed computed' := congrArg (Option.map grade) (eq_of_checked computed computed')

end ValueKind

namespace Provenance

theorem domain_graded : domain.Graded size where
  width same := same
  shrinks := domain_shrinks
  same := by
    rintro old new _ ⟨⟩ same
    rw [size_merge, same, Nat.min_self]
  left _ kept := kept
  right _ kept := kept
  copy := by
    rintro site value _ ⟨⟩
    rfl
  unary := by
    rintro site value value' _ _ ⟨⟩ ⟨⟩
    rfl
  binary := by
    rintro site first second first' second' _ _ ⟨⟩ ⟨⟩
    rfl
  nary := by
    rintro site values values' _ _ ⟨⟩ ⟨⟩
    rfl

end Provenance

namespace VerificationType

/-- The two wide types are told apart, narrow ones are not. -/
def grade (type : VerificationType) : Nat := type.kind.grade

theorem eq_of_wide {value other : VerificationType} (same : grade value = grade other)
    (wide : grade value ≠ 1) : value = other := by
  cases value <;> cases other <;> first | rfl | exact absurd rfl wide | cases same

theorem verifier_wide (hierarchy : TypeHierarchy) : (verifier hierarchy).Wide grade where
  narrow value := by cases value <;> simp [grade, kind, ValueKind.grade, HasWidth.width, width]
  unique := eq_of_wide
  self value := by
    show merge hierarchy value value = .ok value
    unfold merge
    rw [if_pos rfl]
  merged := by
    intro old new value merged
    have kinds : value.kind = ValueKind.merge old.kind new.kind := kind_merge merged
    by_cases narrow : grade value = 1
    · exact .inr narrow
    · have same : old.kind = new.kind := by
        by_contra different
        rw [grade, kinds, ValueKind.merge, if_neg different] at narrow
        exact narrow rfl
      rw [same, ValueKind.merge_self] at kinds
      exact .inl ⟨eq_of_wide (by rw [grade, kinds, ← same, grade]) narrow,
        eq_of_wide (by rw [grade, kinds, grade]) narrow⟩

theorem verifier_graded (hierarchy : TypeHierarchy) : (verifier hierarchy).Graded grade where
  width := (verifier_wide hierarchy).width
  shrinks := verifier_shrinks hierarchy
  same := (verifier_wide hierarchy).same
  left merged := (verifier_wide hierarchy).kept (((verifier_wide hierarchy).merged merged).imp And.left id)
  right merged :=
    (verifier_wide hierarchy).kept (((verifier_wide hierarchy).merged merged).imp And.right id)
  copy copied := by
    obtain ⟨_, -, ended⟩ := bind_eq_ok.mp copied
    cases ended
    rfl
  unary computed computed' := congrArg (Option.map grade) (eq_of_checked computed computed')
  binary := by
    intro site first second first' second' result result' computed computed'
    obtain ⟨_, checked, typed⟩ := bind_eq_ok.mp computed
    obtain ⟨_, checked', typed'⟩ := bind_eq_ok.mp computed'
    obtain ⟨index, operation⟩ := site
    rcases operation with i | b
    · cases i
      case arrayLoad kind =>
        cases kind
        case reference =>
          obtain ⟨element, found, rfl⟩ := map_eq_ok.mp typed
          obtain ⟨element', found', rfl⟩ := map_eq_ok.mp typed'
          obtain ⟨_, ⟨⟩, both⟩ := bind_eq_ok.mp checked
          obtain ⟨_, ⟨⟩, both'⟩ := bind_eq_ok.mp checked'
          have fits := (CheckedValues.expectBoth_eq_ok.mp both).1
          have fits' := (CheckedValues.expectBoth_eq_ok.mp both').1
          simp [grade, kind_of_element fits found, kind_of_element fits' found']
        all_goals
          cases typed.symm.trans typed'
          rfl
      all_goals
        cases typed.symm.trans typed'
        rfl
    · cases typed.symm.trans typed'
      rfl
  nary computed computed' := congrArg (Option.map grade) (eq_of_checked computed computed')

/-- Whatever is asked of values holds of all of them if it holds of every type. -/
private theorem keeps_all (hierarchy : TypeHierarchy) (nodes : Nat) :
    (verifier hierarchy).Keeps nodes fun _ => True :=
  ⟨fun _ _ => ⟨trivial, fun _ => trivial, fun _ _ => trivial, fun _ _ => trivial,
    fun _ _ _ => trivial, fun _ _ => trivial⟩, fun _ => trivial, fun _ _ _ => trivial⟩

theorem verifier_positive (hierarchy : TypeHierarchy) (nodes : Nat) :
    ∃ allowed, (verifier hierarchy).Keeps nodes allowed ∧ ∀ value, allowed value → 1 ≤ value.width :=
  ⟨_, keeps_all hierarchy nodes, fun value _ => by cases value <;> simp [width]⟩

end VerificationType

namespace Domain.Policy

variable {domain : Domain V}

theorem graded (policy : domain.Policy) : ∃ grade, domain.Graded grade := by
  obtain ⟨hierarchy, _, chosen⟩ := policy
  cases chosen with
  | basic => exact ⟨_, ValueKind.domain_graded⟩
  | verify => exact ⟨_, ValueKind.verifier_graded⟩
  | simple => exact ⟨_, VerificationType.verifier_graded hierarchy⟩
  | source => exact ⟨_, Provenance.domain_graded⟩

/-- A value never has no slot, whatever merges and operations do. -/
theorem positive (policy : domain.Policy) (nodes : Nat) :
    ∃ allowed, domain.Keeps nodes allowed ∧ ∀ value, allowed value → 1 ≤ width value := by
  obtain ⟨hierarchy, _, chosen⟩ := policy
  cases chosen with
  | basic => exact ⟨_, (ValueKind.domain_measured nodes).toKeeps, (ValueKind.domain_measured nodes).wide⟩
  | verify =>
    exact ⟨_, (ValueKind.verifier_measured nodes).toKeeps, (ValueKind.verifier_measured nodes).wide⟩
  | source =>
    exact ⟨_, (Provenance.domain_measured nodes).toKeeps, (Provenance.domain_measured nodes).wide⟩
  | simple => exact VerificationType.verifier_positive hierarchy nodes

end Domain.Policy

end MethodFlow
