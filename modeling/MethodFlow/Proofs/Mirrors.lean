namespace MethodFlow

/-- The second computation ends as the first one does, with the result changed, unless the failure of
the first one is let go. -/
def Mirrors {ε α : Type} (lost : ε → Prop) (change : α → α) (first second : Except ε α) : Prop :=
  second = first.map change ∨ ∃ failure, first = .error failure ∧ lost failure

namespace Mirrors

variable {ε α β : Type} {lost : ε → Prop} {change : α → α} {first second : Except ε α}

theorem ok (value : α) : Mirrors lost change (.ok value) (.ok (change value)) := .inl rfl

theorem error (failure : ε) : Mirrors lost change (.error failure) (.error failure) := .inl rfl

theorem letGo {failure : ε} (let_go : lost failure) :
    Mirrors lost change (.error failure) second :=
  .inr ⟨failure, rfl, let_go⟩

theorem same (outcome : Except ε α) : Mirrors lost id outcome outcome := by
  cases outcome with
  | error failure => exact .error failure
  | ok value => exact .ok value

theorem bind {change' : β → β} {next next' : α → Except ε β}
    (mirrors : Mirrors lost change first second)
    (further : ∀ value, first = .ok value →
      Mirrors lost change' (next value) (next' (change value))) :
    Mirrors lost change' (first >>= next) (second >>= next') := by
  rcases mirrors with rfl | ⟨failure, rfl, let_go⟩
  · cases first with
    | error failure => exact .error failure
    | ok value => exact further value rfl
  · exact .letGo let_go

/-- Without a change of results, the second computation may go on as the first one does. -/
theorem andThen {next next' : α → Except ε β} (mirrors : Mirrors lost id first second)
    (further : ∀ value, Mirrors lost id (next value) (next' value)) :
    Mirrors lost id (first >>= next) (second >>= next') :=
  mirrors.bind fun value _ => further value

theorem map {lost : ε → Prop} {first second : Except ε α} (mirrors : Mirrors lost id first second)
    (project : α → β) : Mirrors lost id (first.map project) (second.map project) := by
  rcases mirrors with rfl | ⟨failure, rfl, let_go⟩
  · cases first with
    | error failure => exact .error failure
    | ok value => exact .ok (project value)
  · exact .letGo let_go

theorem eq_ok {value : α} (mirrors : Mirrors lost change first second)
    (succeeds : first = .ok value) : second = .ok (change value) := by
  rcases mirrors with rfl | ⟨failure, failed, -⟩
  · rw [succeeds]
    rfl
  · cases succeeds.symm.trans failed

/-- Where all failures are let go, only results have to be the same. -/
theorem of_ok (succeeds : ∀ value, first = .ok value → second = .ok (change value)) :
    Mirrors (fun _ => True) change first second := by
  cases first with
  | error failure => exact .letGo trivial
  | ok value => exact .inl (succeeds value rfl)

end Mirrors

end MethodFlow
