namespace MethodFlow

/-- The computation fails with nothing but what is allowed, if it fails. -/
structure FailsOnly {ε α : Type} (allowed : ε → Prop) (outcome : Except ε α) : Prop where
  allows : ∀ failure, outcome = .error failure → allowed failure

namespace FailsOnly

variable {ε ε' α β : Type} {allowed : ε → Prop} {outcome : Except ε α}

theorem ok (value : α) : FailsOnly allowed (.ok value) := ⟨nofun⟩

theorem error {failure : ε} (fine : allowed failure) :
    FailsOnly allowed (.error failure : Except ε α) := by
  refine ⟨?_⟩
  rintro _ ⟨⟩
  exact fine

theorem any (outcome : Except ε α) : FailsOnly (fun _ => True) outcome := ⟨fun _ _ => trivial⟩

theorem bind {next : α → Except ε β} (first : FailsOnly allowed outcome)
    (further : ∀ value, outcome = .ok value → FailsOnly allowed (next value)) :
    FailsOnly allowed (outcome >>= next) := by
  cases outcome with
  | error failure => exact error (first.allows failure rfl)
  | ok value => exact further value rfl

/-- What comes next may be looked at for any result. -/
theorem andThen {next : α → Except ε β} (first : FailsOnly allowed outcome)
    (further : ∀ value, FailsOnly allowed (next value)) : FailsOnly allowed (outcome >>= next) :=
  first.bind fun value _ => further value

theorem map (failsOnly : FailsOnly allowed outcome) (project : α → β) :
    FailsOnly allowed (outcome.map project) := by
  cases outcome with
  | error failure => exact error (failsOnly.allows failure rfl)
  | ok value => exact ok (project value)

theorem mapError {allowed' : ε' → Prop} {rename : ε → ε'} (failsOnly : FailsOnly allowed outcome)
    (renamed : ∀ failure, allowed failure → allowed' (rename failure)) :
    FailsOnly allowed' (outcome.mapError rename) := by
  cases outcome with
  | error failure => exact error (renamed failure (failsOnly.allows failure rfl))
  | ok value => exact ok value

theorem mono {allowed' : ε → Prop} (failsOnly : FailsOnly allowed outcome)
    (weaker : ∀ failure, allowed failure → allowed' failure) : FailsOnly allowed' outcome :=
  ⟨fun failure failed => weaker failure (failsOnly.allows failure failed)⟩

end FailsOnly

/-- The computation gives no result. -/
def Fails {ε α : Type} (outcome : Except ε α) : Prop := ∃ failure, outcome = .error failure

namespace Fails

variable {ε α β : Type} {outcome : Except ε α}

theorem error (failure : ε) : Fails (.error failure : Except ε α) := ⟨failure, rfl⟩

theorem ne_ok (fails : Fails outcome) (value : α) : outcome ≠ .ok value := by
  obtain ⟨failure, rfl⟩ := fails
  exact nofun

theorem of_ne_ok (never : ∀ value, outcome ≠ .ok value) : Fails outcome := by
  cases outcome with
  | error failure => exact error failure
  | ok value => exact absurd rfl (never value)

theorem bind (fails : Fails outcome) (next : α → Except ε β) : Fails (outcome >>= next) := by
  obtain ⟨failure, rfl⟩ := fails
  exact error failure

theorem andThen {next : α → Except ε β} (further : ∀ value, Fails (next value)) :
    Fails (outcome >>= next) := by
  cases outcome with
  | error failure => exact error failure
  | ok value => exact further value

theorem map (fails : Fails outcome) (project : α → β) : Fails (outcome.map project) := by
  obtain ⟨failure, rfl⟩ := fails
  exact error failure

end Fails

end MethodFlow
