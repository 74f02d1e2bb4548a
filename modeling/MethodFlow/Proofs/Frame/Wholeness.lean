import MethodFlow.Proofs.Frame.Absorption
import MethodFlow.Proofs.Frame.Locals

namespace MethodFlow

variable {V : Type} [AbstractValue V] {domain : Domain V} {shape : FrameShape V} {slot : Nat}

/-- What a domain does to wide values and to the unusable locals after them. -/
structure Domain.Pairs (domain : Domain V) : Prop where
  narrow : width domain.unusable ≠ 2
  parameter : ∀ type, width (domain.parameter type) = 2 → type.width = 2
  merged : ∀ {old new value}, domain.merge old new = .ok value → width value = 2 →
    old = value ∧ new = value
  unusable : ∀ {old new value}, domain.merge old new = .ok value →
    old = domain.unusable ∨ new = domain.unusable → value = domain.unusable
  increment : ∀ {site slot amount value result},
    site.operation = .instruction (.increment slot amount) →
    domain.unary site value = .ok (some result) → value ≠ domain.unusable ∧ width result ≠ 2

namespace Frame

variable {frame after : Frame V}

/-- A wide value in a local is followed by an unusable local. -/
def WholeAt (domain : Domain V) (slot : Nat) (frame : Frame V) : Prop :=
  ∀ value, frame.locals[slot]? = some value → width value = 2 →
    frame.locals[slot + 1]? = some domain.unusable

theorem WholeAt.of_locals (whole : frame.WholeAt domain slot) (same : after.locals = frame.locals) :
    after.WholeAt domain slot := by
  unfold WholeAt
  rw [same]
  exact whole

theorem WholeAt.store (pairs : domain.Pairs) (whole : frame.WholeAt domain slot) {first : Nat}
    {value : V} (stored : frame.store domain first value = .ok after) :
    after.WholeAt domain slot := by
  obtain ⟨own, second, previous, others⟩ := stored_of_store stored
  intro held current wide
  by_cases here : slot = first
  · subst here
    cases own.symm.trans current
    exact second wide
  by_cases next : slot + 1 = first
  · -- a wide value that is cut in two is not wide any more
    exfalso
    obtain ⟨before, present⟩ : ∃ before, frame.locals[slot]? = some before := by
      have inside : first < frame.locals.length := by
        obtain ⟨_, _, written, -⟩ := store_eq_ok.mp stored
        exact (setLocal_eq_ok.mp written).1
      exact ⟨_, List.getElem?_eq_getElem (by omega)⟩
    have cut := previous slot before next present
    rw [current, Option.some.injEq] at cut
    split at cut
    · exact pairs.narrow (cut ▸ wide)
    · rename_i narrow
      exact narrow (cut ▸ wide)
  by_cases behind : slot = first + 1 ∧ width value = 2
  · obtain ⟨rfl, wide'⟩ := behind
    cases (second wide').symm.trans current
    exact absurd wide pairs.narrow
  have same := others slot here next fun past wide' => behind ⟨past, wide'⟩
  have unusable := whole held (same ▸ current) wide
  by_cases before : slot + 1 + 1 = first
  · rw [previous (slot + 1) _ before unusable, ite_self]
  · rw [others (slot + 1) next before (by omega)]
    exact unusable

theorem WholeAt.execute (pairs : domain.Pairs) {site : Site} (whole : frame.WholeAt domain slot)
    (executed : frame.execute domain site = .ok after) : after.WholeAt domain slot := by
  cases changesLocals_of_execute executed with
  | kept same => exact whole.of_locals same
  | stored operated taken copied stored =>
    exact WholeAt.store pairs (whole.of_locals (locals_pop taken)) stored
  | @incremented own amount before value operated read computed written =>
    obtain ⟨usable, narrow⟩ := pairs.increment operated computed
    intro held current wide
    rw [getElem?_setLocal written] at current ⊢
    split at current
    · cases current
      exact absurd wide narrow
    · have unusable := whole held current wide
      rw [if_neg, unusable]
      rintro rfl
      exact usable (Option.some.inj ((local?_eq_ok.mp read).symm.trans unusable))

/-- Merging with a frame that is whole yields one that is, whatever the other one is like. -/
theorem Merged.wholeAt (pairs : domain.Pairs) {old new : Frame V} {changed : Bool}
    (merged : Merged domain shape old new after changed)
    (whole : old.WholeAt domain slot ∨ new.WholeAt domain slot) : after.WholeAt domain slot := by
  intro value current wide
  obtain ⟨before, other, present, present', met⟩ := merged.locals.of_getElem? current
  obtain ⟨rfl, rfl⟩ := pairs.merged met wide
  have second : old.locals[slot + 1]? = some domain.unusable ∨
      new.locals[slot + 1]? = some domain.unusable :=
    whole.imp (fun whole => whole _ present wide) (fun whole => whole _ present' wide)
  have inside : slot + 1 < after.locals.length := by
    rcases second with second | second
    · exact merged.locals.length_eq ▸ (List.getElem?_eq_some_iff.mp second).1
    · exact merged.locals.length_eq' ▸ (List.getElem?_eq_some_iff.mp second).1
  have after' := List.getElem?_eq_getElem inside
  obtain ⟨before, other, next, next', met'⟩ := merged.locals.of_getElem? after'
  rw [after', pairs.unusable met']
  exact second.imp (fun second => Option.some.inj (next.symm.trans second))
    (fun second => Option.some.inj (next'.symm.trans second))

/-- Locals of a frame and those of another one are put together so that a wide value of one of them is
followed by a local of the other that is not unusable. -/
def Splits (domain : Domain V) (slot : Nat) (frame caller : Frame V) (used : List Bool) : Prop :=
  ∃ value, width value = 2 ∧
    ((used[slot]? = some true ∧ used[slot + 1]? ≠ some true ∧ frame.locals[slot]? = some value ∧
        caller.locals[slot + 1]? ≠ some domain.unusable) ∨
      (used[slot]? ≠ some true ∧ used[slot + 1]? = some true ∧ caller.locals[slot]? = some value ∧
        frame.locals[slot + 1]? ≠ some domain.unusable))

omit [AbstractValue V] in
theorem locals_mergeSubroutine {caller : Frame V} (same : frame.locals.length = caller.locals.length)
    (used : List Bool) (slot : Nat) : (frame.mergeSubroutine caller used).locals[slot]? =
      if used[slot]? = some true then frame.locals[slot]? else caller.locals[slot]? :=
  getElem?_restoreLocals same used slot

theorem WholeAt.mergeSubroutine {caller : Frame V} {used : List Bool}
    (same : frame.locals.length = caller.locals.length) (whole : frame.WholeAt domain slot)
    (whole' : caller.WholeAt domain slot) (together : ¬frame.Splits domain slot caller used) :
    (frame.mergeSubroutine caller used).WholeAt domain slot := by
  intro value current wide
  rw [locals_mergeSubroutine same] at current ⊢
  by_contra cut
  by_cases marked : used[slot]? = some true <;> by_cases marked' : used[slot + 1]? = some true
  · rw [if_pos marked] at current
    exact cut (by rw [if_pos marked', whole value current wide])
  · rw [if_pos marked] at current
    rw [if_neg marked'] at cut
    exact together ⟨value, wide, .inl ⟨marked, marked', current, cut⟩⟩
  · rw [if_neg marked] at current
    rw [if_pos marked'] at cut
    exact together ⟨value, wide, .inr ⟨marked, marked', current, cut⟩⟩
  · rw [if_neg marked] at current
    exact cut (by rw [if_neg marked', whole' value current wide])

end Frame

end MethodFlow
