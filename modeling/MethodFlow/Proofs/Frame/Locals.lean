import MethodFlow.Proofs.Frame.Shape

namespace MethodFlow

variable {V : Type} [AbstractValue V] {domain : Domain V} {site : Site}

namespace Frame

variable {frame after : Frame V}

omit [AbstractValue V] in
theorem locals_pop {rest : Frame V} {value : V} (popped : frame.pop = .ok (value, rest)) :
    rest.locals = frame.locals := by
  obtain ⟨stack, -, rfl⟩ := pop_eq_ok.mp popped
  rfl

theorem locals_push {value : V} (pushed : frame.push value = .ok after) :
    after.locals = frame.locals := by
  obtain ⟨rfl, -⟩ := push_eq_ok.mp pushed
  rfl

theorem locals_invariant (locals : List V) :
    StackInvariant (fun _ => True) fun frame : Frame V => frame.locals = locals where
  pop same popped := ⟨trivial, (locals_pop popped).trans same⟩
  push same _ pushed := (locals_push pushed).trans same
  read _ _ := trivial

/-- How the locals after an operation come of those before it. -/
inductive ChangesLocals (domain : Domain V) (site : Site) (frame after : Frame V) : Prop where
  | kept (same : after.locals = frame.locals) : ChangesLocals domain site frame after
  | stored {kind : Kind} {slot : Nat} {popped value : V} {rest : Frame V}
      (operated : site.operation = .instruction (.store kind slot))
      (taken : frame.pop = .ok (popped, rest)) (copied : domain.copy site popped = .ok value)
      (stored : rest.store domain slot value = .ok after) : ChangesLocals domain site frame after
  | incremented {slot : Nat} {amount : Int} {before value : V}
      (operated : site.operation = .instruction (.increment slot amount))
      (read : frame.local? slot = .ok before) (computed : domain.unary site before = .ok (some value))
      (written : frame.setLocal slot value = .ok after) : ChangesLocals domain site frame after

theorem changesLocals_of_execute (executed : frame.execute domain site = .ok after) :
    ChangesLocals domain site frame after := by
  have keeps := locals_invariant frame.locals
  have closed := domain.closedAt_true site
  unfold Frame.execute at executed
  split at executed
  · rename_i i operated
    cases i with
    | store kind slot =>
      simp only [executeInstruction, bind_eq_ok, Prod.exists] at executed
      obtain ⟨popped, rest, taken, value, copied, stored⟩ := executed
      exact .stored operated taken copied stored
    | increment slot amount =>
      simp only [executeInstruction, bind_eq_ok] at executed
      obtain ⟨before, read, result, computed, written⟩ := executed
      split at written
      · exact .incremented operated read computed written
      · cases written
    | _ => exact .kept (keeps.instruction closed rfl rfl executed)
  · exact .kept (keeps.branch closed rfl executed)

omit [AbstractValue V] in
theorem getElem?_setLocal {slot : Nat} {value : V} (written : frame.setLocal slot value = .ok after)
    (other : Nat) :
    after.locals[other]? = if other = slot then some value else frame.locals[other]? := by
  obtain ⟨inside, rfl⟩ := setLocal_eq_ok.mp written
  by_cases own : other = slot
  · subst own
    simp [inside]
  · simp [own, Ne.symm own]

structure Stored (domain : Domain V) (first : Nat) (value : V) (frame after : Frame V) : Prop where
  own : after.locals[first]? = some value
  second : width value = 2 → after.locals[first + 1]? = some domain.unusable
  previous : ∀ slot before, slot + 1 = first → frame.locals[slot]? = some before →
    after.locals[slot]? = some (if width before = 2 then domain.unusable else before)
  others : ∀ slot, slot ≠ first → slot + 1 ≠ first → (slot = first + 1 → width value ≠ 2) →
    after.locals[slot]? = frame.locals[slot]?

theorem clearBefore_spec {slot : Nat} (cleared : frame.clearBefore domain slot = .ok after) :
    (∀ previous before, previous + 1 = slot → frame.locals[previous]? = some before →
      after.locals[previous]? = some (if width before = 2 then domain.unusable else before)) ∧
      ∀ other, other + 1 ≠ slot → after.locals[other]? = frame.locals[other]? := by
  cases slot with
  | zero =>
    cases cleared
    exact ⟨by simp, fun _ _ => rfl⟩
  | succ previous =>
    obtain ⟨before, read, continued⟩ := bind_eq_ok.mp cleared
    have held := local?_eq_ok.mp read
    split at continued
    · rename_i wide
      refine ⟨?_, fun other different => ?_⟩
      · rintro _ before' ⟨⟩ held'
        cases held.symm.trans held'
        rw [getElem?_setLocal continued, if_pos rfl, if_pos wide]
      · rw [getElem?_setLocal continued, if_neg fun same => different (by rw [same])]
    · rename_i narrow
      cases continued
      refine ⟨?_, fun _ _ => rfl⟩
      rintro _ before' ⟨⟩ held'
      cases held.symm.trans held'
      rw [held, if_neg narrow]

theorem stored_of_store {first : Nat} {value : V}
    (stored : frame.store domain first value = .ok after) :
    Stored domain first value frame after := by
  obtain ⟨written, widened, own, second, cleared⟩ := store_eq_ok.mp stored
  obtain ⟨previous, others⟩ := clearBefore_spec cleared
  -- before the previous local is cleared, only the slots of the value are written
  have slots (slot : Nat) : widened.locals[slot]? =
      if slot = first + 1 ∧ width value = 2 then some domain.unusable
      else if slot = first then some value else frame.locals[slot]? := by
    split at second
    · rename_i wide
      rw [getElem?_setLocal second, getElem?_setLocal own]
      simp [wide]
    · rename_i narrow
      cases second
      rw [getElem?_setLocal own]
      simp [narrow]
  refine ⟨?_, fun wide => ?_, fun slot before next held => ?_, fun slot different next past => ?_⟩
  · rw [others first (Nat.succ_ne_self first), slots, if_neg (by omega), if_pos rfl]
  · rw [others (first + 1) (by omega), slots, if_pos ⟨rfl, wide⟩]
  · refine previous slot before next ?_
    rw [slots, if_neg (by omega), if_neg (by omega), held]
  · rw [others slot next, slots, if_neg fun both => past both.1 both.2, if_neg different]

omit [AbstractValue V] in
theorem restoreLocals_length (values callers : List V) (used : List Bool) :
    (restoreLocals values callers used).length = values.length := by
  induction values generalizing callers used with
  | nil => cases callers <;> rfl
  | cons value values ih => cases callers <;> simp [restoreLocals, ih]

omit [AbstractValue V] in
theorem getElem?_restoreLocals {values callers : List V}
    (same : values.length = callers.length) (used : List Bool) (slot : Nat) :
    (restoreLocals values callers used)[slot]? =
      if used[slot]? = some true then values[slot]? else callers[slot]? := by
  induction values generalizing callers used slot with
  | nil =>
    cases callers with
    | nil => simp [restoreLocals]
    | cons => simp at same
  | cons value values ih =>
    cases callers with
    | nil => simp at same
    | cons caller callers =>
      have same' : values.length = callers.length := by simpa using same
      cases used with
      | nil => cases slot <;> simp [restoreLocals, ih same']
      | cons mark used =>
        cases slot with
        | zero => cases mark <;> simp [restoreLocals]
        | succ slot => simp [restoreLocals, ih same']

theorem Fits.mergeSubroutine {shape : FrameShape V} {caller : Frame V} (fits : frame.Fits shape)
    (used : List Bool) : (frame.mergeSubroutine caller used).Fits shape :=
  ⟨⟨(restoreLocals_length _ _ _).trans fits.locals, fits.placed, fits.maxStack,
    fits.returnValue⟩, fits.within⟩

end Frame

end MethodFlow
