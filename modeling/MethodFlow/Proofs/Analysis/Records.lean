import MethodFlow.Analysis.Solver

namespace MethodFlow

namespace Subroutine

theorem getElem?_mergeUsed {marks others : List Bool} (same : marks.length = others.length)
    (slot : Nat) :
    (mergeUsed marks others)[slot]? = some true ↔
      marks[slot]? = some true ∨ others[slot]? = some true := by
  induction marks generalizing others slot with
  | nil =>
    cases others with
    | nil => simp [mergeUsed]
    | cons => simp at same
  | cons mark marks ih =>
    cases others with
    | nil => simp at same
    | cons other others =>
      cases slot with
      | zero => simp [mergeUsed]
      | succ slot => simpa [mergeUsed] using ih (by simpa using same) slot

theorem mem_mergeCallers {callers others : List Nat} {caller : Nat} :
    caller ∈ mergeCallers callers others ↔ caller ∈ callers ∨ caller ∈ others := by
  induction others generalizing callers with
  | nil => simp [mergeCallers]
  | cons other rest ih =>
    rw [mergeCallers, ih]
    split
    · rename_i known
      have member : other ∈ callers := by simpa using known
      constructor
      · rintro (old | new)
        · exact .inl old
        · exact .inr (List.mem_cons_of_mem _ new)
      · rintro (old | new)
        · exact .inl old
        · rcases List.mem_cons.mp new with rfl | later
          · exact .inl member
          · exact .inr later
    · simp [or_assoc]

theorem nodup_mergeCallers {callers : List Nat} (distinct : callers.Nodup) (others : List Nat) :
    (mergeCallers callers others).Nodup := by
  induction others generalizing callers with
  | nil => exact distinct
  | cons other rest ih =>
    rw [mergeCallers]
    split
    · exact ih distinct
    · rename_i unknown
      have fresh : other ∉ callers := by simpa using unknown
      refine ih (List.nodup_append.mpr ⟨distinct, by simp, ?_⟩)
      intro caller member added single same
      rw [List.mem_singleton] at single
      exact fresh (single ▸ same ▸ member)

/-- A record of calls of one start, over all locals of a method. -/
structure Coherent (flow : Flow) (maxLocals : Nat) (record : Subroutine) : Prop where
  entered : ∃ target, record.start = some target ∧
    ∀ caller ∈ record.callers, flow.called? caller = some target
  used : record.used.length = maxLocals
  distinct : record.callers.Nodup

structure Extends (record earlier : Subroutine) : Prop where
  start : record.start = earlier.start
  used : ∀ slot : Nat, earlier.used[slot]? = some true → record.used[slot]? = some true
  callers : ∀ caller ∈ earlier.callers, caller ∈ record.callers

/-- A record that has all used locals of another one and, if it is one of the same subroutine, all
callers. -/
structure Absorbs (record other : Subroutine) : Prop where
  used : ∀ slot : Nat, other.used[slot]? = some true → record.used[slot]? = some true
  callers : record.start = other.start → ∀ caller ∈ other.callers, caller ∈ record.callers

theorem Extends.refl (record : Subroutine) : record.Extends record :=
  ⟨rfl, fun _ marked => marked, fun _ member => member⟩

theorem Extends.trans {record middle earlier : Subroutine} (later : record.Extends middle)
    (sooner : middle.Extends earlier) : record.Extends earlier :=
  ⟨later.start.trans sooner.start, fun slot marked => later.used slot (sooner.used slot marked),
    fun caller member => later.callers caller (sooner.callers caller member)⟩

theorem Extends.absorbs {record earlier other : Subroutine} (later : record.Extends earlier)
    (absorbs : earlier.Absorbs other) : record.Absorbs other :=
  ⟨fun slot marked => later.used slot (absorbs.used slot marked), fun same caller member =>
    later.callers caller (absorbs.callers (later.start ▸ same) caller member)⟩

variable {flow : Flow} {maxLocals : Nat} {old new : Subroutine}

theorem merge_changed (old new : Subroutine) :
    (old.merge new).2 = false ↔ (old.merge new).1 = old := by
  obtain ⟨start, used, callers⟩ := old
  simp [merge]

theorem extends_merge (same : old.used.length = new.used.length) :
    (old.merge new).1.Extends old := by
  refine ⟨rfl, fun slot marked => (getElem?_mergeUsed same slot).mpr (.inl marked), ?_⟩
  intro caller member
  simp only [merge]
  split
  · exact mem_mergeCallers.mpr (.inl member)
  · exact member

theorem absorbs_merge (same : old.used.length = new.used.length) :
    (old.merge new).1.Absorbs new := by
  refine ⟨fun slot marked => (getElem?_mergeUsed same slot).mpr (.inr marked), ?_⟩
  intro start caller member
  have start' : old.start = new.start := start
  simp only [merge, start', ↓reduceIte]
  exact mem_mergeCallers.mpr (.inr member)

theorem Coherent.merge (coherent : old.Coherent flow maxLocals)
    (coherent' : new.Coherent flow maxLocals) : (old.merge new).1.Coherent flow maxLocals := by
  obtain ⟨target, start, called⟩ := coherent.entered
  obtain ⟨target', start', called'⟩ := coherent'.entered
  refine ⟨⟨target, start, ?_⟩, (mergeUsed_length _ _).trans coherent.used, ?_⟩
  · intro caller member
    simp only [Subroutine.merge] at member
    split at member
    · rename_i same
      have same' : target = target' := by simpa [start, start'] using same
      rcases mem_mergeCallers.mp member with own | other
      · exact called caller own
      · exact same' ▸ called' caller other
    · exact called caller member
  · simp only [Subroutine.merge]
    split
    · exact nodup_mergeCallers coherent.distinct new.callers
    · exact coherent.distinct

theorem coherent_fresh {target : Nat} {caller : Nat} (called : flow.called? caller = some target) :
    (fresh (some target) maxLocals (some caller)).Coherent flow maxLocals :=
  ⟨⟨target, rfl, by simpa [fresh] using called⟩, by simp [fresh], by simp [fresh]⟩

theorem Coherent.use (coherent : old.Coherent flow maxLocals) (slot : Nat) :
    (old.use slot).Coherent flow maxLocals :=
  ⟨coherent.entered, by simpa [Subroutine.use] using coherent.used, coherent.distinct⟩

@[simp] theorem start_useFrom (record : Subroutine) (slot count : Nat) :
    (record.useFrom slot count).start = record.start := by
  induction count with
  | zero => rfl
  | succ count ih => exact ih

@[simp] theorem used_length_use (record : Subroutine) (slot : Nat) :
    (record.use slot).used.length = record.used.length := List.length_set

@[simp] theorem used_length_useFrom (record : Subroutine) (slot count : Nat) :
    (record.useFrom slot count).used.length = record.used.length := by
  induction count with
  | zero => rfl
  | succ count ih => exact (used_length_use _ _).trans ih

@[simp] theorem callers_useFrom (record : Subroutine) (slot count : Nat) :
    (record.useFrom slot count).callers = record.callers := by
  induction count with
  | zero => rfl
  | succ count ih => exact ih

theorem getElem?_use {record : Subroutine} {slot other : Nat} :
    (record.use slot).used[other]? = some true ↔
      record.used[other]? = some true ∨ other = slot ∧ other < record.used.length := by
  by_cases own : slot = other
  · subst own
    simp only [use, List.getElem?_set_self', true_and]
    by_cases inside : slot < record.used.length
    · simp [inside]
    · simp [inside]
  · simp [use, own, Ne.symm own]

theorem getElem?_useFrom {record : Subroutine} {slot count other : Nat} :
    (record.useFrom slot count).used[other]? = some true ↔ record.used[other]? = some true ∨
      (slot ≤ other ∧ other < slot + count) ∧ other < record.used.length := by
  induction count with
  | zero =>
    have empty : ¬(slot ≤ other ∧ other < slot + 0) := by omega
    simp only [useFrom, empty, false_and, or_false]
  | succ count ih =>
    rw [useFrom, getElem?_use, ih, used_length_useFrom, or_assoc, ← or_and_right]
    have next : ((slot ≤ other ∧ other < slot + count) ∨ other = slot + count) ↔
        (slot ≤ other ∧ other < slot + (count + 1)) := by omega
    rw [next]

theorem Coherent.useFrom (coherent : old.Coherent flow maxLocals) (slot count : Nat) :
    (old.useFrom slot count).Coherent flow maxLocals := by
  induction count with
  | zero => exact coherent
  | succ count ih => exact ih.use _

end Subroutine

end MethodFlow
