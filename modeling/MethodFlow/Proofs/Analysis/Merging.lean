import MethodFlow.Analysis.Solver
import MethodFlow.Proofs.Frame.Absorption

namespace MethodFlow

namespace Returns

theorem mem_from {returns : Returns} {start index : Nat} :
    index ∈ returns.from start ↔ (start, index) ∈ returns := by
  simp [Returns.from]

theorem mem_add {returns : Returns} {start index : Nat} {entry : Nat × Nat} :
    entry ∈ returns.add start index ↔ entry = (start, index) ∨ entry ∈ returns := by
  induction returns with
  | nil => simp [Returns.add]
  | cons first rest ih =>
    obtain ⟨start', index'⟩ := first
    simp only [Returns.add]
    split
    · simp
    · split
      · rename_i same
        obtain ⟨rfl, rfl⟩ := same
        simp
      · simp only [List.mem_cons, ih]
        tauto

end Returns

namespace AnalysisState

variable {V : Type} {state : AnalysisState V}

/-- The worklist holds every queued index, and each once. -/
structure Queued (state : AnalysisState V) : Prop where
  flags : state.queued.length = state.frames.length
  mem_iff : ∀ index, index ∈ state.worklist ↔ state.queued[index]? = some true
  nodup : state.worklist.Nodup

theorem Queued.inside (queued : state.Queued) {index : Nat} (member : index ∈ state.worklist) :
    index < state.frames.length := by
  rw [← queued.flags]
  exact (List.getElem?_eq_some_iff.mp ((queued.mem_iff index).mp member)).1

@[simp] theorem frames_enqueue (state : AnalysisState V) (index : Nat) :
    (state.enqueue index).frames = state.frames := by
  unfold enqueue
  split <;> rfl

@[simp] theorem subroutines_enqueue (state : AnalysisState V) (index : Nat) :
    (state.enqueue index).subroutines = state.subroutines := by
  unfold enqueue
  split <;> rfl

@[simp] theorem returns_enqueue (state : AnalysisState V) (index : Nat) :
    (state.enqueue index).returns = state.returns := by
  unfold enqueue
  split <;> rfl

@[simp] theorem processed_enqueue (state : AnalysisState V) (index : Nat) :
    (state.enqueue index).processed = state.processed := by
  unfold enqueue
  split <;> rfl

@[simp] theorem frame?_enqueue (state : AnalysisState V) (index other : Nat) :
    (state.enqueue index).frame? other = state.frame? other := by
  simp [frame?]

@[simp] theorem subroutine?_enqueue (state : AnalysisState V) (index other : Nat) :
    (state.enqueue index).subroutine? other = state.subroutine? other := by
  simp [subroutine?]

theorem worklist_enqueue (queued : state.Queued) {index : Nat}
    (inside : index < state.frames.length) :
    (index ∈ state.worklist ∧ state.enqueue index = state) ∨
      (index ∉ state.worklist ∧ (state.enqueue index).worklist = index :: state.worklist) := by
  obtain ⟨flag, found⟩ : ∃ flag, state.queued[index]? = some flag :=
    ⟨_, List.getElem?_eq_getElem (queued.flags ▸ inside)⟩
  cases flag with
  | true =>
    left
    exact ⟨(queued.mem_iff index).mpr found, by simp [enqueue, found]⟩
  | false =>
    right
    refine ⟨fun member => ?_, by simp [enqueue, found]⟩
    have flagged := (queued.mem_iff index).mp member
    rw [found] at flagged
    cases flagged

theorem mem_enqueue (queued : state.Queued) {index other : Nat}
    (inside : index < state.frames.length) :
    other ∈ (state.enqueue index).worklist ↔ other = index ∨ other ∈ state.worklist := by
  rcases worklist_enqueue queued inside with ⟨member, same⟩ | ⟨_, same⟩
  · rw [same]
    constructor
    · exact .inr
    · rintro (rfl | old)
      · exact member
      · exact old
  · rw [same, List.mem_cons]

theorem Queued.enqueue (queued : state.Queued) {index : Nat}
    (inside : index < state.frames.length) : (state.enqueue index).Queued := by
  obtain ⟨flag, found⟩ : ∃ flag, state.queued[index]? = some flag :=
    ⟨_, List.getElem?_eq_getElem (queued.flags ▸ inside)⟩
  cases flag with
  | true =>
    have same : state.enqueue index = state := by simp [AnalysisState.enqueue, found]
    rw [same]
    exact queued
  | false =>
    have same : state.enqueue index =
        { state with queued := state.queued.set index true, worklist := index :: state.worklist } := by
      simp [AnalysisState.enqueue, found]
    have fresh : index ∉ state.worklist := by
      rw [queued.mem_iff, found]
      simp
    rw [same]
    refine ⟨by simpa using queued.flags, fun other => ?_, List.nodup_cons.mpr ⟨fresh, queued.nodup⟩⟩
    by_cases own : index = other
    · subst own
      simp [queued.flags ▸ inside]
    · simp [own, queued.mem_iff, eq_comm]

theorem next?_eq_some {index : Nat} {rest : AnalysisState V} :
    state.next? = some (index, rest) ↔
      ∃ others, state.worklist = index :: others ∧
        rest = { state with
          worklist := others
          queued := state.queued.set index false
          processed := state.processed + 1
          events := .processing index :: state.events } := by
  unfold next?
  split
  · rename_i empty
    simp [empty]
  · rename_i first others found
    simp only [found, Option.some.injEq, Prod.mk.injEq, List.cons.injEq]
    constructor
    · rintro ⟨rfl, rfl⟩
      exact ⟨others, ⟨rfl, rfl⟩, rfl⟩
    · rintro ⟨_, ⟨rfl, rfl⟩, rfl⟩
      exact ⟨rfl, rfl⟩

theorem next?_eq_none : state.next? = none ↔ state.worklist = [] := by
  unfold next?
  split <;> simp_all

theorem Queued.next? (queued : state.Queued) {index : Nat} {rest : AnalysisState V}
    (taken : state.next? = some (index, rest)) :
    rest.Queued ∧ ∀ other, other ∈ rest.worklist ↔ other ∈ state.worklist ∧ other ≠ index := by
  obtain ⟨others, found, rfl⟩ := next?_eq_some.mp taken
  have distinct := queued.nodup
  rw [found, List.nodup_cons] at distinct
  have members (other : Nat) : other ∈ others ↔ other ∈ state.worklist ∧ other ≠ index := by
    rw [found, List.mem_cons]
    constructor
    · intro member
      exact ⟨.inr member, fun same => distinct.1 (same ▸ member)⟩
    · rintro ⟨rfl | member, different⟩
      · exact absurd rfl different
      · exact member
  refine ⟨⟨by simpa using queued.flags, fun other => ?_, distinct.2⟩, members⟩
  rw [members, queued.mem_iff]
  by_cases own : index = other
  · subst own
    simp [List.getElem?_set]
  · simp [own, Ne.symm own]

/-- The state with a frame and a record put at an index, which is queued if either is new. -/
def updated (state : AnalysisState V) (index : Nat) (frame : Frame V)
    (record : Option Subroutine) (changed : Bool) : AnalysisState V :=
  let state :=
    { state with
      frames := state.frames.set index (some frame)
      subroutines := state.subroutines.set index record }
  if changed then (state.report (.changed index)).enqueue index else state

theorem check_eq_ok {α : Type} {index : Nat} {outcome : Except Fault α} {value : α} :
    state.check index outcome = .ok value ↔ outcome = .ok value := by
  cases outcome <;> simp [check]

theorem merge_eq_ok [AbstractValue V] {domain : Domain V} {after : AnalysisState V} {index : Nat}
    {frame : Frame V} {record : Option Subroutine} :
    state.merge domain index frame record = .ok after ↔
      index < state.frames.length ∧
        ∃ merged changed, joinFrame domain (state.frame? index) frame = .ok (merged, changed) ∧
          after = state.updated index merged (joinSubroutine (state.subroutine? index) record).1
            (changed || (joinSubroutine (state.subroutine? index) record).2) := by
  unfold merge
  split
  · rename_i inside
    simp only [inside, true_and, bind_eq_ok, check_eq_ok, Prod.exists, pure, Except.pure,
      Except.ok.injEq]
    constructor
    · rintro ⟨merged, changed, joined, same⟩
      exact ⟨merged, changed, joined, same.symm⟩
    · rintro ⟨merged, changed, joined, same⟩
      exact ⟨merged, changed, joined, same.symm⟩
  · rename_i outside
    simp [outside]

variable {index : Nat} {frame : Frame V} {record : Option Subroutine} {changed : Bool}

@[simp] theorem returns_updated :
    (state.updated index frame record changed).returns = state.returns := by
  unfold updated
  cases changed <;> simp [report]

@[simp] theorem processed_updated :
    (state.updated index frame record changed).processed = state.processed := by
  unfold updated
  cases changed <;> simp [report]

@[simp] theorem frames_updated :
    (state.updated index frame record changed).frames = state.frames.set index (some frame) := by
  unfold updated
  cases changed <;> simp [report]

@[simp] theorem subroutines_updated :
    (state.updated index frame record changed).subroutines =
      state.subroutines.set index record := by
  unfold updated
  cases changed <;> simp [report]

theorem frame?_updated (inside : index < state.frames.length) (other : Nat) :
    (state.updated index frame record changed).frame? other =
      if other = index then some frame else state.frame? other := by
  by_cases own : other = index
  · subst own
    simp [frame?, inside]
  · simp [frame?, own, Ne.symm own]

theorem subroutine?_updated (inside : index < state.subroutines.length) (other : Nat) :
    (state.updated index frame record changed).subroutine? other =
      if other = index then record else state.subroutine? other := by
  by_cases own : other = index
  · subst own
    simp [subroutine?, inside]
  · simp [subroutine?, own, Ne.symm own]

theorem worklist_updated :
    (state.updated index frame record changed).worklist =
      if changed then (state.enqueue index).worklist else state.worklist := by
  unfold updated
  cases changed with
  | false => rfl
  | true =>
    by_cases flagged : state.queued[index]?.getD true <;> simp [enqueue, report, flagged]

private theorem Queued.put (queued : state.Queued) (index : Nat) (frame : Frame V)
    (record : Option Subroutine) (events : List Event) :
    ({ state with
      frames := state.frames.set index (some frame)
      subroutines := state.subroutines.set index record
      events := events } : AnalysisState V).Queued :=
  ⟨by simpa using queued.flags, queued.mem_iff, queued.nodup⟩

theorem Queued.updated (queued : state.Queued) (inside : index < state.frames.length) :
    (state.updated index frame record changed).Queued := by
  unfold AnalysisState.updated
  cases changed with
  | false => exact queued.put index frame record state.events
  | true =>
    exact (queued.put index frame record (.changed index :: state.events)).enqueue
      (by simpa using inside)

theorem mem_updated (queued : state.Queued) (inside : index < state.frames.length) {other : Nat} :
    other ∈ (state.updated index frame record changed).worklist ↔
      (other = index ∧ changed = true) ∨ other ∈ state.worklist := by
  unfold updated
  cases changed with
  | false => simp
  | true =>
    rw [if_pos rfl, report,
      mem_enqueue (queued.put index frame record (.changed index :: state.events))
        (by simpa using inside)]
    simp

end AnalysisState

end MethodFlow
