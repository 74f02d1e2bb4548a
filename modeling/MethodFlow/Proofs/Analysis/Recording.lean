import MethodFlow.Proofs.Analysis.CallSites
import MethodFlow.Proofs.Analysis.Stages

namespace MethodFlow

open Relation (ReflTransGen)

namespace Subroutine

theorem prefix_mergeCallers (callers others : List Nat) :
    callers <+: mergeCallers callers others := by
  induction others generalizing callers with
  | nil => exact List.prefix_rfl
  | cons other rest ih =>
    rw [mergeCallers]
    by_cases known : callers.contains other = true
    · rw [if_pos known]
      exact ih callers
    · rw [if_neg known]
      exact (List.prefix_append callers [other]).trans (ih (callers ++ [other]))

/-- A record of the same subroutine that knows at least as much, with new callers after the old. -/
structure Continues (record earlier : Subroutine) : Prop extends Extends record earlier where
  order : earlier.callers <+: record.callers

theorem Continues.refl (record : Subroutine) : record.Continues record :=
  ⟨.refl record, List.prefix_rfl⟩

theorem Continues.trans {record middle earlier : Subroutine} (later : record.Continues middle)
    (sooner : middle.Continues earlier) : record.Continues earlier :=
  ⟨later.toExtends.trans sooner.toExtends, sooner.order.trans later.order⟩

theorem continues_merge {old new : Subroutine} (same : old.used.length = new.used.length) :
    (old.merge new).1.Continues old := by
  refine ⟨extends_merge same, ?_⟩
  simp only [merge]
  split
  · exact prefix_mergeCallers old.callers new.callers
  · exact List.prefix_rfl

end Subroutine

namespace AnalysisState

/-- The records of a state are coherent, and its returns are those of the records. -/
structure Recorded {V : Type} (flow : Flow) (maxLocals : Nat) (state : AnalysisState V) : Prop where
  length : state.subroutines.length = state.frames.length
  records : ∀ index record, state.subroutine? index = some record → record.Coherent flow maxLocals
  returns : ∀ entry ∈ state.returns, flow.IsReturn entry.2 ∧
    ∃ record, state.subroutine? entry.2 = some record ∧ record.start = some entry.1

/-- Every record and every return of one state is known in another one. -/
structure Continues {V : Type} (before after : AnalysisState V) : Prop where
  records : ∀ index old, before.subroutine? index = some old →
    ∃ new, after.subroutine? index = some new ∧ new.Continues old
  returns : ∀ entry ∈ before.returns, entry ∈ after.returns

theorem Continues.refl {V : Type} (state : AnalysisState V) : state.Continues state :=
  ⟨fun _ old found => ⟨old, found, .refl old⟩, fun _ member => member⟩

theorem Continues.trans {V : Type} {before middle after : AnalysisState V}
    (first : before.Continues middle) (second : middle.Continues after) :
    before.Continues after where
  records index old found := by
    obtain ⟨mid, found', continues⟩ := first.records index old found
    obtain ⟨new, found'', continues'⟩ := second.records index mid found'
    exact ⟨new, found'', continues'.trans continues⟩
  returns entry member := second.returns entry (first.returns entry member)

variable {V : Type} [AbstractValue V] {domain : Domain V} {flow : Flow} {maxLocals : Nat}
  {state after : AnalysisState V} {index : Nat}

omit [AbstractValue V] in
theorem joinSubroutine_continues {record : Subroutine} {other : Option Subroutine}
    (own : record.Coherent flow maxLocals)
    (recorded : ∀ new, other = some new → new.Coherent flow maxLocals) :
    ∃ merged, (joinSubroutine (some record) other).1 = some merged ∧ merged.Continues record := by
  cases other with
  | none => exact ⟨record, rfl, .refl record⟩
  | some new =>
    have same : record.used.length = new.used.length :=
      own.used.trans (recorded new rfl).used.symm
    exact ⟨_, rfl, Subroutine.continues_merge same⟩

theorem Recorded.merge {frame : Frame V} {record : Option Subroutine}
    (recorded : state.Recorded flow maxLocals)
    (fine : ∀ other, record = some other → other.Coherent flow maxLocals)
    (merged : state.merge domain index frame record = .ok after) :
    after.Recorded flow maxLocals ∧ state.Continues after := by
  obtain ⟨inside, own, changed, -, rfl⟩ := merge_eq_ok.mp merged
  have inside' : index < state.subroutines.length := recorded.length ▸ inside
  have kept : ∀ other old, state.subroutine? other = some old →
      ∃ new, (state.updated index own (joinSubroutine (state.subroutine? index) record).1
        (changed || (joinSubroutine (state.subroutine? index) record).2)).subroutine? other =
          some new ∧ new.Continues old := by
    intro other old found
    rw [subroutine?_updated inside']
    by_cases here : other = index
    · subst here
      rw [if_pos rfl, found]
      exact joinSubroutine_continues (recorded.records _ _ found) fine
    · rw [if_neg here]
      exact ⟨old, found, .refl old⟩
  refine ⟨⟨by simpa using recorded.length, ?_, ?_⟩, kept, by simp⟩
  · intro other found present
    rw [subroutine?_updated inside'] at present
    by_cases here : other = index
    · rw [if_pos here] at present
      exact (joinSubroutine_spec (recorded.records index) fine).1 found present
    · rw [if_neg here] at present
      exact recorded.records other found present
  · intro entry member
    rw [returns_updated] at member
    obtain ⟨returning, old, found, start⟩ := recorded.returns entry member
    obtain ⟨new, found', continues⟩ := kept entry.2 old found
    exact ⟨returning, new, found', continues.start.trans start⟩

/-- Records are coherent in the course of the loop, and each continues those before it. -/
theorem recorded_invariant :
    Invariant domain flow maxLocals (Recorded flow maxLocals) Continues where
  refl := .refl
  trans := .trans
  returns continues := continues.returns
  take := by
    intro state popped index recorded taken
    obtain ⟨others, -, rfl⟩ := next?_eq_some.mp taken
    exact ⟨⟨recorded.length, recorded.records, recorded.returns⟩, ⟨(Continues.refl state).records,
      fun _ member => member⟩⟩
  touch := by
    intro visit now next executes before recorded continues touches
    cases touches with
    | merge sends merged =>
      have sent := sends.coherent executes.pointed before.records recorded.records
      exact recorded.merge sent merged
    | requeue calls member =>
      exact ⟨⟨by simpa using recorded.length, by simpa using recorded.records,
        by simpa using recorded.returns⟩, by simpa using (Continues.refl now).records, by simp⟩
    | register returns inside started =>
      have kept (old : Subroutine) (found : visit.before.subroutine? visit.index = some old) :
          ∃ new, now.subroutine? visit.index = some new ∧ new.Extends old := by
        obtain ⟨new, found', later⟩ := continues.records visit.index old found
        exact ⟨new, found', later.toExtends⟩
      exact ⟨⟨recorded.length, recorded.records, returns_of_register executes.pointed returns inside
        started kept recorded.returns⟩, (Continues.refl now).records,
        fun entry member => Returns.mem_add.mpr (.inr member)⟩

end AnalysisState

section Analysis

variable {V : Type} [AbstractValue V] {domain : Domain V} {owner : BinaryName} {method : Method}
  {maxLocals : Nat} {maxStack : Option Nat} {flow : Flow} {entry : Frame V}
  {start : AnalysisState V}

theorem Prepared.start_recorded
    (prepared : Prepared domain owner method maxLocals maxStack flow entry start) :
    start.Recorded flow maxLocals := by
  obtain ⟨marks, marked, merged⟩ := prepared.started
  obtain ⟨-, coherent⟩ := subroutines_coherent marked
  have initial : (AnalysisState.initial marks
      [.started owner method.name method.descriptor] : AnalysisState V).Recorded flow maxLocals :=
    ⟨by simp [AnalysisState.initial], coherent, by simp [AnalysisState.initial]⟩
  exact (initial.merge (by simp) merged).1

theorem Method.Resolved.ret_of_isReturn {table : LabelTable} (resolved : method.Resolved table flow)
    {index : Nat} (returns : flow.IsReturn index) :
    ∃ slot, method.nodes[index]? = some (.branch (.ret slot)) := by
  obtain ⟨labelled, slot, handlers, pointed⟩ := returns
  obtain ⟨node, found, actioned, -⟩ := resolved.node_of_point pointed
  exact ⟨slot, Node.ret_of_action actioned ▸ found⟩

/-- At every stage of the loop, a record at an index is of one subroutine, with marks for all locals and
with distinct callers that call that subroutine. It is so at all later stages as well, with all marks
and with the same callers first. A return from a subroutine is a `ret` with a record of it. -/
theorem records_of_advances
    (prepared : Prepared domain owner method maxLocals maxStack flow entry start) {stage : Stage V}
    (reached : ReflTransGen (AnalysisState.Advances domain flow maxLocals) (.busy start []) stage) :
    (∀ index record, stage.state.subroutine? index = some record → ∃ target,
      record.start = some target ∧ record.used.length = maxLocals ∧ record.callers.Nodup ∧
      (∀ caller ∈ record.callers, method.Calls caller target) ∧
      ∀ later, ReflTransGen (AnalysisState.Advances domain flow maxLocals) stage later →
        ∃ new, later.state.subroutine? index = some new ∧ new.start = some target ∧
          (∀ slot : Nat, record.used[slot]? = some true → new.used[slot]? = some true) ∧
          record.callers <+: new.callers) ∧
      ∀ target ret, (target, ret) ∈ stage.state.returns →
        (∃ slot, method.nodes[ret]? = some (.branch (.ret slot))) ∧
          ∃ record, stage.state.subroutine? ret = some record ∧ record.start = some target := by
  obtain ⟨table, resolved⟩ := Method.resolved_of_flow prepared.resolved
  have initial : AnalysisState.Sound domain flow maxLocals (AnalysisState.Recorded flow maxLocals)
      AnalysisState.Continues (.busy start []) :=
    AnalysisState.sound_of_start prepared.start_recorded
  obtain ⟨sound, -⟩ := initial.reach AnalysisState.recorded_invariant reached
  constructor
  · intro index record found
    have coherent := sound.kept.records index record found
    obtain ⟨target, started, called⟩ := coherent.entered
    refine ⟨target, started, coherent.used, coherent.distinct,
      fun caller member => resolved.calls_of_called? (called caller member), ?_⟩
    intro later further
    obtain ⟨-, continues⟩ := sound.reach AnalysisState.recorded_invariant further
    obtain ⟨new, found', later⟩ := continues.records index record found
    exact ⟨new, found', later.start.trans started, later.used, later.order⟩
  · intro target ret member
    obtain ⟨returns, record, found, started⟩ := sound.kept.returns _ member
    exact ⟨resolved.ret_of_isReturn returns, record, found, started⟩

/-- Both calls of a subroutine stand in the record of its `ret` at the end. -/
theorem twoCalls_recorded : ∃ start final record,
    Prepared ValueKind.verifier .object twoCalls 2 (some 1) twoCallsFlow
      (.entry [.unusable, .unusable] (some 1) none) start ∧
    ReflTransGen (AnalysisState.Advances ValueKind.verifier twoCallsFlow 2) (.busy start [])
      (.busy final []) ∧
    final.subroutine? 9 = some record ∧ record.start = some 7 ∧ record.callers = [2, 5] ∧
    record.used.length = 2 ∧ ∀ caller ∈ record.callers, twoCalls.Calls caller 7 := by
  obtain ⟨start, final, count, prepared, run, -, -, -, found⟩ := twoCalls_run
  refine ⟨start, final, _, prepared, run.advances, found, rfl, rfl, ?_⟩
  obtain ⟨target, started, used, -, called, -⟩ :=
    (records_of_advances prepared run.advances).1 9 _ found
  cases started
  exact ⟨used, called⟩

end Analysis

end MethodFlow
