import MethodFlow.Domain.ValueKind
import MethodFlow.Proofs.Analysis.Evaluation

namespace MethodFlow

open Relation (ReflTransGen)

/-- Control goes from one index to another: along the code, to a label that is jumped to, or into a
handler that covers the index. -/
inductive Method.Edge (method : Method) (index : Nat) : Nat → Prop where
  | onward {target : Nat} (leads : method.Leads index target) : Edge method index target
  | caught {handler : ExceptionHandler} {target : Nat} (member : handler ∈ method.handlers)
      (protects : method.Protects handler index)
      (placed : method.Places handler.handler target) : Edge method index target

/-- Control goes from one point to another: to a successor or into a handler. -/
inductive Flow.Edge (flow : Flow) (index : Nat) : Nat → Prop where
  | onward {point : Point} {target : Nat} (pointed : flow[index]? = some point)
      (successor : target ∈ point.action.successors index) : Edge flow index target
  | caught {point : Point} {handler : ExceptionHandler} {target : Nat}
      (pointed : flow[index]? = some point) (member : (target, handler) ∈ point.handlers) :
      Edge flow index target

/-- Without calls, control goes between the points of a method as it does between its nodes. -/
theorem Method.Resolved.edge_iff {method : Method} {table : LabelTable} {flow : Flow}
    (resolved : method.Resolved table flow) (callless : method.HasNoCall) {index target : Nat} :
    flow.Edge index target ↔ method.Edge index target := by
  constructor
  · intro edge
    cases edge with
    | onward pointed successor =>
      obtain ⟨node, found, actioned, -⟩ := resolved.node_of_point pointed
      have plain := Action.plain_of_successor successor
      exact .onward (resolved.leads_of_successor found actioned plain successor)
    | caught pointed member =>
      obtain ⟨node, found, actioned, handlers⟩ := resolved.node_of_point pointed
      obtain ⟨known, protects, placed⟩ := (handlers _ _).mp member
      exact .caught known protects placed
  · intro edge
    have pointed (inside : index < method.nodes.length) :=
      resolved.points index _ (List.getElem?_eq_getElem inside)
    cases edge with
    | onward leads =>
      have inside : index < method.nodes.length := by
        cases leads with
        | next found | jump found => exact (List.getElem?_eq_some_iff.mp found).1
      obtain ⟨point, pointed, actioned, -⟩ := pointed inside
      rcases resolved.successor_of_leads (List.getElem?_eq_getElem inside) actioned leads with
        ⟨labelled, calls⟩ | ⟨-, successor⟩
      · obtain ⟨label, called⟩ := Node.jsr_of_action (calls ▸ actioned)
        exact absurd (called ▸ List.getElem_mem inside) (callless label)
      · exact .onward pointed successor
    | caught member protects placed =>
      have inside : index < method.nodes.length := by
        obtain ⟨first, past, -, ended, -, before⟩ := protects
        exact Nat.lt_trans before (List.getElem?_eq_some_iff.mp ended).1
      obtain ⟨point, pointed, -, handlers⟩ := pointed inside
      exact .caught pointed ((handlers _ _).mpr ⟨member, protects, placed⟩)

namespace AnalysisState

variable {V : Type} {flow : Flow} {source index target : Nat} {state : AnalysisState V}

/-- Does an index have a frame? -/
def Framed (state : AnalysisState V) (index : Nat) : Prop :=
  (state.frame? index).isSome

/-- A state of an analysis of code without calls: no index lies in a subroutine. -/
structure Bare (flow : Flow) (state : AnalysisState V) : Prop extends Queued state where
  length : state.frames.length = flow.length
  unrecorded : ∀ index, state.subroutine? index = none

/-- Frames spread from an index: only to where control goes from there, and to be processed. -/
structure Spreads (flow : Flow) (source : Nat) (before after : AnalysisState V) : Prop where
  framed : ∀ index, before.Framed index → after.Framed index
  queued : ∀ index ∈ before.worklist, index ∈ after.worklist
  fresh : ∀ index, after.Framed index →
    before.Framed index ∨ (flow.Edge source index ∧ index ∈ after.worklist)

theorem Spreads.refl (flow : Flow) (source : Nat) (state : AnalysisState V) :
    Spreads flow source state state where
  framed _ framed := framed
  queued _ member := member
  fresh _ framed := .inl framed

theorem Spreads.trans {before middle after : AnalysisState V}
    (first : Spreads flow source before middle) (second : Spreads flow source middle after) :
    Spreads flow source before after where
  framed index framed := second.framed index (first.framed index framed)
  queued index member := second.queued index (first.queued index member)
  fresh index framed := by
    rcases second.fresh index framed with earlier | new
    · rcases first.fresh index earlier with earliest | ⟨edge, member⟩
      · exact .inl earliest
      · exact .inr ⟨edge, second.queued index member⟩
    · exact .inr new

/-- Which indices have frames when every index is settled: those that control reaches. -/
structure Reached (flow : Flow) (state : AnalysisState V) : Prop extends Bare flow state where
  first : state.Framed 0
  sound : ∀ index, state.Framed index → ReflTransGen flow.Edge 0 index
  onward : ∀ index target, state.Framed index → index ∉ state.worklist →
    flow.Edge index target → state.Framed target

variable [AbstractValue V] {domain : Domain V} {frame : Frame V} {next final : AnalysisState V}

theorem Bare.merge (bare : state.Bare flow)
    (merged : state.merge domain target frame none = .ok next) :
    next.Bare flow ∧ (∀ index, next.Framed index ↔ index = target ∨ state.Framed index) ∧
      (∀ index ∈ state.worklist, index ∈ next.worklist) ∧
      (state.Framed target ∨ target ∈ next.worklist) := by
  obtain ⟨inside, own, changed, joined, rfl⟩ := merge_eq_ok.mp merged
  have kept (record : Option Subroutine) : (joinSubroutine record none).1 = record := by
    cases record <;> rfl
  refine ⟨⟨bare.toQueued.updated inside, by simpa using bare.length, fun index => ?_⟩, fun index => ?_,
    fun index member => ?_, ?_⟩
  · have blank := bare.unrecorded index
    rw [subroutine?] at blank ⊢
    rw [subroutines_updated, kept, bare.unrecorded, List.getElem?_set]
    split
    · split <;> rfl
    · exact blank
  · rw [Framed, frame?_updated inside, Framed]
    split
    · rename_i same
      simp [same]
    · rename_i other
      simp [other]
  · exact (mem_updated bare.toQueued inside).mpr (.inr member)
  · cases found : state.frame? target with
    | some old => exact .inl (by rw [Framed, found]; rfl)
    | none =>
      rw [found] at joined
      cases joined
      exact .inr ((mem_updated bare.toQueued inside).mpr (.inl ⟨rfl, rfl⟩))

variable {maxLocals : Nat} {visit : Visit V}

/-- Without records and calls, an index sends on only to where control goes from it. -/
theorem Sends.edge (uncalled : ∀ index, flow.called? index = none)
    (pointed : flow[visit.index]? = some visit.point) (bare : visit.before.Bare flow)
    {sent : Frame V} {record : Option Subroutine}
    (sends : Sends domain maxLocals visit state target sent record) :
    flow.Edge visit.index target ∧ record = none := by
  have outside : visit.record = none := record_eq_none (bare.unrecorded visit.index)
  cases sends with
  | onward plain successor => exact ⟨.onward pointed successor, outside⟩
  | call calls => cases (uncalled visit.index).symm.trans (Flow.called?_of_call pointed calls)
  | back returns inside => cases outside.symm.trans inside
  | handler member => exact ⟨.caught pointed member, outside⟩

theorem Touches.spreads (uncalled : ∀ index, flow.called? index = none)
    (pointed : flow[visit.index]? = some visit.point) (before : visit.before.Bare flow)
    (bare : state.Bare flow) (touches : Touches domain maxLocals visit state next) :
    next.Bare flow ∧ Spreads flow visit.index state next := by
  cases touches with
  | merge sends merged =>
    obtain ⟨edge, rfl⟩ := sends.edge uncalled pointed before
    obtain ⟨bare', framed, queued, fresh⟩ := bare.merge merged
    refine ⟨bare', fun index known => (framed index).mpr (.inr known), queued, ?_⟩
    intro index known
    rcases (framed index).mp known with rfl | earlier
    · exact fresh.imp id fun member => ⟨edge, member⟩
    · exact .inl earlier
  | requeue calls => cases (uncalled visit.index).symm.trans (Flow.called?_of_call pointed calls)
  | register returns inside =>
    cases (record_eq_none (before.unrecorded visit.index)).symm.trans inside

theorem steps_spread (uncalled : ∀ index, flow.called? index = none)
    (pointed : flow[visit.index]? = some visit.point) (before : visit.before.Bare flow)
    (bare : state.Bare flow) (steps : ReflTransGen (Touches domain maxLocals visit) state final) :
    final.Bare flow ∧ Spreads flow visit.index state final := by
  induction steps with
  | refl => exact ⟨bare, .refl flow visit.index state⟩
  | tail steps touches ih =>
    obtain ⟨bare', spreads⟩ := ih
    obtain ⟨bare'', further⟩ := touches.spreads uncalled pointed before bare'
    exact ⟨bare'', spreads.trans further⟩

theorem Delivers.framed (uncalled : ∀ index, flow.called? index = none)
    (pointed : flow[visit.index]? = some visit.point) (before : visit.before.Bare flow)
    {sent : Frame V} {record : Option Subroutine}
    (sends : ∀ now, Sends domain maxLocals visit now target sent record)
    (delivers : Delivers domain (Touches domain maxLocals visit) target sent record visit.before
      final) : final.Framed target := by
  obtain ⟨now, next, earlier, merged, later⟩ := delivers
  obtain ⟨bare, -⟩ := steps_spread uncalled pointed before before earlier
  obtain ⟨-, rfl⟩ := (sends now).edge uncalled pointed before
  obtain ⟨bare', framed, -⟩ := bare.merge merged
  obtain ⟨-, spreads⟩ := steps_spread uncalled pointed before bare' later
  exact spreads.framed target ((framed target).mpr (.inl rfl))

theorem Processed.spreads (uncalled : ∀ index, flow.called? index = none)
    (pointed : flow[visit.index]? = some visit.point) (bare : visit.before.Bare flow)
    (processed : Processed domain maxLocals visit final) :
    final.Bare flow ∧ Spreads flow visit.index visit.before final ∧
      ∀ target, flow.Edge visit.index target → final.Framed target := by
  obtain ⟨bare', spreads⟩ := steps_spread uncalled pointed bare bare processed.steps
  refine ⟨bare', spreads, ?_⟩
  intro target edge
  cases edge with
  | onward pointed' successor =>
    cases pointed.symm.trans pointed'
    have plain := Action.plain_of_successor successor
    exact (processed.onward plain target successor).framed uncalled pointed bare
      fun _ => .onward plain successor
  | caught pointed' member =>
    cases pointed.symm.trans pointed'
    obtain ⟨caught, pushed, delivers⟩ := processed.handlers _ _ member
    exact delivers.framed uncalled pointed bare fun _ => .handler member pushed

omit [AbstractValue V] in
theorem Bare.next? {popped : AnalysisState V} (bare : state.Bare flow)
    (taken : state.next? = some (index, popped)) : popped.Bare flow := by
  obtain ⟨queued, -⟩ := bare.toQueued.next? taken
  obtain ⟨frames, subroutines, -⟩ := known_next? taken
  refine ⟨queued, frames ▸ bare.length, fun other => ?_⟩
  rw [subroutine?, subroutines]
  exact bare.unrecorded other

theorem Reached.process {popped : AnalysisState V} (uncalled : ∀ index, flow.called? index = none)
    (reached : state.Reached flow) (taken : state.next? = some (index, popped))
    (processed : popped.process domain flow maxLocals index = .ok final) : final.Reached flow := by
  have bare : popped.Bare flow := reached.toBare.next? taken
  have known (other : Nat) : popped.Framed other ↔ state.Framed other := by
    rw [Framed, frame?, (known_next? taken).1, Framed, frame?]
  obtain ⟨bare', spreads, own⟩ : final.Bare flow ∧ Spreads flow index popped final ∧
      ∀ target, popped.Framed index → flow.Edge index target → final.Framed target := by
    cases found : popped.frame? index with
    | none =>
      obtain rfl := process_idle (.inl found) processed
      refine ⟨bare, .refl flow index final, fun target framed => ?_⟩
      rw [Framed, found] at framed
      cases framed
    | some frame =>
      cases pointed : flow[index]? with
      | none =>
        obtain rfl := process_idle (.inr pointed) processed
        refine ⟨bare, .refl flow index final, fun target _ edge => ?_⟩
        cases edge with
        | onward pointed' | caught pointed' => cases pointed.symm.trans pointed'
      | some point =>
        obtain ⟨after, visited⟩ := process_eq_ok found pointed processed
        obtain ⟨bare', spreads, framed⟩ := visited.spreads uncalled pointed bare
        exact ⟨bare', spreads, fun target _ => framed target⟩
  refine ⟨bare', spreads.framed 0 ((known 0).mpr reached.first), fun other framed => ?_,
    fun other target framed unqueued edge => ?_⟩
  · rcases spreads.fresh other framed with earlier | ⟨edge, -⟩
    · exact reached.sound other ((known other).mp earlier)
    · -- the index itself is reached, for it was on the worklist
      by_cases here : popped.Framed index
      · exact (reached.sound index ((known index).mp here)).tail edge
      · rw [Framed, Option.not_isSome_iff_eq_none] at here
        obtain rfl := process_idle (.inl here) processed
        exact reached.sound other ((known other).mp framed)
  · rcases spreads.fresh other framed with earlier | ⟨-, queued⟩
    · by_cases same : other = index
      · subst same
        exact own target earlier edge
      · have waiting : other ∉ state.worklist := fun member => unqueued
          (spreads.queued other (((reached.toQueued.next? taken).2 other).mpr ⟨member, same⟩))
        exact spreads.framed target ((known target).mpr
          (reached.onward other target ((known other).mp earlier) waiting edge))
    · exact absurd queued unqueued

/-- Throughout a run, only what control reaches has a frame, and control from what is not queued goes
to frames. -/
theorem Run.reached {start : AnalysisState V} {count : Nat}
    (uncalled : ∀ index, flow.called? index = none) (reached : start.Reached flow)
    (run : Run domain flow maxLocals start count final) : final.Reached flow := by
  induction run with
  | start => exact reached
  | step run taken processed ih => exact ih.process uncalled taken processed

omit [AbstractValue V] in
/-- When nothing is queued, the indices with frames are those that control reaches. -/
theorem Reached.framed_iff (reached : state.Reached flow) (done : state.worklist = [])
    (index : Nat) : state.Framed index ↔ ReflTransGen flow.Edge 0 index := by
  constructor
  · exact reached.sound index
  · intro path
    induction path with
    | refl => exact reached.first
    | tail path edge ih => exact reached.onward _ _ ih (by simp [done]) edge

end AnalysisState

variable {V : Type} [AbstractValue V] {domain : Domain V} {owner : BinaryName} {method : Method}

theorem Prepared.reached {maxLocals : Nat} {maxStack : Option Nat} {flow : Flow} {entry : Frame V}
    {start : AnalysisState V} (uncalled : ∀ index, flow.called? index = none)
    (prepared : Prepared domain owner method maxLocals maxStack flow entry start) :
    start.Reached flow := by
  obtain ⟨marks, marked, merged⟩ := prepared.started
  have initial : (AnalysisState.initial marks
      [.started owner method.name method.descriptor] : AnalysisState V).Coherent flow
        (method.frameShape domain maxLocals maxStack) := initial_coherent marked
  have blank (index : Nat) : ¬(AnalysisState.initial marks
      [.started owner method.name method.descriptor] : AnalysisState V).Framed index := by
    simp only [AnalysisState.Framed, AnalysisState.frame?, AnalysisState.initial,
      List.getElem?_replicate]
    split <;> simp
  have bare : (AnalysisState.initial marks
      [.started owner method.name method.descriptor] : AnalysisState V).Bare flow :=
    ⟨initial.toQueued, initial.frames_length, subroutines_uncalled uncalled marked⟩
  obtain ⟨bare', framed, -, queued⟩ := bare.merge merged
  have waiting : 0 ∈ start.worklist := queued.resolve_left (blank 0)
  have first (index : Nat) (known : start.Framed index) : index = 0 :=
    ((framed index).mp known).resolve_right (blank index)
  refine ⟨bare', (framed 0).mpr (.inl rfl), fun index known => ?_,
    fun index target known unqueued => ?_⟩
  · rw [first index known]
  · rw [first index known] at unqueued
    exact absurd waiting unqueued

/-- An analysis of a method without calls finds a frame exactly where control can come to from the
first node. -/
theorem framed_iff_reachable {analysis : Analysis V} (code : method.flags.hasNoCode = false)
    (callless : method.HasNoCall) (analyzed : analyze domain owner method = .ok analysis)
    (index : Nat) :
    (analysis.frame? index).isSome ↔ ReflTransGen method.Edge 0 index := by
  obtain ⟨flow, entry, start, final, count, prepared, run, done, rfl⟩ :=
    run_of_result code analyzed
  obtain ⟨table, resolved⟩ := Method.resolved_of_flow prepared.resolved
  have uncalled := resolved.uncalled callless
  have reached : final.Reached flow := run.reached uncalled (prepared.reached uncalled)
  have same : flow.Edge = method.Edge := by
    funext index target
    exact propext (resolved.edge_iff callless)
  rw [← same]
  exact reached.framed_iff done index

/-- Skips a constant behind a switch whose exceptions a handler drops. -/
def skippingSwitch : Method where
  flags := .static
  name := ⟨"skip".toList, by decide⟩
  descriptor := ⟨[.base .int], none⟩
  nodes := [.label ⟨0⟩, .instruction (.load .int 0), .branch (.tableSwitch ⟨2⟩ 0 [⟨0⟩, ⟨2⟩]),
    .label ⟨1⟩, .instruction (.shortConstant .int0), .label ⟨2⟩, .branch .voidReturn, .label ⟨3⟩,
    .instruction (.shuffle .pop), .branch (.goto ⟨2⟩)]
  handlers := [⟨⟨0⟩, ⟨1⟩, ⟨3⟩, none⟩]
  maxStack := 1
  maxLocals := 1

/-- The constant and the label before it have no frame, for control skips them. -/
theorem skippingSwitch_framed : ∃ analysis,
    analyze ValueKind.verifier .object skippingSwitch = .ok analysis ∧
      analysis.unreachable = [3, 4] ∧
      ∀ index, (analysis.frame? index).isSome ↔ ReflTransGen skippingSwitch.Edge 0 index := by
  have found : (analyze ValueKind.verifier .object skippingSwitch).map Analysis.unreachable =
      .ok [3, 4] := by cbv
  obtain ⟨analysis, analyzed, unreachable⟩ := map_eq_ok.mp found
  have callless : skippingSwitch.HasNoCall := by
    simp [Method.HasNoCall, skippingSwitch, Node.branch, Node.instruction]
  exact ⟨analysis, analyzed, unreachable, framed_iff_reachable (by decide) callless analyzed⟩

end MethodFlow
