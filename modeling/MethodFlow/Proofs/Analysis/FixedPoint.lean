import MethodFlow.Proofs.Analysis.Evaluation
import MethodFlow.Proofs.Domain.Policies

namespace MethodFlow

variable {V : Type} [AbstractValue V]

structure FixedPoint (domain : Domain V) (owner : BinaryName) (method : Method)
    (analysis : Analysis V) : Prop where
  length : analysis.frames.length = method.nodes.length
  entry : ∃ entry first,
    initialFrame domain owner method method.maxLocals (some method.maxStack) = .ok entry ∧
      analysis.frame? 0 = some first ∧ first.Absorbs domain entry
  onward : ∀ index frame, analysis.frame? index = some frame → ∃ node after,
    method.nodes[index]? = some node ∧ node.effect domain index frame = .ok after ∧
      (∀ label ∈ node.targets, ∃ target, method.Places label target) ∧
      ∀ target, method.Leads index target →
        ∃ next, analysis.frame? target = some next ∧ next.Absorbs domain after
  caught : ∀ index frame handler, analysis.frame? index = some frame →
    handler ∈ method.handlers → method.Protects handler index → ∃ target caught,
      method.Places handler.handler target ∧ analysis.frame? target = some caught ∧
        List.Forall₂ domain.Absorbs caught.locals frame.locals ∧
        List.Forall₂ domain.Absorbs caught.stackValues [domain.exception handler.caught]

variable {domain : Domain V}

namespace AnalysisState

variable {flow : Flow} {shape : FrameShape V} {entry : Frame V} {start final : AnalysisState V}
  {count : Nat}

theorem IsStart.stable {above : Frame V → Frame V → Prop}
    (isStart : start.IsStart flow shape entry) :
    StableUnder domain above flow shape.maxLocals start := by
  intro index frame point unqueued found
  obtain ⟨rfl, -⟩ := (isStart.frames index frame).mp found
  rw [isStart.worklist] at unqueued
  exact absurd List.mem_cons_self unqueued

theorem SettledUnder.arrived {above : Frame V → Frame V → Prop} {method : Method}
    {table : LabelTable}
    (resolved : method.Resolved table flow) {index target : Nat} {node : Node} {point : Point}
    {frame after : Frame V} {maxLocals : Nat} (found : method.nodes[index]? = some node)
    (actioned : node.action table = .ok point.action)
    (settled : SettledUnder domain above maxLocals ⟨start, index, point, frame, after⟩)
    (leads : method.Leads index target) :
    ∃ next, start.frame? target = some next ∧ above next after := by
  rcases resolved.successor_of_leads found actioned leads with ⟨labelled, calls⟩ | ⟨plain, member⟩
  · exact (settled.call labelled target calls).frame
  · exact (settled.onward plain target member).frame

end AnalysisState

/-- What an analysis of code returns is settled everywhere, and absorbs what it starts from. -/
theorem stable_of_result (joins : domain.Joins) (narrows : domain.Narrows) {owner : BinaryName}
    {method : Method} {maxLocals : Nat} {maxStack : Option Nat} {analysis : Analysis V}
    (code : method.flags.hasNoCode = false)
    (analyzed : (analyzeWithin domain owner method maxLocals maxStack).result = .ok analysis) :
    ∃ flow table entry start final count,
      Prepared domain owner method maxLocals maxStack flow entry start ∧
      AnalysisState.Run domain flow maxLocals start count final ∧ final.worklist = [] ∧
      analysis = ⟨final.frames, some entry, final.processed⟩ ∧ method.Resolved table flow ∧
      final.Coherent flow (method.frameShape domain maxLocals maxStack) ∧
      AnalysisState.Stable domain flow maxLocals final ∧
      AnalysisState.Gains (Frame.Absorbs domain) start final := by
  obtain ⟨flow, entry, start, final, count, prepared, run, done, same⟩ :=
    run_of_result code analyzed
  have isStart := prepared.isStart narrows
  obtain ⟨coherent, stable, gains⟩ := run.stable joins narrows isStart.coherent isStart.stable
  obtain ⟨table, resolved⟩ := Method.resolved_of_flow prepared.resolved
  exact ⟨flow, table, entry, start, final, count, prepared, run, done, same, resolved, coherent,
    stable, gains⟩

/-- What a handler gets: the locals as they were, and the exception alone on the stack. -/
theorem Frame.caught_of_push {frame caught : Frame V} {value : V}
    (pushed : frame.clearStack.push value = .ok caught) :
    caught.locals = frame.locals ∧ caught.stackValues = [value] := by
  refine ⟨?_, by simpa [stackValues, clearStack] using stackValues_push pushed⟩
  obtain ⟨rfl, -⟩ := push_eq_ok.mp pushed
  rfl

theorem FixedPoint.of_joins (joins : domain.Joins) (narrows : domain.Narrows) {owner : BinaryName}
    {method : Method} {analysis : Analysis V} (code : method.flags.hasNoCode = false)
    (analyzed : analyze domain owner method = .ok analysis) :
    FixedPoint domain owner method analysis := by
  obtain ⟨flow, table, entry, start, final, count, prepared, -, done, rfl, resolved, coherent,
    stable, gains⟩ := stable_of_result joins narrows code analyzed
  have isStart := prepared.isStart narrows
  have stands (index : Nat) (frame : Frame V) (found : final.frame? index = some frame) :
      ∃ node, method.nodes[index]? = some node :=
    ⟨_, List.getElem?_eq_getElem (resolved.length ▸ coherent.inside found)⟩
  refine ⟨coherent.frames_length.trans resolved.length, ?_, ?_, ?_⟩
  · obtain ⟨first, found, absorbs⟩ := gains.frames 0 entry ((isStart.frames 0 entry).mpr ⟨rfl, rfl⟩)
    exact ⟨entry, first, prepared.entered, found, absorbs⟩
  · intro index frame found
    obtain ⟨node, stands⟩ := stands index frame found
    obtain ⟨point, pointed, actioned, -⟩ := resolved.points index node stands
    obtain ⟨after, settled⟩ := stable index frame point (by simp [done]) found pointed
    refine ⟨node, after, stands, ?_, fun label => resolved.target_placed actioned,
      fun target => settled.arrived resolved stands actioned⟩
    rw [← effect_of_action actioned]
    exact settled.executed
  · intro index frame handler found member protects
    obtain ⟨node, stands⟩ := stands index frame found
    obtain ⟨point, pointed, -, handlers⟩ := resolved.points index node stands
    obtain ⟨after, settled⟩ := stable index frame point (by simp [done]) found pointed
    obtain ⟨target, placed⟩ := resolved.handlers handler member
    obtain ⟨caught, pushed, arrived⟩ :=
      settled.handlers target handler ((handlers target handler).mpr ⟨member, protects, placed⟩)
    obtain ⟨later, found', absorbs⟩ := arrived.frame
    obtain ⟨locals, values⟩ := Frame.caught_of_push pushed
    exact ⟨target, later, placed, found', locals ▸ absorbs.locals, values ▸ absorbs.stack⟩

/-- The result of an analysis is a fixed point. Control from a `jsr` leads into the subroutine here,
and what a `ret` brings back is not said. -/
theorem fixedPoint_of_analyze (provided : domain.Provided) {owner : BinaryName} {method : Method}
    {analysis : Analysis V} (code : method.flags.hasNoCode = false)
    (analyzed : analyze domain owner method = .ok analysis) :
    FixedPoint domain owner method analysis :=
  .of_joins provided.joins provided.policy.narrows code analyzed

/-- Counts in a loop whose exceptions a handler stores over the counter. -/
def countingLoop : Method where
  flags := .static
  name := ⟨"count".toList, by decide⟩
  descriptor := ⟨[], none⟩
  nodes := [.instruction (.shortConstant .int0), .instruction (.store .int 0), .label ⟨0⟩,
    .instruction (.increment 0 1), .branch (.goto ⟨0⟩), .label ⟨1⟩,
    .instruction (.store .reference 0), .branch .voidReturn]
  handlers := [⟨⟨0⟩, ⟨1⟩, ⟨1⟩, none⟩]
  maxStack := 1
  maxLocals := 1

theorem countingLoop_fixedPoint : ∃ analysis,
    analyze (VerificationType.verifier ClassGraph.library.hierarchy) .object countingLoop =
        .ok analysis ∧
      FixedPoint (VerificationType.verifier ClassGraph.library.hierarchy) .object countingLoop
        analysis := by
  obtain ⟨analysis, analyzed⟩ : ∃ analysis,
      analyze (VerificationType.verifier ClassGraph.library.hierarchy) .object countingLoop =
        .ok analysis := isOk_iff.mp (by cbv)
  exact ⟨analysis, analyzed,
    fixedPoint_of_analyze ⟨_, ClassGraph.library_wellFormed, _, .simple⟩ (by decide) analyzed⟩

end MethodFlow
