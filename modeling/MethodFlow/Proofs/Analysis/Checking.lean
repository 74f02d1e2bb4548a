import MethodFlow.Proofs.Analysis.FixedPoint
import MethodFlow.Proofs.Analysis.Mirroring
import MethodFlow.Proofs.Domain.Checking

namespace MethodFlow

open ValueKind

theorem ValueKind.verifier_mirroredBy : verifier.MirroredBy (fun _ => True) domain where
  sites := verifier_mirroredAt
  merge _ _ := .same _
  height _ := Nat.le_refl _

theorem Frame.below_of_absorbs {shape : FrameShape ValueKind} {frame upper : Frame ValueKind}
    (fits : frame.Fits shape) (fits' : upper.Fits shape)
    (absorbs : upper.Absorbs ValueKind.domain frame) : frame.Below upper where
  locals := absorbs.locals.flip.imp fun _ _ => verifier_absorbs.mp
  stack := absorbs.stack.flip.imp fun _ _ => verifier_absorbs.mp
  placed := fits.placed
  returnValue := fits.returnValue.trans fits'.returnValue.symm

variable {owner : BinaryName} {method : Method} {table : LabelTable} {flow : Flow}

/-- Every operation passes the checks on the frame found for it. -/
def Analysis.Passes (method : Method) (analysis : Analysis ValueKind) : Prop :=
  ∀ index frame op, analysis.frame? index = some frame →
    method.nodes[index]? = some (.operation op) →
    ∃ after, frame.execute verifier ⟨index, op⟩ = .ok after

theorem Analysis.Passes.effect {analysis : Analysis ValueKind} (passes : analysis.Passes method)
    (resolved : method.Resolved table flow) {index : Nat} {frame : Frame ValueKind} {point : Point}
    (pointed : flow[index]? = some point) (found : analysis.frame? index = some frame) :
    ∃ after, point.action.effect verifier index frame = .ok after := by
  obtain ⟨node, stands, actioned, -⟩ := resolved.node_of_point pointed
  rw [effect_of_action actioned]
  cases node with
  | label | line => exact ⟨frame, rfl⟩
  | operation op => exact passes index frame op found stands

/-- An action that passes the checks on an approximation of a frame has the same effect on the frame
with and without checks. -/
theorem Frame.Below.effect {frame upper after : Frame ValueKind} {index : Nat} {action : Action}
    (below : frame.Below upper) (passed : action.effect verifier index upper = .ok after) :
    action.effect verifier index frame = action.effect ValueKind.domain index frame := by
  rcases action.idle_or_executes with rfl | ⟨operation, executes⟩
  · rfl
  · rw [executes] at passed
    rw [executes, executes]
    exact below.execute passed

theorem passes_of_analyze {analysis : Analysis ValueKind}
    (analyzed : analyze verifier owner method = .ok analysis) : analysis.Passes method := by
  intro index frame op found stands
  cases code : method.flags.hasNoCode with
  | true =>
    simp only [analyze, analyzeTraced, analyzeWithin, code, if_true, Except.ok.injEq] at analyzed
    subst analyzed
    cases found
  | false =>
    obtain ⟨flow, table, entry, start, final, count, prepared, run, done, rfl, resolved, coherent,
      stable, -⟩ := stable_of_result verifier_joins verifier_narrows code analyzed
    obtain ⟨point, pointed, actioned, -⟩ := resolved.points index _ stands
    obtain ⟨after, settled⟩ := stable index frame point (by simp [done]) found pointed
    refine ⟨after, ?_⟩
    have executed := settled.executed
    rwa [effect_of_action actioned] at executed

/-- A run over kinds is one of the verifier if what it comes to passes the checks: every frame on the
way is approximated by the one found in the end. -/
theorem AnalysisState.Run.checked {shape : FrameShape ValueKind} {entry : Frame ValueKind}
    {start final : AnalysisState ValueKind} {analysis : Analysis ValueKind} {count : Nat}
    (resolved : method.Resolved table flow) (isStart : start.IsStart flow shape entry)
    (run : Run ValueKind.domain flow shape.maxLocals start count final)
    (same : analysis.frames = final.frames) (passes : analysis.Passes method) :
    Run verifier flow shape.maxLocals start count final := by
  have carries : ValueKind.domain.Carries (fun _ => True) id verifier :=
    .of_values fun _ _ => .same _
  have visited {count further : Nat} {state popped : AnalysisState ValueKind} {index : Nat}
      {frame : Frame ValueKind} {point : Point}
      (run : Run ValueKind.domain flow shape.maxLocals start count state)
      (taken : state.next? = some (index, popped))
      (rest : Run ValueKind.domain flow shape.maxLocals state further final)
      (found : popped.frame? index = some frame) (pointed : flow[index]? = some point) :
      point.Carried (fun _ => True) id ValueKind.domain verifier index frame := by
    obtain ⟨coherent, stable, -⟩ :=
      run.stable domain_joins domain_narrows isStart.coherent isStart.stable
    obtain ⟨coherent', -, gains⟩ := rest.stable domain_joins domain_narrows coherent stable
    have before : state.frame? index = some frame := by
      rw [← found, frame?, frame?, (known_next? taken).1]
    obtain ⟨upper, found', absorbs⟩ := gains.frames index frame before
    have below : frame.Below upper :=
      Frame.below_of_absorbs (coherent.fits _ _ before) (coherent'.fits _ _ found') absorbs
    obtain ⟨after, passed⟩ := passes.effect resolved pointed
      (by rw [Analysis.frame?, same]; exact found')
    exact ⟨.of_ok fun after executed => (below.effect passed).trans executed, fun _ _ _ => .same _⟩
  simpa only [recast_id] using run.mirrored carries visited .start

/-- The verifier of kinds finds what the domain of kinds finds, exactly if every operation passes the
checks on the frame found for it. -/
theorem analyze_verifier_eq_ok {analysis : Analysis ValueKind} :
    analyze verifier owner method = .ok analysis ↔
      analyze ValueKind.domain owner method = .ok analysis ∧ analysis.Passes method := by
  constructor
  · intro analyzed
    exact ⟨verifier_mirroredBy.result.eq_ok analyzed, passes_of_analyze analyzed⟩
  · rintro ⟨analyzed, passes⟩
    cases code : method.flags.hasNoCode with
    | true => simpa [analyze, analyzeTraced, analyzeWithin, code] using analyzed
    | false =>
      obtain ⟨flow, entry, start, final, count, prepared, run, done, within, rfl⟩ :=
        run_within_of_result code analyzed
      obtain ⟨table, resolved⟩ := Method.resolved_of_flow prepared.resolved
      have checked := run.checked resolved (prepared.isStart domain_narrows) rfl passes
      have carries : ValueKind.domain.Carries (fun _ => True) id verifier :=
        .of_values fun _ _ => .same _
      have prepared' := prepared.mirrored carries
        (verifier_mirroredBy.initialFrame_eq.symm.trans prepared.entered)
      rw [AnalysisState.recast_id] at prepared'
      exact prepared'.result_of_run code checked done within

end MethodFlow
