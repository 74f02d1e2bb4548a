import Mathlib.Tactic.IntervalCases
import MethodFlow.Proofs.Analysis.FixedPoint
import MethodFlow.Proofs.Analysis.Usage

namespace MethodFlow

open Relation (ReflTransGen)

variable {V : Type} [AbstractValue V] {domain : Domain V} {flow : Flow} {shape : FrameShape V}
  {visit : Visit V} {call slot : Nat}

/-- Control comes to the index after a call only from its subroutine. -/
structure Flow.OnlyReturns (flow : Flow) (call : Nat) : Prop where
  called : ∃ target, flow.called? call = some target
  onward : ∀ (index : Nat) (point : Point), flow[index]? = some point → point.action.isPlain = true →
    call + 1 ∉ point.action.successors index
  entered : ∀ index, flow.called? index ≠ some (call + 1)
  caught : ∀ (index : Nat) (point : Point) handler, flow[index]? = some point →
    (call + 1, handler) ∉ point.handlers

/-- Nothing jumps or calls to the node after a call, and no handler starts there. -/
structure Method.Untargeted (method : Method) (index : Nat) : Prop where
  jumps : ∀ node ∈ method.nodes, ∀ label ∈ node.targets, ¬method.Places label index
  handlers : ∀ handler ∈ method.handlers, ¬method.Places handler.handler index

theorem Method.Resolved.onlyReturns {method : Method} {table : LabelTable} {label : Label}
    (resolved : method.Resolved table flow)
    (called : method.nodes[call]? = some (.branch (.jsr label)))
    (untargeted : method.Untargeted (call + 1)) : flow.OnlyReturns call := by
  obtain ⟨point, pointed, actioned, -⟩ := resolved.points call _ called
  obtain ⟨renamed, mapped, same⟩ := bind_eq_ok.mp actioned
  obtain ⟨target, found, own⟩ := bind_eq_ok.mp mapped
  cases own
  have own : point.action = .branch (.jsr label) (.jsr target) := (Except.ok.inj same).symm
  have unjumped (index : Nat) (leads : method.Leads index (call + 1)) : index = call := by
    cases leads with
    | next => rfl
    | jump found jumps placed =>
      exact absurd placed (untargeted.jumps _ (List.mem_of_getElem? found) _ jumps)
  refine ⟨⟨target, Flow.called?_of_call pointed own⟩, ?_, ?_, ?_⟩
  · intro index other pointed' plain successor
    obtain ⟨node, found, actioned', -⟩ := resolved.node_of_point pointed'
    obtain rfl := unjumped index (resolved.leads_of_successor found actioned' plain successor)
    cases pointed.symm.trans pointed'
    rw [own] at plain
    cases plain
  · intro index entered
    obtain ⟨label', found, placed⟩ := resolved.calls_of_called? entered
    exact untargeted.jumps _ (List.mem_of_getElem? found) label' List.mem_cons_self placed
  · intro index other handler pointed' member
    obtain ⟨node, -, -, handlers⟩ := resolved.node_of_point pointed'
    obtain ⟨known, -, placed⟩ := (handlers _ _).mp member
    exact untargeted.handlers handler known placed

namespace AnalysisState

variable {state now next final : AnalysisState V} {index count : Nat}

/-- No `ret` that is known to return to a call has marked a local or goes through it. -/
def Untouched (flow : Flow) (state : AnalysisState V) (call slot : Nat) : Prop :=
  ∀ ret labelled own handlers record,
    flow[ret]? = some ⟨.branch labelled (.ret own), handlers⟩ →
    state.subroutine? ret = some record → call ∈ record.callers →
    record.used[slot]? ≠ some true ∧ own ≠ slot

/-- What is known after a call came back from a `ret`, and the call absorbs it in the locals that are
untouched in the end. -/
def Kept (domain : Domain V) (flow : Flow) (final : AnalysisState V) (call : Nat)
    (state : AnalysisState V) : Prop :=
  ∀ after, state.frame? (call + 1) = some after →
    Answered flow state call ∧ ∃ caller, state.frame? call = some caller ∧
      ∀ slot before now, Untouched flow final call slot → caller.locals[slot]? = some before →
        after.locals[slot]? = some now → domain.Absorbs before now

omit [AbstractValue V] in
/-- While the frame after a call stays as it is, its caller may rise. -/
theorem Kept.gain (joins : domain.Joins) (gains : Gains (Frame.Absorbs domain) state next)
    (same : next.frame? (call + 1) = state.frame? (call + 1)) (kept : Kept domain flow final call state) :
    Kept domain flow final call next := by
  intro after found
  obtain ⟨answered, caller, found', absorbs⟩ := kept after (same ▸ found)
  obtain ⟨later, found'', rises⟩ := gains.frames call caller found'
  refine ⟨answered.gain gains, later, found'', ?_⟩
  intro slot before now untouched current current'
  obtain ⟨inside, rfl⟩ := List.getElem?_eq_some_iff.mp current
  have lengths := rises.locals.length_eq
  have earlier := List.getElem?_eq_getElem (lengths ▸ inside)
  exact joins.trans (rises.locals.get inside (lengths ▸ inside))
    (absorbs slot _ _ untouched earlier current')

/-- What comes back to a call has the local of the call, if no `ret` for it touches the local. -/
theorem restored_of_untouched (untouched : Untouched flow final call slot)
    (valid : visit.Valid flow shape) (gains : Gains (Frame.Absorbs domain) visit.before final)
    {labelled : Branch Label} {own : Nat} {returning : Subroutine} {caller : Frame V}
    (returns : visit.point.action = .branch labelled (.ret own))
    (inside : visit.record = some returning) (member : call ∈ returning.callers)
    (fits : caller.Fits shape) :
    (visit.after.mergeSubroutine caller returning.used).locals[slot]? = caller.locals[slot]? := by
  obtain ⟨earlier, recorded, callers, marks⟩ := usedBy_marks inside
  obtain ⟨record, recorded', later⟩ := gains.records _ _ recorded
  obtain ⟨unmarked, different⟩ := untouched visit.index labelled own visit.point.handlers record
    (returns ▸ valid.pointed) recorded' (later.callers call (callers ▸ member))
  have unused : returning.used[slot]? ≠ some true := by
    intro marked
    rcases (marks slot).mp marked with before | ⟨accessed, -⟩
    · exact unmarked (later.used slot before)
    · rw [returns] at accessed
      exact different (Eq.symm accessed)
  have same : visit.after.locals.length = caller.locals.length :=
    valid.after.locals.trans fits.locals.symm
  rw [Frame.mergeSubroutine, Frame.getElem?_restoreLocals same, if_neg unused]

theorem Kept.joined (joins : domain.Joins) (replaces : domain.Replaces)
    (kept : Kept domain flow final call now) (untouched : Untouched flow final call slot)
    {caller sent own : Frame V} {changed : Bool} (found : now.frame? call = some caller)
    (joined : Joined domain shape (now.frame? (call + 1)) sent own changed)
    (restored : sent.locals[slot]? = caller.locals[slot]?) {before value : V}
    (current : caller.locals[slot]? = some before) (current' : own.locals[slot]? = some value) :
    domain.Absorbs before value := by
  cases present : now.frame? (call + 1) with
  | none =>
    obtain ⟨rfl, -⟩ := joined.first present
    cases (restored.symm.trans current').symm.trans current
    exact joins.self before
  | some old =>
    have locals := (joined.merged old present).locals
    have inside := (List.getElem?_eq_some_iff.mp current').1
    have earlier := List.getElem?_eq_getElem (locals.length_eq ▸ inside)
    obtain ⟨_, new, earlier', brought, met⟩ := locals.of_getElem? current'
    cases earlier.symm.trans earlier'
    cases (restored.symm.trans brought).symm.trans current
    obtain ⟨-, caller', found', absorbs⟩ := kept old present
    cases found.symm.trans found'
    -- the local of the call absorbs what was there, and so takes its place
    rw [replaces (absorbs slot _ _ untouched current earlier) met]
    exact joins.self before

/-- Only what comes back to a call is merged after it, and that keeps the local. -/
theorem Touches.kept (joins : domain.Joins) (narrows : domain.Narrows) (replaces : domain.Replaces)
    (only : flow.OnlyReturns call)
    (valid : visit.Valid flow shape) (coherent : now.Coherent flow shape)
    (grown : Grows (Frame.Absorbs domain) visit.before now)
    (gains : Gains (Frame.Absorbs domain) next final) (kept : Kept domain flow final call now)
    (touches : Touches domain shape.maxLocals visit now next) :
    Kept domain flow final call next := by
  have rises := rises_absorbs shape joins
  obtain ⟨-, grown'⟩ := touches.grows rises narrows valid coherent grown
  by_cases same : next.frame? (call + 1) = now.frame? (call + 1)
  · exact kept.gain joins grown'.toGains same
  cases touches with
  | requeue calls member => exact absurd (frame?_enqueue now _ _) same
  | register returns inside started => exact absurd rfl same
  | @merge _ target sent record sends merged =>
    obtain ⟨fits, recorded⟩ := sends.fits valid coherent
    obtain ⟨inside, -, own, changed, joined, rfl⟩ := coherent.merge narrows fits recorded merged
    have inside' : target < now.frames.length := coherent.frames_length ▸ inside
    have here : target = call + 1 := by
      by_contra other
      exact same (by rw [frame?_updated inside', if_neg (Ne.symm other)])
    subst here
    cases sends with
    | onward plain successor =>
      exact absurd successor (only.onward visit.index visit.point valid.pointed plain)
    | call calls =>
      exact absurd (Flow.called?_of_call valid.pointed calls) (only.entered visit.index)
    | handler member =>
      exact absurd member (only.caught visit.index visit.point _ valid.pointed)
    | @back labelled own' _ returning caller returns returned member found =>
      have before : Gains (Frame.Absorbs domain) visit.before final :=
        (grown.trans rises grown').toGains.trans rises gains
      have answered := answered_of_back valid grown.toGains returns returned member
      have unchanged : call ≠ call + 1 := Nat.ne_of_lt (Nat.lt_succ_self call)
      intro after present
      rw [frame?_updated inside', if_pos rfl] at present
      cases present
      refine ⟨answered.gain grown'.toGains, caller,
        by rw [frame?_updated inside', if_neg unchanged]; exact found, ?_⟩
      intro slot value value' untouched current current'
      have restored := restored_of_untouched untouched valid before returns returned member
        (coherent.fits call caller found)
      exact kept.joined joins replaces untouched found joined restored current current'

theorem Run.kept (joins : domain.Joins) (narrows : domain.Narrows) (replaces : domain.Replaces)
    (only : flow.OnlyReturns call) {start : AnalysisState V} (coherent : start.Coherent flow shape)
    (unreached : start.frame? (call + 1) = none)
    (run : Run domain flow shape.maxLocals start count final) : Kept domain flow final call final := by
  have rises := rises_absorbs shape joins
  have next {state popped : AnalysisState V} {index : Nat}
      (taken : state.next? = some (index, popped))
      (kept : Gains (Frame.Absorbs domain) state final → Kept domain flow final call state)
      (gains : Gains (Frame.Absorbs domain) popped final) : Kept domain flow final call popped := by
    have known := Gains.next? rises taken
    have same : popped.frame? (call + 1) = state.frame? (call + 1) := by
      rw [frame?, (known_next? taken).1, frame?]
    exact (kept (known.trans rises gains)).gain joins known same
  have before (_ : Gains (Frame.Absorbs domain) start final) : Kept domain flow final call start := by
    intro after found
    cases unreached.symm.trans found
  have both := run.keeps rises narrows next (fun valid _ _ coherent grown kept touches gains => by
    obtain ⟨-, grown'⟩ := touches.grows rises narrows valid coherent grown
    exact touches.kept joins narrows replaces only valid coherent grown gains
      (kept (grown'.toGains.trans rises gains))) coherent before
  exact both.2 (Grows.refl rises final).toGains

/-- When an analysis is done, what came back to a call absorbs the local there, too. -/
theorem Stable.returned (coherent : final.Coherent flow shape)
    (stable : Stable domain flow shape.maxLocals final) (done : final.worklist = [])
    (joins : domain.Joins) (untouched : Untouched flow final call slot)
    (answered : Answered flow final call) {caller after : Frame V}
    (found : final.frame? call = some caller) (found' : final.frame? (call + 1) = some after)
    {before now : V} (current : caller.locals[slot]? = some before)
    (current' : after.locals[slot]? = some now) : domain.Absorbs now before := by
  have waiting (index : Nat) : index ∉ final.worklist := by simp [done]
  obtain ⟨ret, frame, record, ⟨labelled, own, handlers, pointed⟩, left, recorded, member⟩ := answered
  obtain ⟨left', settled⟩ := stable ret frame _ (waiting ret) left pointed
  have valid : Visit.Valid flow shape ⟨final, ret, _, frame, left'⟩ :=
    ⟨coherent, pointed, left, fits_of_effect (coherent.fits _ _ left) settled.executed⟩
  obtain ⟨returning, inside, -, handed⟩ := settled.back labelled own rfl
  obtain ⟨known, recorded', callers, -⟩ := usedBy_marks inside
  cases recorded.symm.trans recorded'
  have returned : call ∈ returning.callers := callers ▸ member
  have restored := restored_of_untouched untouched valid
    (Grows.refl (rises_absorbs shape joins) final).toGains rfl inside returned
    (coherent.fits call caller found)
  obtain ⟨next, found'', absorbs⟩ := (handed call returned (waiting call) caller found).frame
  cases found'.symm.trans found''
  obtain ⟨inside', rfl⟩ := List.getElem?_eq_some_iff.mp current'
  obtain ⟨inside'', rfl⟩ := List.getElem?_eq_some_iff.mp (restored.trans current)
  exact absorbs.locals.get inside' inside''

end AnalysisState

/-- After a call that nothing else leads past, a local that no `ret` for the call touches is exactly
what it is at the call. -/
theorem locals_kept_of_call (provided : domain.Provided) {owner : BinaryName} {method : Method}
    {analysis : Analysis V} (code : method.flags.hasNoCode = false)
    (analyzed : analyze domain owner method = .ok analysis) {label : Label}
    (called : method.nodes[call]? = some (.branch (.jsr label)))
    (untargeted : method.Untargeted (call + 1)) {after : Frame V}
    (found : analysis.frame? (call + 1) = some after) :
    ∃ flow entry start final count caller,
      Prepared domain owner method method.maxLocals (some method.maxStack) flow entry start ∧
      AnalysisState.Run domain flow method.maxLocals start count final ∧ final.worklist = [] ∧
      analysis = ⟨final.frames, some entry, final.processed⟩ ∧
      analysis.frame? call = some caller ∧
      ∀ slot, (∀ ret own record, method.nodes[ret]? = some (.branch (.ret own)) →
          final.subroutine? ret = some record → call ∈ record.callers →
          record.used[slot]? ≠ some true ∧ own ≠ slot) →
        after.locals[slot]? = caller.locals[slot]? := by
  have joins : domain.Joins := provided.joins
  have narrows : domain.Narrows := provided.policy.narrows
  obtain ⟨flow, table, entry, start, final, count, prepared, run, done, rfl, resolved, coherent,
    stable, -⟩ := stable_of_result joins narrows code analyzed
  have isStart := prepared.isStart narrows
  have only : flow.OnlyReturns call := resolved.onlyReturns called untargeted
  have unreached : start.frame? (call + 1) = none := by
    cases present : start.frame? (call + 1) with
    | none => rfl
    | some frame => cases ((isStart.frames _ frame).mp present).1
  have kept : AnalysisState.Kept domain flow final call final :=
    run.kept joins narrows provided.replaces only isStart.coherent unreached
  obtain ⟨answered, caller, found', absorbs⟩ := kept after found
  refine ⟨flow, entry, start, final, count, caller, prepared, run, done, rfl, found', ?_⟩
  intro slot quiet
  have untouched : AnalysisState.Untouched flow final call slot := by
    intro ret labelled own handlers record pointed
    obtain ⟨node, stands, actioned, -⟩ := resolved.node_of_point pointed
    exact quiet ret own record (stands.trans (congrArg some (Node.ret_of_action actioned)))
  by_cases inside : slot < method.maxLocals
  · have same : after.locals.length = caller.locals.length :=
      (coherent.fits _ _ found).locals.trans (coherent.fits _ _ found').locals.symm
    have shaped : caller.locals.length = method.maxLocals := (coherent.fits _ _ found').locals
    have current := List.getElem?_eq_getElem (shaped ▸ inside)
    have current' := List.getElem?_eq_getElem (same.trans shaped ▸ inside)
    have below := absorbs slot _ _ untouched current current'
    have above := stable.returned coherent done joins untouched answered found' found current current'
    rw [current, current']
    exact congrArg some (Domain.Replaces.antisymm provided.replaces above below)
  · have outside {index : Nat} {frame : Frame V} (found : final.frame? index = some frame) :
        frame.locals[slot]? = none :=
      List.getElem?_eq_none ((coherent.fits _ _ found).locals ▸ Nat.le_of_not_lt inside)
    rw [outside found, outside found']

/-- Calls one subroutine twice, with an integer and with a float in local 0. -/
def twoCalls : Method where
  flags := .static
  name := ⟨"twice".toList, by decide⟩
  descriptor := ⟨[], none⟩
  nodes := [.instruction (.shortConstant .int0), .instruction (.store .int 0), .branch (.jsr ⟨0⟩),
    .instruction (.shortConstant .float0), .instruction (.store .float 0), .branch (.jsr ⟨0⟩),
    .branch .voidReturn, .label ⟨0⟩, .instruction (.store .reference 1), .branch (.ret 1)]
  handlers := []
  maxStack := 1
  maxLocals := 2

def twoCallsFlow : Flow :=
  [⟨.instruction (.shortConstant .int0), []⟩, ⟨.instruction (.store .int 0), []⟩,
    ⟨.branch (.jsr ⟨0⟩) (.jsr 7), []⟩, ⟨.instruction (.shortConstant .float0), []⟩,
    ⟨.instruction (.store .float 0), []⟩, ⟨.branch (.jsr ⟨0⟩) (.jsr 7), []⟩,
    ⟨.branch .voidReturn .voidReturn, []⟩, ⟨.idle, []⟩, ⟨.instruction (.store .reference 1), []⟩,
    ⟨.branch (.ret 1) (.ret 1), []⟩]

theorem twoCalls_marks : twoCallsFlow.subroutines 2 = .ok
    (List.replicate 7 none ++ List.replicate 3 (some (.fresh (some 7) 2 (some 2)))) := by
  let body : Option Subroutine := some (.fresh none 2 none)
  let shared : Option Subroutine := some (.fresh (some 7) 2 (some 2))
  have walked : markFrom twoCallsFlow (.fresh none 2 none) (List.replicate 10 none) [] [(0, none)] =
      .ok (List.replicate 7 body ++ List.replicate 3 none, [2, 5]) := by cbv
  have walked' : markFrom twoCallsFlow (.fresh (some 7) 2 (some 2))
      (List.replicate 7 body ++ List.replicate 3 none) [5] [(7, none)] =
      .ok (List.replicate 7 body ++ List.replicate 3 shared, [5]) := by cbv
  simp only [Flow.subroutines, bind_eq_ok, Prod.exists]
  refine ⟨_, _, walked, List.replicate 7 body ++ List.replicate 3 shared, ?_, rfl⟩
  rw [markCalls_enter rfl rfl walked', markCalls_again rfl rfl, markCalls]

theorem twoCalls_run : ∃ start final count,
    Prepared ValueKind.verifier .object twoCalls 2 (some 1) twoCallsFlow
        (.entry [.unusable, .unusable] (some 1) none) start ∧
      AnalysisState.Run ValueKind.verifier twoCallsFlow 2 start count final ∧ final.worklist = [] ∧
      analyze ValueKind.verifier .object twoCalls =
        .ok ⟨final.frames, some (.entry [.unusable, .unusable] (some 1) none), final.processed⟩ ∧
      [3, 9].map (fun index => (final.frame? index).map Frame.locals) =
        [some [.int, .returnAddress], some [.unusable, .returnAddress]] ∧
      final.subroutine? 9 = some ⟨some 7, [false, true], [2, 5]⟩ := by
  have solved : ((AnalysisState.initial
      (List.replicate 7 none ++ List.replicate 3 (some (.fresh (some 7) 2 (some 2))))
      [.started .object twoCalls.name twoCalls.descriptor]).merge ValueKind.verifier 0
        (.entry [.unusable, .unusable] (some 1) none) none >>=
      AnalysisState.solve ValueKind.verifier twoCallsFlow 2
        (ValueKind.verifier.steps twoCallsFlow 2 (some 1))).map (fun final =>
          ([3, 9].map (fun index => (final.frame? index).map Frame.locals),
            final.subroutine? 9)) =
      .ok ([some [.int, .returnAddress], some [.unusable, .returnAddress]],
        some ⟨some 7, [false, true], [2, 5]⟩) := by cbv
  obtain ⟨start, final, count, prepared, run, done, analyzed, known⟩ :=
    run_of_solve (by decide) (by cbv) twoCalls_marks rfl solved
  simp only [Prod.mk.injEq] at known
  exact ⟨start, final, count, prepared, run, done, analyzed, known.1, known.2⟩

/-- The first call gets its integer back, although the subroutine is left with nothing usable there. -/
theorem twoCalls_kept : ∃ analysis caller after left,
    analyze ValueKind.verifier .object twoCalls = .ok analysis ∧
      analysis.frame? 2 = some caller ∧ analysis.frame? 3 = some after ∧
      analysis.frame? 9 = some left ∧ left.locals[0]? = some .unusable ∧
      after.locals[0]? = caller.locals[0]? := by
  obtain ⟨start, final, count, prepared, run, done, analyzed, frames, recorded⟩ := twoCalls_run
  simp only [List.map_cons, List.map_nil, List.cons.injEq, Option.map_eq_some_iff] at frames
  obtain ⟨⟨after, found, -⟩, ⟨left, found', locals⟩, -⟩ := frames
  have unlabelled (label : Label) : ¬twoCalls.Places label 3 := nofun
  have untargeted : twoCalls.Untargeted 3 :=
    ⟨fun _ _ label _ => unlabelled label, fun handler _ => unlabelled handler.handler⟩
  obtain ⟨flow, entry, start', final', count', caller, prepared', run', done', -, called, kept⟩ :=
    locals_kept_of_call ⟨_, ClassGraph.library_wellFormed, _, .verify⟩ (by decide) analyzed rfl
      untargeted found
  obtain ⟨rfl, rfl, rfl⟩ := prepared.unique prepared'
  obtain rfl := run.unique run' done done'
  refine ⟨_, caller, after, left, analyzed, called, found, found', by simp [locals], kept 0 ?_⟩
  intro ret own record returns recorded' _
  have inside : ret < 10 := (List.getElem?_eq_some_iff.mp returns).1
  interval_cases ret <;> cases returns
  cases recorded.symm.trans recorded'
  exact ⟨by decide, by decide⟩

end MethodFlow
