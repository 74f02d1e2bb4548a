import MethodFlow.Proofs.Analysis.Checking
import MethodFlow.Proofs.Analysis.Completeness
import MethodFlow.Proofs.Analysis.Limits
import MethodFlow.Proofs.Analysis.Reachability
import MethodFlow.Proofs.Domain.Outlining

namespace MethodFlow

open Relation (ReflTransGen)

/-- A family of frames that control keeps to without checks: execution succeeds on each of them and
loads usable locals only, and the frame that control takes along is refined by none but those where it
leads. Refined values on the stack take as many slots. -/
structure Method.Outline (owner : BinaryName) (method : Method)
    (outline : Nat → Option (Frame ValueKind)) : Prop where
  shaped : ∀ index upper, outline index = some upper →
    upper.HasShape (method.frameShape ValueKind.domain method.neededLocals none)
  entry : ∀ entry, initialFrame ValueKind.domain owner method method.neededLocals none = .ok entry →
    ∃ upper, outline 0 = some upper ∧ entry.Refines upper
  onward : ∀ index upper, outline index = some upper → ∃ node after,
    method.nodes[index]? = some node ∧
      node.effect ValueKind.guarded index upper = .ok after ∧
      ∀ target, method.Leads index target → ∃ next, outline target = some next ∧ after.Refines next
  caught : ∀ index upper handler target, outline index = some upper →
    handler ∈ method.handlers → method.Protects handler index →
    method.Places handler.handler target → ∃ caught next,
      upper.clearStack.push (ValueKind.domain.exception handler.caught) = .ok caught ∧
        outline target = some next ∧ caught.Refines next

variable {V : Type} [AbstractValue V] {domain : Domain V} {related : V → ValueKind → Prop}
  {owner : BinaryName} {method : Method} {table : LabelTable} {flow : Flow}
  {outline : Nat → Option (Frame ValueKind)}

/-- The values of a frame have the kinds that another frame says. -/
structure Frame.Outlined (related : V → ValueKind → Prop) (frame : Frame V)
    (upper : Frame ValueKind) : Prop where
  locals : List.Forall₂ related frame.locals upper.locals
  stack : List.Forall₂ (Matches related) frame.stackValues upper.stackValues

theorem Domain.Outlined.effect (kinded : domain.Outlined related) {index : Nat} {action : Action}
    {frame after : Frame V} {upper after' : Frame ValueKind}
    (along : frame.Alongside related Unasked upper)
    (executed : action.effect domain index frame = .ok after)
    (executed' : action.effect ValueKind.guarded index upper = .ok after') :
    after.Alongside related Unasked after' := by
  rcases action.idle_or_executes with rfl | ⟨operation, executes⟩
  · cases executed
    cases executed'
    exact along
  · rw [executes] at executed executed'
    exact kinded.execute along executed executed'

namespace Frame.Outlined

variable {frame after : Frame V} {upper after' next : Frame ValueKind} {maxLocals : Nat}

theorem alongside (outlined : frame.Outlined related upper)
    (shaped : frame.HasShape (method.frameShape domain maxLocals none))
    (shaped' : upper.HasShape (method.frameShape ValueKind.domain maxLocals none)) :
    frame.Alongside related Unasked upper := by
  refine ⟨outlined.locals, outlined.stack, shaped.placed, shaped'.placed,
    shaped.maxStack.trans shaped'.maxStack.symm, rel_unasked.mpr ?_⟩
  rw [shaped.returnValue, shaped'.returnValue]
  exact (Option.isSome_map ..).trans (Option.isSome_map ..).symm

theorem stackSlots_eq (outlined : frame.Outlined related upper) (placed : frame.stack.Placed)
    (placed' : upper.stack.Placed) : frame.stackSlots = upper.stackSlots := by
  rw [stackSlots, stackSlots, placed.slots_eq, placed'.slots_eq]
  exact Frame.sum_width_eq outlined.stack

theorem refined (kinded : domain.Outlined related) (outlined : frame.Outlined related upper)
    (refines : upper.Refines next) : frame.Outlined related next := by
  have weaker {value : V} {kind kind' : ValueKind} (known : related value kind)
      (refines : kind.Refines kind') : related value kind' := by
    rcases refines with rfl | rfl
    · exact known
    · exact kinded.lost value
  refine ⟨forall₂_trans outlined.locals refines.locals fun _ _ _ => weaker,
    forall₂_trans outlined.stack refines.stack fun value kind kind' matched matched' => ?_⟩
  exact ⟨weaker matched.related matched'.related, matched.width.trans matched'.width⟩

theorem merge (kinded : domain.Outlined related) {shape : FrameShape V} {old new : Frame V}
    {changed : Bool} (outlined : old.Outlined related upper) (outlined' : new.Outlined related upper)
    (merged : Frame.Merged domain shape old new after changed) : after.Outlined related upper where
  locals := merged.locals.forall₂ (fun known known' merged => kinded.merged merged known known')
    outlined.locals outlined'.locals
  stack := merged.stack.forall₂ (fun matched matched' merged =>
    ⟨kinded.merged merged matched.related matched'.related, kinded.level merged matched matched'⟩)
    outlined.stack outlined'.stack

end Frame.Outlined

namespace AnalysisState

variable {state next final : AnalysisState V} {index target : Nat} {visit : Visit V}

/-- The frame at every index that is reached has the kinds that an outline says. -/
def Outlined (related : V → ValueKind → Prop) (outline : Nat → Option (Frame ValueKind))
    (state : AnalysisState V) : Prop :=
  ∀ index frame, state.frame? index = some frame →
    ∃ upper, outline index = some upper ∧ frame.Outlined related upper

section Runs

variable (kinded : domain.Outlined related) (narrows : domain.Narrows)
  (outlines : method.Outline owner outline) (resolved : method.Resolved table flow)
  (uncalled : ∀ index, flow.called? index = none)

include kinded outlines resolved uncalled in
/-- What an index sends on has the kinds of the outline where it is sent. -/
theorem Sends.outlined
    (valid : visit.Valid flow (method.frameShape domain method.neededLocals none))
    (outlined : visit.before.Outlined related outline) (recordless : visit.before.Recordless)
    (executed : visit.point.action.effect domain visit.index visit.frame = .ok visit.after)
    {sent : Frame V} {record : Option Subroutine}
    (sends : Sends domain method.neededLocals visit state target sent record) :
    ∃ upper, outline target = some upper ∧ sent.Outlined related upper := by
  obtain ⟨upper, known, along⟩ := outlined visit.index visit.frame valid.found
  obtain ⟨node, after', stands, executed', onward⟩ := outlines.onward visit.index upper known
  obtain ⟨point, pointed, actioned, handlers⟩ := resolved.points visit.index node stands
  cases valid.pointed.symm.trans pointed
  have fits := valid.coherent.fits visit.index visit.frame valid.found
  have beside := along.alongside fits.toHasShape (outlines.shaped visit.index upper known)
  cases sends with
  | onward plain successor =>
    obtain ⟨next, known', refines⟩ :=
      onward target (resolved.leads_of_successor stands actioned plain successor)
    rw [← effect_of_action actioned] at executed'
    have beside' := kinded.effect beside executed executed'
    exact ⟨next, known', Frame.Outlined.refined kinded ⟨beside'.locals, beside'.stack⟩ refines⟩
  | call calls => cases (uncalled visit.index).symm.trans (Flow.called?_of_call valid.pointed calls)
  | back returns inside =>
    cases (record_eq_none (recordless visit.index)).symm.trans inside
  | handler member pushed =>
    obtain ⟨member, protects, placed⟩ := (handlers _ _).mp member
    obtain ⟨caught', next, pushed', known', refines⟩ :=
      outlines.caught visit.index upper _ _ known member protects placed
    obtain ⟨_, same, beside'⟩ := beside.clearStack.push (kinded.typed _) pushed'
    cases pushed.symm.trans same
    exact ⟨next, known', Frame.Outlined.refined kinded ⟨beside'.locals, beside'.stack⟩ refines⟩

include kinded narrows outlines resolved uncalled

theorem Outlined.process
    (coherent : state.Coherent flow (method.frameShape domain method.neededLocals none))
    (outlined : state.Outlined related outline) (recordless : state.Recordless)
    (processed : state.process domain flow method.neededLocals index = .ok final) :
    final.Outlined related outline := by
  rcases coherent.process_cases processed with ⟨rfl, -⟩ | ⟨point, frame, after, valid, visited⟩
  · exact outlined
  refine steps_keep narrows valid ?_ outlined visited.steps
  intro now next coherent' outlined' touches
  cases touches with
  | register => exact outlined'
  | requeue =>
    intro other frame found
    rw [frame?_enqueue] at found
    exact outlined' other frame found
  | @merge _ target sent record sends merged =>
    obtain ⟨upper, known, along⟩ :=
      sends.outlined kinded outlines resolved uncalled valid outlined recordless visited.executed
    obtain ⟨fits, recorded⟩ := sends.fits valid coherent'
    obtain ⟨inside, -, own, changed, joined, rfl⟩ := coherent'.merge narrows fits recorded merged
    intro other frame found
    rw [frame?_updated (coherent'.frames_length ▸ inside)] at found
    split at found
    · rename_i same
      cases found
      refine ⟨upper, same ▸ known, ?_⟩
      cases present : now.frame? target with
      | none =>
        obtain ⟨rfl, -⟩ := joined.first present
        exact along
      | some old =>
        obtain ⟨upper', known', along'⟩ := outlined' target old present
        cases known.symm.trans known'
        exact along'.merge kinded along (joined.merged old present)
    · exact outlined' other frame found

theorem Run.outlined {start : AnalysisState V} {count : Nat}
    (coherent : start.Coherent flow (method.frameShape domain method.neededLocals none))
    (outlined : start.Outlined related outline) (recordless : start.Recordless)
    (run : Run domain flow method.neededLocals start count final) :
    final.Coherent flow (method.frameShape domain method.neededLocals none) ∧
      final.Recordless ∧ final.Outlined related outline := by
  have rises := rises_any domain (method.frameShape domain method.neededLocals none)
  induction run with
  | start => exact ⟨coherent, recordless, outlined⟩
  | @step count state popped next index run taken processed ih =>
    obtain ⟨coherent', recordless', outlined'⟩ := ih
    have coherent'' := coherent'.next? taken
    have recordless'' : popped.Recordless := by
      intro other
      rw [subroutine?, (known_next? taken).2.1]
      exact recordless' other
    have outlined'' : popped.Outlined related outline := by
      intro other frame found
      exact outlined' other frame ((frame?_next? taken other).symm.trans found)
    exact ⟨(coherent''.process rises narrows processed).1,
      recordless''.process narrows uncalled coherent'' processed,
      outlined''.process kinded narrows outlines resolved uncalled coherent'' recordless'' processed⟩

end Runs

end AnalysisState

theorem initialFrame_outlined (kinded : domain.Outlined related) {maxLocals : Nat} {entry : Frame V}
    (entered : initialFrame domain owner method maxLocals none = .ok entry) :
    ∃ entry', initialFrame ValueKind.domain owner method maxLocals none = .ok entry' ∧
      entry.Outlined related entry' := by
  obtain ⟨room, rfl⟩ := initialFrame_eq_ok.mp entered
  have known (type : Option FieldType) :
      related (domain.valueOf type) (ValueKind.domain.valueOf type) := (kinded.typed type).related
  have parameters (types : List FieldType) : List.Forall₂ related (parameterLocals domain types)
      (parameterLocals ValueKind.domain types) := by
    induction types with
    | nil => exact .nil
    | cons type rest ih =>
      unfold parameterLocals
      refine .cons (known _) ?_
      split
      · exact .cons (known none) ih
      · exact ih
  have values : List.Forall₂ related (method.entryValues domain owner)
      (method.entryValues ValueKind.domain owner) := by
    unfold Method.entryValues
    refine List.rel_append ?_ (parameters _)
    split
    · exact .nil
    · exact .cons (known _) .nil
  refine ⟨_, initialFrame_eq_ok.mpr ⟨values.length_eq ▸ room, rfl⟩, ?_, .nil⟩
  have unset (count : Nat) : List.Forall₂ related (List.replicate count domain.unusable)
      (List.replicate count ValueKind.domain.unusable) := by
    induction count with
    | zero => exact .nil
    | succ count ih => exact .cons (known none) ih
  rw [values.length_eq]
  exact List.rel_append values (unset _)

/-- What the verifier finds, the guarded domain finds: the verifier loads usable locals only. -/
theorem ValueKind.verifier_guarded (site : Site) :
    verifier.MirroredAt (fun _ => True) guarded site where
  __ := verifier_mirroredAt site
  copy value := .of_ok fun copied copies => by
    obtain ⟨_, checked, ended⟩ := bind_eq_ok.mp copies
    dsimp only [guarded]
    split
    · rename_i loads
      rw [if_neg (checkedTypes_lowers.load loads checked)]
      exact ended
    · exact ended

/-- What the verifier does under a bound of the stack, the guarded domain does without one. -/
theorem Node.effect_guarded {node : Node} {index bound : Nat} {upper after : Frame ValueKind}
    (bounded : upper.maxStack = some bound)
    (executed : node.effect ValueKind.verifier index upper = .ok after) :
    node.effect ValueKind.guarded index (upper.under none) = .ok (after.under none) := by
  cases node with
  | label | line =>
    cases executed
    rfl
  | operation operation =>
    have bounds : Frame.Bounds bound
        ((upper.under none).execute ValueKind.verifier ⟨index, operation⟩)
        ((upper.under (some bound)).execute ValueKind.verifier ⟨index, operation⟩) :=
      Frame.execute_bounds
    rw [Frame.under_self bounded] at bounds
    have free := bounds.mirrors.eq_ok executed
    exact (Frame.execute_mirrors (ValueKind.verifier_guarded _)).eq_ok free

theorem Method.Typing.outlines {typing : Nat → Option (Frame ValueKind)}
    (typed : method.Typing owner typing) (needed : method.maxLocals = method.neededLocals) :
    method.Outline owner fun index => (typing index).map (Frame.under none) where
  shaped index upper known := by
    obtain ⟨own, found, rfl⟩ := Option.map_eq_some_iff.mp known
    have shaped := typed.shaped index own found
    exact ⟨shaped.locals.trans needed, shaped.placed, rfl, shaped.returnValue⟩
  entry entry entered := by
    obtain ⟨upper, found, empty, below⟩ := typed.entry
    rw [← needed, ValueKind.verifier_mirroredBy.initialFrame_eq] at entered
    obtain ⟨room, rfl⟩ := initialFrame_eq_ok.mp entered
    have locals := below _ (initialFrame_eq_ok.mpr ⟨room, rfl⟩)
    refine ⟨_, Option.map_eq_some_iff.mpr ⟨upper, found, rfl⟩, locals, ?_⟩
    have empty : (upper.under none).stackValues = [] := empty
    rw [empty]
    exact .nil
  onward index upper known := by
    obtain ⟨own, found, rfl⟩ := Option.map_eq_some_iff.mp known
    obtain ⟨node, after, stands, executed, onward⟩ := typed.onward index own found
    have bounded := (typed.shaped index own found).maxStack
    refine ⟨node, after.under none, stands, node.effect_guarded bounded executed, ?_⟩
    intro target leads
    obtain ⟨next, found', refines⟩ := onward target leads
    exact ⟨next.under none, Option.map_eq_some_iff.mpr ⟨next, found', rfl⟩, refines.locals, refines.stack⟩
  caught index upper handler target known member protects placed := by
    obtain ⟨own, found, rfl⟩ := Option.map_eq_some_iff.mp known
    obtain ⟨caught, next, pushed, found', refines⟩ :=
      typed.caught index own handler target found member protects placed
    have bounded : own.maxStack = some method.maxStack := (typed.shaped index own found).maxStack
    have bounds := caught_bounds method.maxStack own (ValueKind.verifier.exception handler.caught)
    rw [Frame.under_self bounded] at bounds
    exact ⟨caught.under none, next.under none, bounds.mirrors.eq_ok pushed,
      Option.map_eq_some_iff.mpr ⟨next, found', rfl⟩, refines.locals, refines.stack⟩

/-- The greatest height of the stack is that of some frame of the outline that control comes to. -/
theorem lt_maxStack_of_outline (policy : domain.Policy) (callless : method.HasNoCall)
    (outlines : method.Outline owner outline) {analysis : Analysis V}
    (code : method.flags.hasNoCode = false)
    (analyzed : (analyzeWithin domain owner method method.neededLocals none).result = .ok analysis)
    (bound : Nat) :
    bound < analysis.maxStack ↔ ∃ index upper, ReflTransGen method.Edge 0 index ∧
      outline index = some upper ∧ bound < upper.stackSlots := by
  obtain ⟨related, kinded⟩ := policy.outlined
  obtain ⟨flow, entry, start, final, count, prepared, run, done, rfl⟩ :=
    run_of_result code analyzed
  obtain ⟨table, resolved⟩ := Method.resolved_of_flow prepared.resolved
  have shrinks : domain.Shrinks := policy.shrinks
  have narrows : domain.Narrows := shrinks.narrows
  have uncalled := resolved.uncalled callless
  have isStart := prepared.isStart narrows
  have before : start.Outlined related outline := by
    intro index frame found
    obtain ⟨rfl, rfl⟩ := (isStart.frames index frame).mp found
    obtain ⟨entry', entered', along⟩ := initialFrame_outlined kinded prepared.entered
    obtain ⟨upper, known, refines⟩ := outlines.entry entry' entered'
    exact ⟨upper, known, along.refined kinded refines⟩
  obtain ⟨coherent, -, outlined⟩ := run.outlined kinded narrows outlines resolved uncalled
    isStart.coherent before (prepared.recordless narrows uncalled)
  have edges : flow.Edge = method.Edge := by
    funext index target
    exact propext (resolved.edge_iff callless)
  have framed (index : Nat) : final.Framed index ↔ ReflTransGen method.Edge 0 index := by
    rw [← edges]
    exact (run.reached uncalled (prepared.reached uncalled)).framed_iff done index
  have height {index : Nat} {frame : Frame V} {upper : Frame ValueKind}
      (found : final.frame? index = some frame) (known : outline index = some upper) :
      frame.stackSlots = upper.stackSlots := by
    obtain ⟨upper', known', along⟩ := outlined index frame found
    cases known.symm.trans known'
    exact along.stackSlots_eq (coherent.fits index frame found).placed
      (outlines.shaped index upper known).placed
  rw [Analysis.lt_maxStack]
  constructor
  · rintro ⟨index, frame, found, high⟩
    have found : final.frame? index = some frame := found
    obtain ⟨upper, known, -⟩ := outlined index frame found
    refine ⟨index, upper, (framed index).mp ?_, known, height found known ▸ high⟩
    rw [AnalysisState.Framed, found]
    rfl
  · rintro ⟨index, upper, reachable, known, high⟩
    obtain ⟨frame, found⟩ := Option.isSome_iff_exists.mp ((framed index).mpr reachable)
    exact ⟨index, frame, found, (height found known).symm ▸ high⟩

/-- Policies that succeed write the same limits into a method without calls that has an outline, and the
same number of locals into any. -/
theorem computeLimits_agree {W : Type} [AbstractValue W] {domain' : Domain W}
    (policy : domain.Policy) (policy' : domain'.Policy) {analysis : Analysis V}
    {analysis' : Analysis W} {limited limited' : Method}
    (computed : computeLimits domain owner method = .ok (analysis, limited))
    (computed' : computeLimits domain' owner method = .ok (analysis', limited')) :
    limited.maxLocals = limited'.maxLocals ∧
      (method.HasNoCall → method.Outline owner outline → limited = limited') := by
  obtain ⟨analyzed, rfl⟩ := computeLimits_eq_ok computed
  obtain ⟨analyzed', rfl⟩ := computeLimits_eq_ok computed'
  refine ⟨rfl, fun callless outlines => ?_⟩
  have height : analysis.maxStack = analysis'.maxStack := by
    cases code : method.flags.hasNoCode with
    | true =>
      simp only [analyzeWithin, code, if_true, Except.ok.injEq] at analyzed analyzed'
      subst analyzed analyzed'
      rfl
    | false =>
      refine eq_of_forall_lt_iff fun bound => ?_
      rw [lt_maxStack_of_outline policy callless outlines code analyzed,
        lt_maxStack_of_outline policy' callless outlines code analyzed']
  rw [height]

theorem countingLoop_agree : ∃ analysis analysis' limited limited' outline,
    computeLimits ValueKind.domain .object countingLoop = .ok (analysis, limited) ∧
      computeLimits Provenance.domain .object countingLoop = .ok (analysis', limited') ∧
      countingLoop.HasNoCall ∧ countingLoop.Outline .object outline ∧ limited = limited' := by
  have kinds : (computeLimits ValueKind.domain .object countingLoop).map (fun _ => ()) = .ok () := by
    cbv
  have origins : (computeLimits Provenance.domain .object countingLoop).map (fun _ => ()) = .ok () := by
    cbv
  obtain ⟨⟨analysis, limited⟩, computed, -⟩ := map_eq_ok.mp kinds
  obtain ⟨⟨analysis', limited'⟩, computed', -⟩ := map_eq_ok.mp origins
  have callless : countingLoop.HasNoCall := by
    simp [Method.HasNoCall, countingLoop, Node.branch, Node.instruction]
  have outlines := countingLoop_typing.outlines (by decide)
  exact ⟨analysis, analysis', limited, limited', _, computed, computed', callless, outlines,
    (computeLimits_agree ⟨ClassGraph.empty.hierarchy, _, .basic⟩
      ⟨ClassGraph.empty.hierarchy, _, .source⟩ computed computed').2 callless outlines⟩

/-- A long value and a double one meet below two integers. -/
def meetingWides : Method where
  flags := .static
  name := ⟨"meet".toList, by decide⟩
  descriptor := ⟨[.base .int], none⟩
  nodes := [.instruction (.shortConstant .long0), .instruction (.load .int 0),
    .branch (.tableSwitch ⟨1⟩ 0 [⟨0⟩]), .label ⟨0⟩, .instruction (.shuffle .pop2),
    .instruction (.shortConstant .double0), .label ⟨1⟩, .instruction (.shortConstant .int0),
    .instruction (.shortConstant .int0), .instruction (.shuffle .pop2), .branch .voidReturn]
  handlers := []
  maxStack := 4
  maxLocals := 1

/-- Where they meet, kinds have one slot for what is not usable any more, and provenance has two. -/
theorem meetingWides_differ : ∃ analysis analysis' limited limited',
    computeLimits ValueKind.domain .object meetingWides = .ok (analysis, limited) ∧
      computeLimits Provenance.domain .object meetingWides = .ok (analysis', limited') ∧
      limited.maxStack ≠ limited'.maxStack := by
  have kinds : (computeLimits ValueKind.domain .object meetingWides).map
      (fun computed => computed.2.maxStack) = .ok 3 := by cbv
  have origins : (computeLimits Provenance.domain .object meetingWides).map
      (fun computed => computed.2.maxStack) = .ok 4 := by cbv
  obtain ⟨⟨analysis, limited⟩, computed, height⟩ := map_eq_ok.mp kinds
  obtain ⟨⟨analysis', limited'⟩, computed', height'⟩ := map_eq_ok.mp origins
  have height : limited.maxStack = 3 := height
  have height' : limited'.maxStack = 4 := height'
  exact ⟨analysis, analysis', limited, limited', computed, computed', by omega⟩

end MethodFlow
