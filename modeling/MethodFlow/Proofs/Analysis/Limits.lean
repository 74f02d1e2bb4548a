import MethodFlow.Proofs.Analysis.Climbing
import MethodFlow.Proofs.Analysis.Mirroring
import MethodFlow.Proofs.Frame.Bounding

namespace MethodFlow

variable {V : Type} [AbstractValue V] {domain : Domain V} {flow : Flow} {owner : BinaryName}
  {method : Method} {bound : Nat}

omit [AbstractValue V] in
/-- The analysis without the bound that its frames record. -/
def Analysis.unbounded (analysis : Analysis V) : Analysis V :=
  ⟨analysis.frames.map (Option.map (Frame.under none)), analysis.initialFrame.map (Frame.under none),
    analysis.processed⟩

omit [AbstractValue V] in
theorem Analysis.lt_maxStack {analysis : Analysis V} :
    bound < analysis.maxStack ↔
      ∃ index frame, analysis.frame? index = some frame ∧ bound < frame.stackSlots := by
  rw [maxStack, lt_foldl_max]
  constructor
  · rintro (negative | ⟨height, present, high⟩)
    · cases negative
    · obtain ⟨entry, listed, same⟩ := List.mem_filterMap.mp present
      obtain ⟨frame, rfl, rfl⟩ := Option.map_eq_some_iff.mp same
      obtain ⟨index, found⟩ := List.mem_iff_getElem?.mp listed
      exact ⟨index, frame, by rw [frame?, found]; rfl, high⟩
  · rintro ⟨index, frame, found, high⟩
    rw [frame?, Option.join_eq_some_iff] at found
    exact .inr ⟨frame.stackSlots, List.mem_filterMap.mpr ⟨_, List.mem_of_getElem? found, rfl⟩, high⟩

theorem carries_under (lost : Fault → Prop) (limit : Option Nat) :
    domain.Carries lost (Frame.under limit) domain where
  merge _ other := .inl (Frame.merge_under other)
  back _ _ _ := rfl

theorem effect_bounds (index : Nat) (action : Action) (frame : Frame V) :
    Frame.Bounds bound (action.effect domain index (frame.under none))
      (action.effect domain index (frame.under (some bound))) := by
  rcases action.idle_or_executes with rfl | ⟨operation, executes⟩
  · exact .ok frame
  · rw [executes, executes]
    exact Frame.execute_bounds

theorem caught_bounds (bound : Nat) (frame : Frame V) (value : V) :
    Frame.Bounds bound ((frame.under none).clearStack.push value)
      ((frame.under (some bound)).clearStack.push value) := by
  have pushed (cleared : Frame V) : Frame.Bounds bound ((cleared.under none).push value)
      ((cleared.under (some bound)).push value) := Frame.push_bounds value
  exact pushed frame.clearStack

namespace AnalysisState

omit [AbstractValue V] in
/-- Frames that record a limit are as they were when it is put back. -/
theorem recast_under {state : AnalysisState V} {limit limit' : Option Nat}
    (recorded : ∀ index frame, state.frame? index = some frame → frame.maxStack = limit) :
    (state.recast (Frame.under limit')).recast (Frame.under limit) = state := by
  have same : (state.frames.map (Option.map (Frame.under limit'))).map
      (Option.map (Frame.under limit)) = state.frames := by
    rw [List.map_map]
    refine (List.map_congr_left fun entry member => ?_).trans (List.map_id state.frames)
    cases entry with
    | none => rfl
    | some frame =>
      obtain ⟨index, found⟩ := List.mem_iff_getElem?.mp member
      have known : state.frame? index = some frame := by rw [frame?, found]; rfl
      exact congrArg some (Frame.under_self (recorded index frame known))
  unfold recast
  simp only [same]

variable {allowed : V → Prop} {grade : V → Nat} {table : LabelTable} {maxLocals : Nat}
  {returnValue : Option V} {start state popped final : AnalysisState V}
  {visited : Nat → Prop} {peak count further index : Nat} {point : Point} {frame : Frame V}
  {shape : FrameShape V}

/-- No frame on the way of a run to its end is higher than the highest one there, and neither is a frame
that an action leaves. -/
theorem Run.low (rated : domain.Rated flow.length allowed grade)
    (resolved : method.Resolved table flow) (uncalled : ∀ index, flow.called? index = none)
    (legal : start.Legal flow shape allowed) (peaked : start.Peaked flow grade visited peak)
    (echoed : start.Echoed domain flow shape grade visited peak)
    (within : ∀ index frame, final.frame? index = some frame → frame.stackSlots ≤ bound)
    (done : final.next? = none) (run : Run domain flow shape.maxLocals start count state)
    (taken : state.next? = some (index, popped))
    (rest : Run domain flow shape.maxLocals state further final)
    (found : popped.frame? index = some frame) (pointed : flow[index]? = some point) :
    frame.Fits shape ∧ ∃ after, point.action.effect domain index frame = .ok after ∧
      after.stackSlots ≤ bound ∧ (point.handlers ≠ [] → 1 ≤ bound) := by
  obtain ⟨legal', visited', peak', -, peaked', echoed'⟩ :=
    run.peaked rated resolved uncalled legal peaked echoed
  have fits := (legal'.next? taken).fits index frame found
  rcases rest.head_cases with rfl | ⟨_, _, next, fewer, taken', processed, rest⟩
  · cases done.symm.trans taken
  · cases taken.symm.trans taken'
    obtain ⟨legal'', peak'', after, -, peaked'', echoed'', executed, lower, handling⟩ :=
      Peaked.process rated resolved uncalled legal' peaked' echoed' taken found pointed processed
    obtain ⟨-, _, top, higher, peaked₃, -⟩ :=
      rest.peaked rated resolved uncalled legal'' peaked'' echoed''
    obtain ⟨highest, own, present, height, -⟩ := peaked₃.anchored
    have most := within highest own present
    exact ⟨fits, after, executed, by omega, fun some => by have least := handling some; omega⟩

/-- A run without a bound is one under any bound that is no lower than the frames at its end. -/
theorem Run.bounded (rated : domain.Rated flow.length allowed grade)
    (resolved : method.Resolved table flow) (uncalled : ∀ index, flow.called? index = none)
    (legal : start.Legal flow ⟨maxLocals, none, returnValue⟩ allowed)
    (peaked : start.Peaked flow grade visited peak)
    (echoed : start.Echoed domain flow ⟨maxLocals, none, returnValue⟩ grade visited peak)
    (run : Run domain flow maxLocals start count final) (done : final.next? = none)
    (within : ∀ index frame, final.frame? index = some frame → frame.stackSlots ≤ bound) :
    Run domain flow maxLocals (start.recast (Frame.under (some bound))) count
      (final.recast (Frame.under (some bound))) := by
  refine run.mirrored (carries_under (fun _ => True) (some bound)) ?_ .start
  intro count further state popped index frame point run taken rest found pointed
  obtain ⟨fits, after, executed, lower, handling⟩ :=
    run.low rated resolved uncalled legal peaked echoed within done taken rest found pointed
  have free : frame.under none = frame := Frame.under_self fits.maxStack
  constructor
  · have bounds : Frame.Bounds bound (point.action.effect domain index (frame.under none))
        (point.action.effect domain index (frame.under (some bound))) := effect_bounds ..
    rw [free] at bounds
    refine .of_ok fun after' executed' => ?_
    cases executed.symm.trans executed'
    exact bounds.eq_ok executed lower
  · intro target handler member
    have bounds := caught_bounds bound frame (domain.exception handler.caught)
    rw [free] at bounds
    refine .of_ok fun caught pushed => bounds.eq_ok pushed ?_
    obtain ⟨rfl, -⟩ := Frame.push_eq_ok.mp pushed
    have least := handling (List.ne_nil_of_mem member)
    have slots : (frame.clearStack.stack.push (domain.exception handler.caught)).slots =
        width (domain.exception handler.caught) := Nat.zero_add _
    rw [Frame.stackSlots, slots, rated.narrow]
    exact least

/-- Without the bound, an index sends on what it does under it, unless the stack overflows. -/
theorem Run.carried (rated : domain.Rated flow.length allowed grade)
    (coherent : start.Coherent flow ⟨maxLocals, some bound, returnValue⟩)
    (holds : start.Holds allowed) (run : Run domain flow maxLocals start count state)
    (taken : state.next? = some (index, popped)) (found : popped.frame? index = some frame)
    (point : Point) :
    point.Carried (fun fault => fault = .stackOverflow bound) (Frame.under none) domain domain index
      frame := by
  obtain ⟨coherent', -⟩ := run.holds rated.keeps rated.narrows coherent holds
  have fits := (coherent'.next? taken).fits index frame found
  have limited : frame.under (some bound) = frame := Frame.under_self fits.maxStack
  constructor
  · have bounds : Frame.Bounds bound (point.action.effect domain index (frame.under none))
        (point.action.effect domain index (frame.under (some bound))) := effect_bounds ..
    rw [limited] at bounds
    exact bounds.mirrors
  · intro target handler _
    have bounds := caught_bounds bound frame (domain.exception handler.caught)
    rw [limited] at bounds
    exact bounds.mirrors

/-- A run under a bound is one without it. -/
theorem Run.unbounded (rated : domain.Rated flow.length allowed grade)
    (coherent : start.Coherent flow ⟨maxLocals, some bound, returnValue⟩)
    (holds : start.Holds allowed) (run : Run domain flow maxLocals start count final) :
    Run domain flow maxLocals (start.recast (Frame.under none)) count
      (final.recast (Frame.under none)) :=
  run.mirrored (carries_under _ none)
    (fun run taken _ found _ => run.carried rated coherent holds taken found _) .start

theorem Ends.unbounded {outcome : Except Stopped (AnalysisState V)}
    (rated : domain.Rated flow.length allowed grade)
    (coherent : start.Coherent flow ⟨maxLocals, some bound, returnValue⟩)
    (holds : start.Holds allowed) (ends : Ends domain flow maxLocals start count outcome) :
    (∃ stopped, outcome = .error stopped ∧
        Stopped.Lost (fun fault => fault = .stackOverflow bound) stopped) ∨
      Ends domain flow maxLocals (start.recast (Frame.under none)) count
        (outcome.map (recast (Frame.under none))) :=
  ends.mirrored (carries_under _ none) fun run taken found _ =>
    run.carried rated coherent holds taken found _

/-- Where the loop ends with a frame that is higher than a bound, the stack overflows under it. -/
theorem Run.overflows (rated : domain.Rated flow.length allowed grade)
    (coherent : start.Coherent flow ⟨maxLocals, none, returnValue⟩)
    (coherent' : (start.recast (Frame.under (some bound))).Coherent flow
      ⟨maxLocals, some bound, returnValue⟩)
    (holds : (start.recast (Frame.under (some bound))).Holds allowed)
    (run : Run domain flow maxLocals start count final) (done : final.next? = none)
    (found : final.frame? index = some frame) (high : bound < frame.stackSlots) {steps : Nat}
    (enough : count ≤ steps) :
    ∃ stopped, (start.recast (Frame.under (some bound))).solve domain flow maxLocals steps =
        .error stopped ∧ Stopped.Lost (fun fault => fault = .stackOverflow bound) stopped := by
  have ends : Ends domain flow maxLocals start count (.ok final) := .empty run done
  have same : (start.recast (Frame.under (some bound))).recast (Frame.under none) = start :=
    recast_under fun index frame found => (coherent.fits index frame found).maxStack
  rcases solve_spec domain flow maxLocals steps (start.recast (Frame.under (some bound))) with
    ⟨count', -, ends'⟩ | ⟨state, ⟨other, popped⟩, run', taken, -⟩
  · generalize (start.recast (Frame.under (some bound))).solve domain flow maxLocals steps = outcome
      at ends' ⊢
    rcases ends'.unbounded rated coherent' holds with overflow | ends''
    · exact overflow
    · rw [same] at ends''
      obtain ⟨final', rfl, rfl⟩ := map_eq_ok.mp (ends''.unique ends)
      cases ends' with
      | empty run' _ =>
        obtain ⟨coherent'', -⟩ := run'.holds rated.keeps rated.narrows coherent' holds
        rw [frame?_recast] at found
        obtain ⟨own, found', rfl⟩ := Option.map_eq_some_iff.mp found
        have within := (coherent''.fits index own found').within bound rfl
        exact absurd high (Nat.not_lt_of_le within)
  · have run'' := run'.unbounded rated coherent' holds
    have waiting : (state.recast (Frame.under none)).next? =
        some (other, popped.recast (Frame.under none)) := by
      rw [next?_recast, taken]
      rfl
    rw [same] at run''
    exact absurd (run''.lt_of_empty waiting ends) (Nat.not_lt_of_le enough)

end AnalysisState

section Method

variable {flow : Flow} {entry : Frame V} {start : AnalysisState V} {maxLocals : Nat}
  {maxStack : Option Nat}

theorem computeLimits_eq_ok {analysis : Analysis V} {limited : Method}
    (computed : computeLimits domain owner method = .ok (analysis, limited)) :
    (analyzeWithin domain owner method method.neededLocals none).result = .ok analysis ∧
      limited = { method with maxStack := analysis.maxStack, maxLocals := method.neededLocals } := by
  have checked {limit : Limit} {value own : Nat} {index : Option Nat}
      (fine : checkedLimit limit value index = .ok own) : own = value := by
    unfold checkedLimit at fine
    split at fine
    · exact (Except.ok.inj fine).symm
    · cases fine
  unfold computeLimits computeLimitsTraced at computed
  dsimp only at computed
  split at computed
  · cases computed
  · rename_i maxLocals room
    cases checked room
    obtain ⟨found, analyzed, written⟩ := bind_eq_ok.mp computed
    obtain ⟨maxStack, fine, same⟩ := map_eq_ok.mp written
    cases checked fine
    cases same
    exact ⟨analyzed, rfl⟩

theorem Prepared.climbs (policy : domain.Policy) (callless : method.HasNoCall)
    (prepared : Prepared domain owner method maxLocals maxStack flow entry start) :
    ∃ table allowed grade, method.Resolved table flow ∧ (∀ index, flow.called? index = none) ∧
      domain.Rated flow.length allowed grade ∧
      start.Legal flow (method.frameShape domain maxLocals maxStack) allowed ∧
      start.Peaked flow grade (fun _ => False) 0 ∧
      start.Echoed domain flow (method.frameShape domain maxLocals maxStack) grade
        (fun _ => False) 0 := by
  obtain ⟨table, resolved⟩ := Method.resolved_of_flow prepared.resolved
  obtain ⟨allowed, grade, rated⟩ := policy.rated flow.length
  have uncalled := resolved.uncalled callless
  have isStart := prepared.isStart rated.narrows
  have fine := initialFrame_holds rated.keeps.typed prepared.entered
  have empty : entry.stackSlots = 0 := by
    obtain ⟨-, rfl⟩ := initialFrame_eq_ok.mp prepared.entered
    rfl
  refine ⟨table, allowed, grade, resolved, uncalled, rated, ⟨isStart.coherent, ?_, ?_⟩,
    isStart.peaked empty, nofun⟩
  · exact prepared.recordless rated.narrows uncalled
  · intro index frame found
    obtain ⟨-, rfl⟩ := (isStart.frames index frame).mp found
    exact fine

theorem Prepared.bounded (bound : Nat)
    (prepared : Prepared domain owner method maxLocals none flow entry start) :
    Prepared domain owner method maxLocals (some bound) flow (entry.under (some bound))
      (start.recast (Frame.under (some bound))) := by
  refine prepared.mirrored (carries_under (fun _ => False) (some bound)) ?_
  obtain ⟨room, rfl⟩ := initialFrame_eq_ok.mp prepared.entered
  exact initialFrame_eq_ok.mpr ⟨room, rfl⟩

theorem analyzeWithin_of_low (policy : domain.Policy) (callless : method.HasNoCall)
    {analysis : Analysis V}
    (analyzed : (analyzeWithin domain owner method maxLocals none).result = .ok analysis)
    (low : ∀ index frame, analysis.frame? index = some frame → frame.stackSlots ≤ bound) :
    ∃ found, (analyzeWithin domain owner method maxLocals (some bound)).result = .ok found ∧
      found.unbounded = analysis := by
  cases code : method.flags.hasNoCode with
  | true =>
    simp only [analyzeWithin, code, if_true, Except.ok.injEq] at analyzed ⊢
    exact ⟨_, rfl, analyzed⟩
  | false =>
    obtain ⟨flow, entry, start, final, count, prepared, run, done, within, rfl⟩ :=
      run_within_of_result code analyzed
    obtain ⟨table, allowed, grade, resolved, uncalled, rated, legal, peaked, echoed⟩ :=
      prepared.climbs policy callless
    have bounded := run.bounded rated resolved uncalled legal peaked echoed
      (AnalysisState.next?_eq_none.mpr done) low
    have prepared' := prepared.bounded bound
    have fewer : count ≤ domain.steps flow maxLocals (some bound) :=
      Nat.le_trans within (stepBound_mono (Nat.le_refl _) (Nat.zero_le _) (Nat.le_refl _))
    refine ⟨_, prepared'.result_of_run code bounded done fewer, ?_⟩
    obtain ⟨coherent, -⟩ := run.holds rated.keeps rated.narrows legal.toCoherent legal.holds
    have frames : (final.recast (Frame.under (some bound))).recast (Frame.under none) = final :=
      AnalysisState.recast_under fun index frame found => (coherent.fits index frame found).maxStack
    have entered : (entry.under (some bound)).under none = entry :=
      Frame.under_self (initialFrame_fits prepared.entered).maxStack
    have listed : (final.recast (Frame.under (some bound))).frames.map
        (Option.map (Frame.under none)) = final.frames := congrArg AnalysisState.frames frames
    simp only [Analysis.unbounded, Option.map_some, entered, listed]
    rfl

theorem analyzeWithin_of_high (policy : domain.Policy)
    {analysis : Analysis V}
    (analyzed : (analyzeWithin domain owner method maxLocals none).result = .ok analysis)
    {index : Nat} {frame : Frame V} (found : analysis.frame? index = some frame)
    (high : bound < frame.stackSlots) :
    ∃ index, (analyzeWithin domain owner method maxLocals (some bound)).result =
      .error (.fault ((Fault.stackOverflow bound).at index)) := by
  cases code : method.flags.hasNoCode with
  | true =>
    simp only [analyzeWithin, code, if_true, Except.ok.injEq] at analyzed
    subst analyzed
    cases found
  | false =>
    obtain ⟨flow, entry, start, final, count, prepared, run, done, within, rfl⟩ :=
      run_within_of_result code analyzed
    obtain ⟨allowed, grade, rated⟩ := policy.rated flow.length
    have prepared' := prepared.bounded bound
    have isStart := prepared'.isStart rated.narrows
    have holds : (start.recast (Frame.under (some bound))).Holds allowed := by
      intro index frame found
      obtain ⟨-, rfl⟩ := (isStart.frames index frame).mp found
      exact initialFrame_holds rated.keeps.typed prepared'.entered
    have enough : count ≤ domain.steps flow maxLocals (some bound) :=
      Nat.le_trans within (stepBound_mono (Nat.le_refl _) (Nat.zero_le _) (Nat.le_refl _))
    obtain ⟨stopped, solved, located, caused, overflow⟩ :=
      run.overflows rated (prepared.isStart rated.narrows).coherent isStart.coherent holds
        (AnalysisState.next?_eq_none.mpr done) found high enough
    refine ⟨located.index, ?_⟩
    rw [prepared'.result code, solved, ← overflow]
    exact congrArg Except.error caused

/-- Computed limits are exact. With the computed number of locals, any bound of the stack that is no
lower than the computed one leads to the same frames, and under any lower one the stack overflows. -/
theorem analyze_computed (policy : domain.Policy) (callless : method.HasNoCall)
    {analysis : Analysis V} {limited : Method}
    (computed : computeLimits domain owner method = .ok (analysis, limited)) (declared : Nat) :
    (limited.maxStack ≤ declared → ∃ found,
        analyze domain owner { limited with maxStack := declared } = .ok found ∧
          found.unbounded = analysis) ∧
      (declared < limited.maxStack → ∃ index,
        analyze domain owner { limited with maxStack := declared } =
          .error (.fault ((Fault.stackOverflow declared).at index))) := by
  obtain ⟨analyzed, rfl⟩ := computeLimits_eq_ok computed
  have within : analyze domain owner { method with
      maxStack := declared, maxLocals := method.neededLocals } =
        (analyzeWithin domain owner method method.neededLocals (some declared)).result := rfl
  constructor
  · intro room
    refine analyzeWithin_of_low policy callless analyzed fun index frame found => ?_
    by_contra high
    have higher := Analysis.lt_maxStack.mpr ⟨index, frame, found, Nat.lt_of_not_le high⟩
    exact absurd room (Nat.not_le_of_lt higher)
  · intro full
    obtain ⟨index, frame, found, high⟩ := Analysis.lt_maxStack.mp full
    exact analyzeWithin_of_high policy analyzed found high

end Method

theorem crossedEntries_computed : ∃ analysis limited,
    computeLimits ValueKind.verifier .object crossedEntries = .ok (analysis, limited) ∧
      crossedEntries.HasNoCall ∧ limited.maxStack = 4 ∧
      (∃ found, analyze ValueKind.verifier .object { limited with maxStack := 5 } = .ok found ∧
        found.unbounded = analysis) ∧
      ∃ index, analyze ValueKind.verifier .object { limited with maxStack := 3 } =
        .error (.fault ((Fault.stackOverflow 3).at index)) := by
  have written : (computeLimits ValueKind.verifier .object crossedEntries).map
      (fun (_, limited) => limited.maxStack) = .ok 4 := by cbv
  obtain ⟨⟨analysis, limited⟩, computed, height⟩ := map_eq_ok.mp written
  have callless : crossedEntries.HasNoCall := by
    simp [Method.HasNoCall, crossedEntries, Node.branch, Node.instruction]
  have height' : limited.maxStack = 4 := height
  have higher := (analyze_computed ValueKind.verifier_policy callless computed 5).1 (by omega)
  have lower := (analyze_computed ValueKind.verifier_policy callless computed 3).2 (by omega)
  exact ⟨analysis, limited, computed, callless, height', higher, lower⟩

end MethodFlow
