import MethodFlow.Proofs.Analysis.Closing
import MethodFlow.Proofs.Analysis.Limits
import MethodFlow.Proofs.Analysis.Lockstep
import MethodFlow.Proofs.Frame.Widening

namespace MethodFlow

variable {V : Type} [AbstractValue V] {domain : Domain V} {owner : BinaryName} {method : Method}
  {spare : List V} {shape : FrameShape V} {bound maxStack : Nat}

namespace Frame

omit [AbstractValue V] in
/-- The frame under a higher bound of the stack, with more locals after its own. -/
def raise (spare : List V) (bound : Nat) (frame : Frame V) : Frame V :=
  (frame.widen spare).under (some bound)

omit [AbstractValue V] in
/-- What a computation does under a bound on the wider frame, it does under a higher one. -/
theorem Bounds.raised {free low high : Except Fault (Frame V)} {after : Frame V}
    (lower : Bounds maxStack free low) (higher : Bounds bound free high)
    (succeeds : low = .ok after) (within : after.stackSlots ≤ bound) :
    high = .ok (after.under (some bound)) := by
  have freed : free = .ok (after.under none) := lower.mirrors.eq_ok succeeds
  have raised : high = .ok ((after.under none).under (some bound)) := higher.eq_ok freed within
  exact raised

variable {frame after : Frame V} (fits : frame.Fits shape) (declared : shape.maxStack = some maxStack)
  (higher : maxStack ≤ bound)

include fits declared higher

theorem effect_raise {action : Action} {index : Nat}
    (executed : action.effect domain index frame = .ok after) :
    action.effect domain index (frame.raise spare bound) = .ok (after.raise spare bound) := by
  have fits' := AnalysisState.fits_of_effect fits executed
  have wider : action.effect domain index (frame.widen spare) = .ok (after.widen spare) := by
    rcases action.idle_or_executes with idle | ⟨operation, executes⟩
    · rw [idle] at executed ⊢
      cases executed
      rfl
    · rw [executes] at executed ⊢
      exact execute_widen.eq_ok executed
  have recorded : (frame.widen spare).under (some maxStack) = frame.widen spare :=
    under_self (fits.maxStack.trans declared)
  have lower : Bounds maxStack (action.effect domain index ((frame.widen spare).under none))
      (action.effect domain index ((frame.widen spare).under (some maxStack))) := effect_bounds ..
  rw [recorded] at lower
  exact lower.raised (effect_bounds index action (frame.widen spare)) wider
    (Nat.le_trans (fits'.within maxStack declared) higher)

theorem caught_raise {value : V} (pushed : frame.clearStack.push value = .ok after) :
    (frame.raise spare bound).clearStack.push value = .ok (after.raise spare bound) := by
  have fits' := fits.clearStack.push pushed
  have wider : (frame.widen spare).clearStack.push value = .ok (after.widen spare) := by
    have clear : (frame.widen spare).clearStack = frame.clearStack.widen spare := rfl
    rw [clear]
    exact (push_widen value).eq_ok pushed
  have recorded : (frame.widen spare).under (some maxStack) = frame.widen spare :=
    under_self (fits.maxStack.trans declared)
  have lower := caught_bounds maxStack (frame.widen spare) value
  rw [recorded] at lower
  exact lower.raised (caught_bounds bound (frame.widen spare) value) wider
    (Nat.le_trans (fits'.within maxStack declared) higher)

end Frame

/-- Merging raised frames raises the merged one, for what is beyond the locals merges with itself. -/
theorem carriesFine_raise (narrows : domain.Narrows)
    (kept : Frame.mergeValues domain spare spare = .ok spare) :
    domain.CarriesFine (fun _ => True) (Frame.Fits shape) (Frame.raise spare bound) where
  merge {frame other} fits fits' := by
    have lengths := fits.locals.trans fits'.locals.symm
    left
    simp only [Frame.raise, Frame.merge_under, Frame.merge_widen lengths kept]
    cases frame.merge domain other <;> rfl
  keeps fits fits' merged :=
    (Frame.Merged.of_merge fits.toHasShape fits'.toHasShape merged).fits narrows fits

/-- What a point sends on from a frame of the shape, it sends on raised from the raised frame. -/
theorem Point.carriedFine_raise {point : Point} (plain : point.action.isCall = false) (index : Nat)
    {frame : Frame V} (fits : frame.Fits shape) (declared : shape.maxStack = some maxStack)
    (higher : maxStack ≤ bound) :
    point.CarriedFine (fun _ => True) (Frame.Fits shape) (Frame.raise spare bound) domain index
      frame where
  effect := .of_ok fun _ executed => Frame.effect_raise fits declared higher executed
  caught _ _ _ := .of_ok fun _ pushed => Frame.caught_raise fits declared higher pushed
  plain := plain
  after executed := AnalysisState.fits_of_effect fits executed
  thrown _ pushed := fits.clearStack.push pushed

theorem Domain.Policy.mergeValues_unusable (policy : domain.Policy) (count : Nat) :
    Frame.mergeValues domain (List.replicate count domain.unusable)
      (List.replicate count domain.unusable) = .ok (List.replicate count domain.unusable) := by
  have kept : domain.merge domain.unusable domain.unusable = .ok domain.unusable := by
    obtain ⟨hierarchy, _, chosen⟩ := policy
    cases chosen <;> rfl
  induction count with
  | zero => rfl
  | succ count ih => simp only [List.replicate_succ, Frame.mergeValues, kept, ih, bind, Except.bind,
      pure, Except.pure]

omit [AbstractValue V] in
/-- The analysis with its frames raised. -/
def Analysis.raise (spare : List V) (bound : Nat) (analysis : Analysis V) : Analysis V :=
  ⟨analysis.frames.map (Option.map (Frame.raise spare bound)),
    analysis.initialFrame.map (Frame.raise spare bound), analysis.processed⟩

omit [AbstractValue V] in
theorem Analysis.frame?_raise (analysis : Analysis V) (index : Nat) :
    (analysis.raise spare bound).frame? index =
      (analysis.frame? index).map (Frame.raise spare bound) := by
  unfold Analysis.frame? raise
  rw [List.getElem?_map]
  cases analysis.frames[index]? <;> rfl

section Raised

variable {maxLocals wider : Nat} {flow : Flow} {entry : Frame V} {start : AnalysisState V}

theorem Prepared.raised (more : maxLocals ≤ wider)
    (prepared : Prepared domain owner method maxLocals (some maxStack) flow entry start) :
    ∃ start', Prepared domain owner method wider (some bound) flow
      (entry.raise (List.replicate (wider - maxLocals) domain.unusable) bound) start' := by
  obtain ⟨marks, marked, -⟩ := prepared.started
  obtain ⟨reached, closed, first⟩ := closed_of_subroutines marked
  obtain ⟨marks', marked'⟩ : ∃ marks', flow.subroutines wider = .ok marks' :=
    subroutines_ok closed first
  obtain ⟨room, rfl⟩ := initialFrame_eq_ok.mp prepared.entered
  have entered : initialFrame domain owner method wider (some bound) = .ok ((Frame.entry
      (method.entryValues domain owner ++ List.replicate
        (maxLocals - (method.entryValues domain owner).length) domain.unusable) (some maxStack)
      (domain.returned method.descriptor.returnType)).raise
        (List.replicate (wider - maxLocals) domain.unusable) bound) := by
    refine initialFrame_eq_ok.mpr ⟨Nat.le_trans room more, ?_⟩
    simp only [Frame.raise, Frame.widen, Frame.under, Frame.entry, List.append_assoc,
      List.replicate_append_replicate]
    congr 4
    omega
  obtain ⟨start', -, prepared'⟩ := Prepared.of_entered prepared.resolved marked' entered
  exact ⟨start', prepared'⟩

/-- The loop ends under higher limits as it does under lower ones, with frames raised. -/
theorem Prepared.result_raised (policy : domain.Policy) (uncalled : ∀ index, flow.called? index = none)
    {start' final : AnalysisState V} (more : maxLocals ≤ wider) (higher : maxStack ≤ bound)
    (prepared : Prepared domain owner method maxLocals (some maxStack) flow entry start)
    (prepared' : Prepared domain owner method wider (some bound) flow
      (entry.raise (List.replicate (wider - maxLocals) domain.unusable) bound) start')
    (code : method.flags.hasNoCode = false)
    (solved : start.solve domain flow maxLocals (domain.steps flow maxLocals (some maxStack)) =
      .ok final) :
    (analyzeWithin domain owner method wider (some bound)).result =
        .ok (Analysis.raise (List.replicate (wider - maxLocals) domain.unusable) bound
          ⟨final.frames, some entry, final.processed⟩) ∧
      ∀ index frame, final.frame? index = some frame → frame.locals.length = maxLocals := by
  let change : Frame V → Frame V :=
    Frame.raise (List.replicate (wider - maxLocals) domain.unusable) bound
  let fine : Frame V → Prop := Frame.Fits (method.frameShape domain maxLocals (some maxStack))
  have carries : domain.CarriesFine (fun _ => True) fine change :=
    carriesFine_raise (Domain.Shrinks.narrows policy.shrinks) (policy.mergeValues_unusable _)
  have step : AnalysisState.InStep fine change start start' :=
    prepared.inStep carries prepared' rfl (subroutines_uncalled uncalled)
      (subroutines_uncalled uncalled) (initialFrame_fits prepared.entered)
  have alike : EndsAlike (fun _ => True) (AnalysisState.InStep fine change)
      (start.solve domain flow maxLocals (domain.steps flow maxLocals (some maxStack)))
      (start'.solve domain flow wider (domain.steps flow maxLocals (some maxStack))) := by
    refine step.solve carries (fun {_ _ index _} _ _ fits => ⟨rfl, fun pointed => ?_⟩) _
    have plain := Point.isCall_of_uncalled uncalled pointed
    exact Point.carriedFine_raise plain index fits rfl higher
  rw [solved] at alike
  generalize solved' : start'.solve domain flow wider _ = outcome' at alike
  cases alike with
  | @ok _ final' step =>
    -- the loop is given no fewer steps than before
    have steps : domain.steps flow maxLocals (some maxStack) ≤ domain.steps flow wider (some bound) :=
      stepBound_mono more higher (Nat.le_refl _)
    have settled : start'.solve domain flow wider (domain.steps flow wider (some bound)) =
        .ok final' :=
      (AnalysisState.solve_more steps (by simp [solved'])).trans solved'
    refine ⟨?_, fun index frame found => (step.fine found).locals⟩
    rw [prepared'.result code, settled]
    simp only [step.frames, step.processed]
    rfl

/-- An analysis without calls that has a result has it raised under higher limits. -/
theorem analyzeWithin_raised (policy : domain.Policy) (callless : method.HasNoCall)
    {analysis : Analysis V} (more : maxLocals ≤ wider) (higher : maxStack ≤ bound)
    (analyzed : (analyzeWithin domain owner method maxLocals (some maxStack)).result =
      .ok analysis) :
    (analyzeWithin domain owner method wider (some bound)).result =
        .ok (analysis.raise (List.replicate (wider - maxLocals) domain.unusable) bound) ∧
      ∀ index frame, analysis.frame? index = some frame → frame.locals.length = maxLocals := by
  cases code : method.flags.hasNoCode with
  | true =>
    simp only [analyzeWithin, code, if_true, Except.ok.injEq] at analyzed ⊢
    subst analyzed
    refine ⟨rfl, fun index frame found => ?_⟩
    cases found
  | false =>
    obtain ⟨flow, entry, start, prepared⟩ := prepared_of_result code analyzed
    obtain ⟨table, resolved⟩ := Method.resolved_of_flow prepared.resolved
    obtain ⟨start', prepared'⟩ : ∃ start', Prepared domain owner method wider (some bound) flow
        (entry.raise (List.replicate (wider - maxLocals) domain.unusable) bound) start' :=
      prepared.raised more
    rw [prepared.result code] at analyzed
    split at analyzed
    · rename_i final solved
      cases analyzed
      exact prepared.result_raised policy (resolved.uncalled callless) more higher prepared' code solved
    · cases analyzed

/-- Higher limits change nothing about a method without calls that is accepted: as many points are
processed, the same ones are reached, stacks and locals are as before, and the locals that are added
hold nothing usable. -/
theorem analyze_raised (policy : domain.Policy) (callless : method.HasNoCall)
    {analysis : Analysis V} (analyzed : analyze domain owner method = .ok analysis)
    (higher : method.maxStack ≤ bound) (more : method.maxLocals ≤ wider) :
    ∃ raised,
      analyze domain owner { method with maxStack := bound, maxLocals := wider } = .ok raised ∧
      raised.processed = analysis.processed ∧
      (∀ index, (raised.frame? index).isSome ↔ (analysis.frame? index).isSome) ∧
      ∀ index frame, analysis.frame? index = some frame →
        frame.locals.length = method.maxLocals ∧
        raised.frame? index = some { frame with
          maxStack := some bound
          locals :=
            frame.locals ++ List.replicate (wider - method.maxLocals) domain.unusable } := by
  obtain ⟨analyzed', lengths⟩ := analyzeWithin_raised policy callless more higher analyzed
  refine ⟨_, analyzed', rfl, fun index => ?_, fun index frame found => ⟨lengths index frame found, ?_⟩⟩
  · rw [Analysis.frame?_raise, Option.isSome_map]
  · rw [Analysis.frame?_raise, found]
    rfl

end Raised

/-- Copies a long value into its last two locals again and again, also when an exception is thrown. -/
def lastLocals : Method where
  flags := .static
  name := ⟨"copy".toList, by decide⟩
  descriptor := ⟨[.base .long], none⟩
  nodes := [.label ⟨0⟩, .instruction (.load .long 0), .instruction (.store .long 2), .label ⟨1⟩,
    .branch (.goto ⟨0⟩), .label ⟨2⟩, .instruction (.shuffle .pop), .branch (.goto ⟨0⟩)]
  handlers := [⟨⟨0⟩, ⟨1⟩, ⟨2⟩, none⟩]
  maxStack := 2
  maxLocals := 4

theorem lastLocals_raised : ∃ analysis raised,
    analyze ValueKind.verifier .object lastLocals = .ok analysis ∧ lastLocals.HasNoCall ∧
      lastLocals.maxStack ≤ 5 ∧ lastLocals.maxLocals ≤ 6 ∧
      analyze ValueKind.verifier .object { lastLocals with maxStack := 5, maxLocals := 6 } =
        .ok raised ∧
      raised.processed = analysis.processed ∧
      (∀ index, (raised.frame? index).isSome ↔ (analysis.frame? index).isSome) ∧
      ∀ index frame, analysis.frame? index = some frame →
        frame.locals.length = 4 ∧
        raised.frame? index = some { frame with
          maxStack := some 5, locals := frame.locals ++ [.unusable, .unusable] } := by
  obtain ⟨analysis, analyzed⟩ : ∃ analysis, analyze ValueKind.verifier .object lastLocals =
      .ok analysis := isOk_iff.mp (by cbv)
  have callless : lastLocals.HasNoCall := by
    simp [Method.HasNoCall, lastLocals, Node.branch, Node.instruction]
  have higher : lastLocals.maxStack ≤ 5 := by decide
  have more : lastLocals.maxLocals ≤ 6 := by decide
  obtain ⟨raised, analyzed', alike⟩ :=
    analyze_raised ValueKind.verifier_policy callless analyzed higher more
  exact ⟨analysis, raised, analyzed, callless, higher, more, analyzed', alike⟩

end MethodFlow
