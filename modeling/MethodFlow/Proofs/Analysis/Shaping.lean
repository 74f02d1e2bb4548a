import MethodFlow.Proofs.Analysis.CallSites
import MethodFlow.Proofs.Analysis.Heights
import MethodFlow.Proofs.Analysis.Stages

namespace MethodFlow

open Relation (ReflTransGen)

variable {V : Type} [AbstractValue V] {domain : Domain V} {flow : Flow} {shape : FrameShape V}

namespace Frame

/-- No value of a frame is wider than the value in its place in another frame. -/
structure Thinner (frame other : Frame V) : Prop where
  locals : List.Forall₂ (fun value value' => width value ≤ width value') frame.locals other.locals
  stack : frame.Narrower other

theorem Thinner.refl (frame : Frame V) : frame.Thinner frame :=
  ⟨List.forall₂_same.mpr fun _ _ => Nat.le_refl _, .refl frame⟩

theorem Thinner.trans {upper middle lower : Frame V} (above : upper.Thinner middle)
    (below : middle.Thinner lower) : upper.Thinner lower :=
  ⟨forall₂_trans above.locals below.locals fun _ _ _ => Nat.le_trans,
    above.stack.trans below.stack⟩

theorem Merged.thinner (shrinks : domain.Shrinks) {old new after : Frame V} {changed : Bool}
    (merged : Merged domain shape old new after changed) : after.Thinner old :=
  ⟨(merged.locals.narrower shrinks).1, (merged.narrower shrinks).1⟩

theorem Thinner.stackLength_eq {frame other : Frame V} (thinner : frame.Thinner other) :
    frame.stackLength = other.stackLength := by
  rw [stackLength, SlotVec.length_eq, stackLength, SlotVec.length_eq]
  exact thinner.stack.length_eq

end Frame

namespace AnalysisState

variable {above : Frame V → Frame V → Prop}

theorem rises_thinner (shrinks : domain.Shrinks) (shape : FrameShape V) :
    Rises domain shape Frame.Thinner where
  refl := .refl
  trans := .trans
  merged merged := merged.thinner shrinks

/-- States are coherent in the course of the loop, and each knows what was known before it. -/
theorem coherent_invariant (rises : Rises domain shape above) (narrows : domain.Narrows) :
    Invariant domain flow shape.maxLocals (Coherent flow shape) (Gains above) where
  refl state := (Grows.refl rises state).toGains
  trans := .trans rises
  returns gains := gains.returns
  take coherent taken := ⟨coherent.next? taken, .next? rises taken⟩
  touch := by
    intro visit now next executes before coherent gained touches
    have valid : Visit.Valid flow shape visit :=
      ⟨before, executes.pointed, executes.found,
        fits_of_effect (before.fits _ _ executes.found) executes.executed⟩
    obtain ⟨coherent', grown⟩ := touches.grows_of_gains rises narrows valid coherent gained
    exact ⟨coherent', grown.toGains⟩

end AnalysisState

section Analysis

variable {owner : BinaryName} {method : Method} {maxLocals : Nat} {maxStack : Option Nat}
  {entry : Frame V} {start : AnalysisState V}

/-- At every stage of the loop, every frame has the locals of the method and a stack whose values take
no more slots than the bound, and the worklist holds the queued indices, each once. At all later
stages, an index has a frame of as many values on the stack, and no value there or in a local is
wider. -/
theorem frames_of_advances (policy : domain.Policy)
    (prepared : Prepared domain owner method maxLocals maxStack flow entry start) {stage : Stage V}
    (reached : ReflTransGen (AnalysisState.Advances domain flow maxLocals) (.busy start []) stage) :
    (∀ index frame, stage.state.frame? index = some frame →
      frame.locals.length = maxLocals ∧ frame.stackSlots = (frame.stackValues.map width).sum ∧
        ∀ bound, maxStack = some bound → frame.stackSlots ≤ bound) ∧
      (∀ later, ReflTransGen (AnalysisState.Advances domain flow maxLocals) stage later →
        ∀ index old, stage.state.frame? index = some old →
          ∃ new, later.state.frame? index = some new ∧ new.stackLength = old.stackLength ∧
            List.Forall₂ (fun value value' => width value ≤ width value') new.stackValues
              old.stackValues ∧
            List.Forall₂ (fun value value' => width value ≤ width value') new.locals old.locals) ∧
      (∀ index, index ∈ stage.state.worklist ↔ stage.state.queued[index]? = some true) ∧
      stage.state.worklist.Nodup := by
  have shrinks : domain.Shrinks := policy.shrinks
  let shape := method.frameShape domain maxLocals maxStack
  have invariant : AnalysisState.Invariant domain flow maxLocals
      (AnalysisState.Coherent flow shape) (AnalysisState.Gains Frame.Thinner) :=
    AnalysisState.coherent_invariant (AnalysisState.rises_thinner shrinks shape) shrinks.narrows
  have initial : AnalysisState.Sound domain flow maxLocals (AnalysisState.Coherent flow shape)
      (AnalysisState.Gains Frame.Thinner) (.busy start []) :=
    AnalysisState.sound_of_start (prepared.isStart shrinks.narrows).coherent
  obtain ⟨sound, -⟩ := initial.reach invariant reached
  refine ⟨?_, ?_, sound.kept.mem_iff, sound.kept.nodup⟩
  · intro index frame found
    have fits := sound.kept.fits index frame found
    exact ⟨fits.locals, fits.stackSlots_eq, fits.within⟩
  · intro later further index old found
    obtain ⟨-, gains⟩ := sound.reach invariant further
    obtain ⟨new, found', thinner⟩ := gains.frames index old found
    exact ⟨new, found', thinner.stackLength_eq, thinner.stack, thinner.locals⟩

/-- The frame on entry is there until the end, and the `ret` gets one of the same locals. -/
theorem twoCalls_shaped : ∃ start final first left,
    Prepared ValueKind.verifier .object twoCalls 2 (some 1) twoCallsFlow
      (.entry [.unusable, .unusable] (some 1) none) start ∧
    ReflTransGen (AnalysisState.Advances ValueKind.verifier twoCallsFlow 2) (.busy start [])
      (.busy final []) ∧
    final.frame? 0 = some first ∧ first.stackLength = 0 ∧ final.frame? 9 = some left ∧
    left.locals.length = 2 ∧ left.stackSlots ≤ 1 := by
  obtain ⟨start, final, count, prepared, run, -, -, frames, -⟩ := twoCalls_run
  simp only [List.map_cons, List.map_nil, List.cons.injEq, Option.map_eq_some_iff] at frames
  obtain ⟨-, ⟨left, found, -⟩, -⟩ := frames
  have entered : start.frame? 0 = some (.entry [.unusable, .unusable] (some 1) none) :=
    ((prepared.isStart ValueKind.verifier_narrows).frames 0 _).mpr ⟨rfl, rfl⟩
  obtain ⟨first, found', heights, -⟩ :=
    (frames_of_advances ValueKind.verifier_policy prepared .refl).2.1 _ run.advances 0 _ entered
  obtain ⟨locals, -, within⟩ :=
    (frames_of_advances ValueKind.verifier_policy prepared run.advances).1 9 left found
  exact ⟨start, final, first, left, prepared, run.advances, found', heights, found, locals,
    within 1 rfl⟩

end Analysis

end MethodFlow
