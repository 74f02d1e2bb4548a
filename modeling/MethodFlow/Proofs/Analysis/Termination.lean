import MethodFlow.Proofs.Analysis.Evaluation
import MethodFlow.Proofs.Analysis.Measure
import MethodFlow.Proofs.Domain.Policies

namespace MethodFlow

variable {V : Type} [AbstractValue V] {domain : Domain V} {flow : Flow} {shape : FrameShape V}
  {allowed : V → Prop} {left : V → Nat} {height bound : Nat}

namespace AnalysisState

variable {start final : AnalysisState V} {count : Nat}

theorem Run.potential_le (measured : domain.Measured flow.length height allowed left)
    (narrows : domain.Narrows) (declared : shape.maxStack = some bound)
    (coherent : start.Coherent flow shape) (good : start.Holds allowed)
    (run : Run domain flow shape.maxLocals start count final) :
    final.potential flow left (height * (shape.maxLocals + bound)) shape.maxLocals + count ≤
      start.potential flow left (height * (shape.maxLocals + bound)) shape.maxLocals := by
  induction run with
  | start => exact Nat.le_refl _
  | step run taken processed ih =>
    obtain ⟨coherent', good'⟩ := run.holds measured.toKeeps narrows coherent good
    have step := coherent'.potential_process measured narrows declared good' taken processed
    omega

/-- A loop that has work left only after fewer steps takes no more to end. -/
theorem Ends.count_le {maxLocals most : Nat} {outcome : Except Stopped (AnalysisState V)}
    (busy : ∀ count state taken, Run domain flow maxLocals start count state →
      state.next? = some taken → count < most)
    (ends : Ends domain flow maxLocals start count outcome) : count ≤ most := by
  cases ends with
  | empty run _ =>
    cases run with
    | start => exact Nat.zero_le _
    | step run taken _ => exact busy _ _ _ run taken
  | stopped run taken _ => exact busy _ _ _ run taken

theorem ends_of_busy {maxLocals most steps : Nat}
    (busy : ∀ count state taken, Run domain flow maxLocals start count state →
      state.next? = some taken → count < most) (enough : most ≤ steps) :
    ∃ count, Ends domain flow maxLocals start count (start.solve domain flow maxLocals steps) := by
  rcases solve_spec domain flow maxLocals steps start with
    ⟨count, -, ends⟩ | ⟨state, taken, run, more, -⟩
  · exact ⟨count, ends⟩
  · exact absurd (busy _ _ _ run more) (Nat.not_lt_of_le enough)

theorem sum_weight_le (flow : Flow) :
    ∑ index ∈ Finset.range flow.length, flow.weight index ≤ flow.length * (flow.length + 1) := by
  have each (index : Nat) (_ : index ∈ Finset.range flow.length) :
      flow.weight index ≤ flow.length + 1 := by
    unfold Flow.weight
    split <;> omega
  simpa using Finset.sum_le_card_nsmul _ _ _ each

theorem sum_weight_of_uncalled (uncalled : ∀ index, flow.called? index = none) :
    ∑ index ∈ Finset.range flow.length, flow.weight index = flow.length := by
  simp [Flow.weight, uncalled]

omit [AbstractValue V] in
theorem queuePotential_pos {state popped : AnalysisState V} {index : Nat}
    (taken : state.next? = some (index, popped)) : 0 < state.queuePotential flow := by
  have heavy : 0 < flow.weight index := by
    unfold Flow.weight
    split <;> omega
  unfold next? at taken
  unfold queuePotential
  split at taken
  · cases taken
  · rename_i first rest queued
    cases taken
    rw [queued, List.map_cons, List.sum_cons]
    omega

variable {entry : Frame V} {most : Nat}

/-- Where only the first index has a frame and is queued, the room it has used pays for that. -/
theorem IsStart.frames_le (isStart : start.IsStart flow shape entry)
    (least : entry.room left ≤ most) :
    start.framePotential flow left most + start.queuePotential flow ≤
      (∑ index ∈ Finset.range flow.length, flow.weight index) * (1 + most) := by
  have queue : start.queuePotential flow = flow.weight 0 := by
    simp [queuePotential, isStart.worklist]
  rw [queue, Finset.sum_mul]
  refine sum_drop isStart.nonempty (fun index other => ?_) ?_
  · have absent : start.frame? index = none := by
      rw [Option.eq_none_iff_forall_ne_some]
      exact fun frame found => other ((isStart.frames index frame).mp found).1
    rw [absent]
    rfl
  · have found : start.frame? 0 = some entry := (isStart.frames 0 entry).mpr ⟨rfl, rfl⟩
    have room : flow.weight 0 * entry.room left ≤ flow.weight 0 * most :=
      Nat.mul_le_mul_left _ least
    simp only [found, frameRoom, Option.elim_some, Nat.mul_add, Nat.mul_one]
    omega

theorem recordPotential_le {state : AnalysisState V} (coherent : state.Coherent flow shape) :
    state.recordPotential flow shape.maxLocals ≤
      (∑ index ∈ Finset.range flow.length, flow.weight index) *
        (1 + shape.maxLocals + flow.length) := by
  rw [Finset.sum_mul]
  refine Finset.sum_le_sum fun index _ => Nat.mul_le_mul_left _ ?_
  cases found : state.subroutine? index with
  | none => exact Nat.le_refl _
  | some record =>
    have used := (coherent.records _ _ found).used
    have unused : record.used.count false ≤ record.used.length := List.count_le_length
    simp only [recordRoom, Option.elim_some, Subroutine.room]
    omega

/-- The unbounded loop uses the potential up that frames and the worklist have to start with, and
that of the records as far as they change. -/
theorem Run.queue_le (measured : domain.Measured flow.length height allowed left)
    (narrows : domain.Narrows) (declared : shape.maxStack = some bound)
    (isStart : start.IsStart flow shape entry) (fine : entry.Holds allowed)
    (run : Run domain flow shape.maxLocals start count final) :
    final.recordPotential flow shape.maxLocals + final.queuePotential flow + count ≤
      (∑ index ∈ Finset.range flow.length, flow.weight index) *
        (1 + height * (shape.maxLocals + bound)) + start.recordPotential flow shape.maxLocals := by
  have fits : entry.Fits shape :=
    isStart.coherent.fits 0 entry ((isStart.frames 0 entry).mpr ⟨rfl, rfl⟩)
  have good : start.Holds allowed := by
    intro index frame found
    obtain ⟨-, rfl⟩ := (isStart.frames index frame).mp found
    exact fine
  have used := run.potential_le measured narrows declared isStart.coherent good
  have frames := isStart.frames_le (Frame.room_le measured declared fits fine)
  unfold potential at used
  omega

/-- No index is known to lie in a subroutine. -/
def Recordless (state : AnalysisState V) : Prop := ∀ index, state.subroutine? index = none

theorem Recordless.merge {state next : AnalysisState V} {target : Nat} {sent : Frame V}
    (narrows : domain.Narrows) (coherent : state.Coherent flow shape) (fits : sent.Fits shape)
    (recordless : state.Recordless) (merged : state.merge domain target sent none = .ok next) :
    next.Recordless := by
  obtain ⟨inside, -, own, changed, -, rfl⟩ := coherent.merge narrows fits (by simp) merged
  intro other
  rw [subroutine?_updated (coherent.subroutines_length ▸ inside), recordless target]
  split
  · rfl
  · exact recordless other

theorem Recordless.process {state : AnalysisState V} {index : Nat} (narrows : domain.Narrows)
    (uncalled : ∀ index, flow.called? index = none) (coherent : state.Coherent flow shape)
    (recordless : state.Recordless)
    (processed : state.process domain flow shape.maxLocals index = .ok final) :
    final.Recordless := by
  rcases coherent.process_cases processed with ⟨rfl, -⟩ | ⟨point, frame, after, valid, visited⟩
  · exact recordless
  let visit : Visit V := ⟨state, index, point, frame, after⟩
  have outside : visit.record = none := record_eq_none (recordless index)
  refine steps_keep narrows valid ?_ recordless visited.steps
  intro now next coherent' recordless' touches
  cases touches with
  | register => exact recordless'
  | requeue =>
    intro other
    rw [subroutine?_enqueue]
    exact recordless' other
  | @merge _ target sent record sends merged =>
    obtain ⟨fits, -⟩ := sends.fits valid coherent'
    have none : record = none := by
      cases sends with
      | onward | handler => exact outside
      | call calls =>
        exact absurd (Flow.called?_of_call valid.pointed calls) (by simp [uncalled])
      | back _ within =>
        have within' : visit.record = some _ := within
        rw [outside] at within'
        cases within'
    cases none
    exact recordless'.merge narrows coherent' fits merged

theorem Recordless.run (narrows : domain.Narrows) (uncalled : ∀ index, flow.called? index = none)
    (coherent : start.Coherent flow shape) (recordless : start.Recordless)
    (run : Run domain flow shape.maxLocals start count final) : final.Recordless := by
  have rises := rises_any domain shape
  suffices both : final.Coherent flow shape ∧ final.Recordless from both.2
  induction run with
  | start => exact ⟨coherent, recordless⟩
  | step run taken processed ih =>
    obtain ⟨coherent', recordless'⟩ := ih
    have coherent'' := coherent'.next? taken
    refine ⟨(coherent''.process rises narrows processed).1,
      Recordless.process narrows uncalled coherent'' (fun index => ?_) processed⟩
    rw [subroutine?, (known_next? taken).2.1]
    exact recordless' index

end AnalysisState

/-- The most indices that are taken off the worklist in code of so many nodes, limits and height. -/
def loopBound (nodes maxLocals maxStack height : Nat) : Nat :=
  nodes * (nodes + 1) * (2 + height * (maxLocals + maxStack) + maxLocals + nodes)

namespace Domain.Bounded

variable {height : Nat → Nat}

theorem height_eq (bounded : Domain.Bounded domain height) (nodes : Nat) :
    domain.height nodes = height nodes := by
  obtain ⟨hierarchy, _, chosen, heights⟩ := bounded
  cases chosen <;> cases heights <;> rfl

theorem measured (bounded : Domain.Bounded domain height) (nodes : Nat) :
    ∃ allowed left, domain.Measured nodes (height nodes) allowed left := by
  obtain ⟨hierarchy, _, chosen, heights⟩ := bounded
  cases chosen with
  | basic =>
    cases heights
    exact ⟨_, _, ValueKind.domain_measured nodes⟩
  | verify =>
    cases heights
    exact ⟨_, _, ValueKind.verifier_measured nodes⟩
  | simple => cases heights
  | source =>
    cases heights
    exact ⟨_, _, Provenance.domain_measured nodes⟩

end Domain.Bounded

variable {owner : BinaryName} {method : Method} {maxLocals : Nat} {maxStack : Option Nat}
  {entry : Frame V} {start : AnalysisState V}

theorem Prepared.recordless (narrows : domain.Narrows)
    (prepared : Prepared domain owner method maxLocals maxStack flow entry start)
    (uncalled : ∀ index, flow.called? index = none) : start.Recordless := by
  obtain ⟨marks, marked, merged⟩ := prepared.started
  have coherent : (AnalysisState.initial marks
      [.started owner method.name method.descriptor] : AnalysisState V).Coherent flow
        (method.frameShape domain maxLocals maxStack) := initial_coherent marked
  have fits := initialFrame_fits prepared.entered
  refine AnalysisState.Recordless.merge narrows coherent fits (fun index => ?_) merged
  exact subroutines_uncalled uncalled marked index

namespace Prepared

variable {bound : Nat}

theorem queue_le (prepared : Prepared domain owner method maxLocals (some bound) flow entry start)
    (measured : domain.Measured flow.length height allowed left) (narrows : domain.Narrows)
    {count : Nat} {state : AnalysisState V} {taken : Nat × AnalysisState V}
    (run : AnalysisState.Run domain flow maxLocals start count state)
    (more : state.next? = some taken) :
    state.recordPotential flow maxLocals + state.queuePotential flow + count ≤
        (∑ index ∈ Finset.range flow.length, flow.weight index) *
          (1 + height * (maxLocals + bound)) + start.recordPotential flow maxLocals ∧
      0 < state.queuePotential flow := by
  have declared : (method.frameShape domain maxLocals (some bound)).maxStack = some bound := rfl
  have fine := initialFrame_holds measured.typed prepared.entered
  have used := run.queue_le measured narrows declared (prepared.isStart narrows) fine
  simp only [Method.frameShape] at used
  exact ⟨used, AnalysisState.queuePotential_pos more⟩

/-- While work is left, fewer indices were taken off the worklist than the bound. -/
theorem busy_lt (prepared : Prepared domain owner method maxLocals (some bound) flow entry start)
    (measured : domain.Measured flow.length height allowed left) (narrows : domain.Narrows)
    {count : Nat} {state : AnalysisState V} {taken : Nat × AnalysisState V}
    (run : AnalysisState.Run domain flow maxLocals start count state)
    (more : state.next? = some taken) :
    count < loopBound flow.length maxLocals bound height := by
  obtain ⟨used, queue⟩ := prepared.queue_le measured narrows run more
  have records : start.recordPotential flow maxLocals ≤ _ :=
    AnalysisState.recordPotential_le (prepared.isStart narrows).coherent
  have weights := Nat.mul_le_mul_right (2 + height * (maxLocals + bound) + maxLocals + flow.length)
    (AnalysisState.sum_weight_le flow)
  have parts : 2 + height * (maxLocals + bound) + maxLocals + flow.length =
      (1 + height * (maxLocals + bound)) + (1 + maxLocals + flow.length) := by omega
  rw [parts, Nat.mul_add] at weights
  rw [loopBound, parts]
  simp only [Method.frameShape] at records
  omega

/-- Without calls, records stay as they are and every index weighs the same. -/
theorem plain_busy_lt
    (prepared : Prepared domain owner method maxLocals (some bound) flow entry start)
    (measured : domain.Measured flow.length height allowed left) (narrows : domain.Narrows)
    (uncalled : ∀ index, flow.called? index = none) {count : Nat} {state : AnalysisState V}
    {taken : Nat × AnalysisState V} (run : AnalysisState.Run domain flow maxLocals start count state)
    (more : state.next? = some taken) :
    count < flow.length * (1 + height * (maxLocals + bound)) := by
  obtain ⟨used, queue⟩ := prepared.queue_le measured narrows run more
  have recordless := prepared.recordless narrows uncalled
  have recordless' := recordless.run narrows uncalled (prepared.isStart narrows).coherent run
  have same : state.recordPotential flow maxLocals = start.recordPotential flow maxLocals := by
    simp only [AnalysisState.recordPotential, recordless _, recordless' _]
  rw [AnalysisState.sum_weight_of_uncalled uncalled] at used
  omega

end Prepared

omit [AbstractValue V] in
theorem loopBound_le_steps (domain : Domain V) (flow : Flow) (maxLocals bound : Nat) :
    loopBound flow.length maxLocals bound (domain.height flow.length) ≤
      domain.steps flow maxLocals (some bound) := by
  apply Nat.mul_le_mul_left
  have higher : maxLocals + bound ≤ maxLocals + max bound (2 * flow.length + 2) := by omega
  have := Nat.mul_le_mul_left (domain.height flow.length) higher
  simp only [Option.getD_some]
  omega

theorem Prepared.ends {heights : Nat → Nat} {bound : Nat}
    (bounded : Domain.Bounded domain heights)
    (prepared : Prepared domain owner method maxLocals (some bound) flow entry start) :
    ∃ count, AnalysisState.Ends domain flow maxLocals start count
      (start.solve domain flow maxLocals (domain.steps flow maxLocals (some bound))) := by
  have narrows : domain.Narrows := bounded.policy.narrows
  obtain ⟨allowed, left, measured⟩ := bounded.measured flow.length
  have enough := loopBound_le_steps domain flow maxLocals bound
  rw [bounded.height_eq] at enough
  exact AnalysisState.ends_of_busy
    (fun count state taken run more => prepared.busy_lt measured narrows run more) enough

/-- The worklist loop of an analysis ends, with success or a fault, after no more indices than the
limits of the method allow for, and the analysis makes no fewer steps than that. -/
theorem loop_ends_within {heights : Nat → Nat} (bounded : Domain.Bounded domain heights)
    (owner : BinaryName) (method : Method) :
    (∀ flow entry start,
      Prepared domain owner method method.maxLocals (some method.maxStack) flow entry start →
      ∃ count outcome, AnalysisState.Ends domain flow method.maxLocals start count outcome ∧
        count ≤ loopBound method.nodes.length method.maxLocals method.maxStack
          (heights method.nodes.length) ∧
        (method.HasNoCall → count ≤ method.nodes.length *
          (1 + heights method.nodes.length * (method.maxLocals + method.maxStack))) ∧
        start.solve domain flow method.maxLocals
          (domain.steps flow method.maxLocals (some method.maxStack)) = outcome) ∧
      analyze domain owner method ≠ .error .unsettled := by
  have narrows : domain.Narrows := bounded.policy.narrows
  refine ⟨fun flow entry start prepared => ?_,
    settled_of_ends fun flow entry start prepared => prepared.ends bounded⟩
  obtain ⟨count, ends⟩ := prepared.ends bounded
  obtain ⟨table, resolved⟩ := Method.resolved_of_flow prepared.resolved
  obtain ⟨allowed, left, measured⟩ := bounded.measured flow.length
  rw [← resolved.length]
  refine ⟨count, _, ends, ?_, fun callless => ?_, rfl⟩
  · exact ends.count_le fun count state taken run more =>
      prepared.busy_lt measured narrows run more
  · exact ends.count_le fun count state taken run more =>
      prepared.plain_busy_lt measured narrows (resolved.uncalled callless) run more

/-- Calls a subroutine twice that has a loop. -/
def loopingSubroutine : Method where
  flags := .static
  name := ⟨"loop".toList, by decide⟩
  descriptor := ⟨[], none⟩
  nodes := [.branch (.jsr ⟨0⟩), .branch (.jsr ⟨0⟩), .branch .voidReturn, .label ⟨0⟩,
    .instruction (.store .reference 0), .label ⟨1⟩, .instruction (.shortConstant .int0),
    .branch (.ifZero .eq ⟨1⟩), .branch (.ret 0)]
  handlers := []
  maxStack := 1
  maxLocals := 1

theorem loopingSubroutine_ends_within : ∃ flow entry start count outcome,
    Prepared ValueKind.verifier .object loopingSubroutine 1 (some 1) flow entry start ∧
      AnalysisState.Ends ValueKind.verifier flow 1 start count outcome ∧
        count ≤ loopBound 9 1 1 1 := by
  let flow : Flow := [⟨.branch (.jsr ⟨0⟩) (.jsr 3), []⟩, ⟨.branch (.jsr ⟨0⟩) (.jsr 3), []⟩,
    ⟨.branch .voidReturn .voidReturn, []⟩, ⟨.idle, []⟩, ⟨.instruction (.store .reference 0), []⟩,
    ⟨.idle, []⟩, ⟨.instruction (.shortConstant .int0), []⟩,
    ⟨.branch (.ifZero .eq ⟨1⟩) (.ifZero .eq 5), []⟩, ⟨.branch (.ret 0) (.ret 0), []⟩]
  let body : Option Subroutine := some (.fresh none 1 none)
  let called : Option Subroutine := some (.fresh (some 3) 1 (some 0))
  have resolved : loopingSubroutine.flow = .ok flow := by cbv
  have walked : markFrom flow (.fresh none 1 none) (List.replicate 9 none) [] [(0, none)] =
      .ok (List.replicate 3 body ++ List.replicate 6 none, [0, 1]) := by cbv
  have walked' : markFrom flow (.fresh (some 3) 1 (some 0))
      (List.replicate 3 body ++ List.replicate 6 none) [1] [(3, none)] =
      .ok (List.replicate 3 body ++ List.replicate 6 called, [1]) := by cbv
  let marks : Marks := List.replicate 3 none ++ List.replicate 6 called
  have marked : flow.subroutines 1 = .ok marks := by
    simp only [Flow.subroutines, bind_eq_ok, Prod.exists]
    refine ⟨_, _, walked, List.replicate 3 body ++ List.replicate 6 called, ?_, rfl⟩
    rw [markCalls_enter rfl rfl walked', markCalls_again rfl rfl, markCalls]
  obtain ⟨start, merged⟩ : ∃ start, (AnalysisState.initial marks
      [.started .object loopingSubroutine.name loopingSubroutine.descriptor]).merge
        ValueKind.verifier 0 (.entry [.unusable] (some 1) none) none = .ok start := ⟨_, rfl⟩
  have prepared : Prepared ValueKind.verifier .object loopingSubroutine 1 (some 1) flow _ start :=
    ⟨resolved, rfl, marks, marked, merged⟩
  obtain ⟨count, outcome, ends, within, -⟩ :=
    (loop_ends_within ⟨ClassGraph.empty.hierarchy, _, .verify, rfl⟩ .object loopingSubroutine).1
      flow _ start prepared
  exact ⟨flow, _, start, count, outcome, prepared, ends, within⟩

end MethodFlow
