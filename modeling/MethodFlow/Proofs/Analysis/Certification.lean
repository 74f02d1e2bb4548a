import MethodFlow.Proofs.Analysis.FixedPoint
import MethodFlow.Proofs.Analysis.Progress
import MethodFlow.Proofs.Analysis.Termination
import MethodFlow.Proofs.Code.Labelling
import MethodFlow.Proofs.Domain.Outlining

namespace MethodFlow

/-- A frame holds the values of another one, or that one has lost them. The stacks take the same
slots value by value. -/
structure Frame.Refines (frame upper : Frame ValueKind) : Prop where
  locals : List.Forall₂ ValueKind.Refines frame.locals upper.locals
  stack : List.Forall₂ (Matches ValueKind.Refines) frame.stackValues upper.stackValues

/-- The shape of the frames that the verifier of kinds finds for a method. -/
abbrev Method.kindShape (method : Method) : FrameShape ValueKind :=
  method.frameShape ValueKind.verifier method.maxLocals (some method.maxStack)

/-- Does a node load only what is usable? -/
def Node.LoadsUsable (node : Node) (frame : Frame ValueKind) : Prop :=
  ∀ kind slot, node = .instruction (.load kind slot) → frame.local? slot ≠ .ok .unusable

/-- Frames that control keeps to: execution succeeds on each of them and loads usable locals only, and
the frame that control takes along refines those where it leads. -/
structure Method.Certified (domain : Domain ValueKind) (owner : BinaryName) (method : Method)
    (frames : Nat → Option (Frame ValueKind)) : Prop where
  shaped : ∀ index upper, frames index = some upper → upper.HasShape method.kindShape
  entry : ∃ entry upper,
    initialFrame domain owner method method.maxLocals (some method.maxStack) = .ok entry ∧
      frames 0 = some upper ∧ entry.Refines upper
  onward : ∀ index upper, frames index = some upper → ∃ node after,
    method.nodes[index]? = some node ∧ (∀ slot, node ≠ .branch (.ret slot)) ∧
      node.LoadsUsable upper ∧ node.effect domain index upper = .ok after ∧
      ∀ target, method.Leads index target → ∃ next, frames target = some next ∧ after.Refines next
  caught : ∀ index upper handler target, frames index = some upper →
    handler ∈ method.handlers → method.Protects handler index →
    method.Places handler.handler target → ∃ caught next,
      upper.clearStack.push (domain.exception handler.caught) = .ok caught ∧
        frames target = some next ∧ caught.Refines next

variable {domain : Domain ValueKind} {owner : BinaryName} {method : Method} {table : LabelTable}
  {flow : Flow} {frames : Nat → Option (Frame ValueKind)}

namespace Domain.OfKinds

variable (kinds : domain.OfKinds)

include kinds

theorem joins : domain.Joins := by
  rcases kinds.eq_or_eq with rfl | rfl
  · exact ValueKind.domain_joins
  · exact ValueKind.verifier_joins

theorem merge_eq (old new : ValueKind) : domain.merge old new = .ok (ValueKind.merge old new) := by
  rcases kinds.eq_or_eq with rfl | rfl <;> rfl

theorem frameShape_eq (method : Method) (maxLocals : Nat) (maxStack : Option Nat) :
    method.frameShape domain maxLocals maxStack =
      method.frameShape ValueKind.verifier maxLocals maxStack := by
  rcases kinds.eq_or_eq with rfl | rfl <;> rfl

end Domain.OfKinds

namespace ValueKind

/-- Where no load is of an unusable local, the guarded domain does what kinds do without checks. -/
theorem guarded_execute {frame after : Frame ValueKind} {index : Nat} {operation : Operation}
    (usable : Node.LoadsUsable (.operation operation) frame)
    (executed : frame.execute ValueKind.domain ⟨index, operation⟩ = .ok after) :
    frame.execute guarded ⟨index, operation⟩ = .ok after := by
  by_cases loads : ∃ kind slot, operation = .instruction (.load kind slot)
  · obtain ⟨kind, slot, rfl⟩ := loads
    simp only [Frame.execute, Frame.executeInstruction, bind_eq_ok] at executed ⊢
    obtain ⟨stored, read, value, copied, pushed⟩ := executed
    have known : stored ≠ .unusable := fun same => usable kind slot rfl (same ▸ read)
    exact ⟨stored, read, value, (if_neg known).trans copied, pushed⟩
  · have copies (value : ValueKind) :
        guarded.copy ⟨index, operation⟩ value = ValueKind.domain.copy ⟨index, operation⟩ value := by
      dsimp only [guarded]
      split
      · exact absurd ⟨_, _, rfl⟩ loads
      · rfl
    have mirrored : ValueKind.domain.MirroredAt (fun _ => False) guarded ⟨index, operation⟩ :=
      ⟨rfl, .same _, fun value => copies value ▸ .same _, fun _ => .same _, fun _ _ => .same _,
        fun _ _ _ => .same _, fun _ => .same _, fun _ _ => .same _⟩
    exact (Frame.execute_mirrors mirrored).eq_ok executed

/-- The verifier lets only usable locals be loaded. -/
theorem loadsUsable_of_effect {node : Node} {index : Nat} {frame after : Frame ValueKind}
    (executed : node.effect verifier index frame = .ok after) : node.LoadsUsable frame := by
  rintro kind slot rfl read
  obtain ⟨stored, read', value, copied, -⟩ := by
    simpa only [Node.effect, Frame.execute, Frame.executeInstruction, bind_eq_ok] using executed
  cases read.symm.trans read'
  obtain ⟨_, passed, -⟩ := bind_eq_ok.mp copied
  exact checkedTypes_lowers.load rfl passed rfl

end ValueKind

namespace Frame.Refines

variable {frame upper : Frame ValueKind}

theorem trans {middle : Frame ValueKind} (below : frame.Refines middle)
    (above : middle.Refines upper) : frame.Refines upper :=
  ⟨forall₂_trans below.locals above.locals fun _ _ _ => ValueKind.Refines.trans,
    forall₂_trans below.stack above.stack fun _ _ _ => ValueKind.matches_trans⟩

theorem alongside {returned : ValueKind → ValueKind → Prop} (refines : frame.Refines upper)
    (shaped : frame.HasShape method.kindShape) (shaped' : upper.HasShape method.kindShape)
    (expected : ∀ type, returned (ValueKind.types.typed type) (ValueKind.types.typed type)) :
    frame.Alongside ValueKind.Refines returned upper := by
  refine ⟨refines.locals, refines.stack, shaped.placed, shaped'.placed,
    shaped.maxStack.trans shaped'.maxStack.symm, ?_⟩
  rw [shaped.returnValue, shaped'.returnValue]
  simp only [Method.kindShape, Method.frameShape, Domain.returned]
  cases method.descriptor.returnType with
  | none => exact .none
  | some type => exact .some (expected type)

/-- What a node does with a frame that loads usable locals only, it does with a more precise one. -/
theorem effect (kinds : domain.OfKinds) (refines : frame.Refines upper)
    (shaped : frame.HasShape method.kindShape) (shaped' : upper.HasShape method.kindShape)
    {node : Node} {index : Nat} {after' : Frame ValueKind} (usable : node.LoadsUsable upper)
    (executed : node.effect domain index upper = .ok after') :
    ∃ after, node.effect domain index frame = .ok after ∧ after.Refines after' := by
  cases node with
  | label | line =>
    cases executed
    exact ⟨frame, rfl, refines⟩
  | operation operation =>
    rcases kinds.eq_or_eq with rfl | rfl
    · have along : frame.Alongside ValueKind.Refines Unasked upper :=
        refines.alongside shaped shaped' fun _ => trivial
      obtain ⟨after, executed', along'⟩ :=
        along.execute (ValueKind.domain_follows _) (ValueKind.guarded_execute usable executed)
      exact ⟨after, executed', along'.locals, along'.stack⟩
    · have along : frame.Alongside ValueKind.Refines ValueKind.Expects upper :=
        refines.alongside shaped shaped' fun type => ⟨rfl, ValueKind.typed_usable type⟩
      obtain ⟨after, executed', along'⟩ := along.execute (ValueKind.verifier_follows _) executed
      exact ⟨after, executed', along'.locals, along'.stack⟩

theorem caught (refines : frame.Refines upper) (shaped : frame.HasShape method.kindShape)
    (shaped' : upper.HasShape method.kindShape) {value : ValueKind} {caught' : Frame ValueKind}
    (pushed : upper.clearStack.push value = .ok caught') :
    ∃ caught, frame.clearStack.push value = .ok caught ∧ caught.Refines caught' := by
  have along : frame.Alongside ValueKind.Refines Unasked upper :=
    refines.alongside shaped shaped' fun _ => trivial
  obtain ⟨caught, pushed', along'⟩ := along.clearStack.push (ValueKind.matches_refl value) pushed
  exact ⟨caught, pushed', along'.locals, along'.stack⟩

theorem merge (kinds : domain.OfKinds) {shape : FrameShape ValueKind}
    {old new after : Frame ValueKind} {changed : Bool} (refines : old.Refines upper)
    (refines' : new.Refines upper) (merged : Frame.Merged domain shape old new after changed) :
    after.Refines upper := by
  refine ⟨merged.locals.forall₂ ?_ refines.locals refines'.locals,
    merged.stack.forall₂ ?_ refines.stack refines'.stack⟩
  · intro old new value upper refines refines' merged
    cases (kinds.merge_eq old new).symm.trans merged
    exact refines.merge refines'
  · intro old new value upper matched matched' merged
    exact ValueKind.matches_merge matched matched' ((kinds.merge_eq old new).symm.trans merged)

theorem merge_ok (kinds : domain.OfKinds) {old new : Frame ValueKind} (refines : old.Refines upper)
    (refines' : new.Refines upper) (placed : old.stack.Placed) (placed' : new.stack.Placed) :
    ∃ after changed, old.merge domain new = .ok (after, changed) := by
  have heights := (Frame.sum_width_eq refines.stack).trans (Frame.sum_width_eq refines'.stack).symm
  refine Frame.merge_ok (fun old new => ⟨_, kinds.merge_eq old new⟩) ?_ ?_
  · simp only [stackLength, SlotVec.length_eq]
    exact refines.stack.length_eq.trans refines'.stack.length_eq.symm
  · rw [stackSlots, stackSlots, placed.slots_eq, placed'.slots_eq]
    exact heights

end Frame.Refines

/-- A visit of an index that keeps to frames: control goes on to successors only, and what it takes
there and into handlers refines the frames. -/
structure Visit.Certified (domain : Domain ValueKind) (frames : Nat → Option (Frame ValueKind))
    (visit : Visit ValueKind) : Prop where
  plain : visit.point.action.isPlain = true
  executed : visit.point.action.effect domain visit.index visit.frame = .ok visit.after
  onward : ∀ target ∈ visit.point.action.successors visit.index,
    ∃ next, frames target = some next ∧ visit.after.Refines next
  caught : ∀ target handler, (target, handler) ∈ visit.point.handlers → ∃ caught next,
    visit.frame.clearStack.push (domain.exception handler.caught) = .ok caught ∧
      frames target = some next ∧ caught.Refines next

namespace Method.Certified

variable (certified : method.Certified domain owner frames)

include certified

theorem inside (resolved : method.Resolved table flow) {index : Nat} {upper : Frame ValueKind}
    (known : frames index = some upper) : index < flow.length := by
  obtain ⟨node, _, found, -⟩ := certified.onward index upper known
  rw [resolved.length]
  exact (List.getElem?_eq_some_iff.mp found).1

theorem visit (kinds : domain.OfKinds) (callless : method.HasNoCall)
    (resolved : method.Resolved table flow) {state : AnalysisState ValueKind} {index : Nat}
    {point : Point} {frame upper : Frame ValueKind} (pointed : flow[index]? = some point)
    (known : frames index = some upper) (shaped : frame.HasShape method.kindShape)
    (refines : frame.Refines upper) :
    ∃ after, Visit.Certified domain frames ⟨state, index, point, frame, after⟩ := by
  obtain ⟨node, after', stands, notReturn, usable, executed', onward⟩ :=
    certified.onward index upper known
  obtain ⟨point', pointed', actioned, handlers⟩ := resolved.points index node stands
  cases pointed.symm.trans pointed'
  have shaped' := certified.shaped index upper known
  have notCall (label : Label) : node ≠ .branch (.jsr label) :=
    fun same => callless label (same ▸ List.mem_of_getElem? stands)
  have plain := Node.plain_of_action actioned notCall notReturn
  obtain ⟨after, executed, refines'⟩ := refines.effect kinds shaped shaped' usable executed'
  refine ⟨after, plain, (effect_of_action actioned).trans executed, fun target successor => ?_,
    fun target handler member => ?_⟩
  · obtain ⟨next, known', refines''⟩ :=
      onward target (resolved.leads_of_successor stands actioned plain successor)
    exact ⟨next, known', refines'.trans refines''⟩
  · obtain ⟨member, protects, placed⟩ := (handlers target handler).mp member
    obtain ⟨caught', next, pushed', known', refines''⟩ :=
      certified.caught index upper handler target known member protects placed
    obtain ⟨caught, pushed, refines'⟩ := refines.caught shaped shaped' pushed'
    exact ⟨caught, next, pushed, known', refines'.trans refines''⟩

end Method.Certified

namespace AnalysisState

theorem Sends.refines {visit : Visit ValueKind} (visited : visit.Certified domain frames)
    {maxLocals : Nat} {now : AnalysisState ValueKind} {target : Nat} {sent : Frame ValueKind}
    {record : Option Subroutine} (sends : Sends domain maxLocals visit now target sent record) :
    ∃ next, frames target = some next ∧ sent.Refines next := by
  cases sends with
  | onward plain successor => exact visited.onward target successor
  | call calls =>
    have plain := visited.plain
    rw [calls] at plain
    cases plain
  | back returns =>
    have plain := visited.plain
    rw [returns] at plain
    cases plain
  | handler member pushed =>
    obtain ⟨caught, next, pushed', known, refines⟩ := visited.caught _ _ member
    cases pushed.symm.trans pushed'
    exact ⟨next, known, refines⟩

/-- The frame at every index that is reached refines that of a certificate. -/
def Below (frames : Nat → Option (Frame ValueKind)) (state : AnalysisState ValueKind) : Prop :=
  ∀ index frame, state.frame? index = some frame →
    ∃ upper, frames index = some upper ∧ frame.Refines upper

variable {state after : AnalysisState ValueKind} {shape : FrameShape ValueKind}
  {target index : Nat} {sent upper : Frame ValueKind} {record : Option Subroutine}

theorem Below.merge_ok (kinds : domain.OfKinds) (coherent : state.Coherent flow shape)
    (below : state.Below frames) (inside : target < flow.length) (placed : sent.stack.Placed)
    (known : frames target = some upper) (refines : sent.Refines upper) :
    ∃ after, state.merge domain target sent record = .ok after := by
  have inside' : target < state.frames.length := coherent.frames_length ▸ inside
  obtain ⟨own, changed, joined⟩ : ∃ own changed,
      joinFrame domain (state.frame? target) sent = .ok (own, changed) := by
    cases found : state.frame? target with
    | none => exact ⟨sent, true, rfl⟩
    | some old =>
      obtain ⟨upper', known', refines'⟩ := below target old found
      cases known.symm.trans known'
      exact refines'.merge_ok kinds refines (coherent.fits _ _ found).placed placed
  exact ⟨_, merge_eq_ok.mpr ⟨inside', own, changed, joined, rfl⟩⟩

theorem Below.merge (kinds : domain.OfKinds) (coherent : state.Coherent flow shape)
    (below : state.Below frames) (fits : sent.Fits shape)
    (recorded : ∀ other, record = some other → other.Coherent flow shape.maxLocals)
    (known : frames target = some upper) (refines : sent.Refines upper)
    (merged : state.merge domain target sent record = .ok after) : after.Below frames := by
  obtain ⟨inside, -, own, changed, joined, rfl⟩ :=
    coherent.merge kinds.bounded.policy.narrows fits recorded merged
  intro other frame found
  rw [frame?_updated (coherent.frames_length ▸ inside)] at found
  split at found
  · rename_i same
    cases found
    refine ⟨upper, same ▸ known, ?_⟩
    cases present : state.frame? target with
    | none =>
      obtain ⟨rfl, -⟩ := joined.first present
      exact refines
    | some old =>
      obtain ⟨upper', known', refines'⟩ := below target old present
      cases known.symm.trans known'
      exact refines'.merge kinds refines (joined.merged old present)
  · exact below other frame found

theorem Below.next? {popped : AnalysisState ValueKind} (below : state.Below frames)
    (taken : state.next? = some (index, popped)) : popped.Below frames := by
  intro other frame found
  rw [frame?, (known_next? taken).1] at found
  exact below other frame found

section Runs

variable (kinds : domain.OfKinds)

include kinds

theorem Touches.stays_below {visit : Visit ValueKind} (valid : visit.Valid flow shape)
    (visited : visit.Certified domain frames) {now next : AnalysisState ValueKind}
    (coherent : now.Coherent flow shape) (below : now.Below frames)
    (touches : Touches domain shape.maxLocals visit now next) : next.Below frames := by
  cases touches with
  | merge sends merged =>
    obtain ⟨fits, recorded⟩ := sends.fits valid coherent
    obtain ⟨upper, known, refines⟩ := sends.refines visited
    exact below.merge kinds coherent fits recorded known refines merged
  | requeue calls member =>
    intro index frame found
    rw [frame?_enqueue] at found
    exact below index frame found
  | register returns inside started => exact below

variable (certified : method.Certified domain owner frames) (callless : method.HasNoCall)
  (resolved : method.Resolved table flow)

include certified callless resolved

/-- Processing an index succeeds in a state below a certificate, and stays below it. -/
theorem Below.process (coherent : state.Coherent flow method.kindShape)
    (below : state.Below frames) (index : Nat) :
    ∃ final, state.process domain flow method.maxLocals index = .ok final ∧
      final.Below frames := by
  cases found : state.frame? index with
  | none => exact ⟨state, by simp [AnalysisState.process, found], below⟩
  | some frame =>
    obtain ⟨upper, known, refines⟩ := below index frame found
    obtain ⟨point, pointed⟩ : ∃ point, flow[index]? = some point :=
      ⟨_, List.getElem?_eq_getElem (certified.inside resolved known)⟩
    have fits := coherent.fits index frame found
    obtain ⟨after, visited⟩ :=
      certified.visit kinds callless resolved pointed known fits.toHasShape refines
    have valid : Visit.Valid flow method.kindShape ⟨state, index, point, frame, after⟩ :=
      ⟨coherent, pointed, found, fits_of_effect fits visited.executed⟩
    have rises := rises_any domain method.kindShape
    have clear : Clear domain method.maxLocals ⟨state, index, point, frame, after⟩
        fun now => now.Coherent flow method.kindShape ∧ Grows (fun _ _ => True) state now ∧
          now.Below frames := by
      refine ⟨visited.executed, ?_, ?_, ?_, ?_⟩
      · intro labelled slot returns
        have plain := visited.plain
        rw [returns] at plain
        cases plain
      · intro target handler member
        obtain ⟨caught, -, pushed, -⟩ := visited.caught target handler member
        exact ⟨caught, pushed⟩
      · rintro now target sent record ⟨coherent', -, below'⟩ sends
        obtain ⟨upper', known', refines'⟩ := sends.refines visited
        exact below'.merge_ok kinds coherent' (certified.inside resolved known')
          (sends.fits valid coherent').1.placed known' refines'
      · rintro now next ⟨coherent', grown, below'⟩ touches
        obtain ⟨coherent'', grown'⟩ :=
          touches.grows rises kinds.bounded.policy.narrows valid coherent' grown
        exact ⟨coherent'', grown.trans rises grown',
          touches.stays_below kinds valid visited coherent' below'⟩
    obtain ⟨final, processed, -, -, below'⟩ :=
      clear.process found pointed ⟨coherent, .refl rises state, below⟩
    exact ⟨final, processed, below'⟩

theorem Run.stays_below {count : Nat} {start final : AnalysisState ValueKind}
    (coherent : start.Coherent flow method.kindShape) (below : start.Below frames)
    (run : Run domain flow method.maxLocals start count final) :
    final.Coherent flow method.kindShape ∧ final.Below frames := by
  have rises := rises_any domain method.kindShape
  induction run with
  | start => exact ⟨coherent, below⟩
  | step run taken processed ih =>
    obtain ⟨coherent', below'⟩ := ih
    have coherent'' := coherent'.next? taken
    have popped : AnalysisState.Below frames _ := below'.next? taken
    obtain ⟨_, processed', kept⟩ := popped.process kinds certified callless resolved coherent'' _
    cases processed.symm.trans processed'
    exact ⟨(coherent''.process rises kinds.bounded.policy.narrows processed).1, kept⟩

end Runs

end AnalysisState

namespace Method.Certified

variable (certified : method.Certified domain owner frames) (callless : method.HasNoCall)

include certified in
theorem start_below {entry : Frame ValueKind} {start : AnalysisState ValueKind}
    {shape : FrameShape ValueKind}
    (entered : initialFrame domain owner method method.maxLocals (some method.maxStack) = .ok entry)
    (isStart : start.IsStart flow shape entry) : start.Below frames := by
  intro index frame found
  obtain ⟨rfl, rfl⟩ := (isStart.frames index frame).mp found
  obtain ⟨entry', upper, entered', known, refines⟩ := certified.entry
  cases entered.symm.trans entered'
  exact ⟨upper, known, refines⟩

include certified callless

theorem closed (resolved : method.Resolved table flow) :
    flow.Closed fun index => (frames index).isSome := by
  have uncalled := resolved.uncalled callless
  refine ⟨fun index reached => ?_, fun index point next reached pointed onward => ?_,
    fun index target _ called => ?_⟩
  · obtain ⟨upper, known⟩ := Option.isSome_iff_exists.mp reached
    exact certified.inside resolved known
  · obtain ⟨upper, known⟩ := Option.isSome_iff_exists.mp reached
    obtain ⟨node, after, stands, -, -, -, leads⟩ := certified.onward index upper known
    obtain ⟨point', pointed', actioned, handlers⟩ := resolved.points index node stands
    cases pointed.symm.trans pointed'
    rcases Point.mem_onward.mp onward with successor | ⟨handler, member⟩ | ⟨calls, -⟩
    · have plain := Action.plain_of_successor successor
      obtain ⟨_, known', -⟩ :=
        leads next (resolved.leads_of_successor stands actioned plain successor)
      exact Option.isSome_iff_exists.mpr ⟨_, known'⟩
    · obtain ⟨member, protects, placed⟩ := (handlers next handler).mp member
      obtain ⟨_, _, -, known', -⟩ :=
        certified.caught index upper handler next known member protects placed
      exact Option.isSome_iff_exists.mpr ⟨_, known'⟩
    · obtain ⟨labelled, target, called⟩ := Action.call_of_isCall calls
      cases (uncalled index).symm.trans (Flow.called?_of_call pointed called)
  · rw [uncalled index] at called
    cases called

theorem prepared (labelled : method.Labelled) :
    ∃ flow entry start, Prepared domain owner method method.maxLocals
      (some method.maxStack) flow entry start := by
  obtain ⟨flow, flowed⟩ := labelled.flow_ok
  obtain ⟨table, resolved⟩ := Method.resolved_of_flow flowed
  obtain ⟨entry, upper, entered, known, -⟩ := certified.entry
  have nonempty := certified.inside resolved known
  have room : method.parameterSlots ≤ method.maxLocals :=
    entryValues_length domain owner method ▸ (initialFrame_eq_ok.mp entered).1
  obtain ⟨marks, marked⟩ : ∃ marks, flow.subroutines method.maxLocals = .ok marks :=
    subroutines_ok (certified.closed callless resolved) (by simp [known])
  exact ⟨flow, Prepared.of_flow flowed marked nonempty room⟩

/-- A method without subroutines that is certified is accepted, and the frames that are found refine
the certificate. -/
theorem accepted (kinds : domain.OfKinds) (labelled : method.Labelled)
    (code : method.flags.hasNoCode = false) :
    ∃ analysis, analyze domain owner method = .ok analysis ∧
      ∀ index frame, analysis.frame? index = some frame →
        ∃ upper, frames index = some upper ∧ frame.Refines upper := by
  obtain ⟨flow, entry, start, prepared⟩ := certified.prepared callless labelled
  obtain ⟨table, resolved⟩ := Method.resolved_of_flow prepared.resolved
  have isStart := prepared.isStart kinds.bounded.policy.narrows
  rw [kinds.frameShape_eq] at isStart
  have below := certified.start_below prepared.entered isStart
  have result := prepared.result code
  obtain ⟨count, ends⟩ := prepared.ends kinds.bounded
  generalize start.solve domain flow method.maxLocals _ = outcome at result ends
  cases ends with
  | @empty _ final run done =>
    refine ⟨_, result, fun index frame found => ?_⟩
    exact (run.stays_below kinds certified callless resolved isStart.coherent below).2 index frame
      found
  | stopped run taken failed =>
    obtain ⟨coherent, below'⟩ :=
      run.stays_below kinds certified callless resolved isStart.coherent below
    obtain ⟨_, processed, -⟩ :=
      (below'.next? taken).process kinds certified callless resolved (coherent.next? taken) _
    cases failed.symm.trans processed

end Method.Certified

end MethodFlow
