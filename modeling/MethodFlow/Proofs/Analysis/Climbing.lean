import MethodFlow.Proofs.Analysis.Heights
import MethodFlow.Proofs.Analysis.Peak

/-! How high the stack gets in a run over code without calls: no higher than in the frames that it ends
with. Whenever a frame is sent on that is as high as any before, it comes to where some frame keeps that
height for good. -/

namespace MethodFlow

variable {V : Type} [AbstractValue V] {domain : Domain V} {grade : V → Nat} {flow : Flow}
  {shape : FrameShape V} {allowed : V → Prop} {method : Method} {table : LabelTable}

/-- Control goes on from a point to the next one, by a jump with the frame as it is, or to where it
brings a lower stack. -/
theorem Method.Resolved.goes_on (rated : domain.Rated flow.length allowed grade)
    (resolved : method.Resolved table flow) {index : Nat} {point : Point} {frame after : Frame V}
    (pointed : flow[index]? = some point) (plain : point.action.isPlain = true)
    (fits : frame.Fits shape) (fine : frame.Holds allowed)
    (executed : point.action.effect domain index frame = .ok after) :
    point.action.successors index = [index + 1] ∨
      (∃ target, flow.Jumps index target ∧ point.action.successors index = [target] ∧
        after = frame) ∨
      after.stackSlots ≤ frame.stackSlots ∧
        (point.action.successors index ≠ [] → after.stackSlots < frame.stackSlots) := by
  obtain ⟨node, -, actioned, -⟩ := resolved.node_of_point pointed
  obtain ⟨action, handlers⟩ := point
  cases action with
  | idle | instruction => exact .inl rfl
  | branch labelled renamed =>
    right
    obtain ⟨rfl, mapped⟩ := Node.branch_of_action actioned
    obtain ⟨falls, targets⟩ := Branch.mapLabels_spec mapped
    have uncalled (label : Label) : labelled ≠ .jsr label := by
      rintro rfl
      obtain ⟨target, -, same⟩ := bind_eq_ok.mp mapped
      cases same
      cases plain
    rcases Frame.stackSlots_branch fits.placed
      (fun value member => rated.positive value (fine.stack value member)) uncalled executed with
      lower | ⟨rfl, ⟨label, rfl⟩ | ⟨none, stays⟩⟩
    · exact .inr ⟨Nat.le_of_lt lower, fun _ => lower⟩
    · obtain ⟨target, -, same⟩ := bind_eq_ok.mp mapped
      cases same
      exact .inl ⟨target, ⟨label, handlers, pointed⟩, rfl, rfl⟩
    · refine .inr ⟨Nat.le_refl _, fun some => absurd ?_ some⟩
      rw [none] at targets
      have jumps := Method.Resolved.jumps_of_plain plain
      cases targets' : renamed.jumpTargets with
      | nil => simp [Action.successors, Action.fallsThrough, falls, stays, jumps, targets']
      | cons => simp [targets'] at targets

/-- An action that fills as many slots from a frame as from one that it is left of fills them with
values of the same grades. -/
theorem Frame.Fades.effect (graded : domain.Graded grade) {index : Nat} {action : Action}
    {frame other after after' : Frame V} (fades : frame.Fades grade other) (fits : frame.Fits shape)
    (fits' : other.Fits shape) (executed : action.effect domain index frame = .ok after)
    (executed' : action.effect domain index other = .ok after')
    (slots : after.stackSlots = after'.stackSlots) :
    after.stackValues.map grade = after'.stackValues.map grade := by
  rcases action.idle_or_executes with rfl | ⟨operation, executes⟩
  · cases executed
    cases executed'
    exact fades.grades_eq graded fits fits' slots
  · rw [executes] at executed executed'
    exact fades.execute graded fits fits' executed executed' slots

namespace AnalysisState

variable {state popped middle final : AnalysisState V} {index : Nat} {point : Point}
  {frame after : Frame V} {visited : Nat → Prop} {peak : Nat}

/-- Processing a point without calls and records executes its action, and merges the frame after it
into the successors and what is caught into the handlers. -/
theorem Legal.process_eq_ok {maxLocals : Nat} (uncalled : ∀ index, flow.called? index = none)
    (legal : state.Legal flow shape allowed) (found : state.frame? index = some frame)
    (pointed : flow[index]? = some point)
    (processed : state.process domain flow maxLocals index = .ok final) :
    ∃ after middle, point.action.isPlain = true ∧
      point.action.effect domain index frame = .ok after ∧
      state.mergeAll domain after none (point.action.successors index) = .ok middle ∧
      middle.flowToHandlers domain index frame none point.handlers = .ok final := by
  have unused : usedBy point.action (state.subroutine? index) = none := by
    rw [legal.recordless, usedBy_none]
  simp only [process, found, pointed, bind_eq_ok, unused] at processed
  obtain ⟨after, executed, middle, flowed, handled⟩ := processed
  obtain ⟨plain, merged⟩ : point.action.isPlain = true ∧
      state.mergeAll domain after none (point.action.successors index) = .ok middle := by
    unfold flowOn at flowed
    split at flowed
    · rename_i called
      cases (uncalled index).symm.trans (Flow.called?_of_call pointed called)
    · cases flowed
    · rename_i notCall notReturn
      exact ⟨Action.plain_of_ne notCall notReturn, flowed⟩
  exact ⟨after, middle, plain, executeAction_eq_ok.mp executed, merged, handled⟩

/-- What an index that was processed sent on then: the frames there and at its successors now are what
merges have left of it. -/
def Echoed (domain : Domain V) (flow : Flow) (shape : FrameShape V) (grade : V → Nat)
    (visited : Nat → Prop) (peak : Nat) (state : AnalysisState V) : Prop :=
  ∀ index, visited index → ∃ point frame before after, flow[index]? = some point ∧
    state.frame? index = some frame ∧ before.Fits shape ∧ frame.Fades grade before ∧
    point.action.effect domain index before = .ok after ∧ after.stackSlots ≤ peak ∧
    ∀ target ∈ point.action.successors index,
      ∃ next, state.frame? target = some next ∧ next.Fades grade after

/-- What an index that was processed sends on again is of the same grades as what is there, where both
have the greatest height. -/
theorem Echoed.grades_eq (graded : domain.Graded grade)
    (echoed : state.Echoed domain flow shape grade visited peak)
    (coherent : state.Coherent flow shape) (seen : visited index)
    (found : state.frame? index = some frame) (pointed : flow[index]? = some point)
    (executed : point.action.effect domain index frame = .ok after) {target : Nat}
    (successor : target ∈ point.action.successors index) :
    ∃ old, state.frame? target = some old ∧ (after.stackSlots = peak →
      old.stackSlots = after.stackSlots →
        old.stackValues.map grade = after.stackValues.map grade) := by
  obtain ⟨_, _, before, after', pointed', found', fits, fades, executed', limit, arrived⟩ :=
    echoed index seen
  cases pointed.symm.trans pointed'
  cases found.symm.trans found'
  obtain ⟨old, present, fades'⟩ := arrived target successor
  refine ⟨old, present, fun height level => ?_⟩
  have fits' := fits_of_effect fits executed'
  have lowered := fades'.stackSlots_le graded (coherent.fits target old present) fits'
  rw [fades'.grades_eq graded (coherent.fits target old present) fits' (by omega)]
  exact (fades.effect graded (coherent.fits index frame found) fits executed executed'
    (by omega)).symm

theorem rises_fades (graded : domain.Graded grade) (shape : FrameShape V) :
    Rises domain shape (Frame.Fades grade) where
  refl := Frame.Fades.refl
  trans := Frame.Fades.trans graded
  merged merged := (merged.fades graded).1

/-- Processing an index keeps what earlier ones have sent on, and adds what this one does. -/
theorem Echoed.process (rated : domain.Rated flow.length allowed grade) {peak' : Nat}
    (legal : state.Legal flow shape allowed)
    (echoed : state.Echoed domain flow shape grade visited peak) (higher : peak ≤ peak')
    (found : state.frame? index = some frame) (pointed : flow[index]? = some point)
    (executed : point.action.effect domain index frame = .ok after)
    (limit : after.stackSlots ≤ peak')
    (processed : state.process domain flow shape.maxLocals index = .ok final) :
    final.Echoed domain flow shape grade (fun other => visited other ∨ other = index) peak' := by
  have rises := rises_fades rated.graded shape
  obtain ⟨coherent, grown⟩ := legal.toCoherent.process rises rated.narrows processed
  intro other seen
  by_cases own : other = index
  · subst own
    obtain ⟨after', visiting⟩ := process_eq_ok found pointed processed
    cases executed.symm.trans visiting.executed
    have fits := legal.fits other frame found
    have valid : Visit.Valid flow shape ⟨state, other, point, frame, after'⟩ :=
      ⟨legal.toCoherent, pointed, found, fits_of_effect fits executed⟩
    obtain ⟨last, found', fades⟩ := grown.frames other frame found
    refine ⟨point, last, frame, after', pointed, found', fits, fades, visiting.executed, limit, ?_⟩
    intro target successor
    have plain := Action.plain_of_successor successor
    exact (visiting.onward plain target successor).above rises
      (fun merged => (merged.fades rated.graded).2) rated.narrows valid fun _ => .onward plain successor
  · obtain ⟨point', frame', before, after', pointed', found', fits, fades, executed', limit',
      arrived⟩ := echoed other (seen.resolve_right own)
    obtain ⟨last, found'', fades'⟩ := grown.frames other frame' found'
    refine ⟨point', last, before, after', pointed', found'', fits, fades'.trans rated.graded fades,
      executed', Nat.le_trans limit' higher, ?_⟩
    intro target successor
    obtain ⟨next, present, faded⟩ := arrived target successor
    obtain ⟨next', present', faded'⟩ := grown.frames target next present
    exact ⟨next', present', faded'.trans rated.graded faded⟩

section Popping

omit [AbstractValue V]

variable {below grades : List Nat} {other : Nat}

theorem frame?_next? (taken : state.next? = some (index, popped)) (other : Nat) :
    popped.frame? other = state.frame? other := by
  rw [frame?, frame?, (known_next? taken).1]

/-- A point stays fed when another one is taken off the worklist, unless that is a jump which has lost
the height, and which cannot be passed on. -/
theorem Fed.next? (queued : state.Queued) (taken : state.next? = some (index, popped))
    (level : ∀ target frame next, flow.Jumps index target → state.frame? index = some frame →
      state.frame? target = some next → next.stackSlots = frame.stackSlots)
    (fed : Fed flow grade visited peak state below grades other)
    (high : ∃ frame, state.frame? other = some frame ∧ frame.stackSlots = peak) :
    Fed flow grade (fun source => visited source ∨ source = index) peak popped below grades
      other := by
  induction fed with
  | onward seen => exact .onward (.inl seen)
  | @fallen source target frame seen jumps waiting later found lower =>
    have different : source ≠ index := by
      rintro rfl
      obtain ⟨next, present, height⟩ := high
      have same := level target frame next jumps found present
      omega
    exact .fallen (.inl seen) jumps (((queued.next? taken).2 source).mpr ⟨waiting, different⟩) later
      ((frame?_next? taken source).trans found) lower
  | @along source target frame seen jumps later found height same _ ih =>
    exact .along (.inl seen) jumps later ((frame?_next? taken source).trans found) height same
      (ih ⟨frame, found, height⟩)

theorem Fed.source (first : state.worklist = index :: below)
    (top : ∀ frame, state.frame? index = some frame → peak ≤ frame.stackSlots)
    (fed : Fed flow grade visited peak state below grades other)
    (high : ∃ frame, state.frame? other = some frame ∧ frame.stackSlots = peak ∧
      frame.stackValues.map grade = grades) :
    ∃ source frame, visited source ∧ state.frame? (source + 1) = some frame ∧
      frame.stackSlots = peak ∧ frame.stackValues.map grade = grades := by
  induction fed with
  | @onward source seen =>
    obtain ⟨frame, found, height, same⟩ := high
    exact ⟨source, frame, seen, found, height, same⟩
  | fallen _ _ queued later found lower =>
    rw [first, List.mem_cons] at queued
    obtain rfl := queued.resolve_right later
    have reached := top _ found
    omega
  | along _ _ _ found height same _ ih => exact ih ⟨_, found, height, same⟩

theorem Anchored.next? (taken : state.next? = some (index, popped))
    (anchored : state.Anchored visited peak other) : popped.Anchored visited peak other := by
  obtain ⟨frame, found, rest⟩ := anchored
  exact ⟨frame, (frame?_next? taken other).trans found, rest⟩

theorem Anchored.more {visited' : Nat → Prop} (more : ∀ index, visited index → visited' index)
    (anchored : state.Anchored visited peak other) : state.Anchored visited' peak other := by
  obtain ⟨frame, found, height, reached⟩ := anchored
  refine ⟨frame, found, height, fun tall => ?_⟩
  obtain ⟨source, seen, same⟩ := reached tall
  exact ⟨source, more source seen, same⟩

theorem Peaked.next? (queued : state.Queued) (peaked : state.Peaked flow grade visited peak)
    (taken : state.next? = some (index, popped))
    (level : ∀ target frame next, flow.Jumps index target → state.frame? index = some frame →
      state.frame? target = some next → next.stackSlots = frame.stackSlots) :
    popped.Peaked flow grade (fun source => visited source ∨ source = index) peak where
  low other frame found := peaked.low other frame ((frame?_next? taken other).symm.trans found)
  framed other member := by
    rw [frame?_next? taken]
    exact peaked.framed other (((queued.next? taken).2 other).mp member).1
  anchored := by
    obtain ⟨other, anchored⟩ := peaked.anchored
    exact ⟨other, (anchored.next? taken).more fun _ => .inl⟩
  fed := by
    intro tall other frame unseen found height
    rw [frame?_next? taken] at found
    obtain ⟨above, below, same, fed⟩ :=
      peaked.fed tall other frame (fun seen => unseen (.inl seen)) found height
    obtain ⟨rest, first, queue⟩ := next?_eq_some.mp taken
    have different : other ≠ index := fun same => unseen (.inr same)
    refine ⟨above.tail, below, ?_, fed.next? queued taken level ⟨frame, found, height⟩⟩
    rw [queue]
    cases above with
    | nil => exact absurd (List.cons.inj (same.symm.trans first)).1 different
    | cons entry above => exact (List.cons.inj (first.symm.trans same)).2

end Popping

section Passing

variable (rated : domain.Rated flow.length allowed grade)

include rated

theorem Peaked.step (legal : popped.Legal flow shape allowed) (seen : visited index)
    (peaked : popped.Peaked flow grade visited peak) (fits : after.Fits shape)
    (fine : after.Holds allowed)
    (kept : peak ≤ 1 ∨ ∃ other, popped.Anchored visited peak other ∧
      (other = index + 1 → ∀ old, popped.frame? (index + 1) = some old →
        after.stackSlots = peak → old.stackSlots = after.stackSlots →
          old.stackValues.map grade = after.stackValues.map grade))
    (merged : popped.merge domain (index + 1) after none = .ok middle) :
    middle.Legal flow shape allowed ∧ ∃ peak', peak ≤ peak' ∧ after.stackSlots ≤ peak' ∧
      middle.Peaked flow grade visited peak' := by
  obtain ⟨legal', inside, own, changed, put⟩ := legal.merge rated.keeps rated.narrows fits fine merged
  refine ⟨legal', ?_⟩
  rcases Nat.lt_trichotomy after.stackSlots peak with lower | level | higher
  · exact ⟨peak, Nat.le_refl _, Nat.le_of_lt lower,
      peaked.put_low rated legal legal' inside put (.inl lower)⟩
  · refine ⟨peak, Nat.le_refl _, Nat.le_of_eq level,
      peaked.put rated legal legal' inside put (Nat.le_of_eq level) ?_ fun _ _ _ => .onward seen⟩
    refine kept.imp id fun ⟨other, anchored, alike⟩ => ⟨other, anchored, ?_⟩
    exact fun same old found => alike same old found level
  · exact ⟨after.stackSlots, Nat.le_of_lt higher, Nat.le_refl _,
      peaked.raise legal inside put higher fun _ => ⟨index, seen, rfl⟩⟩

theorem Peaked.jump {target : Nat} (legal : popped.Legal flow shape allowed) (seen : visited index)
    (peaked : popped.Peaked flow grade visited peak) (jumps : flow.Jumps index target)
    (taken : index ∉ popped.worklist) (found : popped.frame? index = some frame)
    (kept : peak ≤ 1 ∨ ∃ other, popped.Anchored visited peak other ∧
      (other = target → ∀ old, popped.frame? target = some old → frame.stackSlots = peak →
        old.stackSlots = frame.stackSlots →
          old.stackValues.map grade = frame.stackValues.map grade))
    (fed : 2 ≤ peak → frame.stackSlots = peak → popped.frame? target = none →
      Fed flow grade visited peak popped popped.worklist (frame.stackValues.map grade) index)
    (merged : popped.merge domain target frame none = .ok middle) :
    middle.Legal flow shape allowed ∧ middle.Peaked flow grade visited peak := by
  obtain ⟨legal', inside, own, changed, put⟩ := legal.merge rated.keeps rated.narrows
    (legal.fits index frame found) (legal.holds index frame found) merged
  refine ⟨legal', ?_⟩
  rcases Nat.lt_or_eq_of_le (peaked.low index frame found) with lower | level
  · exact peaked.put_low rated legal legal' inside put (.inl lower)
  · refine peaked.put rated legal legal' inside put (Nat.le_of_eq level) ?_ ?_
    · refine kept.imp id fun ⟨other, anchored, alike⟩ => ⟨other, anchored, ?_⟩
      exact fun same old found => alike same old found level
    · intro tall absent height
      have different : index ≠ target := by
        rintro rfl
        cases absent.symm.trans found
      have found' : middle.frame? index = some frame := by rw [put.frames, if_neg different, found]
      exact .along seen jumps taken found' level rfl
        ((fed tall level absent).put rated.graded legal.toCoherent inside put)

omit rated in
theorem Legal.next? (legal : state.Legal flow shape allowed)
    (taken : state.next? = some (index, popped)) : popped.Legal flow shape allowed where
  toCoherent := legal.toCoherent.next? taken
  recordless other := by
    rw [subroutine?, (known_next? taken).2.1]
    exact legal.recordless other
  holds := legal.holds.next? taken

omit rated in
/-- Where a jump of the greatest height leads, the peak is held elsewhere or with the same grades: by
what feeds the jump the first time, and by what it has passed on itself later. -/
theorem Peaked.jump_kept {target : Nat} (legal : state.Legal flow shape allowed)
    (peaked : state.Peaked flow grade visited peak) (taken : state.next? = some (index, popped))
    (found : state.frame? index = some frame)
    (level : ∀ target frame next, flow.Jumps index target → state.frame? index = some frame →
      state.frame? target = some next → next.stackSlots = frame.stackSlots)
    (again : visited index → ∃ old, popped.frame? target = some old ∧ (frame.stackSlots = peak →
      old.stackSlots = frame.stackSlots →
        old.stackValues.map grade = frame.stackValues.map grade)) :
    (peak ≤ 1 ∨ ∃ other,
      popped.Anchored (fun source => visited source ∨ source = index) peak other ∧
        (other = target → ∀ old, popped.frame? target = some old → frame.stackSlots = peak →
          old.stackSlots = frame.stackSlots →
            old.stackValues.map grade = frame.stackValues.map grade)) ∧
      (2 ≤ peak → frame.stackSlots = peak → popped.frame? target = none →
        Fed flow grade (fun source => visited source ∨ source = index) peak popped popped.worklist
          (frame.stackValues.map grade) index) := by
  obtain ⟨rest, first, queue⟩ := next?_eq_some.mp taken
  have worklist : popped.worklist = rest := by rw [queue]
  by_cases high : 2 ≤ peak ∧ frame.stackSlots = peak ∧ ¬visited index
  · obtain ⟨tall, height, unseen⟩ := high
    obtain ⟨above, below, same, fed⟩ := peaked.fed tall index frame unseen found height
    have here : below = rest := by
      rw [first] at same
      cases above with
      | nil => exact (List.cons.inj same).2.symm
      | cons entry above =>
        refine absurd ?_ (List.nodup_cons.mp (first ▸ legal.nodup)).1
        rw [(List.cons.inj same).2]
        exact List.mem_append_right above List.mem_cons_self
    subst here
    have top (own : Frame V) (known : state.frame? index = some own) : peak ≤ own.stackSlots := by
      cases found.symm.trans known
      exact Nat.le_of_eq height.symm
    obtain ⟨source, own, seen, known, tallest, grades⟩ :=
      fed.source first top ⟨frame, found, height, rfl⟩
    have known' := (frame?_next? taken (source + 1)).trans known
    refine ⟨.inr ⟨source + 1, ⟨own, known', tallest, fun _ => ⟨source, .inl seen, rfl⟩⟩, ?_⟩, ?_⟩
    · rintro rfl old present - -
      cases known'.symm.trans present
      exact grades
    · intro _ _ _
      rw [worklist]
      exact fed.next? legal.toQueued taken level ⟨frame, found, height⟩
  · have seen (tall : 2 ≤ peak) (height : frame.stackSlots = peak) : visited index := by
      by_contra unseen
      exact high ⟨tall, height, unseen⟩
    refine ⟨?_, fun tall height blank => ?_⟩
    · rcases Nat.lt_or_ge 1 peak with tall | small
      · obtain ⟨other, anchored⟩ := peaked.anchored
        refine .inr ⟨other, (anchored.next? taken).more fun _ => .inl, ?_⟩
        intro _ old present height level
        obtain ⟨old', present', alike⟩ := again (seen tall height)
        cases present.symm.trans present'
        exact alike height level
      · exact .inl small
    · obtain ⟨old, present, -⟩ := again (seen tall height)
      cases blank.symm.trans present

/-- What an index passes on along the code keeps the peak or raises it. -/
theorem Peaked.onward (resolved : method.Resolved table flow) (legal : state.Legal flow shape allowed)
    (peaked : state.Peaked flow grade visited peak)
    (echoed : state.Echoed domain flow shape grade visited peak)
    (taken : state.next? = some (index, popped)) (found : state.frame? index = some frame)
    (pointed : flow[index]? = some point) (plain : point.action.isPlain = true)
    (executed : point.action.effect domain index frame = .ok after)
    (merged : popped.mergeAll domain after none (point.action.successors index) = .ok middle) :
    middle.Legal flow shape allowed ∧ ∃ peak', peak ≤ peak' ∧ after.stackSlots ≤ peak' ∧
      middle.Peaked flow grade (fun source => visited source ∨ source = index) peak' := by
  have legal' := legal.next? taken
  have found' : popped.frame? index = some frame := (frame?_next? taken index).trans found
  have fits := legal.fits index frame found
  have fine := legal.holds index frame found
  have inside := legal.inside found
  have fits' := fits_of_effect fits executed
  have fine' : after.Holds allowed :=
    holds_of_effect (fun operation => rated.keeps.closed ⟨index, operation⟩ inside) fits fine executed
  have single {target : Nat} (only : point.action.successors index = [target]) :
      popped.merge domain target after none = .ok middle := by
    rw [only] at merged
    obtain ⟨next, first, ended⟩ := bind_eq_ok.mp merged
    cases ended
    exact first
  -- a jump passes its frame on to a target without one, or of its height
  have level (target : Nat) (own next : Frame V) (jumps : flow.Jumps index target)
      (known : state.frame? index = some own) (present : state.frame? target = some next) :
      next.stackSlots = own.stackSlots := by
    obtain ⟨label, handlers, jumping⟩ := jumps
    cases pointed.symm.trans jumping
    cases found.symm.trans known
    cases executed
    obtain ⟨-, -, own, changed, put⟩ :=
      legal'.merge rated.keeps rated.narrows fits fine (single rfl)
    exact (put.merged next ((frame?_next? taken target).trans present)).slots
  have peaked' := peaked.next? legal.toQueued taken level
  have again {target : Nat} (seen : visited index) (successor : target ∈ point.action.successors index) :
      ∃ old, popped.frame? target = some old ∧ (after.stackSlots = peak →
        old.stackSlots = after.stackSlots →
          old.stackValues.map grade = after.stackValues.map grade) := by
    rw [frame?_next? taken]
    exact echoed.grades_eq rated.graded legal.toCoherent seen found pointed executed successor
  rcases resolved.goes_on rated pointed plain fits fine executed with
    next | ⟨target, jumps, only, rfl⟩ | ⟨lower, strictly⟩
  · refine Peaked.step rated legal' (.inr rfl) peaked' fits' fine' ?_ (single next)
    rcases Nat.lt_or_ge 1 peak with tall | small
    · obtain ⟨anchor, anchored⟩ := peaked.anchored
      refine .inr ⟨anchor, (anchored.next? taken).more fun _ => .inl, ?_⟩
      intro same old present height level
      obtain ⟨-, -, -, reached⟩ := anchored
      obtain ⟨source, seen, same'⟩ := reached tall
      cases Nat.succ.inj (same'.symm.trans same)
      obtain ⟨old', present', alike⟩ := again seen (by rw [next]; exact List.mem_cons_self)
      cases present.symm.trans present'
      exact alike height level
    · exact .inl small
  · have successor : target ∈ point.action.successors index := by
      rw [only]
      exact List.mem_cons_self
    obtain ⟨kept, fed⟩ := peaked.jump_kept legal taken found level fun seen => again seen successor
    have absent : index ∉ popped.worklist := fun member =>
      (((legal.toQueued.next? taken).2 index).mp member).2 rfl
    obtain ⟨legal'', peaked''⟩ :=
      Peaked.jump rated legal' (.inr rfl) peaked' jumps absent found' kept fed (single only)
    exact ⟨legal'', peak, Nat.le_refl _, peaked.low index after found, peaked''⟩
  · have height := peaked.low index frame found
    obtain ⟨legal'', peaked''⟩ := Peaked.mergeAll_low rated legal' peaked' fits' fine'
      (fun some => .inl (Nat.lt_of_lt_of_le (strictly some) height)) merged
    exact ⟨legal'', peak, Nat.le_refl _, Nat.le_trans lower height, peaked''⟩

theorem Peaked.process (resolved : method.Resolved table flow)
    (uncalled : ∀ index, flow.called? index = none) (legal : state.Legal flow shape allowed)
    (peaked : state.Peaked flow grade visited peak)
    (echoed : state.Echoed domain flow shape grade visited peak)
    (taken : state.next? = some (index, popped)) (found : popped.frame? index = some frame)
    (pointed : flow[index]? = some point)
    (processed : popped.process domain flow shape.maxLocals index = .ok final) :
    final.Legal flow shape allowed ∧ ∃ peak' after, peak ≤ peak' ∧
      final.Peaked flow grade (fun source => visited source ∨ source = index) peak' ∧
      final.Echoed domain flow shape grade (fun source => visited source ∨ source = index) peak' ∧
      point.action.effect domain index frame = .ok after ∧ after.stackSlots ≤ peak' ∧
      (point.handlers ≠ [] → 1 ≤ peak') := by
  have legal' := legal.next? taken
  have found' : state.frame? index = some frame := (frame?_next? taken index).symm.trans found
  obtain ⟨after, middle, plain, executed, merged, handled⟩ :=
    legal'.process_eq_ok uncalled found pointed processed
  obtain ⟨legal'', peak₁, higher, limit, peaked'⟩ := Peaked.onward rated resolved legal peaked echoed
    taken found' pointed plain executed merged
  obtain ⟨legal₃, peak₂, higher', handling, peaked''⟩ := Peaked.flowToHandlers rated legal'' peaked'
    (legal'.fits index frame found) (legal'.holds index frame found) handled
  have echoed' : popped.Echoed domain flow shape grade visited peak := by
    intro other seen
    simpa only [frame?_next? taken] using echoed other seen
  refine ⟨legal₃, peak₂, after, by omega, peaked'', ?_, executed, by omega, handling⟩
  exact echoed'.process rated legal' (by omega) found pointed executed (by omega) processed

variable {start : AnalysisState V} {count : Nat}

/-- Throughout a run some frame has the greatest height so far. -/
theorem Run.peaked (resolved : method.Resolved table flow)
    (uncalled : ∀ index, flow.called? index = none) (legal : start.Legal flow shape allowed)
    (peaked : start.Peaked flow grade visited peak)
    (echoed : start.Echoed domain flow shape grade visited peak)
    (run : Run domain flow shape.maxLocals start count final) :
    final.Legal flow shape allowed ∧ ∃ visited' peak', peak ≤ peak' ∧
      final.Peaked flow grade visited' peak' ∧
      final.Echoed domain flow shape grade visited' peak' := by
  induction run with
  | start => exact ⟨legal, visited, peak, Nat.le_refl _, peaked, echoed⟩
  | @step count state popped next index run taken processed ih =>
    obtain ⟨legal', visited', peak', higher, peaked', echoed'⟩ := ih
    obtain ⟨others, first, -⟩ := next?_eq_some.mp taken
    obtain ⟨frame, found⟩ := peaked'.framed index (first ▸ List.mem_cons_self)
    have pointed := List.getElem?_eq_getElem (legal'.inside found)
    obtain ⟨legal'', peak'', after, higher', peaked'', echoed'', -⟩ :=
      Peaked.process rated resolved uncalled legal' peaked' echoed' taken
        ((frame?_next? taken index).trans found) pointed processed
    exact ⟨legal'', _, peak'', Nat.le_trans higher higher', peaked'', echoed''⟩

end Passing

theorem IsStart.peaked {entry : Frame V} (isStart : state.IsStart flow shape entry)
    (empty : entry.stackSlots = 0) : state.Peaked flow grade (fun _ => False) 0 where
  low index frame found := by
    obtain ⟨-, rfl⟩ := (isStart.frames index frame).mp found
    exact Nat.le_of_eq empty
  framed index queued := by
    rw [isStart.worklist, List.mem_singleton] at queued
    exact ⟨entry, (isStart.frames index entry).mpr ⟨queued, rfl⟩⟩
  anchored := ⟨0, entry, (isStart.frames 0 entry).mpr ⟨rfl, rfl⟩, empty, nofun⟩
  fed := nofun

end AnalysisState

end MethodFlow
