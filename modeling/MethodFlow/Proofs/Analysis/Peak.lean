import MethodFlow.Proofs.Analysis.Termination
import MethodFlow.Proofs.Frame.Fading

/-! The greatest height of the stack so far, in the course of an analysis of code without calls. Some
frame keeps that height: what is merged into it either has values of the same grades, or comes by a
jump from a frame that has the height as well. Jumps pass a frame on to a point that is processed next,
before anything that was queued earlier, so that none of them is forgotten in between. -/

namespace MethodFlow

variable {V : Type} [AbstractValue V] {domain : Domain V} {grade : V → Nat} {flow : Flow}
  {shape : FrameShape V} {allowed : V → Prop}

/-- A domain whose values take slots, have grades, and are exceptions in one slot. -/
structure Domain.Rated (domain : Domain V) (nodes : Nat) (allowed : V → Prop) (grade : V → Nat) :
    Prop where
  keeps : domain.Keeps nodes allowed
  positive : ∀ value, allowed value → 1 ≤ width value
  graded : domain.Graded grade
  narrow : ∀ caught, width (domain.exception caught) = 1

theorem Domain.Rated.narrows {nodes : Nat} (rated : domain.Rated nodes allowed grade) :
    domain.Narrows :=
  fun merged => (rated.graded.shrinks merged).1

theorem Domain.Policy.rated (policy : domain.Policy) (nodes : Nat) :
    ∃ allowed grade, domain.Rated nodes allowed grade := by
  obtain ⟨allowed, keeps, positive⟩ := policy.positive nodes
  obtain ⟨grade, graded⟩ := policy.graded
  refine ⟨allowed, grade, keeps, positive, graded, fun caught => ?_⟩
  obtain ⟨hierarchy, _, chosen⟩ := policy
  cases chosen <;> rfl

/-- At an index stands a jump to another one. -/
def Flow.Jumps (flow : Flow) (source target : Nat) : Prop :=
  ∃ label handlers, flow[source]? = some ⟨.branch (.goto label) (.goto target), handlers⟩

namespace AnalysisState

/-- A coherent state of an analysis without records, with values of a kind only. -/
structure Legal (flow : Flow) (shape : FrameShape V) (allowed : V → Prop) (state : AnalysisState V) :
    Prop extends Coherent flow shape state where
  recordless : state.Recordless
  holds : state.Holds allowed

/-- A frame without a record has been merged into the one at an index. -/
structure Put (domain : Domain V) (shape : FrameShape V) (target : Nat) (sent own : Frame V)
    (changed : Bool) (state next : AnalysisState V) : Prop
    extends Joined domain shape (state.frame? target) sent own changed where
  frames : ∀ other, next.frame? other = if other = target then some own else state.frame? other
  worklist : next.worklist = if changed then (state.enqueue target).worklist else state.worklist

variable {state next final : AnalysisState V} {target index : Nat} {sent own : Frame V}
  {changed : Bool}

theorem Legal.merge (keeps : domain.Keeps flow.length allowed) (narrows : domain.Narrows)
    (legal : state.Legal flow shape allowed) (fits : sent.Fits shape) (fine : sent.Holds allowed)
    (merged : state.merge domain target sent none = .ok next) :
    next.Legal flow shape allowed ∧ target < flow.length ∧
      ∃ own changed, Put domain shape target sent own changed state next := by
  have recordless := legal.recordless.merge narrows legal.toCoherent fits merged
  obtain ⟨inside, coherent, own, changed, joined, rfl⟩ :=
    legal.toCoherent.merge narrows fits (by simp) merged
  have inside' : target < state.frames.length := legal.frames_length ▸ inside
  have unrecorded : (joinSubroutine (state.subroutine? target) none).2 = false := by
    rw [legal.recordless target]
    rfl
  refine ⟨⟨coherent, recordless, ?_⟩, inside, own, changed, joined, frame?_updated inside', ?_⟩
  · intro other frame found
    rw [frame?_updated inside'] at found
    split at found
    · cases found
      cases present : state.frame? target with
      | none =>
        obtain ⟨rfl, -⟩ := joined.first present
        exact fine
      | some old =>
        exact (joined.merged old present).holds keeps.merged (legal.holds _ _ present) fine
    · exact legal.holds other frame found
  · rw [worklist_updated, unrecorded, Bool.or_false]

/-- The worklist after a merge begins with the target at most, and goes on as it was. -/
theorem Put.queue (put : Put domain shape target sent own changed state next)
    (coherent : state.Coherent flow shape) (inside : target < flow.length) :
    (next.worklist = state.worklist ∧ (changed = true → target ∈ state.worklist)) ∨
      (next.worklist = target :: state.worklist ∧ target ∉ state.worklist ∧ changed = true) := by
  rw [put.worklist]
  cases changed with
  | false => exact .inl ⟨rfl, nofun⟩
  | true =>
    rw [if_pos rfl]
    rcases worklist_enqueue coherent.toQueued (coherent.frames_length ▸ inside) with
      ⟨member, same⟩ | ⟨absent, same⟩
    · exact .inl ⟨by rw [same], fun _ => member⟩
    · exact .inr ⟨same, absent, rfl⟩

/-- How a point whose stack has the greatest height came to its frame, if it was not processed yet: from
the point before it, or by jumps from such a point. A jump on the way may have lost the height, but then
it is to be processed before anything that was queued earlier. -/
inductive Fed (flow : Flow) (grade : V → Nat) (visited : Nat → Prop) (peak : Nat)
    (state : AnalysisState V) (below : List Nat) (grades : List Nat) : Nat → Prop where
  | onward {source : Nat} (seen : visited source) :
      Fed flow grade visited peak state below grades (source + 1)
  | fallen {source target : Nat} {frame : Frame V} (seen : visited source)
      (jumps : flow.Jumps source target) (queued : source ∈ state.worklist)
      (later : source ∉ below) (found : state.frame? source = some frame)
      (lower : frame.stackSlots < peak) : Fed flow grade visited peak state below grades target
  | along {source target : Nat} {frame : Frame V} (seen : visited source)
      (jumps : flow.Jumps source target) (later : source ∉ below)
      (found : state.frame? source = some frame) (height : frame.stackSlots = peak)
      (same : frame.stackValues.map grade = grades)
      (further : Fed flow grade visited peak state below grades source) :
      Fed flow grade visited peak state below grades target

/-- The stack has the greatest height at an index, which control comes to from the index before it. -/
def Anchored (visited : Nat → Prop) (peak : Nat) (state : AnalysisState V) (index : Nat) : Prop :=
  ∃ frame, state.frame? index = some frame ∧ frame.stackSlots = peak ∧
    (2 ≤ peak → ∃ source, visited source ∧ index = source + 1)

/-- No frame so far has had a higher stack than the given one, and there is one that has it still. -/
structure Peaked (flow : Flow) (grade : V → Nat) (visited : Nat → Prop) (peak : Nat)
    (state : AnalysisState V) : Prop where
  low : ∀ index frame, state.frame? index = some frame → frame.stackSlots ≤ peak
  framed : ∀ index ∈ state.worklist, ∃ frame, state.frame? index = some frame
  anchored : ∃ index, state.Anchored visited peak index
  fed : 2 ≤ peak → ∀ index frame, ¬visited index → state.frame? index = some frame →
    frame.stackSlots = peak → ∃ above below, state.worklist = above ++ index :: below ∧
      Fed flow grade visited peak state below (frame.stackValues.map grade) index

variable {visited : Nat → Prop} {peak : Nat} {below grades : List Nat}

theorem Put.grades_eq (graded : domain.Graded grade)
    (put : Put domain shape target sent own changed state next) (coherent : state.Coherent flow shape)
    {old : Frame V} (found : state.frame? target = some old) :
    own.stackSlots ≤ old.stackSlots ∧ (own.stackSlots = old.stackSlots →
      own.stackValues.map grade = old.stackValues.map grade) := by
  have fades := ((put.merged old found).fades graded).1
  have fits := coherent.fits target old found
  exact ⟨fades.stackSlots_le graded put.fits fits, fades.grades_eq graded put.fits fits⟩

/-- A merge leaves every point fed as it was: a jump on the way that loses the height is queued. -/
theorem Fed.put (graded : domain.Graded grade) (coherent : state.Coherent flow shape)
    (inside : target < flow.length) (put : Put domain shape target sent own changed state next)
    (fed : Fed flow grade visited peak state below grades index) :
    Fed flow grade visited peak next below grades index := by
  have still {source : Nat} (queued : source ∈ state.worklist) : source ∈ next.worklist := by
    rcases put.queue coherent inside with ⟨same, -⟩ | ⟨same, -⟩
    · rwa [same]
    · rw [same]
      exact List.mem_cons_of_mem _ queued
  have elsewhere {source : Nat} (other : source ≠ target) :
      next.frame? source = state.frame? source := by
    rw [put.frames, if_neg other]
  have here : next.frame? target = some own := by rw [put.frames, if_pos rfl]
  induction fed with
  | onward seen => exact .onward seen
  | @fallen source _ frame seen jumps queued later found lower =>
    by_cases at_target : source = target
    · subst at_target
      have lowered := (put.grades_eq graded coherent found).1
      exact .fallen seen jumps (still queued) later here (by omega)
    · exact .fallen seen jumps (still queued) later ((elsewhere at_target).trans found) lower
  | @along source _ frame seen jumps later found height same _ ih =>
    by_cases at_target : source = target
    · subst at_target
      obtain ⟨lowered, kept⟩ := put.grades_eq graded coherent found
      rcases Nat.lt_or_eq_of_le lowered with lower | level
      · have different : changed ≠ false := by
          intro unchanged
          have same := (put.merged frame found).unchanged.mp unchanged
          exact absurd (congrArg Frame.stackSlots same) (Nat.ne_of_lt lower)
        have queued : source ∈ next.worklist := by
          rcases put.queue coherent inside with ⟨same, member⟩ | ⟨same, -⟩
          · rw [same]
            exact member (by simpa using different)
          · rw [same]
            exact List.mem_cons_self
        exact .fallen seen jumps queued later here (by omega)
      · exact .along seen jumps later here (by omega) ((kept level).trans same) ih
    · exact .along seen jumps later ((elsewhere at_target).trans found) height same ih

/-- A frame of at most one slot stays as high, for merges do not take entries off a stack. -/
theorem Put.level (rated : domain.Rated flow.length allowed grade)
    (legal : state.Legal flow shape allowed)
    (legal' : next.Legal flow shape allowed)
    (put : Put domain shape target sent own changed state next) {old : Frame V}
    (found : state.frame? target = some old) (small : old.stackSlots ≤ 1) :
    own.stackSlots = old.stackSlots := by
  have here : next.frame? target = some own := by rw [put.frames, if_pos rfl]
  have lowered := (put.grades_eq rated.graded legal.toCoherent found).1
  have most := length_le_sum_width fun value member =>
    rated.positive value ((legal'.holds target own here).stack value member)
  have lengths : own.stackValues.length = old.stackValues.length := (put.merged old found).stack.length_eq
  rw [← put.fits.stackSlots_eq] at most
  have empty : old.stackValues.length = 0 → old.stackSlots = 0 := by
    intro none
    rw [(legal.fits target old found).stackSlots_eq, List.length_eq_zero_iff.mp none]
    rfl
  omega

/-- A merge of a frame that is no higher keeps the peak, if it does not lower the only point that is
known to have it, and the target is fed if the frame gives it the height. -/
theorem Peaked.put (rated : domain.Rated flow.length allowed grade)
    (legal : state.Legal flow shape allowed)
    (legal' : next.Legal flow shape allowed) (inside : target < flow.length)
    (put : Put domain shape target sent own changed state next)
    (peaked : state.Peaked flow grade visited peak) (bounded : sent.stackSlots ≤ peak)
    (kept : peak ≤ 1 ∨ ∃ index, state.Anchored visited peak index ∧
      (index = target → ∀ old, state.frame? target = some old → old.stackSlots = sent.stackSlots →
        old.stackValues.map grade = sent.stackValues.map grade))
    (fresh : 2 ≤ peak → state.frame? target = none → sent.stackSlots = peak →
      Fed flow grade visited peak next state.worklist (sent.stackValues.map grade) target) :
    next.Peaked flow grade visited peak where
  low := by
    intro index frame found
    rw [put.frames] at found
    split at found
    · cases found
      cases present : state.frame? target with
      | none => rwa [(put.first present).1]
      | some old =>
        have lowered := (put.grades_eq rated.graded legal.toCoherent present).1
        have height := peaked.low target old present
        omega
    · exact peaked.low index frame found
  framed := by
    intro index queued
    rw [put.frames]
    split
    · exact ⟨own, rfl⟩
    · rename_i other
      rcases put.queue legal.toCoherent inside with ⟨same, -⟩ | ⟨same, -⟩
      · exact peaked.framed index (same ▸ queued)
      · rw [same, List.mem_cons] at queued
        exact peaked.framed index (queued.resolve_left other)
  anchored := by
    obtain ⟨index, anchored, spared⟩ : ∃ index, state.Anchored visited peak index ∧
        (index = target → ∀ old, state.frame? target = some old →
          own.stackSlots = old.stackSlots) := by
      rcases kept with small | ⟨index, anchored, alike⟩
      · obtain ⟨index, anchored⟩ := peaked.anchored
        refine ⟨index, anchored, fun _ old found => ?_⟩
        have height := peaked.low target old found
        exact put.level rated legal legal' found (by omega)
      · refine ⟨index, anchored, fun same old found => ?_⟩
        have merged := put.merged old found
        have grades := merged.stack.grades_eq rated.graded (alike same old found merged.slots)
        rw [put.fits.stackSlots_eq, (legal.fits target old found).stackSlots_eq,
          map_width_of_grades rated.graded grades]
    obtain ⟨frame, found, height, reached⟩ := anchored
    by_cases at_target : index = target
    · subst at_target
      exact ⟨index, own, by rw [put.frames, if_pos rfl], (spared rfl frame found).trans height,
        reached⟩
    · exact ⟨index, frame, by rw [put.frames, if_neg at_target, found], height, reached⟩
  fed := by
    intro tall index frame unseen found height
    rw [put.frames] at found
    split at found
    · rename_i at_target
      subst at_target
      cases found
      cases present : state.frame? index with
      | none =>
        obtain ⟨rfl, changing⟩ := put.first present
        rcases put.queue legal.toCoherent inside with ⟨-, member⟩ | ⟨same, -⟩
        · obtain ⟨frame, framed⟩ := peaked.framed index (member changing)
          cases present.symm.trans framed
        · exact ⟨[], state.worklist, same, fresh tall present height⟩
      | some old =>
        obtain ⟨lowered, grades⟩ := put.grades_eq rated.graded legal.toCoherent present
        have limit := peaked.low index old present
        have level : own.stackSlots = old.stackSlots := by omega
        obtain ⟨above, below, same, fed⟩ :=
          peaked.fed tall index old unseen present (level.symm.trans height)
        rw [grades level]
        rcases put.queue legal.toCoherent inside with ⟨same', -⟩ | ⟨-, absent, -⟩
        · exact ⟨above, below, same'.trans same, fed.put rated.graded legal.toCoherent inside put⟩
        · exact absurd (same ▸ List.mem_append_right above List.mem_cons_self) absent
    · obtain ⟨above, below, same, fed⟩ := peaked.fed tall index frame unseen found height
      have fed' := fed.put rated.graded legal.toCoherent inside put
      rcases put.queue legal.toCoherent inside with ⟨same', -⟩ | ⟨same', -⟩
      · exact ⟨above, below, same'.trans same, fed'⟩
      · exact ⟨target :: above, below, by rw [same', same, List.cons_append], fed'⟩

/-- A frame that is lower, or of at most one slot where the peak is no higher, keeps the peak. -/
theorem Peaked.put_low (rated : domain.Rated flow.length allowed grade)
    (legal : state.Legal flow shape allowed)
    (legal' : next.Legal flow shape allowed) (inside : target < flow.length)
    (put : Put domain shape target sent own changed state next)
    (peaked : state.Peaked flow grade visited peak)
    (lower : sent.stackSlots < peak ∨ sent.stackSlots ≤ peak ∧ peak ≤ 1) :
    next.Peaked flow grade visited peak := by
  refine peaked.put rated legal legal' inside put (by omega) ?_ (by omega)
  rcases lower with lower | ⟨-, small⟩
  · obtain ⟨index, anchored⟩ := peaked.anchored
    refine .inr ⟨index, anchored, ?_⟩
    rintro rfl old found level
    obtain ⟨frame, found', height, -⟩ := anchored
    cases found.symm.trans found'
    omega
  · exact .inl small

theorem Peaked.raise (legal : state.Legal flow shape allowed) (inside : target < flow.length)
    (put : Put domain shape target sent own changed state next)
    (peaked : state.Peaked flow grade visited peak) (higher : peak < sent.stackSlots)
    (reached : 2 ≤ sent.stackSlots → ∃ source, visited source ∧ target = source + 1) :
    next.Peaked flow grade visited sent.stackSlots := by
  have absent : state.frame? target = none := by
    cases present : state.frame? target with
    | none => rfl
    | some old =>
      have level := (put.merged old present).slots
      have limit := peaked.low target old present
      omega
  obtain ⟨rfl, changing⟩ := put.first absent
  have queue : next.worklist = target :: state.worklist := by
    rcases put.queue legal.toCoherent inside with ⟨-, member⟩ | ⟨same, -⟩
    · obtain ⟨frame, framed⟩ := peaked.framed target (member changing)
      cases absent.symm.trans framed
    · exact same
  have old {index : Nat} {frame : Frame V} (found : next.frame? index = some frame) :
      index = target ∧ frame = own ∨ state.frame? index = some frame := by
    rw [put.frames] at found
    split at found
    · rename_i same
      exact .inl ⟨same, (Option.some.inj found).symm⟩
    · exact .inr found
  have here : next.frame? target = some own := by rw [put.frames, if_pos rfl]
  refine ⟨?_, ?_, ⟨target, own, here, rfl, reached⟩, ?_⟩
  · intro index frame found
    rcases old found with ⟨-, rfl⟩ | known
    · exact Nat.le_refl _
    · exact Nat.le_trans (peaked.low index frame known) (Nat.le_of_lt higher)
  · intro index queued
    rw [queue, List.mem_cons] at queued
    rcases queued with rfl | member
    · exact ⟨own, here⟩
    · obtain ⟨frame, found⟩ := peaked.framed index member
      rw [put.frames]
      split
      · exact ⟨own, rfl⟩
      · exact ⟨frame, found⟩
  · intro tall index frame unseen found height
    rcases old found with ⟨rfl, rfl⟩ | known
    · obtain ⟨source, seen, rfl⟩ := reached tall
      exact ⟨[], state.worklist, queue, .onward seen⟩
    · have limit := peaked.low index frame known
      omega

section Visits

variable (rated : domain.Rated flow.length allowed grade)

include rated

theorem Peaked.mergeAll_low {targets : List Nat} (legal : state.Legal flow shape allowed)
    (peaked : state.Peaked flow grade visited peak) (fits : sent.Fits shape)
    (fine : sent.Holds allowed)
    (lower : targets ≠ [] → sent.stackSlots < peak ∨ sent.stackSlots ≤ peak ∧ peak ≤ 1)
    (merged : state.mergeAll domain sent none targets = .ok next) :
    next.Legal flow shape allowed ∧ next.Peaked flow grade visited peak := by
  induction targets generalizing state with
  | nil =>
    cases merged
    exact ⟨legal, peaked⟩
  | cons target rest ih =>
    obtain ⟨middle, first, others⟩ := bind_eq_ok.mp merged
    obtain ⟨legal', inside, own, changed, put⟩ :=
      legal.merge rated.keeps rated.narrows fits fine first
    have lower' := lower (List.cons_ne_nil target rest)
    exact ih legal' (peaked.put_low rated legal legal' inside put lower')
      (fun _ => lower') others

/-- Handlers get one slot each, and raise the peak if no frame had one. -/
theorem Peaked.flowToHandlers {frame : Frame V} {handlers : List (Nat × ExceptionHandler)}
    (legal : state.Legal flow shape allowed) (peaked : state.Peaked flow grade visited peak)
    (fits : frame.Fits shape) (fine : frame.Holds allowed)
    (flowed : state.flowToHandlers domain index frame none handlers = .ok next) :
    next.Legal flow shape allowed ∧ ∃ peak', peak ≤ peak' ∧ (handlers ≠ [] → 1 ≤ peak') ∧
      next.Peaked flow grade visited peak' := by
  induction handlers generalizing state peak with
  | nil =>
    cases flowed
    exact ⟨legal, peak, Nat.le_refl _, by simp, peaked⟩
  | cons entry rest ih =>
    obtain ⟨target, handler⟩ := entry
    simp only [AnalysisState.flowToHandlers, bind_eq_ok] at flowed
    obtain ⟨caught, checked, middle, first, others⟩ := flowed
    have pushed : frame.clearStack.push (domain.exception handler.caught) = .ok caught :=
      check_eq_ok.mp checked
    have cleared : frame.clearStack.Holds allowed :=
      ⟨fine.locals, by simp [Frame.clearStack, Frame.stackValues]⟩
    obtain ⟨fits', fine'⟩ := (Frame.fits_invariant shape allowed).push ⟨fits.clearStack, cleared⟩
      (rated.keeps.typed (some (.object handler.caught))) pushed
    have slots : caught.stackSlots = 1 := by
      rw [fits'.stackSlots_eq, Frame.stackValues_push pushed]
      simp [Frame.clearStack, Frame.stackValues, rated.narrow]
    obtain ⟨legal', inside, own, changed, put⟩ :=
      legal.merge rated.keeps rated.narrows fits' fine' first
    have peaked' : middle.Peaked flow grade visited (max peak 1) := by
      by_cases raised : peak < caught.stackSlots
      · have raising := peaked.raise legal inside put raised (by omega)
        rwa [slots, show 1 = max peak 1 by omega] at raising
      · rw [show max peak 1 = peak by omega]
        exact peaked.put_low rated legal legal' inside put (by omega)
    obtain ⟨legal'', peak', higher, -, peaked''⟩ := ih legal' peaked' others
    exact ⟨legal'', peak', by omega, fun _ => by omega, peaked''⟩

end Visits

end AnalysisState

end MethodFlow
