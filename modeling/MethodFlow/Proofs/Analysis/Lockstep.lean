import MethodFlow.Proofs.Analysis.Mirroring
import MethodFlow.Proofs.Analysis.Reachability

/-! Two analyses of code without calls of subroutines in lockstep. They may run under different limits,
over codes that differ where no frame is, and report different things. Where merging frames and what a
visited point makes of its frame are carried over by a change of frames, so is the whole loop. -/

namespace MethodFlow

variable {V : Type} [AbstractValue V] {lost : Fault → Prop} {fine : Frame V → Prop}
  {change : Frame V → Frame V} {domain : Domain V}

/-- Merging frames that are fine is carried over, and yields such a frame. -/
structure Domain.CarriesFine (lost : Fault → Prop) (fine : Frame V → Prop)
    (change : Frame V → Frame V) (domain : Domain V) : Prop where
  merge : ∀ {frame other}, fine frame → fine other →
    Mirrors lost (Prod.map change id) (frame.merge domain other)
      ((change frame).merge domain (change other))
  keeps : ∀ {frame other merged changed}, fine frame → fine other →
    frame.merge domain other = .ok (merged, changed) → fine merged

/-- The frames that a point sends on are carried over if the one before it is, and are fine. -/
structure Point.CarriedFine (lost : Fault → Prop) (fine : Frame V → Prop)
    (change : Frame V → Frame V) (domain : Domain V) (index : Nat) (point : Point)
    (frame : Frame V) : Prop extends Point.Carried lost change domain domain index point frame where
  plain : point.action.isCall = false
  after : ∀ {after}, point.action.effect domain index frame = .ok after → fine after
  thrown : ∀ {caught target handler}, (target, handler) ∈ point.handlers →
    frame.clearStack.push (domain.exception handler.caught) = .ok caught → fine caught

omit [AbstractValue V] in
/-- Two computations end alike: with results that are related or for the same reason, unless that is a
fault that is let go. What they report does not matter. -/
inductive EndsAlike (lost : Fault → Prop) {α : Type} (related : α → α → Prop) :
    Except Stopped α → Except Stopped α → Prop where
  | ok {value value' : α} (same : related value value') : EndsAlike lost related (.ok value) (.ok value')
  | error {stopped stopped' : Stopped} (same : stopped'.failure = stopped.failure) :
      EndsAlike lost related (.error stopped) (.error stopped')
  | letGo {stopped : Stopped} {second : Except Stopped α} (let_go : stopped.Lost lost) :
      EndsAlike lost related (.error stopped) second

omit [AbstractValue V] in
theorem EndsAlike.bind {α β : Type} {related : α → α → Prop} {related' : β → β → Prop}
    {first second : Except Stopped α} {next next' : α → Except Stopped β}
    (alike : EndsAlike lost related first second)
    (further : ∀ {value value'}, first = .ok value → related value value' →
      EndsAlike lost related' (next value) (next' value')) :
    EndsAlike lost related' (first >>= next) (second >>= next') := by
  cases alike with
  | ok same => exact further rfl same
  | error same => exact .error same
  | letGo let_go => exact .letGo let_go

namespace AnalysisState

variable {flow flow' : Flow} {maxLocals maxLocals' : Nat} {state state' : AnalysisState V}
  {index : Nat}

omit [AbstractValue V] in
/-- A state without records whose frames are fine, and one with its frames changed. -/
structure InStep (fine : Frame V → Prop) (change : Frame V → Frame V)
    (state state' : AnalysisState V) : Prop where
  fine : ∀ {index frame}, state.frame? index = some frame → fine frame
  frames : state'.frames = state.frames.map (Option.map change)
  unrecorded : ∀ index, state.subroutine? index = none
  unrecorded' : ∀ index, state'.subroutine? index = none
  worklist : state'.worklist = state.worklist
  queued : state'.queued = state.queued
  processed : state'.processed = state.processed

namespace InStep

section Frames

omit [AbstractValue V]

theorem frame?_eq (step : InStep fine change state state') (index : Nat) :
    state'.frame? index = (state.frame? index).map change := by
  rw [frame?, frame?, step.frames, List.getElem?_map]
  cases state.frames[index]? <;> rfl

theorem length_eq (step : InStep fine change state state') :
    state'.frames.length = state.frames.length := by
  rw [step.frames, List.length_map]

theorem initial {marks marks' : Marks} {events events' : List Event}
    (lengths : marks'.length = marks.length) (unmarked : ∀ index : Nat, (marks[index]?).join = none)
    (unmarked' : ∀ index : Nat, (marks'[index]?).join = none) :
    InStep fine change (AnalysisState.initial marks events) (AnalysisState.initial marks' events') where
  fine {index frame} found := by
    rw [frame?, AnalysisState.initial, List.getElem?_replicate] at found
    split at found <;> cases found
  frames := by simp [AnalysisState.initial, lengths]
  unrecorded := unmarked
  unrecorded' := unmarked'
  worklist := rfl
  queued := by simp [AnalysisState.initial, lengths]
  processed := rfl

theorem report (step : InStep fine change state state') (event event' : Event) :
    InStep fine change (state.report event) (state'.report event') :=
  ⟨step.fine, step.frames, step.unrecorded, step.unrecorded', step.worklist, step.queued,
    step.processed⟩

theorem enqueue (step : InStep fine change state state') (index : Nat) :
    InStep fine change (state.enqueue index) (state'.enqueue index) := by
  unfold AnalysisState.enqueue
  rw [step.queued]
  split
  · exact step
  · exact ⟨step.fine, step.frames, step.unrecorded, step.unrecorded',
      congrArg (index :: ·) step.worklist, rfl, step.processed⟩

theorem put (step : InStep fine change state state') (index : Nat) {frame : Frame V}
    (own : fine frame) :
    InStep fine change
      { state with
        frames := state.frames.set index (some frame)
        subroutines := state.subroutines.set index none }
      { state' with
        frames := state'.frames.set index (some (change frame))
        subroutines := state'.subroutines.set index none } where
  fine {other found} known := by
    rw [frame?, List.getElem?_set] at known
    split at known
    · split at known
      · cases known
        exact own
      · cases known
    · exact step.fine known
  frames := by simp [step.frames, List.map_set]
  unrecorded other := by
    have blank := step.unrecorded other
    rw [subroutine?] at blank ⊢
    rw [List.getElem?_set]
    split
    · split <;> rfl
    · exact blank
  unrecorded' other := by
    have blank := step.unrecorded' other
    rw [subroutine?] at blank ⊢
    rw [List.getElem?_set]
    split
    · split <;> rfl
    · exact blank
  worklist := step.worklist
  queued := step.queued
  processed := step.processed

/-- States in step take the same index off their worklists, if any. -/
theorem next? (step : InStep fine change state state') :
    (state.next? = none ∧ state'.next? = none) ∨ ∃ index popped popped',
      state.next? = some (index, popped) ∧ state'.next? = some (index, popped') ∧
        InStep fine change popped popped' := by
  unfold AnalysisState.next?
  rw [step.worklist]
  split
  · exact .inl ⟨rfl, rfl⟩
  · exact .inr ⟨_, _, _, rfl, rfl, step.fine, step.frames, step.unrecorded, step.unrecorded', rfl,
      congrArg (List.set · _ false) step.queued, congrArg (· + 1) step.processed⟩

end Frames

omit [AbstractValue V] in
theorem check_alike {α : Type} {change' : α → α} {first second : Except Fault α}
    (mirrors : Mirrors lost change' first second) (index : Nat) :
    EndsAlike lost (fun value value' => first = .ok value ∧ value' = change' value)
      (state.check index first) (state'.check index second) := by
  rcases mirrors with rfl | ⟨fault, rfl, let_go⟩
  · cases first with
    | error fault => exact .error rfl
    | ok value => exact .ok ⟨rfl, rfl⟩
  · exact .letGo ⟨fault.at index, rfl, let_go⟩

theorem executeAction {action : Action} {frame : Frame V}
    (effect : Mirrors lost change (action.effect domain index frame)
      (action.effect domain index (change frame))) :
    EndsAlike lost
      (fun after after' => action.effect domain index frame = .ok after ∧ after' = change after)
      (state.executeAction domain index action frame)
      (state'.executeAction domain index action (change frame)) := by
  have executed (site : Site) (mirrors : Mirrors lost change (frame.execute domain site)
      ((change frame).execute domain site)) :
      EndsAlike lost
        (fun after after' => frame.execute domain site = .ok after ∧ after' = change after)
        (state.execute domain site frame) (state'.execute domain site (change frame)) := by
    unfold AnalysisState.execute
    rcases mirrors with same | ⟨fault, failed, let_go⟩
    · rw [same]
      cases frame.execute domain site with
      | error fault => exact .error rfl
      | ok after => exact .ok ⟨rfl, rfl⟩
    · rw [failed]
      exact .letGo ⟨_, rfl, let_go⟩
  cases action with
  | idle => exact .ok ⟨rfl, rfl⟩
  | instruction i => exact executed ⟨index, .instruction i⟩ effect
  | branch labelled resolved => exact executed ⟨index, .branch labelled⟩ effect

section Carried

variable (carries : domain.CarriesFine lost fine change)

include carries

theorem merge (step : InStep fine change state state') {frame : Frame V} (sent : fine frame)
    (index : Nat) :
    EndsAlike lost (InStep fine change) (state.merge domain index frame none)
      (state'.merge domain index (change frame) none) := by
  have joins : Mirrors lost (Prod.map change id) (joinFrame domain (state.frame? index) frame)
      (joinFrame domain ((state.frame? index).map change) (change frame)) := by
    cases found : state.frame? index with
    | none => exact .ok (frame, true)
    | some old => exact carries.merge (step.fine found) sent
  have keeps {merged : Frame V} {changed : Bool}
      (joined : joinFrame domain (state.frame? index) frame = .ok (merged, changed)) :
      fine merged := by
    cases found : state.frame? index with
    | none =>
      rw [found] at joined
      cases joined
      exact sent
    | some old =>
      rw [found] at joined
      exact carries.keeps (step.fine found) sent joined
  unfold AnalysisState.merge
  rw [step.length_eq, step.frame?_eq, step.unrecorded, step.unrecorded']
  split
  · refine (check_alike joins index).bind fun {value value'} _ related => ?_
    obtain ⟨merged, changed⟩ := value
    obtain ⟨joined, rfl⟩ := related
    have placed := step.put index (keeps joined)
    cases changed with
    | false => exact .ok placed
    | true => exact .ok ((placed.report _ _).enqueue index)
  · exact .error rfl

theorem mergeAll (step : InStep fine change state state') {frame : Frame V} (sent : fine frame)
    (targets : List Nat) :
    EndsAlike lost (InStep fine change) (state.mergeAll domain frame none targets)
      (state'.mergeAll domain (change frame) none targets) := by
  induction targets generalizing state state' with
  | nil => exact .ok step
  | cons target rest ih => exact (step.merge carries sent target).bind fun _ step => ih step

/-- Outside subroutines, a `ret` is a fault, and all else but a call is merged onwards. -/
theorem flowOn (step : InStep fine change state state') {action : Action}
    (plain : action.isCall = false) {frame : Frame V} (sent : fine frame) :
    EndsAlike lost (InStep fine change)
      (state.flowOn domain maxLocals index action frame none)
      (state'.flowOn domain maxLocals' index action (change frame) none) := by
  unfold AnalysisState.flowOn
  split
  · cases plain
  · exact .error rfl
  · exact step.mergeAll carries sent _

theorem flowToHandlers (step : InStep fine change state state') {frame : Frame V}
    {handlers : List (Nat × ExceptionHandler)}
    (thrown : ∀ {target handler}, (target, handler) ∈ handlers →
      Mirrors lost change (frame.clearStack.push (domain.exception handler.caught))
          ((change frame).clearStack.push (domain.exception handler.caught)) ∧
        ∀ {caught}, frame.clearStack.push (domain.exception handler.caught) = .ok caught →
          fine caught) :
    EndsAlike lost (InStep fine change)
      (state.flowToHandlers domain index frame none handlers)
      (state'.flowToHandlers domain index (change frame) none handlers) := by
  induction handlers generalizing state state' with
  | nil => exact .ok step
  | cons entry rest ih =>
    obtain ⟨target, handler⟩ := entry
    obtain ⟨mirrors, caught⟩ := thrown List.mem_cons_self
    refine (check_alike mirrors index).bind fun _ related => ?_
    obtain ⟨pushed, rfl⟩ := related
    exact (step.merge carries (caught pushed) target).bind fun _ step =>
      ih step fun member => thrown (List.mem_cons_of_mem _ member)

/-- Processing an index keeps states in step if both codes have the same point there, and what that
makes of its frame is carried over. -/
theorem process (step : InStep fine change state state')
    (visited : ∀ {frame}, state.frame? index = some frame → fine frame →
      flow'[index]? = flow[index]? ∧ ∀ {point}, flow[index]? = some point →
        point.CarriedFine lost fine change domain index frame) :
    EndsAlike lost (InStep fine change) (state.process domain flow maxLocals index)
      (state'.process domain flow' maxLocals' index) := by
  unfold AnalysisState.process
  rw [step.frame?_eq, step.unrecorded, step.unrecorded']
  cases found : state.frame? index with
  | none => exact .ok step
  | some frame =>
    obtain ⟨same, carried⟩ := visited found (step.fine found)
    rw [same]
    cases pointed : flow[index]? with
    | none => exact .ok step
    | some point =>
      have carried := carried pointed
      simp only [Option.map_some, usedBy_none]
      refine (executeAction carried.effect).bind fun _ related => ?_
      obtain ⟨executed, rfl⟩ := related
      refine (step.flowOn carries carried.plain (carried.after executed)).bind fun _ step => ?_
      exact step.flowToHandlers carries fun member =>
        ⟨carried.caught _ _ member, carried.thrown member⟩

/-- The loop keeps states in step if processing each index that it comes to does. -/
theorem solve {start start' : AnalysisState V} (step : InStep fine change start start')
    (visited : ∀ {count state index frame}, Run domain flow maxLocals start count state →
      state.frame? index = some frame → fine frame → flow'[index]? = flow[index]? ∧
        ∀ {point}, flow[index]? = some point →
          point.CarriedFine lost fine change domain index frame) (steps : Nat) :
    EndsAlike lost (InStep fine change) (start.solve domain flow maxLocals steps)
      (start'.solve domain flow' maxLocals' steps) := by
  induction steps generalizing start start' with
  | zero =>
    unfold AnalysisState.solve
    rcases step.next? with ⟨done, done'⟩ | ⟨index, popped, popped', taken, taken', -⟩
    · rw [done, done']
      exact .ok step
    · rw [taken, taken']
      exact .error rfl
  | succ steps ih =>
    rcases step.next? with ⟨done, done'⟩ | ⟨index, popped, popped', taken, taken', step'⟩
    · rw [solve_of_empty done, solve_of_empty done']
      exact .ok step
    · rw [solve_succ taken, solve_succ taken']
      have known (other : Nat) : popped.frame? other = start.frame? other := by
        rw [frame?, (known_next? taken).1, frame?]
      refine (step'.process carries fun found own => visited .start ?_ own).bind
        fun processed step => ih step fun run => visited (run.head taken processed)
      rwa [known] at found

end Carried

end InStep

end AnalysisState

theorem Prepared.inStep {owner owner' : BinaryName} {method method' : Method}
    {maxLocals maxLocals' : Nat} {maxStack maxStack' : Option Nat} {flow flow' : Flow}
    {entry : Frame V} {start start' : AnalysisState V}
    (carries : domain.CarriesFine lost fine change)
    (prepared : Prepared domain owner method maxLocals maxStack flow entry start)
    (prepared' : Prepared domain owner' method' maxLocals' maxStack' flow' (change entry) start')
    (lengths : flow'.length = flow.length)
    (unmarked : ∀ {marks : Marks}, flow.subroutines maxLocals = .ok marks →
      ∀ index : Nat, (marks[index]?).join = none)
    (unmarked' : ∀ {marks : Marks}, flow'.subroutines maxLocals' = .ok marks →
      ∀ index : Nat, (marks[index]?).join = none)
    (own : fine entry) : AnalysisState.InStep fine change start start' := by
  obtain ⟨marks, marked, merged⟩ := prepared.started
  obtain ⟨marks', marked', merged'⟩ := prepared'.started
  have initial : AnalysisState.InStep fine change
      (.initial marks [.started owner method.name method.descriptor])
      (.initial marks' [.started owner' method'.name method'.descriptor]) :=
    .initial (by rw [(subroutines_coherent marked).1, (subroutines_coherent marked').1, lengths])
      (unmarked marked) (unmarked' marked')
  have alike := initial.merge carries own 0
  rw [merged, merged'] at alike
  cases alike with
  | ok step => exact step

end MethodFlow
