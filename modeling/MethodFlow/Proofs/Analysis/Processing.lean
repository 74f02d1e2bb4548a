import Mathlib.Logic.Relation
import MethodFlow.Proofs.Analysis.Merging
import MethodFlow.Proofs.Code.Resolution

/-! What processing an index can do, said once: a sequence of merges of the frames that the index
sends on, of returns that are queued again and of a return that is registered. -/

namespace MethodFlow

open Relation (ReflTransGen)

variable {V : Type} [AbstractValue V]

/-- The frame after an action at an index; nothing happens at labels and line numbers. -/
def Action.effect (domain : Domain V) (index : Nat) (frame : Frame V) :
    Action → Except Fault (Frame V)
  | .idle => .ok frame
  | .instruction i => frame.execute domain ⟨index, .instruction i⟩
  | .branch labelled _ => frame.execute domain ⟨index, .branch labelled⟩

theorem Action.idle_or_executes (action : Action) : action = .idle ∨ ∃ operation,
    ∀ {V : Type} [AbstractValue V] (domain : Domain V) (index : Nat) (frame : Frame V),
      action.effect domain index frame = frame.execute domain ⟨index, operation⟩ := by
  cases action with
  | idle => exact .inl rfl
  | instruction i => exact .inr ⟨.instruction i, fun _ _ _ => rfl⟩
  | branch labelled resolved => exact .inr ⟨.branch labelled, fun _ _ _ => rfl⟩

theorem Action.effect_eq_ok {domain : Domain V} {index : Nat} {frame after : Frame V}
    {action : Action} (executed : action.effect domain index frame = .ok after) :
    after = frame ∨ ∃ operation, frame.execute domain ⟨index, operation⟩ = .ok after := by
  rcases action.idle_or_executes with rfl | ⟨operation, executes⟩
  · cases executed
    exact .inl rfl
  · exact .inr ⟨operation, (executes domain index frame).symm.trans executed⟩

/-- The frame after a node at an index; labels and line numbers leave it as it is. -/
def Node.effect (domain : Domain V) (index : Nat) (frame : Frame V) : Node → Except Fault (Frame V)
  | .label _ | .line _ => .ok frame
  | .operation op => frame.execute domain ⟨index, op⟩

theorem effect_of_action {domain : Domain V} {index : Nat} {frame : Frame V} {table : LabelTable}
    {node : Node} {action : Action} (actioned : node.action table = .ok action) :
    action.effect domain index frame = node.effect domain index frame := by
  rcases node with label | line | (i | b)
  case operation.branch =>
    obtain ⟨renamed, -, same⟩ := bind_eq_ok.mp actioned
    cases same
    rfl
  all_goals
    cases actioned
    rfl

/-- An index that is being processed: the state it was taken from, the point there, and the frames
before and after its action. -/
structure Visit (V : Type) where
  before : AnalysisState V
  index : Nat
  point : Point
  frame : Frame V
  after : Frame V

/-- The record that an index passes on. -/
def Visit.record {V : Type} (visit : Visit V) : Option Subroutine :=
  AnalysisState.usedBy visit.point.action (visit.before.subroutine? visit.index)

namespace AnalysisState

variable {domain : Domain V} {flow : Flow} {maxLocals : Nat} {visit : Visit V}

/-- What an index sends on when it is processed, and where to. Only what is handed back to a caller
depends on the state by then. -/
inductive Sends (domain : Domain V) (maxLocals : Nat) (visit : Visit V) :
    AnalysisState V → Nat → Frame V → Option Subroutine → Prop where
  | onward {now : AnalysisState V} {target : Nat} (plain : visit.point.action.isPlain = true)
      (successor : target ∈ visit.point.action.successors visit.index) :
      Sends domain maxLocals visit now target visit.after visit.record
  | call {now : AnalysisState V} {labelled : Branch Label} {target : Nat}
      (calls : visit.point.action = .branch labelled (.jsr target)) :
      Sends domain maxLocals visit now target visit.after
        (some (.fresh (some target) maxLocals (some visit.index)))
  | back {now : AnalysisState V} {labelled : Branch Label} {slot caller : Nat}
      {returning : Subroutine} {callerFrame : Frame V}
      (returns : visit.point.action = .branch labelled (.ret slot))
      (inside : visit.record = some returning) (member : caller ∈ returning.callers)
      (found : now.frame? caller = some callerFrame) :
      Sends domain maxLocals visit now (caller + 1)
        (visit.after.mergeSubroutine callerFrame returning.used) (now.subroutine? caller)
  | handler {now : AnalysisState V} {target : Nat} {handler : ExceptionHandler} {caught : Frame V}
      (member : (target, handler) ∈ visit.point.handlers)
      (pushed : visit.frame.clearStack.push (domain.exception handler.caught) = .ok caught) :
      Sends domain maxLocals visit now target caught visit.record

/-- One change to the state while an index is processed. -/
inductive Touches (domain : Domain V) (maxLocals : Nat) (visit : Visit V) :
    AnalysisState V → AnalysisState V → Prop where
  | merge {now next : AnalysisState V} {target : Nat} {sent : Frame V} {record : Option Subroutine}
      (sends : Sends domain maxLocals visit now target sent record)
      (merged : now.merge domain target sent record = .ok next) :
      Touches domain maxLocals visit now next
  | requeue {now : AnalysisState V} {labelled : Branch Label} {target ret : Nat}
      (calls : visit.point.action = .branch labelled (.jsr target))
      (member : (target, ret) ∈ now.returns) : Touches domain maxLocals visit now (now.enqueue ret)
  | register {now : AnalysisState V} {labelled : Branch Label} {slot start : Nat}
      {returning : Subroutine} (returns : visit.point.action = .branch labelled (.ret slot))
      (inside : visit.record = some returning) (started : returning.start = some start) :
      Touches domain maxLocals visit now
        { now with returns := now.returns.add start visit.index }

/-- A frame and a record are merged into those at an index on the way from one state to another. -/
def Delivers (domain : Domain V) (touches : AnalysisState V → AnalysisState V → Prop)
    (target : Nat) (sent : Frame V) (record : Option Subroutine)
    (first last : AnalysisState V) : Prop :=
  ∃ now next, ReflTransGen touches first now ∧ now.merge domain target sent record = .ok next ∧
    ReflTransGen touches next last

/-- The frame after a `ret` and a caller's record are merged into those after the call, unless the
caller has no frame by then. -/
def HandsBack (domain : Domain V) (touches : AnalysisState V → AnalysisState V → Prop)
    (after : Frame V) (used : List Bool) (caller : Nat) (first last : AnalysisState V) : Prop :=
  ∃ now, ReflTransGen touches first now ∧
    ((now.frame? caller = none ∧ ReflTransGen touches now last) ∨
      ∃ callerFrame next, now.frame? caller = some callerFrame ∧
        now.merge domain (caller + 1) (after.mergeSubroutine callerFrame used)
          (now.subroutine? caller) = .ok next ∧ ReflTransGen touches next last)

section Steps

variable {touches : AnalysisState V → AnalysisState V → Prop} {first last : AnalysisState V}

theorem Delivers.prepend {middle : AnalysisState V} {target : Nat} {sent : Frame V}
    {record : Option Subroutine} (steps : ReflTransGen touches first middle)
    (delivers : Delivers domain touches target sent record middle last) :
    Delivers domain touches target sent record first last := by
  obtain ⟨now, next, earlier, merged, later⟩ := delivers
  exact ⟨now, next, steps.trans earlier, merged, later⟩

theorem Delivers.append {middle : AnalysisState V} {target : Nat} {sent : Frame V}
    {record : Option Subroutine} (delivers : Delivers domain touches target sent record first middle)
    (steps : ReflTransGen touches middle last) :
    Delivers domain touches target sent record first last := by
  obtain ⟨now, next, earlier, merged, later⟩ := delivers
  exact ⟨now, next, earlier, merged, later.trans steps⟩

theorem HandsBack.prepend {middle : AnalysisState V} {after : Frame V} {used : List Bool}
    {caller : Nat} (steps : ReflTransGen touches first middle)
    (back : HandsBack domain touches after used caller middle last) :
    HandsBack domain touches after used caller first last := by
  obtain ⟨now, earlier, rest⟩ := back
  exact ⟨now, steps.trans earlier, rest⟩

theorem HandsBack.append {middle : AnalysisState V} {after : Frame V} {used : List Bool}
    {caller : Nat} (back : HandsBack domain touches after used caller first middle)
    (steps : ReflTransGen touches middle last) :
    HandsBack domain touches after used caller first last := by
  obtain ⟨now, earlier, ⟨absent, later⟩ | ⟨callerFrame, next, found, merged, later⟩⟩ := back
  · exact ⟨now, earlier, .inl ⟨absent, later.trans steps⟩⟩
  · exact ⟨now, earlier, .inr ⟨callerFrame, next, found, merged, later.trans steps⟩⟩

theorem mergeAll_steps {sent : Frame V} {record : Option Subroutine} {targets : List Nat}
    (allowed : ∀ now next target, target ∈ targets →
      now.merge domain target sent record = .ok next → touches now next)
    (merged : first.mergeAll domain sent record targets = .ok last) :
    ReflTransGen touches first last ∧
      ∀ target ∈ targets, Delivers domain touches target sent record first last := by
  induction targets generalizing first with
  | nil =>
    cases merged
    exact ⟨.refl, by simp⟩
  | cons target rest ih =>
    obtain ⟨middle, single, others⟩ := bind_eq_ok.mp merged
    have step := allowed first middle target List.mem_cons_self single
    obtain ⟨steps, delivered⟩ := ih
      (fun now next other member => allowed now next other (List.mem_cons_of_mem _ member)) others
    refine ⟨.head step steps, ?_⟩
    intro other member
    rcases List.mem_cons.mp member with rfl | later
    · exact ⟨first, middle, .refl, single, steps⟩
    · exact (delivered other later).prepend (.single step)

theorem leaveTo_steps {after : Frame V} {used : List Bool} {callers : List Nat}
    (allowed : ∀ now next caller callerFrame, caller ∈ callers →
      now.frame? caller = some callerFrame →
      now.merge domain (caller + 1) (after.mergeSubroutine callerFrame used)
        (now.subroutine? caller) = .ok next → touches now next)
    (left : first.leaveTo domain after used callers = .ok last) :
    ReflTransGen touches first last ∧
      ∀ caller ∈ callers, HandsBack domain touches after used caller first last := by
  induction callers generalizing first with
  | nil =>
    cases left
    exact ⟨.refl, by simp⟩
  | cons caller rest ih =>
    have remaining (middle : AnalysisState V)
        (others : middle.leaveTo domain after used rest = .ok last) :=
      ih (fun now next other callerFrame member =>
        allowed now next other callerFrame (List.mem_cons_of_mem _ member)) others
    cases found : first.frame? caller with
    | none =>
      simp only [leaveTo, found, bind_eq_ok] at left
      obtain ⟨middle, ⟨⟩, others⟩ := left
      obtain ⟨steps, handed⟩ := remaining first others
      refine ⟨steps, ?_⟩
      intro other member
      rcases List.mem_cons.mp member with rfl | later
      · exact ⟨first, .refl, .inl ⟨found, steps⟩⟩
      · exact handed other later
    | some callerFrame =>
      simp only [leaveTo, found, bind_eq_ok] at left
      obtain ⟨middle, single, others⟩ := left
      obtain ⟨steps, handed⟩ := remaining middle others
      have step := allowed first middle caller callerFrame List.mem_cons_self found single
      refine ⟨.head step steps, ?_⟩
      intro other member
      rcases List.mem_cons.mp member with rfl | later
      · exact ⟨first, .refl, .inr ⟨callerFrame, middle, found, single, steps⟩⟩
      · exact (handed other later).prepend (.single step)

theorem flowToHandlers_steps {frame : Frame V} {record : Option Subroutine}
    {handlers : List (Nat × ExceptionHandler)}
    (allowed : ∀ now next target handler caught, (target, handler) ∈ handlers →
      frame.clearStack.push (domain.exception handler.caught) = .ok caught →
      now.merge domain target caught record = .ok next → touches now next)
    (flowed : first.flowToHandlers domain index frame record handlers = .ok last) :
    ReflTransGen touches first last ∧ ∀ target handler, (target, handler) ∈ handlers →
      ∃ caught, frame.clearStack.push (domain.exception handler.caught) = .ok caught ∧
        Delivers domain touches target caught record first last := by
  induction handlers generalizing first with
  | nil =>
    cases flowed
    exact ⟨.refl, by simp⟩
  | cons entry rest ih =>
    obtain ⟨target, handler⟩ := entry
    simp only [flowToHandlers, bind_eq_ok] at flowed
    obtain ⟨caught, checked, middle, single, others⟩ := flowed
    have pushed : frame.clearStack.push (domain.exception handler.caught) = .ok caught :=
      check_eq_ok.mp checked
    have step := allowed first middle target handler caught List.mem_cons_self pushed single
    obtain ⟨steps, delivered⟩ := ih (fun now next target handler caught member =>
      allowed now next target handler caught (List.mem_cons_of_mem _ member)) others
    refine ⟨.head step steps, ?_⟩
    intro target' handler' member
    rcases List.mem_cons.mp member with same | later
    · cases same
      exact ⟨caught, pushed, first, middle, .refl, single, steps⟩
    · obtain ⟨caught', pushed', delivers⟩ := delivered target' handler' later
      exact ⟨caught', pushed', delivers.prepend (.single step)⟩

end Steps

theorem executeAction_eq_ok {state : AnalysisState V} {action : Action} {frame after : Frame V} :
    state.executeAction domain index action frame = .ok after ↔
      action.effect domain index frame = .ok after := by
  cases action with
  | idle => simp [executeAction, Action.effect]
  | instruction i =>
    simp only [executeAction, Action.effect, execute]
    split <;> simp_all
  | branch labelled resolved =>
    simp only [executeAction, Action.effect, execute]
    split <;> simp_all

omit [AbstractValue V] in
theorem requeue_steps {touches : AnalysisState V → AnalysisState V → Prop}
    {first : AnalysisState V} {targets : List Nat}
    (allowed : ∀ now ret, now.returns = first.returns → ret ∈ targets →
      touches now (now.enqueue ret)) :
    ReflTransGen touches first (targets.foldl enqueue first) ∧
      ∀ ret ∈ targets, ∃ now, ReflTransGen touches first now ∧
        ReflTransGen touches (now.enqueue ret) (targets.foldl enqueue first) := by
  induction targets generalizing first with
  | nil => exact ⟨.refl, by simp⟩
  | cons target rest ih =>
    have step := allowed first target rfl List.mem_cons_self
    obtain ⟨steps, queued⟩ := ih (fun now ret same member =>
      allowed now ret (same.trans (returns_enqueue first target)) (List.mem_cons_of_mem _ member))
    refine ⟨.head step steps, ?_⟩
    intro ret member
    rcases List.mem_cons.mp member with rfl | later
    · exact ⟨first, .refl, steps⟩
    · obtain ⟨now, earlier, further⟩ := queued ret later
      exact ⟨now, .head step earlier, further⟩

/-- What passing on the frame after an action comes to. -/
structure PassedOn (domain : Domain V) (maxLocals : Nat) (visit : Visit V)
    (final : AnalysisState V) : Prop where
  steps : ReflTransGen (Touches domain maxLocals visit) visit.before final
  onward : visit.point.action.isPlain = true →
    ∀ target ∈ visit.point.action.successors visit.index,
      Delivers domain (Touches domain maxLocals visit) target visit.after visit.record
        visit.before final
  call : ∀ labelled target, visit.point.action = .branch labelled (.jsr target) →
    Delivers domain (Touches domain maxLocals visit) target visit.after
        (some (.fresh (some target) maxLocals (some visit.index))) visit.before final ∧
      ∀ ret, (target, ret) ∈ visit.before.returns → ∃ now,
        ReflTransGen (Touches domain maxLocals visit) visit.before now ∧
        ReflTransGen (Touches domain maxLocals visit) (now.enqueue ret) final
  back : ∀ labelled slot, visit.point.action = .branch labelled (.ret slot) →
    ∃ returning, visit.record = some returning ∧
      (∀ start, returning.start = some start → ∃ now, (start, visit.index) ∈ now.returns ∧
        ReflTransGen (Touches domain maxLocals visit) visit.before now ∧
        ReflTransGen (Touches domain maxLocals visit) now final) ∧
      ∀ caller ∈ returning.callers,
        HandsBack domain (Touches domain maxLocals visit) visit.after returning.used caller
          visit.before final

/-- What processing an index that has a frame comes to. -/
structure Processed (domain : Domain V) (maxLocals : Nat) (visit : Visit V)
    (final : AnalysisState V) : Prop extends PassedOn domain maxLocals visit final where
  executed : visit.point.action.effect domain visit.index visit.frame = .ok visit.after
  handlers : ∀ target handler, (target, handler) ∈ visit.point.handlers → ∃ caught,
    visit.frame.clearStack.push (domain.exception handler.caught) = .ok caught ∧
      Delivers domain (Touches domain maxLocals visit) target caught visit.record visit.before
        final

variable {middle final : AnalysisState V}

theorem PassedOn.append (passed : PassedOn domain maxLocals visit middle)
    (later : ReflTransGen (Touches domain maxLocals visit) middle final) :
    PassedOn domain maxLocals visit final where
  steps := passed.steps.trans later
  onward plain target member := (passed.onward plain target member).append later
  call labelled target calls := by
    obtain ⟨delivers, requeued⟩ := passed.call labelled target calls
    refine ⟨delivers.append later, fun ret member => ?_⟩
    obtain ⟨now, earlier, further⟩ := requeued ret member
    exact ⟨now, earlier, further.trans later⟩
  back labelled slot returns := by
    obtain ⟨returning, inside, registered, handed⟩ := passed.back labelled slot returns
    refine ⟨returning, inside, fun start started => ?_, fun caller member =>
      (handed caller member).append later⟩
    obtain ⟨now, known, earlier, further⟩ := registered start started
    exact ⟨now, known, earlier, further.trans later⟩

theorem plain_steps (plain : visit.point.action.isPlain = true)
    (flowed : visit.before.flowOn domain maxLocals visit.index visit.point.action visit.after
      visit.record = .ok middle) :
    ReflTransGen (Touches domain maxLocals visit) visit.before middle ∧
      ∀ target ∈ visit.point.action.successors visit.index,
        Delivers domain (Touches domain maxLocals visit) target visit.after visit.record
          visit.before middle := by
  have merged : visit.before.mergeAll domain visit.after visit.record
      (visit.point.action.successors visit.index) = .ok middle := by
    unfold flowOn at flowed
    split at flowed
    · rename_i calls
      simp [calls, Action.isPlain] at plain
    · rename_i returns
      simp [returns, Action.isPlain] at plain
    · exact flowed
  have allowed (now next : AnalysisState V) (target : Nat)
      (member : target ∈ visit.point.action.successors visit.index)
      (merged : now.merge domain target visit.after visit.record = .ok next) :
      Touches domain maxLocals visit now next :=
    .merge (.onward plain member) merged
  exact mergeAll_steps allowed merged

theorem enter_steps {labelled : Branch Label} {target : Nat}
    (calls : visit.point.action = .branch labelled (.jsr target))
    (entered : visit.before.enter domain maxLocals visit.index target visit.after = .ok middle) :
    ReflTransGen (Touches domain maxLocals visit) visit.before middle ∧
      Delivers domain (Touches domain maxLocals visit) target visit.after
        (some (.fresh (some target) maxLocals (some visit.index))) visit.before middle ∧
      ∀ ret, (target, ret) ∈ visit.before.returns → ∃ now,
        ReflTransGen (Touches domain maxLocals visit) visit.before now ∧
        ReflTransGen (Touches domain maxLocals visit) (now.enqueue ret) middle := by
  obtain ⟨next, merged, queued⟩ := bind_eq_ok.mp entered
  cases queued
  have same : next.returns = visit.before.returns := by
    obtain ⟨_, _, _, _, rfl⟩ := merge_eq_ok.mp merged
    exact returns_updated
  have step : Touches domain maxLocals visit visit.before next := .merge (.call calls) merged
  have allowed (now : AnalysisState V) (ret : Nat) (same : now.returns = next.returns)
      (member : ret ∈ next.returns.from target) :
      Touches domain maxLocals visit now (now.enqueue ret) :=
    .requeue calls (same ▸ Returns.mem_from.mp member)
  obtain ⟨steps, requeued⟩ := requeue_steps allowed
  refine ⟨.head step steps, ⟨visit.before, next, .refl, merged, steps⟩, ?_⟩
  intro ret member
  obtain ⟨now, earlier, later⟩ := requeued ret (Returns.mem_from.mpr (same ▸ member))
  exact ⟨now, .head step earlier, later⟩

theorem leave_steps {labelled : Branch Label} {slot : Nat}
    (returns : visit.point.action = .branch labelled (.ret slot))
    (left : visit.before.leave domain visit.index visit.after visit.record = .ok middle) :
    ReflTransGen (Touches domain maxLocals visit) visit.before middle ∧
      ∃ returning, visit.record = some returning ∧
        (∀ start, returning.start = some start → ∃ now, (start, visit.index) ∈ now.returns ∧
          ReflTransGen (Touches domain maxLocals visit) visit.before now ∧
          ReflTransGen (Touches domain maxLocals visit) now middle) ∧
        ∀ caller ∈ returning.callers,
          HandsBack domain (Touches domain maxLocals visit) visit.after returning.used caller
            visit.before middle := by
  cases inside : visit.record with
  | none => simp [leave, inside] at left
  | some returning =>
    have allowed (now next : AnalysisState V) (caller : Nat) (callerFrame : Frame V)
        (member : caller ∈ returning.callers) (found : now.frame? caller = some callerFrame)
        (merged : now.merge domain (caller + 1)
          (visit.after.mergeSubroutine callerFrame returning.used) (now.subroutine? caller) =
            .ok next) : Touches domain maxLocals visit now next :=
      .merge (.back returns inside member found) merged
    cases started : returning.start with
    | none =>
      simp only [leave, inside, started] at left
      obtain ⟨steps, back⟩ := leaveTo_steps allowed left
      exact ⟨steps, returning, rfl, by simp [started], back⟩
    | some start =>
      simp only [leave, inside, started] at left
      obtain ⟨steps, back⟩ := leaveTo_steps allowed left
      have step : Touches domain maxLocals visit visit.before
          { visit.before with returns := visit.before.returns.add start visit.index } :=
        .register returns inside started
      refine ⟨.head step steps, returning, rfl, ?_, fun caller member =>
        (back caller member).prepend (.single step)⟩
      rintro _ same
      cases started.symm.trans same
      exact ⟨_, Returns.mem_add.mpr (.inl rfl), .single step, steps⟩

theorem flowOn_eq_ok
    (flowed : visit.before.flowOn domain maxLocals visit.index visit.point.action visit.after
      visit.record = .ok middle) : PassedOn domain maxLocals visit middle := by
  by_cases plain : visit.point.action.isPlain = true
  · obtain ⟨steps, onward⟩ := plain_steps plain flowed
    refine ⟨steps, fun _ => onward, ?_, ?_⟩
    · intro labelled target calls
      simp [calls, Action.isPlain] at plain
    · intro labelled slot returns
      simp [returns, Action.isPlain] at plain
  · unfold flowOn at flowed
    split at flowed
    · rename_i labelled target calls
      obtain ⟨steps, delivers, requeued⟩ := enter_steps calls flowed
      refine ⟨steps, fun plain' => absurd plain' plain, ?_, by simp [calls]⟩
      intro labelled' target' calls'
      cases calls.symm.trans calls'
      exact ⟨delivers, requeued⟩
    · rename_i labelled slot returns
      obtain ⟨steps, back⟩ := leave_steps returns flowed
      exact ⟨steps, fun plain' => absurd plain' plain, by simp [returns], fun _ _ _ => back⟩
    · rename_i notCall notReturn
      exact absurd (Action.plain_of_ne notCall notReturn) plain

/-- Processing an index merges what it sends on, and nothing else. -/
theorem process_eq_ok {index : Nat} {point : Point} {frame : Frame V} {before : AnalysisState V}
    (found : before.frame? index = some frame) (pointed : flow[index]? = some point)
    (processed : before.process domain flow maxLocals index = .ok final) :
    ∃ after, Processed domain maxLocals ⟨before, index, point, frame, after⟩ final := by
  simp only [process, found, pointed, bind_eq_ok] at processed
  obtain ⟨after, executed, middle, flowed, handled⟩ := processed
  let visit : Visit V := ⟨before, index, point, frame, after⟩
  have allowed (now next : AnalysisState V) (target : Nat) (handler : ExceptionHandler)
      (caught : Frame V) (member : (target, handler) ∈ point.handlers)
      (pushed : frame.clearStack.push (domain.exception handler.caught) = .ok caught)
      (merged : now.merge domain target caught visit.record = .ok next) :
      Touches domain maxLocals visit now next :=
    .merge (.handler member pushed) merged
  obtain ⟨later, delivered⟩ := flowToHandlers_steps allowed handled
  have passed : PassedOn domain maxLocals visit middle := flowOn_eq_ok flowed
  refine ⟨after, passed.append later, executeAction_eq_ok.mp executed, ?_⟩
  intro target handler member
  obtain ⟨caught, pushed, delivers⟩ := delivered target handler member
  exact ⟨caught, pushed, delivers.prepend passed.steps⟩

theorem process_idle {index : Nat} {before : AnalysisState V}
    (idle : before.frame? index = none ∨ flow[index]? = none)
    (processed : before.process domain flow maxLocals index = .ok final) : final = before := by
  unfold process at processed
  split at processed
  · simp_all
  · cases processed
    rfl

end AnalysisState

end MethodFlow
