import MethodFlow.Proofs.Analysis.Running

/-! The worklist loop in single changes of its state. What there is to do for an index is a list of
errands, and to process the index is to run them one after another. So the loop has a stage after
every single change, also while an index is processed that turns out to have a fault. -/

namespace MethodFlow

open Relation (ReflTransGen)

variable {V : Type} [AbstractValue V]

/-- A single thing to do while an index is processed. -/
inductive Errand (V : Type) where
  /-- Merges a frame and a record into those at an index. -/
  | merge (target : Nat) (sent : Frame V) (record : Option Subroutine)
  /-- Queues a `ret` again. -/
  | requeue (ret : Nat)
  /-- Registers a `ret` of the subroutine that starts at an index. -/
  | register (start ret : Nat)
  /-- Hands the frame at a `ret` back to a caller, if that has a frame by then. -/
  | handBack (caller : Nat) (left : Frame V) (used : List Bool)
  /-- Passes the frame at an index on to a handler. -/
  | raise (index : Nat) (frame : Frame V) (record : Option Subroutine) (target : Nat)
      (handler : ExceptionHandler)

/-- A state in the course of the loop, and what is under way there. -/
inductive Stage (V : Type) where
  /-- An index was taken off the worklist. -/
  | taken (state : AnalysisState V) (index : Nat)
  /-- Some errands are left for the index that was taken, or none is. -/
  | busy (state : AnalysisState V) (left : List (Errand V))

/-- The state at a stage. -/
def Stage.state : Stage V → AnalysisState V
  | .taken state _ => state
  | .busy state _ => state

/-- The errands that are left at a stage. -/
def Stage.left : Stage V → List (Errand V)
  | .taken _ _ => []
  | .busy _ left => left

/-- A visit of an index with the frame that is there. -/
structure Visit.Executes (domain : Domain V) (flow : Flow) (visit : Visit V) : Prop where
  pointed : flow[visit.index]? = some visit.point
  found : visit.before.frame? visit.index = some visit.frame
  executed : visit.point.action.effect domain visit.index visit.frame = .ok visit.after

namespace AnalysisState

/-- What an index sends on after its action, in order. A `ret` outside of subroutines is a fault. -/
def onward (maxLocals : Nat) (state : AnalysisState V) (index : Nat) (action : Action)
    (after : Frame V) (record : Option Subroutine) : Except Stopped (List (Errand V)) :=
  match action with
  | .branch _ (.jsr target) =>
    .ok (.merge target after (some (.fresh (some target) maxLocals (some index))) ::
      (state.returns.from target).map .requeue)
  | .branch _ (.ret _) =>
    match record with
    | none => .error (state.stop index .retOutsideSubroutine)
    | some returning =>
      .ok ((returning.start.toList.map fun start => .register start index) ++
        returning.callers.map fun caller => .handBack caller after returning.used)
  | _ => .ok ((action.successors index).map fun target => .merge target after record)

/-- What an index passes on to its handlers, in order. -/
def raised (index : Nat) (frame : Frame V) (record : Option Subroutine)
    (handlers : List (Nat × ExceptionHandler)) : List (Errand V) :=
  handlers.map fun entry => .raise index frame record entry.1 entry.2

/-- Runs an errand. -/
def perform (domain : Domain V) (state : AnalysisState V) :
    Errand V → Except Stopped (AnalysisState V)
  | .merge target sent record => state.merge domain target sent record
  | .requeue ret => .ok (state.enqueue ret)
  | .register start ret => .ok { state with returns := state.returns.add start ret }
  | .handBack caller left used =>
    match state.frame? caller with
    | none => .ok state
    | some callerFrame =>
      state.merge domain (caller + 1) (left.mergeSubroutine callerFrame used)
        (state.subroutine? caller)
  | .raise index frame record target handler => do
    let caught ← state.check index (frame.clearStack.push (domain.exception handler.caught))
    state.merge domain target caught record

/-- What there is to do for an index that was taken off the worklist. -/
def errands (domain : Domain V) (flow : Flow) (maxLocals : Nat) (state : AnalysisState V)
    (index : Nat) : Except Stopped (List (Errand V)) :=
  match state.frame? index, flow[index]? with
  | some frame, some point => do
    let after ← state.executeAction domain index point.action frame
    let record := usedBy point.action (state.subroutine? index)
    let onward ← state.onward maxLocals index point.action after record
    return onward ++ raised index frame record point.handlers
  | _, _ => .ok []

/-- The loop makes a single change, or finds out what there is to do for an index. -/
inductive Advances (domain : Domain V) (flow : Flow) (maxLocals : Nat) :
    Stage V → Stage V → Prop where
  | take {state popped : AnalysisState V} {index : Nat}
      (taken : state.next? = some (index, popped)) :
      Advances domain flow maxLocals (.busy state []) (.taken popped index)
  | plan {state : AnalysisState V} {index : Nat} {errands : List (Errand V)}
      (planned : state.errands domain flow maxLocals index = .ok errands) :
      Advances domain flow maxLocals (.taken state index) (.busy state errands)
  | perform {state next : AnalysisState V} {errand : Errand V} {rest : List (Errand V)}
      (performed : state.perform domain errand = .ok next) :
      Advances domain flow maxLocals (.busy state (errand :: rest)) (.busy next rest)

/-- The errands of a visit. -/
def Owes (maxLocals : Nat) (visit : Visit V) (errands : List (Errand V)) : Prop :=
  ∃ onward, visit.before.onward maxLocals visit.index visit.point.action visit.after visit.record =
    .ok onward ∧ errands = onward ++ raised visit.index visit.frame visit.record visit.point.handlers

variable {domain : Domain V} {flow : Flow} {maxLocals index : Nat} {state : AnalysisState V}

section Processing

theorem mergeAll_eq_foldlM (sent : Frame V) (record : Option Subroutine) (targets : List Nat) :
    state.mergeAll domain sent record targets =
      (targets.map fun target => Errand.merge target sent record).foldlM (perform domain) state := by
  induction targets generalizing state with
  | nil => rfl
  | cons target rest ih =>
    rw [mergeAll, List.map_cons, List.foldlM_cons]
    exact bind_congr fun next => ih

theorem requeue_eq_foldlM (rets : List Nat) :
    (rets.map Errand.requeue).foldlM (perform domain) state = .ok (rets.foldl enqueue state) := by
  induction rets generalizing state with
  | nil => rfl
  | cons ret rest ih =>
    rw [List.map_cons, List.foldlM_cons, List.foldl_cons, ← ih]
    rfl

theorem leaveTo_eq_foldlM (left : Frame V) (used : List Bool) (callers : List Nat) :
    state.leaveTo domain left used callers =
      (callers.map fun caller => Errand.handBack caller left used).foldlM (perform domain)
        state := by
  induction callers generalizing state with
  | nil => rfl
  | cons caller rest ih =>
    rw [leaveTo, List.map_cons, List.foldlM_cons, perform]
    cases state.frame? caller with
    | none => exact ih
    | some callerFrame => exact bind_congr fun next => ih

theorem flowToHandlers_eq_foldlM (frame : Frame V) (record : Option Subroutine)
    (handlers : List (Nat × ExceptionHandler)) :
    state.flowToHandlers domain index frame record handlers =
      (raised index frame record handlers).foldlM (perform domain) state := by
  induction handlers generalizing state with
  | nil => rfl
  | cons entry rest ih =>
    obtain ⟨target, handler⟩ := entry
    rw [flowToHandlers, raised, List.map_cons, List.foldlM_cons]
    simp only [perform, bind_assoc]
    exact bind_congr fun caught => bind_congr fun next => ih

/-- Entering a subroutine is a merge, and then to queue the returns known before it. -/
theorem enter_eq_foldlM (target : Nat) (sent : Frame V) :
    state.enter domain maxLocals index target sent =
      (Errand.merge target sent (some (.fresh (some target) maxLocals (some index))) ::
        (state.returns.from target).map .requeue).foldlM (perform domain) state := by
  rw [enter, List.foldlM_cons, perform]
  cases merged : state.merge domain target sent (some (.fresh (some target) maxLocals (some index)))
    with
  | error stopped => rfl
  | ok next =>
    have same : next.returns = state.returns := by
      obtain ⟨_, _, _, _, rfl⟩ := merge_eq_ok.mp merged
      exact returns_updated
    exact same ▸ (requeue_eq_foldlM _).symm

theorem flowOn_eq_foldlM (action : Action) (after : Frame V) (record : Option Subroutine) :
    state.flowOn domain maxLocals index action after record =
      (state.onward maxLocals index action after record) >>= fun onward =>
        onward.foldlM (perform domain) state := by
  unfold flowOn
  split
  · exact enter_eq_foldlM _ _
  · cases record with
    | none => rfl
    | some returning =>
      obtain ⟨start, used, callers⟩ := returning
      cases start with
      | none => exact leaveTo_eq_foldlM _ _ _
      | some start => exact leaveTo_eq_foldlM _ _ _
  · rename_i notCall notReturn
    have plain : state.onward maxLocals index action after record =
        .ok ((action.successors index).map fun target => .merge target after record) := by
      unfold onward
      split
      · exact absurd rfl (notCall _ _)
      · exact absurd rfl (notReturn _ _)
      · rfl
    rw [plain]
    exact mergeAll_eq_foldlM _ _ _

/-- To process an index is to run its errands. -/
theorem process_eq_foldlM :
    state.process domain flow maxLocals index =
      (state.errands domain flow maxLocals index) >>= fun errands =>
        errands.foldlM (perform domain) state := by
  unfold process errands
  cases state.frame? index with
  | none => rfl
  | some frame =>
    cases flow[index]? with
    | none => rfl
    | some point =>
      simp only [bind_assoc, pure_bind, List.foldlM_append, flowOn_eq_foldlM,
        flowToHandlers_eq_foldlM]

end Processing

section Runs

variable {start final : AnalysisState V} {stage : Stage V}

theorem advances_of_foldlM {errands : List (Errand V)}
    (performed : errands.foldlM (perform domain) state = .ok final) :
    ReflTransGen (Advances domain flow maxLocals) (.busy state errands) (.busy final []) := by
  induction errands generalizing state with
  | nil =>
    cases performed
    exact .refl
  | cons errand rest ih =>
    rw [List.foldlM_cons] at performed
    obtain ⟨next, single, others⟩ := bind_eq_ok.mp performed
    exact .head (.perform single) (ih others)

theorem Run.advances {count : Nat} (run : Run domain flow maxLocals start count final) :
    ReflTransGen (Advances domain flow maxLocals) (.busy start []) (.busy final []) := by
  induction run with
  | start => exact .refl
  | step run taken processed ih =>
    rw [process_eq_foldlM] at processed
    obtain ⟨errands, planned, performed⟩ := bind_eq_ok.mp processed
    exact ((ih.tail (.take taken)).tail (.plan planned)).trans (advances_of_foldlM performed)

/-- A stage that is reached lies between the state at the end of a run and the next such state: what is
left to do there comes to what processing the index taken comes to. -/
theorem run_of_advances
    (reached : ReflTransGen (Advances domain flow maxLocals) (.busy start []) stage) :
    ∃ count last, Run domain flow maxLocals start count last ∧ (stage = .busy last [] ∨
      ∃ index popped, last.next? = some (index, popped) ∧ (stage = .taken popped index ∨
        ∃ state left, stage = .busy state left ∧
          left.foldlM (perform domain) state = popped.process domain flow maxLocals index)) := by
  induction reached with
  | refl => exact ⟨0, start, .start, .inl rfl⟩
  | tail _ advances ih =>
    obtain ⟨count, last, run, between⟩ := ih
    cases advances with
    | @take state popped index taken =>
      obtain ⟨count', run'⟩ : ∃ count', Run domain flow maxLocals start count' state := by
        rcases between with same | ⟨index', popped', taken', same | ⟨_, _, same, rest⟩⟩
        · cases same
          exact ⟨count, run⟩
        · cases same
        · cases same
          exact ⟨count + 1, .step run taken' rest.symm⟩
      exact ⟨count', state, run', .inr ⟨index, popped, taken, .inl rfl⟩⟩
    | @plan state index errands planned =>
      rcases between with same | ⟨index', popped', taken', same | ⟨_, _, same, -⟩⟩
      · cases same
      · cases same
        refine ⟨count, last, run, .inr ⟨index, state, taken', .inr ⟨state, errands, rfl, ?_⟩⟩⟩
        rw [process_eq_foldlM, planned]
        rfl
      · cases same
    | @perform state next errand rest performed =>
      rcases between with same | ⟨index', popped', taken', same | ⟨_, _, same, remaining⟩⟩
      · cases same
      · cases same
      · cases same
        refine ⟨count, last, run, .inr ⟨index', popped', taken', .inr ⟨next, rest, rfl, ?_⟩⟩⟩
        rw [← remaining, List.foldlM_cons, performed]
        rfl

/-- The states between two indices are those at the ends of runs. -/
theorem run_iff_advances :
    (∃ count, Run domain flow maxLocals start count final) ↔
      ReflTransGen (Advances domain flow maxLocals) (.busy start []) (.busy final []) := by
  constructor
  · rintro ⟨count, run⟩
    exact run.advances
  · intro reached
    obtain ⟨count, last, run, same | ⟨index, popped, taken, same | ⟨_, _, same, rest⟩⟩⟩ :=
      run_of_advances reached
    · cases same
      exact ⟨count, run⟩
    · cases same
    · cases same
      exact ⟨count + 1, .step run taken rest.symm⟩

end Runs

section Invariants

variable {visit : Visit V} {now next : AnalysisState V} {errand : Errand V}

theorem errands_eq_ok {errands : List (Errand V)}
    (planned : state.errands domain flow maxLocals index = .ok errands) :
    errands = [] ∨ ∃ visit, visit.before = state ∧ Visit.Executes domain flow visit ∧
      Owes maxLocals visit errands := by
  unfold AnalysisState.errands at planned
  split at planned
  · rename_i frame point found pointed
    obtain ⟨after, executed, planned⟩ := bind_eq_ok.mp planned
    obtain ⟨onward, sent, planned⟩ := bind_eq_ok.mp planned
    cases planned
    exact .inr ⟨⟨state, index, point, frame, after⟩, rfl,
      ⟨pointed, found, executeAction_eq_ok.mp executed⟩, onward, sent, rfl⟩
  · cases planned
    exact .inl rfl

/-- An errand of a visit changes the state as the visit may, or not at all. -/
theorem touches_of_perform {errands : List (Errand V)} (owes : Owes maxLocals visit errands)
    (member : errand ∈ errands) (known : ∀ entry ∈ visit.before.returns, entry ∈ now.returns)
    (performed : now.perform domain errand = .ok next) :
    next = now ∨ Touches domain maxLocals visit now next := by
  obtain ⟨onward, sent, rfl⟩ := owes
  rcases List.mem_append.mp member with along | caught
  · unfold AnalysisState.onward at sent
    split at sent
    -- a call enters the subroutine and queues its returns again
    · rename_i labelled target calls
      cases sent
      rcases List.mem_cons.mp along with rfl | queued
      · exact .inr (.merge (.call calls) performed)
      · obtain ⟨ret, registered, rfl⟩ := List.mem_map.mp queued
        cases performed
        exact .inr (.requeue calls (known _ (Returns.mem_from.mp registered)))
    -- a `ret` registers itself and hands its frame back to every caller that has one
    · rename_i labelled slot returns
      cases inside : visit.record with
      | none => simp [inside] at sent
      | some returning =>
        simp only [inside, Except.ok.injEq] at sent
        subst sent
        rcases List.mem_append.mp along with registered | handed
        · obtain ⟨start, started, rfl⟩ := List.mem_map.mp registered
          cases performed
          exact .inr (.register returns inside (Option.mem_toList.mp started))
        · obtain ⟨caller, called, rfl⟩ := List.mem_map.mp handed
          cases found : now.frame? caller with
          | none =>
            simp only [perform, found, Except.ok.injEq] at performed
            exact .inl performed.symm
          | some callerFrame =>
            simp only [perform, found] at performed
            exact .inr (.merge (.back returns inside called found) performed)
    · rename_i notCall notReturn
      cases sent
      obtain ⟨target, successor, rfl⟩ := List.mem_map.mp along
      exact .inr (.merge (.onward (Action.plain_of_ne notCall notReturn) successor) performed)
  · obtain ⟨⟨target, handler⟩, protects, rfl⟩ := List.mem_map.mp caught
    obtain ⟨frame, checked, merged⟩ := bind_eq_ok.mp performed
    have pushed : visit.frame.clearStack.push (domain.exception handler.caught) = .ok frame :=
      check_eq_ok.mp checked
    exact .inr (.merge (.handler protects pushed) merged)

/-- What holds of every state in the course of the loop, and how each grows out of earlier ones. -/
structure Invariant (domain : Domain V) (flow : Flow) (maxLocals : Nat)
    (holds : AnalysisState V → Prop) (grows : AnalysisState V → AnalysisState V → Prop) : Prop where
  refl : ∀ state, grows state state
  trans : ∀ {before middle after}, grows before middle → grows middle after → grows before after
  returns : ∀ {before after}, grows before after → ∀ entry ∈ before.returns, entry ∈ after.returns
  take : ∀ {state popped index}, holds state → state.next? = some (index, popped) →
    holds popped ∧ grows state popped
  touch : ∀ {visit now next}, Visit.Executes domain flow visit → holds visit.before → holds now →
    grows visit.before now → Touches domain maxLocals visit now next →
    holds next ∧ grows now next

variable {holds : AnalysisState V → Prop} {grows : AnalysisState V → AnalysisState V → Prop}

/-- The invariant holds at a stage, and its errands are those of a visit that began before. -/
structure Sound (domain : Domain V) (flow : Flow) (maxLocals : Nat)
    (holds : AnalysisState V → Prop) (grows : AnalysisState V → AnalysisState V → Prop)
    (stage : Stage V) : Prop where
  kept : holds stage.state
  owed : ∀ errand ∈ stage.left, ∃ visit errands, Visit.Executes domain flow visit ∧
    Owes maxLocals visit errands ∧ errand ∈ errands ∧ holds visit.before ∧
      grows visit.before stage.state

theorem Sound.advance (invariant : Invariant domain flow maxLocals holds grows)
    {stage later : Stage V} (sound : Sound domain flow maxLocals holds grows stage)
    (advances : Advances domain flow maxLocals stage later) :
    Sound domain flow maxLocals holds grows later ∧ grows stage.state later.state := by
  cases advances with
  | take taken =>
    obtain ⟨kept, grown⟩ := invariant.take sound.kept taken
    exact ⟨⟨kept, nofun⟩, grown⟩
  | @plan state index errands planned =>
    refine ⟨⟨sound.kept, fun errand member => ?_⟩, invariant.refl state⟩
    rcases errands_eq_ok planned with rfl | ⟨visit, rfl, executes, owes⟩
    · cases member
    · exact ⟨visit, errands, executes, owes, member, sound.kept, invariant.refl _⟩
  | @perform now next errand rest performed =>
    obtain ⟨visit, errands, executes, owes, member, before, grown⟩ :=
      sound.owed errand List.mem_cons_self
    -- the errand was planned in an earlier state, whose returns are all known by now
    have step : holds next ∧ grows now next := by
      rcases touches_of_perform owes member (invariant.returns grown) performed with rfl | touches
      · exact ⟨sound.kept, invariant.refl _⟩
      · exact invariant.touch executes before sound.kept grown touches
    refine ⟨⟨step.1, fun other left => ?_⟩, step.2⟩
    obtain ⟨visit', errands', executes', owes', member', before', grown'⟩ :=
      sound.owed other (List.mem_cons_of_mem _ left)
    exact ⟨visit', errands', executes', owes', member', before', invariant.trans grown' step.2⟩

/-- An invariant holds at all stages from a sound one on. -/
theorem Sound.reach (invariant : Invariant domain flow maxLocals holds grows)
    {stage later : Stage V} (sound : Sound domain flow maxLocals holds grows stage)
    (reached : ReflTransGen (Advances domain flow maxLocals) stage later) :
    Sound domain flow maxLocals holds grows later ∧ grows stage.state later.state := by
  induction reached with
  | refl => exact ⟨sound, invariant.refl _⟩
  | tail _ advances ih =>
    obtain ⟨sound', grown⟩ := ih
    obtain ⟨sound'', grown'⟩ := sound'.advance invariant advances
    exact ⟨sound'', invariant.trans grown grown'⟩

theorem sound_of_start {start : AnalysisState V} (initial : holds start) :
    Sound domain flow maxLocals holds grows (.busy start []) :=
  ⟨initial, nofun⟩

end Invariants

end AnalysisState

end MethodFlow
