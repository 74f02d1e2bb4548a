import MethodFlow.Proofs.Analysis.Stability

namespace MethodFlow

open Relation (ReflTransGen)

variable {V : Type} [AbstractValue V] {domain : Domain V} {flow : Flow} {maxLocals : Nat}
  {visit : Visit V}

namespace AnalysisState

/-- Nothing that an index does when it is processed can fail, in states of a kind that it keeps. -/
structure Clear (domain : Domain V) (maxLocals : Nat) (visit : Visit V)
    (kept : AnalysisState V → Prop) : Prop where
  executed : visit.point.action.effect domain visit.index visit.frame = .ok visit.after
  inside : ∀ labelled slot, visit.point.action = .branch labelled (.ret slot) →
    ∃ returning, visit.record = some returning
  caught : ∀ target handler, (target, handler) ∈ visit.point.handlers →
    ∃ caught, visit.frame.clearStack.push (domain.exception handler.caught) = .ok caught
  merges : ∀ {now target sent record}, kept now →
    Sends domain maxLocals visit now target sent record →
      ∃ next, now.merge domain target sent record = .ok next
  keeps : ∀ {now next}, kept now → Touches domain maxLocals visit now next → kept next

namespace Clear

variable {kept : AnalysisState V → Prop} {first : AnalysisState V}

theorem steps (clear : Clear domain maxLocals visit kept) (good : kept first)
    {last : AnalysisState V} (steps : ReflTransGen (Touches domain maxLocals visit) first last) :
    kept last := by
  induction steps with
  | refl => exact good
  | tail _ touches ih => exact clear.keeps ih touches

theorem merge (clear : Clear domain maxLocals visit kept) (good : kept first) {target : Nat}
    {sent : Frame V} {record : Option Subroutine}
    (sends : Sends domain maxLocals visit first target sent record) :
    ∃ next, first.merge domain target sent record = .ok next ∧ kept next := by
  obtain ⟨next, merged⟩ := clear.merges good sends
  exact ⟨next, merged, clear.keeps good (.merge sends merged)⟩

theorem mergeAll (clear : Clear domain maxLocals visit kept)
    (plain : visit.point.action.isPlain = true) {targets : List Nat}
    (successors : ∀ target ∈ targets, target ∈ visit.point.action.successors visit.index)
    (good : kept first) :
    ∃ last, first.mergeAll domain visit.after visit.record targets = .ok last ∧ kept last := by
  induction targets generalizing first with
  | nil => exact ⟨first, rfl, good⟩
  | cons target rest ih =>
    rw [List.forall_mem_cons] at successors
    obtain ⟨next, merged, good'⟩ := clear.merge good (.onward plain successors.1)
    obtain ⟨last, others, good''⟩ := ih successors.2 good'
    exact ⟨last, bind_eq_ok.mpr ⟨next, merged, others⟩, good''⟩

theorem leaveTo (clear : Clear domain maxLocals visit kept) {labelled : Branch Label} {slot : Nat}
    (returns : visit.point.action = .branch labelled (.ret slot)) {returning : Subroutine}
    (inside : visit.record = some returning) {callers : List Nat}
    (members : ∀ caller ∈ callers, caller ∈ returning.callers) (good : kept first) :
    ∃ last, first.leaveTo domain visit.after returning.used callers = .ok last ∧ kept last := by
  induction callers generalizing first with
  | nil => exact ⟨first, rfl, good⟩
  | cons caller rest ih =>
    rw [List.forall_mem_cons] at members
    cases found : first.frame? caller with
    | none =>
      obtain ⟨last, others, good'⟩ := ih members.2 good
      exact ⟨last, by simpa [AnalysisState.leaveTo, found] using others, good'⟩
    | some callerFrame =>
      obtain ⟨next, merged, good'⟩ := clear.merge good (.back returns inside members.1 found)
      obtain ⟨last, others, good''⟩ := ih members.2 good'
      refine ⟨last, ?_, good''⟩
      simp only [AnalysisState.leaveTo, found]
      exact bind_eq_ok.mpr ⟨next, merged, others⟩

theorem flowToHandlers (clear : Clear domain maxLocals visit kept)
    {handlers : List (Nat × ExceptionHandler)}
    (members : ∀ entry ∈ handlers, entry ∈ visit.point.handlers) (good : kept first) :
    ∃ last, first.flowToHandlers domain visit.index visit.frame visit.record handlers = .ok last ∧
      kept last := by
  induction handlers generalizing first with
  | nil => exact ⟨first, rfl, good⟩
  | cons entry rest ih =>
    obtain ⟨target, handler⟩ := entry
    rw [List.forall_mem_cons] at members
    obtain ⟨caught, pushed⟩ := clear.caught target handler members.1
    obtain ⟨next, merged, good'⟩ := clear.merge good (.handler members.1 pushed)
    obtain ⟨last, others, good''⟩ := ih members.2 good'
    refine ⟨last, ?_, good''⟩
    simp only [AnalysisState.flowToHandlers, pushed, bind_eq_ok]
    exact ⟨caught, rfl, next, merged, others⟩

theorem flowOn (clear : Clear domain maxLocals visit kept) (good : kept visit.before) :
    ∃ last, visit.before.flowOn domain maxLocals visit.index visit.point.action visit.after
      visit.record = .ok last ∧ kept last := by
  unfold AnalysisState.flowOn
  split
  · rename_i labelled target calls
    obtain ⟨next, merged, good'⟩ := clear.merge good (.call calls)
    have allowed (now : AnalysisState V) (ret : Nat) (same : now.returns = next.returns)
        (member : ret ∈ next.returns.from target) :
        Touches domain maxLocals visit now (now.enqueue ret) :=
      .requeue calls (same ▸ Returns.mem_from.mp member)
    exact ⟨_, bind_eq_ok.mpr ⟨next, merged, rfl⟩, clear.steps good' (requeue_steps allowed).1⟩
  · rename_i labelled slot returns
    obtain ⟨returning, inside⟩ := clear.inside labelled slot returns
    unfold AnalysisState.leave
    simp only [inside]
    cases started : returning.start with
    | none => exact clear.leaveTo returns inside (fun _ member => member) good
    | some start =>
      exact clear.leaveTo returns inside (fun _ member => member)
        (clear.keeps good (.register returns inside started))
  · rename_i notCall notReturn
    have plain : visit.point.action.isPlain = true := by
      unfold Action.isPlain
      split <;> simp_all
    exact clear.mergeAll plain (fun _ member => member) good

/-- Processing an index succeeds where nothing that it does can fail. -/
theorem process (clear : Clear domain maxLocals visit kept)
    (found : visit.before.frame? visit.index = some visit.frame)
    (pointed : flow[visit.index]? = some visit.point) (good : kept visit.before) :
    ∃ final, visit.before.process domain flow maxLocals visit.index = .ok final ∧ kept final := by
  obtain ⟨middle, flowed, good'⟩ := clear.flowOn good
  obtain ⟨final, handled, good''⟩ := clear.flowToHandlers (fun _ member => member) good'
  refine ⟨final, ?_, good''⟩
  simp only [AnalysisState.process, found, pointed, bind_eq_ok]
  exact ⟨visit.after, executeAction_eq_ok.mpr clear.executed, middle, flowed, handled⟩

end Clear

end AnalysisState

end MethodFlow
