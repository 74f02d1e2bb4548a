import Mathlib.Logic.Relation
import MethodFlow.Analysis.Reach
import MethodFlow.Proofs.Code.Resolution

/-! Subroutines of a method: where calls enter them, and which indices lie in one. An index can lie in
several subroutines, or in one and the body. -/

namespace MethodFlow

open Relation (ReflTransGen)

theorem Flow.called?_of_call {flow : Flow} {index target : Nat} {labelled : Branch Label}
    {point : Point} (pointed : flow[index]? = some point)
    (calls : point.action = .branch labelled (.jsr target)) : flow.called? index = some target := by
  obtain ⟨action, handlers⟩ := point
  cases calls
  simp [called?, pointed]

theorem Flow.call_of_called? {flow : Flow} {index target : Nat}
    (called : flow.called? index = some target) :
    ∃ labelled handlers, flow[index]? = some ⟨.branch labelled (.jsr target), handlers⟩ := by
  unfold called? at called
  split at called
  · rename_i labelled target' handlers pointed
    cases called
    exact ⟨labelled, handlers, pointed⟩
  · cases called

theorem Action.plain_of_successor {action : Action} {index target : Nat}
    (successor : target ∈ action.successors index) : action.isPlain = true := by
  unfold isPlain
  split
  · simp [successors, fallsThrough, jumps, Branch.fallsThrough] at successor
  · simp [successors, fallsThrough, jumps, Branch.fallsThrough, Branch.jumpTargets] at successor
  · rfl

theorem Action.call_of_isCall {action : Action} (calls : action.isCall = true) :
    ∃ labelled target, action = .branch labelled (.jsr target) := by
  unfold isCall at calls
  split at calls
  · rename_i labelled target
    exact ⟨labelled, target, rfl⟩
  · cases calls

theorem Point.isCall_of_uncalled {flow : Flow} (uncalled : ∀ index, flow.called? index = none) {index : Nat}
    {point : Point} (pointed : flow[index]? = some point) : point.action.isCall = false := by
  by_contra called
  obtain ⟨labelled, target, calls⟩ := Action.call_of_isCall (Bool.not_eq_false _ ▸ called)
  cases (uncalled index).symm.trans (Flow.called?_of_call pointed calls)

/-- Where walks go on from a point: to a successor, into a handler or past a call. -/
theorem Point.mem_onward {point : Point} {index next : Nat} :
    next ∈ point.onward index ↔ next ∈ point.action.successors index ∨
      (∃ handler, (next, handler) ∈ point.handlers) ∨
        (point.action.isCall = true ∧ next = index + 1) := by
  simp only [Point.onward, Action.successors, List.mem_append, List.mem_map, Prod.exists,
    exists_and_right, exists_eq_right, Bool.or_eq_true]
  by_cases falls : point.action.fallsThrough = true
  · simp only [falls, true_or, ↓reduceIte, List.mem_singleton]
    tauto
  · by_cases calls : point.action.isCall = true
    · simp only [falls, calls, or_true, ↓reduceIte, List.mem_singleton, true_and]
      tauto
    · simp [falls, calls]

/-- Control stays in a subroutine: it goes along the code or into a handler, and past a call rather than
into what is called. -/
inductive Method.Stays (method : Method) (index : Nat) : Nat → Prop where
  | onward {target : Nat} (uncalled : ∀ label, method.nodes[index]? ≠ some (.branch (.jsr label)))
      (leads : method.Leads index target) : Stays method index target
  | caught {handler : ExceptionHandler} {target : Nat} (member : handler ∈ method.handlers)
      (protects : method.Protects handler index)
      (placed : method.Places handler.handler target) : Stays method index target
  | past {label : Label} (called : method.nodes[index]? = some (.branch (.jsr label))) :
      Stays method index (index + 1)

/-- A call enters the subroutine that starts at an index. -/
def Method.Calls (method : Method) (call start : Nat) : Prop :=
  ∃ label, method.nodes[call]? = some (.branch (.jsr label)) ∧ method.Places label start

/-- An index lies in the body of a method, or in the subroutine that starts where some call enters. -/
def Method.Contains (method : Method) : Option Nat → Nat → Prop
  | none, index => ReflTransGen method.Stays 0 index
  | some start, index => (∃ call, method.Calls call start) ∧ ReflTransGen method.Stays start index

/-- An index lies in one subroutine only, or only in the body. -/
def Method.Alone (method : Method) (start : Option Nat) (index : Nat) : Prop :=
  ∀ other, method.Contains other index → other = start

theorem Method.Contains.tail {method : Method} {start : Option Nat} {index target : Nat}
    (contains : method.Contains start index) (stays : method.Stays index target) :
    method.Contains start target := by
  cases start with
  | none => exact ReflTransGen.tail contains stays
  | some start => exact ⟨contains.1, contains.2.tail stays⟩

variable {method : Method} {table : LabelTable} {flow : Flow}

namespace Method.Resolved

theorem calls_of_called? (resolved : method.Resolved table flow) {call target : Nat}
    (called : flow.called? call = some target) : method.Calls call target := by
  obtain ⟨labelled, handlers, pointed⟩ := Flow.call_of_called? called
  obtain ⟨node, found, actioned, -⟩ := resolved.node_of_point pointed
  obtain ⟨label, rfl⟩ := Node.jsr_of_action actioned
  obtain ⟨same, mapped⟩ := Node.branch_of_action actioned
  cases same
  obtain ⟨label', jumps, placed⟩ := resolved.label_of_target mapped List.mem_cons_self
  cases List.mem_singleton.mp jumps
  exact ⟨label, found, placed⟩

theorem uncalled (resolved : method.Resolved table flow) (callless : method.HasNoCall) (index : Nat) :
    flow.called? index = none := by
  cases called : flow.called? index with
  | none => rfl
  | some target =>
    obtain ⟨label, found, -⟩ := resolved.calls_of_called? called
    exact absurd (List.mem_of_getElem? found) (callless label)

theorem called?_of_calls (resolved : method.Resolved table flow) {call start : Nat}
    (calls : method.Calls call start) : flow.called? call = some start := by
  obtain ⟨label, found, placed⟩ := calls
  obtain ⟨point, pointed, actioned, -⟩ := resolved.points call _ found
  obtain ⟨renamed, mapped, same⟩ := bind_eq_ok.mp actioned
  obtain ⟨target, known, own⟩ := bind_eq_ok.mp mapped
  cases own
  have stands := (resolved.labels _ _).mp (LabelTable.resolve_eq_ok.mp known)
  cases resolved.places_unique placed stands
  exact Flow.called?_of_call pointed (Except.ok.inj same).symm

theorem stays_of_successor (resolved : method.Resolved table flow) {index target : Nat}
    {point : Point} (pointed : flow[index]? = some point) (plain : point.action.isPlain = true)
    (successor : target ∈ point.action.successors index) : method.Stays index target := by
  obtain ⟨node, found, actioned, -⟩ := resolved.node_of_point pointed
  refine .onward (fun label called => ?_) (resolved.leads_of_successor found actioned plain successor)
  cases found.symm.trans called
  obtain ⟨renamed, mapped, same⟩ := bind_eq_ok.mp actioned
  obtain ⟨start, -, own⟩ := bind_eq_ok.mp mapped
  cases own
  rw [← Except.ok.inj same] at plain
  cases plain

theorem stays_of_handler (resolved : method.Resolved table flow) {index target : Nat}
    {point : Point} {handler : ExceptionHandler} (pointed : flow[index]? = some point)
    (member : (target, handler) ∈ point.handlers) : method.Stays index target := by
  obtain ⟨node, -, -, handlers⟩ := resolved.node_of_point pointed
  obtain ⟨known, protects, placed⟩ := (handlers target handler).mp member
  exact .caught known protects placed

theorem stays_past (resolved : method.Resolved table flow) {call target : Nat}
    (called : flow.called? call = some target) : method.Stays call (call + 1) := by
  obtain ⟨label, found, -⟩ := resolved.calls_of_called? called
  exact .past found

theorem stays_of_onward (resolved : method.Resolved table flow) {index target : Nat}
    {point : Point} (pointed : flow[index]? = some point)
    (onward : target ∈ point.onward index) : method.Stays index target := by
  rcases Point.mem_onward.mp onward with successor | ⟨handler, member⟩ | ⟨calls, rfl⟩
  · exact resolved.stays_of_successor pointed (Action.plain_of_successor successor) successor
  · exact resolved.stays_of_handler pointed member
  · obtain ⟨labelled, start, called⟩ := Action.call_of_isCall calls
    exact resolved.stays_past (Flow.called?_of_call pointed called)

end Method.Resolved

end MethodFlow
