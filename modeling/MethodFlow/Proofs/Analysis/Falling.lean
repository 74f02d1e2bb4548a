import MethodFlow.Proofs.Analysis.Closing
import MethodFlow.Proofs.Analysis.Reachability

namespace MethodFlow

open Relation (ReflTransGen)

/-- Control may go from one index to another. What is called may come back, so that control may go
past every call. -/
inductive Method.MayGo (method : Method) (index : Nat) : Nat → Prop where
  | edge {target : Nat} (edge : method.Edge index target) : MayGo method index target
  | past {label : Label} (called : method.nodes[index]? = some (.branch (.jsr label))) :
      MayGo method index (index + 1)

/-- Control may run off the end: there is no code, or it may come to the last node and past it. -/
def Method.FallsOff (method : Method) : Prop :=
  method.nodes = [] ∨ ∃ last, method.nodes.getLast? = some last ∧
    (last.fallsThrough = true ∨ ∃ label, last = .branch (.jsr label)) ∧
    ReflTransGen method.MayGo 0 (method.nodes.length - 1)

variable {method : Method} {table : LabelTable} {flow : Flow} {maxLocals : Nat}

theorem Method.Stays.mayGo {index target : Nat} (stays : method.Stays index target) :
    method.MayGo index target := by
  cases stays with
  | onward _ leads => exact .edge (.onward leads)
  | caught member protects placed => exact .edge (.caught member protects placed)
  | past called => exact .past called

namespace Method.MayGo

variable {index target : Nat}

/-- Control only leaves a node of the code, and goes no further than to the next index. -/
theorem inside (goes : method.MayGo index target) :
    index < method.nodes.length ∧ (target < method.nodes.length ∨ target = index + 1) := by
  have standing {position : Nat} {node : Node} (found : method.nodes[position]? = some node) :
      position < method.nodes.length := (List.getElem?_eq_some_iff.mp found).1
  cases goes with
  | edge edge =>
    cases edge with
    | onward leads =>
      cases leads with
      | next found => exact ⟨standing found, .inr rfl⟩
      | jump found _ placed => exact ⟨standing found, .inl (standing placed)⟩
    | caught _ protects placed =>
      obtain ⟨first, past, -, ended, -, before⟩ := protects
      exact ⟨Nat.lt_trans before (standing ended), .inl (standing placed)⟩
  | past called => exact ⟨standing called, .inr rfl⟩

theorem past_iff {node : Node} (found : method.nodes[index]? = some node)
    (outside : method.nodes.length ≤ index + 1) : method.MayGo index (index + 1) ↔
      node.fallsThrough = true ∨ ∃ label, node = .branch (.jsr label) := by
  have beyond {label : Label} : ¬method.Places label (index + 1) := fun placed =>
    Nat.not_lt_of_le outside (List.getElem?_eq_some_iff.mp placed).1
  constructor
  · intro goes
    cases goes with
    | edge edge =>
      cases edge with
      | onward leads =>
        cases leads with
        | next found' falls =>
          cases found.symm.trans found'
          exact .inl falls
        | jump _ _ placed => exact absurd placed beyond
      | caught _ _ placed => exact absurd placed beyond
    | @past label called =>
      cases found.symm.trans called
      exact .inr ⟨label, rfl⟩
  · rintro (falls | ⟨label, rfl⟩)
    · exact .edge (.onward (.next found falls))
    · exact .past found

end Method.MayGo

/-- Control may run off the end if and only if it may come to the index past the last node. -/
theorem Method.fallsOff_iff : method.FallsOff ↔ ReflTransGen method.MayGo 0 method.nodes.length := by
  constructor
  · rintro (empty | ⟨last, found, falls, path⟩)
    · rw [empty]
      exact .refl
    · rw [List.getLast?_eq_getElem?] at found
      obtain ⟨inside, -⟩ := List.getElem?_eq_some_iff.mp found
      have past : method.nodes.length - 1 + 1 = method.nodes.length := by omega
      exact past ▸ path.tail ((MayGo.past_iff found (Nat.le_of_eq past.symm)).mpr falls)
  · intro path
    rcases ReflTransGen.cases_tail path with empty | ⟨index, path', goes⟩
    · exact .inl (List.length_eq_zero_iff.mp empty)
    · obtain ⟨inside, onward⟩ := goes.inside
      have past : method.nodes.length = index + 1 :=
        onward.resolve_left (Nat.lt_irrefl _)
      have found := List.getElem?_eq_getElem inside
      rw [past] at goes
      refine .inr ⟨_, ?_, (MayGo.past_iff found (Nat.le_of_eq past)).mp goes, ?_⟩
      · rw [List.getLast?_eq_getElem?, past]
        exact found
      · rw [past]
        exact path'

namespace Method.Resolved

variable {index next : Nat}

theorem mayGo_iff (resolved : method.Resolved table flow) : method.MayGo index next ↔
    (∃ point, flow[index]? = some point ∧ next ∈ point.onward index) ∨
      flow.called? index = some next := by
  constructor
  · intro goes
    have found := List.getElem?_eq_getElem goes.inside.1
    obtain ⟨point, pointed, actioned, handlers⟩ := resolved.points index _ found
    have onward (leads : next ∈ point.onward index) :
        (∃ point, flow[index]? = some point ∧ next ∈ point.onward index) ∨
          flow.called? index = some next := .inl ⟨point, pointed, leads⟩
    cases goes with
    | edge edge =>
      cases edge with
      | onward leads =>
        rcases resolved.successor_of_leads found actioned leads with
          ⟨labelled, calls⟩ | ⟨-, successor⟩
        · exact .inr (Flow.called?_of_call pointed calls)
        · exact onward (Point.mem_onward.mpr (.inl successor))
      | @caught handler _ member protects placed =>
        have covered := (handlers next handler).mpr ⟨member, protects, placed⟩
        exact onward (Point.mem_onward.mpr (.inr (.inl ⟨handler, covered⟩)))
    | past called =>
      rw [Option.some.inj (found.symm.trans called)] at actioned
      obtain ⟨renamed, mapped, same⟩ := bind_eq_ok.mp actioned
      obtain ⟨target, -, own⟩ := bind_eq_ok.mp mapped
      cases own
      have calls : point.action.isCall = true := by
        rw [← Except.ok.inj same]
        rfl
      exact onward (Point.mem_onward.mpr (.inr (.inr ⟨calls, rfl⟩)))
  · rintro (⟨point, pointed, onward⟩ | called)
    · exact (resolved.stays_of_onward pointed onward).mayGo
    · obtain ⟨label, found, placed⟩ := resolved.calls_of_called? called
      exact .edge (.onward (.jump found List.mem_cons_self placed))

theorem reached_of_mayGo (resolved : method.Resolved table flow) {reached : Nat → Prop}
    (closed : flow.Closed reached) (first : reached 0) (path : ReflTransGen method.MayGo 0 index) :
    reached index := by
  induction path with
  | refl => exact first
  | tail _ goes ih =>
    rcases resolved.mayGo_iff.mp goes with ⟨point, pointed, onward⟩ | called
    · exact closed.onward _ point _ ih pointed onward
    · exact closed.called _ _ ih called

theorem closed_of_not_fallsOff (resolved : method.Resolved table flow) (stays : ¬method.FallsOff) :
    flow.Closed (ReflTransGen method.MayGo 0) where
  inside index path := by
    rw [Method.fallsOff_iff] at stays
    rw [resolved.length]
    induction path with
    | refl =>
      refine Nat.pos_of_ne_zero fun empty => stays ?_
      rw [empty]
    | @tail source target path goes ih =>
      rcases goes.inside.2 with inside | past
      · exact inside
      · refine Nat.lt_of_le_of_ne (past ▸ ih) fun last => stays ?_
        exact last ▸ path.tail goes
  onward _ _ _ path pointed onward :=
    path.tail (resolved.mayGo_iff.mpr (.inl ⟨_, pointed, onward⟩))
  called _ _ path called := path.tail (resolved.mayGo_iff.mpr (.inr called))

/-- Marking fails if and only if control may run off the end, and at the last index. -/
theorem subroutines_eq_error (resolved : method.Resolved table flow) {fault : LocatedFault} :
    flow.subroutines maxLocals = .error fault ↔
      method.FallsOff ∧ fault = Fault.fallOffEnd.at (method.nodes.length - 1) := by
  have fails {fault : LocatedFault} (failed : flow.subroutines maxLocals = .error fault) :
      fault = Fault.fallOffEnd.at (method.nodes.length - 1) :=
    resolved.length ▸ (subroutines_failsOnly resolved.bounded).allows fault failed
  constructor
  · intro failed
    refine ⟨?_, fails failed⟩
    by_contra stays
    obtain ⟨marks, marked⟩ : ∃ marks, flow.subroutines maxLocals = .ok marks :=
      subroutines_ok (resolved.closed_of_not_fallsOff stays) .refl
    cases failed.symm.trans marked
  · rintro ⟨falls, rfl⟩
    cases marked : flow.subroutines maxLocals with
    | error fault => rw [fails marked]
    | ok marks =>
      obtain ⟨reached, closed, first⟩ := closed_of_subroutines marked
      have past := resolved.reached_of_mayGo closed first (Method.fallsOff_iff.mp falls)
      exact absurd (closed.inside _ past) (resolved.length ▸ Nat.lt_irrefl _)

end Method.Resolved

end MethodFlow
