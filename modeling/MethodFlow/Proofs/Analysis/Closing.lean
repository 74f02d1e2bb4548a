import MethodFlow.Proofs.Analysis.Marking
import MethodFlow.Proofs.Failing

namespace MethodFlow

variable {flow : Flow} {maxLocals : Nat}

/-- Does a point have a record? -/
def Marks.Has (marks : Marks) (index : Nat) : Prop := ∃ record, marks[index]? = some (some record)

theorem Marks.has_set {marks : Marks} {index other : Nat} {subroutine : Subroutine}
    (blank : marks[index]? = some none) :
    Marks.Has (marks.set index (some subroutine)) other ↔ other = index ∨ marks.Has other := by
  obtain ⟨inside, -⟩ := List.getElem?_eq_some_iff.mp blank
  unfold Has
  rw [List.getElem?_set]
  by_cases own : index = other
  · simp [own, own ▸ inside]
  · simp [own, Ne.symm own]

/-- What a walk has done when it ends: everything on the stack has a record, and whatever has got one
leads only to points with one, and is in the queue if it is a call. -/
structure Walked (flow : Flow) (marks : Marks) (calls : List Nat) (stack : List (Nat × Option Nat))
    (marked : Marks) (queue : List Nat) : Prop where
  kept : ∀ index, marks.Has index → marked.Has index
  queued : ∀ call ∈ calls, call ∈ queue
  stacked : ∀ entry ∈ stack, marked.Has entry.1
  onward : ∀ index point, marked.Has index → ¬marks.Has index → flow[index]? = some point →
    (∀ next ∈ point.onward index, marked.Has next) ∧ (point.action.isCall = true → index ∈ queue)

theorem walked_of_markFrom {subroutine : Subroutine} {marks : Marks} {calls : List Nat}
    {stack : List (Nat × Option Nat)} {marked : Marks} {queue : List Nat}
    (walked : markFrom flow subroutine marks calls stack = .ok (marked, queue)) :
    Walked flow marks calls stack marked queue := by
  fun_induction markFrom flow subroutine marks calls stack with
  | case1 marks calls =>
    cases walked
    exact ⟨fun _ has => has, fun _ member => member, by simp, fun _ _ has fresh => absurd has fresh⟩
  | case2 marks calls index previous rest own found ih =>
    have later := ih walked
    refine ⟨later.kept, later.queued, List.forall_mem_cons.mpr ⟨?_, later.stacked⟩, later.onward⟩
    exact later.kept index ⟨own, found⟩
  | case3 marks calls index previous rest point blank pointed ih =>
    have later := ih walked
    have here : marked.Has index := later.kept index ((Marks.has_set blank).mpr (.inl rfl))
    refine ⟨fun other has => later.kept other ((Marks.has_set blank).mpr (.inr has)), ?_, ?_, ?_⟩
    · intro call member
      apply later.queued
      split
      · exact List.mem_append_left _ member
      · exact member
    · refine List.forall_mem_cons.mpr ⟨here, fun entry member => ?_⟩
      exact later.stacked entry (List.mem_append_right _ member)
    · intro other point' has fresh pointed'
      by_cases own : other = index
      · subst own
        cases pointed.symm.trans pointed'
        refine ⟨fun next member => ?_, fun calls => later.queued _ (by simp [calls])⟩
        have entry : (next, some other) ∈
            (point.onward other).reverse.map (fun next => (next, some other)) :=
          List.mem_map_of_mem (List.mem_reverse.mpr member)
        exact later.stacked (next, some other) (List.mem_append_left _ entry)
      · refine later.onward other point' has (fun has' => ?_) pointed'
        exact ((Marks.has_set blank).mp has').elim own fresh
  | case4 => cases walked

theorem length_of_markFrom {subroutine : Subroutine} {marks marked : Marks} {calls queue : List Nat}
    {stack : List (Nat × Option Nat)}
    (walked : markFrom flow subroutine marks calls stack = .ok (marked, queue)) :
    marked.length = marks.length :=
  (markFrom_spec (fun _ => True) (by simp) (by simp) walked).1

theorem length_of_markCalls {marks marked : Marks} {entered queue : List Nat}
    (walked : markCalls flow maxLocals marks entered queue = .ok marked) :
    marked.length = marks.length := by
  have anyways : marked.length = marks.length ∧ ∀ (index : Nat) (record : Subroutine),
      marked[index]? = some (some record) → record.start = none ∨ True :=
    markCalls_spec (fun _ _ _ => trivial) (fun _ _ _ _ _ _ _ => trivial)
      (fun _ _ _ => .inr trivial) walked
  exact anyways.1

/-- What marking the calls in a queue has done when it ends. -/
structure Entered (flow : Flow) (marks : Marks) (queue : List Nat) (marked : Marks) : Prop where
  kept : ∀ index, marks.Has index → marked.Has index
  queued : ∀ call ∈ queue, ∀ target, flow.called? call = some target → marked.Has target
  onward : ∀ index point, marked.Has index → ¬marks.Has index → flow[index]? = some point →
    ∀ next ∈ point.onward index, marked.Has next
  called : ∀ index target, marked.Has index → ¬marks.Has index →
    flow.called? index = some target → marked.Has target

theorem entered_of_markCalls {marks marked : Marks} {entered queue : List Nat}
    (known : ∀ target ∈ entered, marks.Has target)
    (walked : markCalls flow maxLocals marks entered queue = .ok marked) :
    Entered flow marks queue marked := by
  fun_induction markCalls flow maxLocals marks entered queue with
  | case1 marks =>
    cases walked
    exact ⟨fun _ has => has, by simp, fun _ _ has fresh => absurd has fresh,
      fun _ _ has fresh => absurd has fresh⟩
  | case2 marks entered call rest uncalled ih =>
    have later := ih known walked
    refine ⟨later.kept, List.forall_mem_cons.mpr ⟨?_, later.queued⟩, later.onward, later.called⟩
    intro target called
    cases uncalled.symm.trans called
  | case3 marks entered call rest target called again ih =>
    have later := ih known walked
    refine ⟨later.kept, List.forall_mem_cons.mpr ⟨?_, later.queued⟩, later.onward, later.called⟩
    intro target' called'
    cases called.symm.trans called'
    exact later.kept target (known target (by simpa using again))
  | case4 => cases walked
  | case5 marks entered call rest target called fresh marks' queue walked' ih =>
    have own := walked_of_markFrom walked'
    have reached : marks'.Has target := own.stacked (target, none) List.mem_cons_self
    have later := ih (List.forall_mem_cons.mpr
      ⟨reached, fun other member => own.kept other (known other member)⟩) walked
    refine ⟨fun index has => later.kept index (own.kept index has), ?_, ?_, ?_⟩
    · refine List.forall_mem_cons.mpr ⟨?_, fun other member => later.queued other (own.queued _ member)⟩
      intro target' called'
      cases called.symm.trans called'
      exact later.kept target reached
    · intro index point has unmarked pointed next member
      by_cases earlier : marks'.Has index
      · exact later.kept next ((own.onward index point earlier unmarked pointed).1 next member)
      · exact later.onward index point has earlier pointed next member
    · intro index target' has unmarked called'
      by_cases earlier : marks'.Has index
      · obtain ⟨labelled, handlers, pointed⟩ := Flow.call_of_called? called'
        exact later.queued index ((own.onward index _ earlier unmarked pointed).2 rfl) target' called'
      · exact later.called index target' has earlier called'

/-- Marking that succeeds has marked a closed set of points with the first one in it. -/
theorem closed_of_subroutines {marks : Marks} (marked : flow.subroutines maxLocals = .ok marks) :
    ∃ reached, flow.Closed reached ∧ reached 0 := by
  simp only [Flow.subroutines, bind_eq_ok, Prod.exists] at marked
  obtain ⟨body, calls, walked, all, walked', -⟩ := marked
  have first := walked_of_markFrom walked
  have later := entered_of_markCalls (by simp) walked'
  have blank (index : Nat) : ¬Marks.Has (List.replicate flow.length none) index := by
    rintro ⟨record, found⟩
    rw [List.getElem?_replicate] at found
    split at found <;> simp at found
  have length : all.length = flow.length := by
    rw [length_of_markCalls walked', length_of_markFrom walked, List.length_replicate]
  refine ⟨all.Has, ⟨?_, ?_, ?_⟩, later.kept 0 (first.stacked (0, none) List.mem_cons_self)⟩
  · rintro index ⟨record, found⟩
    obtain ⟨inside, -⟩ := List.getElem?_eq_some_iff.mp found
    exact length ▸ inside
  · intro index point next has pointed member
    by_cases own : body.Has index
    · exact later.kept next ((first.onward index point own (blank index) pointed).1 next member)
    · exact later.onward index point has own pointed next member
  · intro index target has called
    by_cases own : body.Has index
    · obtain ⟨labelled, handlers, pointed⟩ := Flow.call_of_called? called
      exact later.queued index ((first.onward index _ own (blank index) pointed).2 rfl) target called
    · exact later.called index target has own called

/-- Walks and calls lead to points of the code, or past the last one. -/
structure Flow.Bounded (flow : Flow) : Prop where
  onward : ∀ index point next, flow[index]? = some point → next ∈ point.onward index →
    next < flow.length ∨ next = index + 1
  called : ∀ index target, flow.called? index = some target → target < flow.length

/-- A walk fails only past the last point, and it does so there. -/
theorem markFrom_failsOnly (bounded : flow.Bounded) {subroutine : Subroutine} {marks : Marks}
    {calls : List Nat} {stack : List (Nat × Option Nat)} (length : marks.length = flow.length)
    (stacked : ∀ entry ∈ stack, entry.1 < flow.length ∨ entry.2.getD entry.1 = flow.length - 1) :
    FailsOnly (· = Fault.fallOffEnd.at (flow.length - 1))
      (markFrom flow subroutine marks calls stack) := by
  fun_induction markFrom flow subroutine marks calls stack with
  | case1 => exact .ok _
  | case2 marks calls index previous rest _ _ ih =>
    exact ih length fun entry member => stacked entry (List.mem_cons_of_mem _ member)
  | case3 marks calls index previous rest point blank pointed ih =>
    refine ih (by simpa using length) fun entry member => ?_
    rcases List.mem_append.mp member with next | later
    · obtain ⟨target, onward, rfl⟩ := List.mem_map.mp next
      rcases bounded.onward index point target pointed (List.mem_reverse.mp onward) with inside | past
      · exact .inl inside
      · obtain ⟨here, -⟩ := List.getElem?_eq_some_iff.mp pointed
        by_cases inside : target < flow.length
        · exact .inl inside
        · exact .inr (show index = flow.length - 1 by omega)
    · exact stacked entry (List.mem_cons_of_mem _ later)
  | case4 marks calls index previous rest blank absent =>
    have outside : ¬index < flow.length := by
      intro inside
      obtain ⟨mark, marked⟩ : ∃ mark, marks[index]? = some mark :=
        ⟨_, List.getElem?_eq_getElem (length ▸ inside)⟩
      cases mark with
      | none => exact absent _ marked (List.getElem?_eq_getElem inside)
      | some own => exact blank own marked
    have last := (stacked _ List.mem_cons_self).resolve_left outside
    exact .error (congrArg Fault.fallOffEnd.at last)

theorem markCalls_failsOnly (bounded : flow.Bounded) {marks : Marks} {entered queue : List Nat}
    (length : marks.length = flow.length) :
    FailsOnly (· = Fault.fallOffEnd.at (flow.length - 1))
      (markCalls flow maxLocals marks entered queue) := by
  have single {call target : Nat} (called : flow.called? call = some target) :
      ∀ entry ∈ [(target, (none : Option Nat))],
        entry.1 < flow.length ∨ entry.2.getD entry.1 = flow.length - 1 :=
    List.forall_mem_singleton.mpr (.inl (bounded.called _ _ called))
  fun_induction markCalls flow maxLocals marks entered queue with
  | case1 => exact .ok _
  | case2 marks entered call rest _ ih => exact ih length
  | case3 marks entered call rest target _ _ ih => exact ih length
  | case4 marks entered call rest target called _ fault failed =>
    exact .error ((markFrom_failsOnly bounded length (single called)).allows fault failed)
  | case5 marks entered call rest target called _ marks' queue walked ih =>
    exact ih ((length_of_markFrom walked).trans length)

theorem subroutines_failsOnly (bounded : flow.Bounded) :
    FailsOnly (· = Fault.fallOffEnd.at (flow.length - 1)) (flow.subroutines maxLocals) := by
  refine (markFrom_failsOnly bounded List.length_replicate ?_).bind fun ⟨body, calls⟩ walked =>
    (markCalls_failsOnly bounded ?_).andThen fun _ => .ok _
  · refine List.forall_mem_singleton.mpr ?_
    by_cases inside : 0 < flow.length
    · exact .inl inside
    · exact .inr (show 0 = flow.length - 1 by omega)
  · exact (length_of_markFrom walked).trans List.length_replicate

variable {method : Method} {table : LabelTable}

theorem Method.Stays.inside {index target : Nat} (stays : method.Stays index target) :
    target < method.nodes.length ∨ target = index + 1 := by
  have standing {label : Label} {position : Nat} (placed : method.Places label position) :
      position < method.nodes.length := (List.getElem?_eq_some_iff.mp placed).1
  cases stays with
  | onward _ leads =>
    cases leads with
    | next => exact .inr rfl
    | jump _ _ placed => exact .inl (standing placed)
  | caught _ _ placed => exact .inl (standing placed)
  | past => exact .inr rfl

theorem Method.Resolved.bounded (resolved : method.Resolved table flow) : flow.Bounded where
  onward _ _ _ pointed onward :=
    resolved.length ▸ (resolved.stays_of_onward pointed onward).inside
  called _ _ called := by
    obtain ⟨_, -, placed⟩ := resolved.calls_of_called? called
    exact resolved.length ▸ (List.getElem?_eq_some_iff.mp placed).1

end MethodFlow
