import Mathlib.Logic.Relation
import MethodFlow.Hierarchy.ClassGraph

namespace MethodFlow

namespace ClassGraph

open Relation (ReflTransGen TransGen)

variable {graph : ClassGraph} {through : Bool} {goal : BinaryName}

/-- The second type is declared directly above the first one, as far as a search looks. -/
def Above (graph : ClassGraph) (through : Bool) (sub super : BinaryName) : Prop :=
  ∃ info, graph.find? sub = some info ∧ super ∈ nextTypes through info

/-- Every type that is declared above a stored one is stored. -/
def Closed (graph : ClassGraph) : Prop :=
  ∀ sub super, graph.Above true sub super → ∃ info, graph.find? super = some info

theorem Above.widen {sub super : BinaryName} (above : graph.Above through sub super) :
    graph.Above true sub super := by
  obtain ⟨info, found, member⟩ := above
  refine ⟨info, found, ?_⟩
  cases through with
  | true => exact member
  | false =>
    have upper : super ∈ info.superclass.toList := by simpa [nextTypes] using member
    exact List.mem_append.mpr (.inl upper)

theorem name_of_find? {name : BinaryName} {info : ClassInfo} (found : graph.find? name = some info) :
    info.name = name := by
  simpa using List.find?_some found

theorem resolve_eq_ok {name : BinaryName} {info : ClassInfo} :
    graph.resolve name = .ok info ↔ graph.find? name = some info := by
  unfold resolve
  split <;> simp_all

/-- What a step of the search does: every name is met, and each new one is that of a new entry. -/
structure Visited (graph : ClassGraph) (names seen seen' : List BinaryName)
    (stack stack' : List ClassInfo) : Prop where
  met : ∀ name ∈ names, name ∈ seen'
  kept : ∀ name ∈ seen, name ∈ seen'
  pending : ∀ info ∈ stack, info ∈ stack'
  fresh : ∀ name ∈ seen', name ∈ seen ∨ ∃ info ∈ stack', info.name = name
  entries : ∀ info ∈ stack', info ∈ stack ∨
    (info.name ∈ names ∧ graph.find? info.name = some info)

theorem visited_of_visit {names seen seen' : List BinaryName} {stack stack' : List ClassInfo}
    (visited : graph.visit seen stack names = .ok (seen', stack')) :
    Visited graph names seen seen' stack stack' := by
  induction names generalizing seen stack with
  | nil =>
    cases visited
    exact ⟨by simp, fun _ old => old, fun _ old => old, fun _ old => .inl old, fun _ old => .inl old⟩
  | cons name rest ih =>
    simp only [visit] at visited
    split at visited
    · rename_i known
      have later := ih visited
      refine ⟨List.forall_mem_cons.mpr ⟨later.kept name (by simpa using known), later.met⟩,
        later.kept, later.pending, later.fresh, fun info member => ?_⟩
      rcases later.entries info member with old | ⟨named, found⟩
      · exact .inl old
      · exact .inr ⟨List.mem_cons_of_mem _ named, found⟩
    · split at visited
      · cases visited
      · rename_i info stored
        have found := resolve_eq_ok.mp stored
        have named := name_of_find? found
        have later := ih visited
        refine ⟨List.forall_mem_cons.mpr ⟨later.kept name List.mem_cons_self, later.met⟩,
          fun other member => later.kept other (List.mem_cons_of_mem _ member),
          fun other member => later.pending other (List.mem_cons_of_mem _ member), ?_, ?_⟩
        · intro other member
          rcases later.fresh other member with old | new
          · rcases List.mem_cons.mp old with rfl | old
            · exact .inr ⟨info, later.pending info List.mem_cons_self, named⟩
            · exact .inl old
          · exact .inr new
        · intro other member
          rcases later.entries other member with old | ⟨named', found'⟩
          · rcases List.mem_cons.mp old with rfl | old
            · exact .inr ⟨by simp [named], by rw [named]; exact found⟩
            · exact .inl old
          · exact .inr ⟨List.mem_cons_of_mem _ named', found'⟩

theorem visit_ok {names : List BinaryName}
    (stored : ∀ name ∈ names, ∃ info, graph.find? name = some info)
    (seen : List BinaryName) (stack : List ClassInfo) :
    ∃ result, graph.visit seen stack names = .ok result := by
  induction names generalizing seen stack with
  | nil => exact ⟨(seen, stack), rfl⟩
  | cons name rest ih =>
    have remaining := ih fun other member => stored other (List.mem_cons_of_mem _ member)
    obtain ⟨info, found⟩ := stored name List.mem_cons_self
    simp only [visit, resolve_eq_ok.mpr found]
    split
    · exact remaining seen stack
    · exact remaining (name :: seen) (info :: stack)

/-- What holds of a search under way: entries are stored under their names, and a name that has left
the stack is not the goal and has everything above it met. -/
structure Searching (graph : ClassGraph) (through : Bool) (goal : BinaryName)
    (seen : List BinaryName) (stack : List ClassInfo) : Prop where
  stored : ∀ info ∈ stack, graph.find? info.name = some info
  expanded : ∀ name ∈ seen, (∃ info ∈ stack, info.name = name) ∨
    (name ≠ goal ∧ ∀ super, graph.Above through name super → super ∈ seen)

theorem Searching.next {info : ClassInfo} {rest stack : List ClassInfo} {seen met : List BinaryName}
    (searching : Searching graph through goal seen (info :: rest)) (other : info.name ≠ goal)
    (visited : graph.visit seen rest (nextTypes through info) = .ok (met, stack)) :
    Searching graph through goal met stack := by
  have step := visited_of_visit visited
  have own := searching.stored info List.mem_cons_self
  refine ⟨fun entry member => ?_, fun name member => ?_⟩
  · rcases step.entries entry member with old | ⟨-, found⟩
    · exact searching.stored entry (List.mem_cons_of_mem _ old)
    · exact found
  · rcases step.fresh name member with old | new
    · rcases searching.expanded name old with ⟨entry, pending, rfl⟩ | ⟨different, above⟩
      · rcases List.mem_cons.mp pending with rfl | later
        · right
          refine ⟨other, fun super upper => ?_⟩
          obtain ⟨stored, found, declared⟩ := upper
          cases own.symm.trans found
          exact step.met super declared
        · exact .inl ⟨entry, step.pending entry later, rfl⟩
      · exact .inr ⟨different, fun super upper => step.kept super (above super upper)⟩
    · exact .inl new

theorem path_of_search {seen : List BinaryName} {stack : List ClassInfo}
    (searching : Searching graph through goal seen stack)
    (found : graph.search goal through seen stack = .ok true) :
    ∃ info ∈ stack, ReflTransGen (graph.Above through) info.name goal := by
  fun_induction graph.search goal through seen stack with
  | case1 => cases found
  | case2 seen info rest same => exact ⟨info, List.mem_cons_self, same ▸ .refl⟩
  | case3 => cases found
  | case4 seen info rest different met stack visited ih =>
    obtain ⟨entry, member, path⟩ := ih (searching.next different visited) found
    rcases (visited_of_visit visited).entries entry member with old | ⟨declared, -⟩
    · exact ⟨entry, List.mem_cons_of_mem _ old, path⟩
    · refine ⟨info, List.mem_cons_self, .head ⟨info, ?_, declared⟩ path⟩
      exact searching.stored info List.mem_cons_self

/-- Names that include everything above them include everything that paths lead to. -/
theorem mem_of_path {names : List BinaryName} {name super : BinaryName}
    (closed : ∀ name ∈ names, ∀ super, graph.Above through name super → super ∈ names)
    (member : name ∈ names) (path : ReflTransGen (graph.Above through) name super) :
    super ∈ names := by
  induction path with
  | refl => exact member
  | tail _ above ih => exact closed _ ih _ above

/-- A search that says no leaves no path to the goal. -/
theorem no_path_of_search {seen : List BinaryName} {stack : List ClassInfo}
    (searching : Searching graph through goal seen stack)
    (missing : graph.search goal through seen stack = .ok false) :
    ∀ name ∈ seen, ¬ReflTransGen (graph.Above through) name goal := by
  fun_induction graph.search goal through seen stack with
  | case1 seen =>
    have closed (name : BinaryName) (member : name ∈ seen) :=
      (searching.expanded name member).resolve_left (by simp)
    intro name member path
    have met := mem_of_path (fun name member => (closed name member).2) member path
    exact (closed goal met).1 rfl
  | case2 => cases missing
  | case3 => cases missing
  | case4 seen info rest different met stack visited ih =>
    intro name member
    exact ih (searching.next different visited) missing name
      ((visited_of_visit visited).kept name member)

theorem search_ok (closed : graph.Closed) {seen : List BinaryName} {stack : List ClassInfo}
    (searching : Searching graph through goal seen stack) :
    ∃ answer, graph.search goal through seen stack = .ok answer := by
  fun_induction graph.search goal through seen stack with
  | case1 => exact ⟨false, rfl⟩
  | case2 => exact ⟨true, rfl⟩
  | case3 seen info rest different unresolved failed =>
    have stored (name : BinaryName) (declared : name ∈ nextTypes through info) :
        ∃ info, graph.find? name = some info :=
      closed info.name name
        (Above.widen ⟨info, searching.stored info List.mem_cons_self, declared⟩)
    obtain ⟨result, visited⟩ := visit_ok stored seen rest
    rw [visited] at failed
    cases failed
  | case4 seen info rest different met stack visited ih => exact ih (searching.next different visited)

end ClassGraph

end MethodFlow
