import Mathlib.Order.Basic
import MethodFlow.Proofs.Hierarchy.WellFormed

/-! What the search for a supertype finds, over any closed graph: a class where superclasses lead to it,
an interface where superclasses and superinterfaces do. Superinterfaces lead to no other classes where
they are interfaces, which have the root as their superclass. -/

namespace MethodFlow

namespace ClassGraph

open Relation (ReflTransGen)

variable {graph : ClassGraph} {sub super : BinaryName} {info above : ClassInfo}

/-- The second type is declared as the superclass of the first one. -/
def Inherits (graph : ClassGraph) (sub super : BinaryName) : Prop :=
  ∃ info, graph.find? sub = some info ∧ info.superclass = some super

/-- The second type is declared as a superinterface of the first one. -/
def Implements (graph : ClassGraph) (sub super : BinaryName) : Prop :=
  ∃ info, graph.find? sub = some info ∧ super ∈ info.interfaces

/-- The second type is declared above the first one. -/
def Declares (graph : ClassGraph) (sub super : BinaryName) : Prop :=
  graph.Inherits sub super ∨ graph.Implements sub super

theorem above_false : graph.Above false = graph.Inherits := by
  funext sub super
  simp [Above, Inherits, nextTypes, Option.mem_toList]

theorem above_true : graph.Above true = graph.Declares := by
  funext sub super
  apply propext
  constructor
  · rintro ⟨info, found, declared⟩
    rcases List.mem_append.mp declared with superclass | interface
    · exact .inl ⟨info, found, Option.mem_toList.mp superclass⟩
    · exact .inr ⟨info, found, interface⟩
  · rintro (⟨info, found, superclass⟩ | ⟨info, found, interface⟩)
    · exact ⟨info, found, List.mem_append.mpr (.inl (Option.mem_toList.mpr superclass))⟩
    · exact ⟨info, found, List.mem_append.mpr (.inr interface)⟩

/-- Superinterfaces are interfaces, the root is the superclass of interfaces, and all superclasses lead
to the root. Types may still be above themselves. -/
structure Rooted (graph : ClassGraph) : Prop where
  interfaces : ∀ {name info}, graph.find? name = some info → info.isInterface = true →
    info.superclass = some .object
  superinterfaces : ∀ {sub super info}, graph.Implements sub super →
    graph.find? super = some info → info.isInterface = true
  chains : ∀ {name info}, graph.find? name = some info → ReflTransGen graph.Inherits name .object

/-- The superclasses of an interface are those from the root on. -/
theorem Rooted.inherits_root (rooted : graph.Rooted) (found : graph.find? sub = some info)
    (interface : info.isInterface = true) (different : sub ≠ super)
    (path : ReflTransGen graph.Inherits sub super) : ReflTransGen graph.Inherits .object super := by
  rcases path.cases_head with same | ⟨next, ⟨own, stored, superclass⟩, rest⟩
  · exact absurd same different
  · cases found.symm.trans stored
    cases superclass.symm.trans (rooted.interfaces found interface)
    exact rest

/-- Towards a class, superinterfaces are no shorter way and no other way than superclasses. -/
theorem Rooted.inherits_of_declares (rooted : graph.Rooted) (closed : graph.Closed)
    (found : graph.find? super = some above) (isClass : above.isInterface = false)
    (path : ReflTransGen graph.Declares sub super) : ReflTransGen graph.Inherits sub super := by
  induction path using ReflTransGen.head_induction_on with
  | refl => exact .refl
  | @head sub next up _ ih =>
    rcases up with superclass | implemented
    · exact .head superclass ih
    · have ⟨own, stored, _⟩ := implemented
      obtain ⟨upper, stored'⟩ := closed sub next (above_true ▸ .inr implemented)
      have interface := rooted.superinterfaces implemented stored'
      have different : next ≠ super := by
        intro same
        subst same
        cases found.symm.trans stored'
        rw [isClass] at interface
        cases interface
      -- the way by the interface leads on from the root, where the class leads by itself
      exact (rooted.chains stored).trans (rooted.inherits_root stored' interface different ih)

theorem Closed.subclass_iff_path (closed : graph.Closed) (found : graph.find? sub = some info)
    (found' : graph.find? super = some above) :
    graph.Subclass sub super ↔ ReflTransGen (graph.Above above.isInterface) sub super := by
  rw [closed.subclass_iff]
  constructor
  · rintro (same | ⟨_, top, -, stored, path⟩)
    · exact same ▸ .refl
    · cases found'.symm.trans stored
      exact path
  · intro path
    exact .inr ⟨info, above, found, found', path⟩

/-- The search ends with an answer, which is yes exactly where superclasses lead to a class, or
superclasses and superinterfaces to an interface. In a rooted graph, superinterfaces may count
towards classes as well. -/
theorem isSubclass_exact (closed : graph.Closed) (found : graph.find? sub = some info)
    (found' : graph.find? super = some above) :
    ∃ answer, graph.isSubclass sub super = .ok answer ∧
      (above.isInterface = false → (answer = true ↔ ReflTransGen graph.Inherits sub super)) ∧
      (above.isInterface = true → (answer = true ↔ ReflTransGen graph.Declares sub super)) ∧
      (graph.Rooted → (answer = true ↔ ReflTransGen graph.Declares sub super)) := by
  obtain ⟨answer, answered⟩ := closed.isSubclass_ok found found'
  have exact : answer = true ↔ ReflTransGen (graph.Above above.isInterface) sub super := by
    rw [← closed.subclass_iff_path found found', Subclass, answered, Except.ok.injEq]
  refine ⟨answer, answered, ?_, ?_, ?_⟩
  · intro isClass
    rw [exact, isClass, above_false]
  · intro interface
    rw [exact, interface, above_true]
  · intro rooted
    cases kind : above.isInterface with
    | true => rw [exact, kind, above_true]
    | false =>
      rw [exact, kind, above_false]
      constructor
      · intro path
        exact path.lift id fun _ _ up => .inl up
      · intro path
        exact rooted.inherits_of_declares closed found' kind path

/-- Interfaces that are above each other, beside a class that is below both by two ways. -/
def ringed : ClassGraph :=
  ⟨[⟨.object, none, [], false⟩, ⟨.comparable, some .object, [.charSequence], true⟩,
    ⟨.charSequence, some .object, [.comparable, .serializable], true⟩,
    ⟨.serializable, some .object, [], true⟩,
    ⟨.number, some .object, [.comparable, .charSequence], false⟩,
    ⟨.boxedInteger, some .number, [.comparable], false⟩]⟩

/-- Everything that is asked of a rooted graph, of one type after the other. -/
private theorem ringed_checked : ∀ info ∈ ringed.classes,
    (∀ super ∈ nextTypes true info, (ringed.find? super).isSome) ∧
    (info.isInterface = true → info.superclass = some .object) ∧
    (∀ super ∈ info.interfaces, ∀ above ∈ ringed.find? super, above.isInterface = true) ∧
    (info.name = .object ∨ info.superclass = some .object ∨ info.superclass = some .number) := by
  decide +kernel

theorem ringed_closed : ringed.Closed := by
  rintro sub super ⟨info, found, declared⟩
  obtain ⟨supertypes, -⟩ := ringed_checked info (mem_of_find? found).1
  exact Option.isSome_iff_exists.mp (supertypes super declared)

theorem ringed_rooted : ringed.Rooted where
  interfaces found interface := by
    obtain ⟨-, rooted, -⟩ := ringed_checked _ (mem_of_find? found).1
    exact rooted interface
  superinterfaces := by
    rintro sub super info ⟨own, found, declared⟩ stored
    obtain ⟨-, -, kinds, -⟩ := ringed_checked own (mem_of_find? found).1
    exact kinds super declared info stored
  chains := by
    intro name info found
    have number : ringed.Inherits .number .object :=
      ⟨⟨.number, some .object, [.comparable, .charSequence], false⟩, rfl, rfl⟩
    obtain ⟨-, -, -, up⟩ := ringed_checked info (mem_of_find? found).1
    rcases up with root | superclass | superclass
    · rw [← name_of_find? found, root]
    · exact .single ⟨info, found, superclass⟩
    · exact .head ⟨info, found, superclass⟩ (.single number)

/-- The search is not caught in the ring, and finds what is beyond it. -/
theorem ringed_exact : ringed.Closed ∧ ringed.Rooted ∧
    ringed.isSubclass .boxedInteger .serializable = .ok true ∧
      ReflTransGen ringed.Declares .boxedInteger .serializable ∧
      ringed.isSubclass .charSequence .number = .ok false ∧
      ¬ReflTransGen ringed.Declares .charSequence .number := by
  have found : ringed.isSubclass .boxedInteger .serializable = .ok true := by decide +kernel
  have missing : ringed.isSubclass .charSequence .number = .ok false := by decide +kernel
  obtain ⟨answer, answered, -, -, exact⟩ := isSubclass_exact ringed_closed
    (show ringed.find? .boxedInteger = some ⟨_, some .number, [.comparable], false⟩ from rfl)
    (show ringed.find? .serializable = some ⟨_, some .object, [], true⟩ from rfl)
  obtain ⟨answer', answered', -, -, exact'⟩ := isSubclass_exact ringed_closed
    (show ringed.find? .charSequence = some ⟨_, _, [.comparable, .serializable], true⟩ from rfl)
    (show ringed.find? .number = some ⟨_, _, [.comparable, .charSequence], false⟩ from rfl)
  cases found.symm.trans answered
  cases missing.symm.trans answered'
  refine ⟨ringed_closed, ringed_rooted, found, (exact ringed_rooted).mp rfl, missing, ?_⟩
  intro path
  cases (exact' ringed_rooted).mpr path

end ClassGraph

end MethodFlow
