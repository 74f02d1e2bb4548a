import MethodFlow.Hierarchy.Library
import MethodFlow.Hierarchy.TypeHierarchy
import MethodFlow.Proofs.Hierarchy.Search

namespace MethodFlow

namespace ClassGraph

open Relation (ReflTransGen TransGen)

/-- Every type mentioned is stored, the supertypes are of the kinds the language allows, and none is
above itself. -/
structure Ordered (graph : ClassGraph) : Prop where
  closed : graph.Closed
  root : ∀ {info}, graph.find? .object = some info → info.superclass = none
  classes : ∀ {name info}, graph.find? name = some info → name ≠ .object →
    info.isInterface = false → ∃ super above, info.superclass = some super ∧
      graph.find? super = some above ∧ above.isInterface = false
  interfaces : ∀ {name info}, graph.find? name = some info → info.isInterface = true →
    info.superclass = some .object
  superinterfaces : ∀ {name info}, graph.find? name = some info → ∀ super ∈ info.interfaces,
    ∃ above, graph.find? super = some above ∧ above.isInterface = true
  acyclic : ∀ name, ¬TransGen (graph.Above true) name name

/-- An ordered graph where the interfaces of arrays are interfaces that extend none. -/
structure WellFormed (graph : ClassGraph) : Prop extends Ordered graph where
  arrays : ∀ {name info}, name = .cloneable ∨ name = .serializable →
    graph.find? name = some info → info.isInterface = true ∧ info.interfaces = []

/-- The graph answers that the first type is the second one or below it. -/
def Subclass (graph : ClassGraph) (sub super : BinaryName) : Prop :=
  graph.isSubclass sub super = .ok true

variable {graph : ClassGraph} {sub super name : BinaryName}

theorem isInterface_eq_ok {answer : Bool} :
    graph.isInterface name = .ok answer ↔
      ∃ info, graph.find? name = some info ∧ info.isInterface = answer := by
  unfold isInterface resolve
  split <;> simp_all [Except.map]

theorem superclass_eq_ok {superclass : Option BinaryName} :
    graph.superclass name = .ok superclass ↔
      ∃ info, graph.find? name = some info ∧ info.superclass = superclass := by
  unfold ClassGraph.superclass resolve
  split <;> simp_all [Except.map]

private theorem searching_start {through : Bool} {goal : BinaryName} {info : ClassInfo}
    (found : graph.find? name = some info) : Searching graph through goal [name] [info] := by
  have named := name_of_find? found
  refine ⟨?_, ?_⟩
  · intro entry member
    cases List.mem_singleton.mp member
    rw [named]
    exact found
  · intro other member
    cases List.mem_singleton.mp member
    exact .inl ⟨info, List.mem_cons_self, named⟩

theorem isSubclass_of_ne {info : ClassInfo} {above : ClassInfo} (different : sub ≠ super)
    (found : graph.find? sub = some info) (found' : graph.find? super = some above) :
    graph.isSubclass sub super = graph.search super above.isInterface [sub] [info] := by
  have interface := isInterface_eq_ok.mpr ⟨above, found', rfl⟩
  simp [isSubclass, different, resolve_eq_ok.mpr found, interface, bind, Except.bind]

theorem stored_of_isSubclass {answer : Bool} (different : sub ≠ super)
    (answered : graph.isSubclass sub super = .ok answer) :
    ∃ info above, graph.find? sub = some info ∧ graph.find? super = some above := by
  cases found : graph.resolve sub with
  | error unresolved => simp [isSubclass, different, found, bind, Except.bind] at answered
  | ok info =>
    cases interface : graph.isInterface super with
    | error unresolved =>
      simp [isSubclass, different, found, interface, bind, Except.bind] at answered
    | ok through =>
      obtain ⟨above, found', -⟩ := isInterface_eq_ok.mp interface
      exact ⟨info, above, resolve_eq_ok.mp found, found'⟩

theorem Closed.isSubclass_ok (closed : graph.Closed) {info above : ClassInfo}
    (found : graph.find? sub = some info) (found' : graph.find? super = some above) :
    ∃ answer, graph.isSubclass sub super = .ok answer := by
  by_cases same : sub = super
  · exact ⟨true, by simp [isSubclass, same, pure, Except.pure]⟩
  · rw [isSubclass_of_ne same found found']
    exact search_ok closed (searching_start found)

theorem Closed.isSubclass_eq_false (closed : graph.Closed) {info above : ClassInfo}
    (found : graph.find? sub = some info) (found' : graph.find? super = some above)
    (loose : ¬graph.Subclass sub super) : graph.isSubclass sub super = .ok false := by
  obtain ⟨answer, answered⟩ := closed.isSubclass_ok found found'
  cases answer with
  | true => exact absurd answered loose
  | false => exact answered

theorem Closed.subclass_iff (closed : graph.Closed) :
    graph.Subclass sub super ↔ sub = super ∨ ∃ info above, graph.find? sub = some info ∧
      graph.find? super = some above ∧ ReflTransGen (graph.Above above.isInterface) sub super := by
  by_cases same : sub = super
  · simp [Subclass, isSubclass, same, pure, Except.pure]
  · constructor
    · intro subclass
      obtain ⟨info, above, found, found'⟩ := stored_of_isSubclass same subclass
      rw [Subclass, isSubclass_of_ne same found found'] at subclass
      obtain ⟨entry, member, path⟩ := path_of_search (searching_start found) subclass
      cases List.mem_singleton.mp member
      rw [name_of_find? found] at path
      exact .inr ⟨_, above, found, found', path⟩
    · rintro (same' | ⟨info, above, found, found', path⟩)
      · exact absurd same' same
      · obtain ⟨answer, answered⟩ := closed.isSubclass_ok found found'
        cases answer with
        | true => exact answered
        | false =>
          rw [isSubclass_of_ne same found found'] at answered
          exact absurd path
            (no_path_of_search (searching_start found) answered sub List.mem_cons_self)

namespace Ordered

theorem root_not_interface (ordered : graph.Ordered) {info : ClassInfo}
    (found : graph.find? .object = some info) : info.isInterface = false := by
  rw [Bool.eq_false_iff]
  intro interface
  have superclass := ordered.interfaces found interface
  rw [ordered.root found] at superclass
  cases superclass

theorem above_interface (ordered : graph.Ordered) {info : ClassInfo}
    (found : graph.find? name = some info) (interface : info.isInterface = true) :
    graph.Above false name .object :=
  ⟨info, found, by simp [nextTypes, ordered.interfaces found interface]⟩

theorem not_above_root (ordered : graph.Ordered) : ¬graph.Above true .object super := by
  rintro ⟨info, found, declared⟩
  simp only [nextTypes, ordered.root found, Option.toList_none, List.nil_append,
    ↓reduceIte] at declared
  obtain ⟨above, found', interface⟩ := ordered.superinterfaces found super declared
  have up : graph.Above true .object super := ⟨info, found, by simp [nextTypes, declared]⟩
  exact ordered.acyclic .object
    (.tail (.single up) (ordered.above_interface found' interface).widen)

theorem eq_root_of_path {through : Bool} (ordered : graph.Ordered)
    (path : ReflTransGen (graph.Above through) .object super) : super = .object := by
  rcases path.cases_head with same | ⟨_, above, -⟩
  · exact same.symm
  · exact absurd above.widen ordered.not_above_root

/-- A walk up the superclasses of a stored type ends at the root or at an interface: it meets no name
again, so it takes fewer steps than there are names it has not met. -/
theorem superclass_induction (ordered : graph.Ordered)
    {motive : Nat → List BinaryName → BinaryName → Prop}
    (root : ∀ {steps seen info}, graph.find? .object = some info → motive (steps + 1) seen .object)
    (interface : ∀ {steps seen name info}, seen.contains name = false →
      graph.find? name = some info → info.isInterface = true → motive (steps + 1) seen name)
    (step : ∀ {steps seen name info super above}, seen.contains name = false →
      graph.find? name = some info → info.isInterface = false → info.superclass = some super →
      graph.find? super = some above → above.isInterface = false →
      motive steps (name :: seen) super → motive (steps + 1) seen name)
    {steps : Nat} {seen : List BinaryName} {info : ClassInfo}
    (found : graph.find? name = some info) (enough : graph.unseen seen < steps)
    (below : ∀ lower ∈ seen, TransGen (graph.Above true) lower name) : motive steps seen name := by
  induction steps generalizing seen name info with
  | zero => exact absurd enough (Nat.not_lt_zero _)
  | succ steps ih =>
    by_cases rooted : name = .object
    · subst rooted
      exact root found
    have fresh : seen.contains name = false := by
      rw [Bool.eq_false_iff]
      intro met
      exact ordered.acyclic name (below name (by simpa using met))
    cases kind : info.isInterface with
    | true => exact interface fresh found kind
    | false =>
      obtain ⟨super, above, superclass, found', plain⟩ := ordered.classes found rooted kind
      have up : graph.Above true name super := ⟨info, found, by simp [nextTypes, superclass]⟩
      have fewer := graph.unseen_cons_lt (resolve_eq_ok.mpr found) fresh
      refine step fresh found kind superclass found' plain (ih found' (by omega) ?_)
      intro lower member
      rcases List.mem_cons.mp member with rfl | earlier
      · exact .single up
      · exact (below lower earlier).tail up

theorem path_to_root (ordered : graph.Ordered) {info : ClassInfo}
    (found : graph.find? name = some info) : ReflTransGen (graph.Above false) name .object := by
  refine ordered.superclass_induction
    (motive := fun _ _ name => ReflTransGen (graph.Above false) name .object)
    ?_ ?_ ?_ found (Nat.lt_succ_self (graph.unseen [])) (by simp)
  · intro _ _ _ _
    exact .refl
  · intro _ _ name info _ found interface
    exact .single (ordered.above_interface found interface)
  · intro _ _ name info super _ _ found _ superclass _ _ path
    exact .head ⟨info, found, by simp [nextTypes, superclass]⟩ path

theorem root_stored (ordered : graph.Ordered) {info : ClassInfo}
    (found : graph.find? name = some info) : ∃ root, graph.find? .object = some root := by
  rcases (ordered.path_to_root found).cases_tail with same | ⟨below, -, above⟩
  · exact ⟨info, same ▸ found⟩
  · exact ordered.closed _ _ above.widen

theorem subclass_root (ordered : graph.Ordered) {info : ClassInfo}
    (found : graph.find? name = some info) : graph.Subclass name .object := by
  obtain ⟨root, found'⟩ := ordered.root_stored found
  refine ordered.closed.subclass_iff.mpr (.inr ⟨info, root, found, found', ?_⟩)
  rw [ordered.root_not_interface found']
  exact ordered.path_to_root found

theorem subclass_of_superclass (ordered : graph.Ordered) {info : ClassInfo}
    (found : graph.find? name = some info) (superclass : info.superclass = some super) :
    graph.Subclass name super ∧ ∃ above, graph.find? super = some above := by
  have up (through : Bool) : graph.Above through name super :=
    ⟨info, found, by simp [nextTypes, superclass]⟩
  obtain ⟨above, found'⟩ := ordered.closed _ _ (up true)
  exact ⟨ordered.closed.subclass_iff.mpr (.inr ⟨info, above, found, found', .single (up _)⟩),
    above, found'⟩

theorem subclass_trans (ordered : graph.Ordered) {middle : BinaryName}
    (lower : graph.Subclass sub middle) (upper : graph.Subclass middle super) :
    graph.Subclass sub super := by
  rcases ordered.closed.subclass_iff.mp lower with rfl | ⟨info, mid, found, found', path⟩
  · exact upper
  rcases ordered.closed.subclass_iff.mp upper with rfl | ⟨mid', top, found'', found₃, path'⟩
  · exact lower
  cases found'.symm.trans found''
  refine ordered.closed.subclass_iff.mpr (.inr ⟨info, top, found, found₃, ?_⟩)
  cases through : top.isInterface with
  | true =>
    rw [through] at path'
    have widened : ReflTransGen (graph.Above true) sub middle :=
      path.lift id fun _ _ above => above.widen
    exact widened.trans path'
  | false =>
    rw [through] at path'
    cases through' : mid.isInterface with
    | false =>
      rw [through'] at path
      exact path.trans path'
    | true =>
      -- An interface has only the root among its superclasses.
      have rooted : super = .object := by
        rcases path'.cases_head with same | ⟨above, up, rest⟩
        · subst same
          cases found'.symm.trans found₃
          simp [through] at through'
        · obtain ⟨own, stored, declared⟩ := up
          cases found'.symm.trans stored
          simp only [nextTypes, ordered.interfaces found' through', Option.toList_some,
            Bool.false_eq_true, ↓reduceIte, List.append_nil, List.mem_singleton] at declared
          exact ordered.eq_root_of_path (declared ▸ rest)
      exact rooted ▸ ordered.path_to_root found

theorem subclass_antisymm (ordered : graph.Ordered) (below : graph.Subclass sub super)
    (above : graph.Subclass super sub) : sub = super := by
  rcases ordered.closed.subclass_iff.mp below with same | ⟨_, _, _, _, path⟩
  · exact same
  rcases ordered.closed.subclass_iff.mp above with same | ⟨_, _, _, _, path'⟩
  · exact same.symm
  rcases path.cases_head with same | ⟨next, up, rest⟩
  · exact same
  have wide {through : Bool} {lower upper : BinaryName}
      (path : ReflTransGen (graph.Above through) lower upper) :
      ReflTransGen (graph.Above true) lower upper := path.lift id fun _ _ above => above.widen
  exact absurd (TransGen.head' up.widen ((wide rest).trans (wide path'))) (ordered.acyclic sub)

end Ordered

/-- Only the root and they themselves are above the supertypes of arrays. -/
theorem WellFormed.isAboveArrays_of_subclass (wellFormed : graph.WellFormed)
    (above : sub.isAboveArrays = true) (subclass : graph.Subclass sub super) :
    super.isAboveArrays = true := by
  rcases wellFormed.closed.subclass_iff.mp subclass with rfl | ⟨info, top, found, -, path⟩
  · exact above
  · rcases path.cases_head with rfl | ⟨next, up, rest⟩
    · exact above
    · obtain ⟨own, stored, declared⟩ := up.widen
      simp only [BinaryName.isAboveArrays, Bool.or_eq_true, decide_eq_true_eq, or_assoc] at above
      rcases above with rfl | interface
      · exact absurd up.widen wellFormed.toOrdered.not_above_root
      · obtain ⟨isInterface, none⟩ := wellFormed.arrays interface stored
        simp only [nextTypes, wellFormed.interfaces stored isInterface, none, Option.toList_some,
          ↓reduceIte, List.append_nil, List.mem_singleton] at declared
        have rooted := wellFormed.toOrdered.eq_root_of_path (declared ▸ rest)
        simp [rooted, BinaryName.isAboveArrays]

theorem mem_of_find? {info : ClassInfo} (found : graph.find? name = some info) :
    info ∈ graph.classes ∧ info.name = name :=
  ⟨List.mem_of_find?_eq_some found, name_of_find? found⟩

/-- Types of which all supertypes have a lower rank are in no cycle. -/
theorem acyclic_of_rank (rank : BinaryName → Nat)
    (descends : ∀ sub super, graph.Above true sub super → rank super < rank sub)
    (name : BinaryName) : ¬TransGen (graph.Above true) name name := by
  have lower {sub super : BinaryName} (path : TransGen (graph.Above true) sub super) :
      rank super < rank sub := by
    induction path with
    | single above => exact descends _ _ above
    | tail _ above ih => exact Nat.lt_trans (descends _ _ above) ih
  exact fun path => Nat.lt_irrefl _ (lower path)

/-- No name is taken twice among the library types. -/
theorem library_eq : library = ⟨libraryTypes⟩ := by decide +kernel

/-- The rank of a library type: the root, the interfaces, then the classes as they are listed. -/
private def libraryRank (name : BinaryName) : Nat :=
  if name = .object then 0
  else
    match find? ⟨libraryTypes⟩ name with
    | some ⟨_, _, _, true⟩ => 1
    | _ => libraryTypes.findIdx (fun info => info.name = name) + 2

/-- Everything that is asked of a well-formed graph, of one library type after the other. -/
private theorem libraryTypes_checked : ∀ info ∈ libraryTypes,
    (∀ super ∈ nextTypes true info,
      (find? ⟨libraryTypes⟩ super).isSome ∧ libraryRank super < libraryRank info.name) ∧
    (info.name = .object → info.superclass = none) ∧
    (info.name ≠ .object → info.isInterface = false →
      ∃ super ∈ info.superclass, ∃ above ∈ find? ⟨libraryTypes⟩ super, above.isInterface = false) ∧
    (info.isInterface = true → info.superclass = some .object) ∧
    (∀ super ∈ info.interfaces, ∃ above ∈ find? ⟨libraryTypes⟩ super, above.isInterface = true) ∧
    (info.name = .cloneable ∨ info.name = .serializable →
      info.isInterface = true ∧ info.interfaces = []) := by
  decide +kernel

private theorem libraryTypes_wellFormed : WellFormed ⟨libraryTypes⟩ where
  closed := by
    rintro sub super ⟨info, found, declared⟩
    obtain ⟨supertypes, -⟩ := libraryTypes_checked info (mem_of_find? found).1
    exact Option.isSome_iff_exists.mp (supertypes super declared).1
  root := by
    intro info found
    obtain ⟨-, root, -⟩ := libraryTypes_checked info (mem_of_find? found).1
    exact root (mem_of_find? found).2
  classes := by
    intro name info found below isClass
    obtain ⟨member, rfl⟩ := mem_of_find? found
    obtain ⟨-, -, classes, -⟩ := libraryTypes_checked info member
    obtain ⟨super, superclass, upper, stored, kind⟩ := classes below isClass
    exact ⟨super, upper, superclass, stored, kind⟩
  interfaces := by
    intro name info found interface
    obtain ⟨-, -, -, rooted, -⟩ := libraryTypes_checked info (mem_of_find? found).1
    exact rooted interface
  superinterfaces := by
    intro name info found super declared
    obtain ⟨-, -, -, -, kinds, -⟩ := libraryTypes_checked info (mem_of_find? found).1
    obtain ⟨above, stored, interface⟩ := kinds super declared
    exact ⟨above, stored, interface⟩
  arrays := by
    intro name info named found
    obtain ⟨member, rfl⟩ := mem_of_find? found
    obtain ⟨-, -, -, -, -, plain⟩ := libraryTypes_checked info member
    exact plain named
  acyclic := by
    apply acyclic_of_rank libraryRank
    rintro sub super ⟨info, found, declared⟩
    obtain ⟨member, rfl⟩ := mem_of_find? found
    obtain ⟨supertypes, -⟩ := libraryTypes_checked info member
    exact (supertypes super declared).2

theorem library_wellFormed : library.WellFormed := by
  rw [library_eq]
  exact libraryTypes_wellFormed

end ClassGraph

end MethodFlow
