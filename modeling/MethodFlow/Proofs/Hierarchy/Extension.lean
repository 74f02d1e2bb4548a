import MethodFlow.Hierarchy.Library
import MethodFlow.Hierarchy.TypeHierarchy
import MethodFlow.Proofs.Hierarchy.Search
import MethodFlow.Proofs.Mirrors

namespace MethodFlow

namespace ClassGraph

variable {graph bigger : ClassGraph}

structure Extends (bigger graph : ClassGraph) : Prop where
  stored : ∀ name info, graph.find? name = some info → bigger.find? name = some info
  count : graph.classes.length ≤ bigger.classes.length

theorem Extends.refl (graph : ClassGraph) : graph.Extends graph := ⟨fun _ _ found => found, Nat.le_refl _⟩

theorem Extends.trans {biggest : ClassGraph} (above : biggest.Extends bigger)
    (below : bigger.Extends graph) : biggest.Extends graph :=
  ⟨fun name info found => above.stored name info (below.stored name info found),
    Nat.le_trans below.count above.count⟩

theorem extends_add (graph : ClassGraph) (info : ClassInfo) : (graph.add info).Extends graph := by
  unfold add
  split
  · exact .refl graph
  · refine ⟨fun name stored found => ?_, by simp⟩
    unfold find? at found ⊢
    rw [List.find?_append, found]
    rfl

theorem extends_addAll (graph : ClassGraph) (infos : List ClassInfo) :
    (graph.addAll infos).Extends graph := by
  induction infos generalizing graph with
  | nil => exact .refl graph
  | cons info rest ih => exact (ih (graph.add info)).trans (extends_add graph info)

namespace Extends

variable (extended : bigger.Extends graph)

include extended

theorem resolve (name : BinaryName) :
    Mirrors (fun _ => True) id (graph.resolve name) (bigger.resolve name) :=
  .of_ok fun info found => resolve_eq_ok.mpr (extended.stored name info (resolve_eq_ok.mp found))

theorem isInterface (name : BinaryName) :
    Mirrors (fun _ => True) id (graph.isInterface name) (bigger.isInterface name) :=
  (extended.resolve name).map _

theorem superclass (name : BinaryName) :
    Mirrors (fun _ => True) id (graph.superclass name) (bigger.superclass name) :=
  (extended.resolve name).map _

theorem visit (names seen : List BinaryName) (stack : List ClassInfo) :
    Mirrors (fun _ => True) id (graph.visit seen stack names) (bigger.visit seen stack names) := by
  induction names generalizing seen stack with
  | nil => exact .same _
  | cons name rest ih =>
    unfold ClassGraph.visit
    split
    · exact ih seen stack
    · rcases extended.resolve name with same | ⟨unresolved, failed, -⟩
      · rw [same]
        cases graph.resolve name with
        | error unresolved => exact .error unresolved
        | ok info => exact ih (name :: seen) (info :: stack)
      · rw [failed]
        exact .letGo trivial

/-- A search that ends without a class missing looks at stored classes only. -/
theorem search (goal : BinaryName) (through : Bool) (seen : List BinaryName)
    (stack : List ClassInfo) :
    Mirrors (fun _ => True) id (graph.search goal through seen stack)
      (bigger.search goal through seen stack) := by
  fun_induction graph.search goal through seen stack with
  | case1 seen =>
    rw [ClassGraph.search]
    exact .same _
  | case2 seen info rest same =>
    rw [ClassGraph.search, if_pos same]
    exact .same _
  | case3 => exact .letGo trivial
  | case4 seen info rest different met stack visited ih =>
    have visited' := (extended.visit (nextTypes through info) seen rest).eq_ok visited
    rw [ClassGraph.search, if_neg different]
    split
    · rename_i unresolved failed
      cases visited'.symm.trans failed
    · rename_i met' stack' found
      cases visited'.symm.trans found
      exact ih

theorem isSubclass (sub super : BinaryName) :
    Mirrors (fun _ => True) id (graph.isSubclass sub super) (bigger.isSubclass sub super) := by
  unfold ClassGraph.isSubclass
  split
  · exact .same _
  · exact (extended.resolve sub).andThen fun info => (extended.isInterface super).andThen
      fun through => extended.search super through [sub] [info]

end Extends

end ClassGraph

end MethodFlow
