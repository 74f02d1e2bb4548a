import MethodFlow.Fault

/-! Classes and interfaces with their declared supertypes, and the search for a supertype. The first
class stored under a name stays. -/

namespace MethodFlow

/-- What a class or interface declares about itself. -/
structure ClassInfo where
  name : BinaryName
  /-- Only the root of the hierarchy has none. -/
  superclass : Option BinaryName
  interfaces : List BinaryName
  isInterface : Bool
deriving DecidableEq

/-- A class that is mentioned but not stored. -/
structure Unresolved where
  name : BinaryName
deriving DecidableEq

def Unresolved.message (unresolved : Unresolved) : String :=
  s!"Cannot resolve class {unresolved.name}"

/-- An analysis fails at a class that is not stored. -/
def Unresolved.fault (unresolved : Unresolved) : Fault := .unresolvedClass unresolved.name

/-- Stored classes, in order of insertion. -/
structure ClassGraph where
  classes : List ClassInfo
deriving DecidableEq

namespace ClassGraph

def empty : ClassGraph := ⟨[]⟩

/-- The class stored under a name. -/
def find? (graph : ClassGraph) (name : BinaryName) : Option ClassInfo :=
  graph.classes.find? (·.name = name)

/-- Stores a class unless its name is taken. -/
def add (graph : ClassGraph) (info : ClassInfo) : ClassGraph :=
  match graph.find? info.name with
  | some _ => graph
  | none => ⟨graph.classes ++ [info]⟩

def addAll (graph : ClassGraph) (infos : List ClassInfo) : ClassGraph := infos.foldl add graph

def resolve (graph : ClassGraph) (name : BinaryName) : Except Unresolved ClassInfo :=
  match graph.find? name with
  | some info => .ok info
  | none => .error ⟨name⟩

def isInterface (graph : ClassGraph) (name : BinaryName) : Except Unresolved Bool :=
  (graph.resolve name).map ClassInfo.isInterface

def superclass (graph : ClassGraph) (name : BinaryName) : Except Unresolved (Option BinaryName) :=
  (graph.resolve name).map ClassInfo.superclass

/-- How many stored classes a search has not met. -/
def unseen (graph : ClassGraph) (seen : List BinaryName) : Nat :=
  graph.classes.countP fun info => !seen.contains info.name

/-- Puts the supertypes that were not met before on the stack of a search. Each must be stored. -/
def visit (graph : ClassGraph) (seen : List BinaryName) (stack : List ClassInfo) :
    List BinaryName → Except Unresolved (List BinaryName × List ClassInfo)
  | [] => .ok (seen, stack)
  | name :: rest =>
    if seen.contains name then visit graph seen stack rest
    else
      match graph.resolve name with
      | .error unresolved => .error unresolved
      | .ok info => visit graph (name :: seen) (info :: stack) rest

private theorem countP_lt {α : Type} {p q : α → Bool} {xs : List α}
    (weaker : ∀ x, q x = true → p x = true) {x : α} (member : x ∈ xs) (kept : p x = true)
    (dropped : q x = false) : xs.countP q < xs.countP p := by
  induction xs with
  | nil => simp at member
  | cons y ys step =>
    have bound : ys.countP q ≤ ys.countP p := List.countP_mono_left fun z _ => weaker z
    rcases List.mem_cons.mp member with rfl | later
    · simp [kept, dropped]; omega
    · have shorter := step later
      cases hq : q y with
      | true => simp [hq, weaker y hq]; omega
      | false =>
        cases hp : p y with
        | true => simp [hq, hp]; omega
        | false => simp [hq, hp]; omega

/-- Meeting a stored class for the first time leaves fewer to meet. -/
theorem unseen_cons_lt (graph : ClassGraph) {seen : List BinaryName} {name : BinaryName}
    {info : ClassInfo} (stored : graph.resolve name = .ok info)
    (fresh : seen.contains name = false) : graph.unseen (name :: seen) < graph.unseen seen := by
  unfold resolve at stored
  split at stored
  · rename_i stored' found
    have member := List.mem_of_find?_eq_some found
    have named : stored'.name = name := by simpa using List.find?_some found
    refine countP_lt ?_ member ?_ ?_
    · intro other kept
      simp only [List.contains_cons, Bool.not_or, Bool.and_eq_true] at kept
      exact kept.2
    · rw [named, fresh]; rfl
    · rw [named]; simp
  · cases stored

theorem visit_bound (graph : ClassGraph) (names : List BinaryName) {seen after : List BinaryName}
    {stack pending : List ClassInfo}
    (visited : graph.visit seen stack names = .ok (after, pending)) :
    graph.unseen after + pending.length ≤ graph.unseen seen + stack.length := by
  induction names generalizing seen stack with
  | nil =>
    simp only [visit, Except.ok.injEq, Prod.mk.injEq] at visited
    obtain ⟨rfl, rfl⟩ := visited
    exact Nat.le_refl _
  | cons name rest step =>
    simp only [visit] at visited
    split at visited
    · exact step visited
    · rename_i fresh
      split at visited
      · cases visited
      · rename_i info stored
        have bound := step visited
        have fewer := graph.unseen_cons_lt stored (by simpa using fresh)
        simp only [List.length_cons] at bound
        omega

/-- The declared supertypes that lead on to a goal: a class is only above through superclasses. -/
def nextTypes (throughInterfaces : Bool) (info : ClassInfo) : List BinaryName :=
  info.superclass.toList ++ (if throughInterfaces then info.interfaces else [])

/-- Searches the supertypes of the classes on a stack, depth first, for a name. -/
def search (graph : ClassGraph) (goal : BinaryName) (throughInterfaces : Bool)
    (seen : List BinaryName) (stack : List ClassInfo) : Except Unresolved Bool :=
  match stack with
  | [] => .ok false
  | info :: rest =>
    if info.name = goal then .ok true
    else
      match _visited : graph.visit seen rest (nextTypes throughInterfaces info) with
      | .error unresolved => .error unresolved
      | .ok (seen, stack) => search graph goal throughInterfaces seen stack
termination_by graph.unseen seen + stack.length
decreasing_by
  have bound := graph.visit_bound _ _visited
  simp only [List.length_cons]
  omega

/-- Is the first class the second, or below it? Superinterfaces count only towards an interface. -/
def isSubclass (graph : ClassGraph) (sub super : BinaryName) : Except Unresolved Bool := do
  if sub = super then
    return true
  let info ← graph.resolve sub
  let throughInterfaces ← graph.isInterface super
  graph.search super throughInterfaces [sub] [info]

end ClassGraph

end MethodFlow
