import MethodFlow.Analysis.Flow
import MethodFlow.Analysis.Subroutine

/-! Which points belong to which subroutine. The body of the method is marked first, then each
subroutine in the order its first call was met; a point stays with the first that reaches it. Code
that control can run past the end of is found here. -/

namespace MethodFlow

/-- The record at every point, where there is one. -/
abbrev Marks := List (Option Subroutine)

/-- How many points have no record. -/
def Marks.unmarked (marks : Marks) : Nat := marks.countP Option.isNone

/-- Where a walk that stays within one subroutine goes on, the last first. It steps over calls. -/
def Point.onward (point : Point) (index : Nat) : List Nat :=
  point.action.jumps ++ point.handlers.map Prod.fst ++
    (if point.action.fallsThrough || point.action.isCall then [index + 1] else [])

/-- The start of the subroutine called at an index. -/
def Flow.called? (flow : Flow) (index : Nat) : Option Nat :=
  match flow[index]? with
  | some ⟨.branch _ (.jsr target), _⟩ => some target
  | _ => none

private theorem countP_set_lt (marks : Marks) (index : Nat) (subroutine : Subroutine)
    (blank : marks[index]? = some none) :
    (marks.set index (some subroutine)).countP Option.isNone < marks.countP Option.isNone := by
  induction marks generalizing index with
  | nil => simp at blank
  | cons mark rest step =>
    cases index with
    | zero =>
      simp only [List.getElem?_cons_zero, Option.some.injEq] at blank
      subst blank
      simp
    | succ index =>
      simp only [List.getElem?_cons_succ] at blank
      have fewer := step index blank
      simp only [List.set_cons_succ, List.countP_cons]
      omega

theorem Marks.unmarked_set_lt {marks : Marks} {index : Nat} {subroutine : Subroutine}
    (blank : marks[index]? = some none) :
    Marks.unmarked (marks.set index (some subroutine)) < marks.unmarked :=
  countP_set_lt marks index subroutine blank

/-- Marks the points that a stack leads to. Each entry of the stack is an index and the index it was
reached from; calls that are met join the queue. -/
def markFrom (flow : Flow) (subroutine : Subroutine) (marks : Marks) (calls : List Nat)
    (stack : List (Nat × Option Nat)) : Except LocatedFault (Marks × List Nat) :=
  match stack with
  | [] => .ok (marks, calls)
  | (index, previous) :: rest =>
    match _blank : marks[index]?, flow[index]? with
    | some (some _), _ => markFrom flow subroutine marks calls rest
    | some none, some point =>
      markFrom flow subroutine (marks.set index (some subroutine))
        (if point.action.isCall then calls ++ [index] else calls)
        ((point.onward index).reverse.map (fun next => (next, some index)) ++ rest)
    | _, _ => .error (Fault.fallOffEnd.at (previous.getD index))
termination_by (marks.unmarked, stack.length)
decreasing_by
  · exact Prod.Lex.right _ (by simp)
  · exact Prod.Lex.left _ _ (Marks.unmarked_set_lt _blank)

/-- Every call that joins the queue leaves a point less to mark. -/
theorem markFrom_bound (flow : Flow) (subroutine : Subroutine) (marks : Marks) (calls : List Nat)
    (stack : List (Nat × Option Nat)) {marked : Marks} {queue : List Nat}
    (walked : markFrom flow subroutine marks calls stack = .ok (marked, queue)) :
    marked.unmarked + queue.length ≤ marks.unmarked + calls.length := by
  fun_induction markFrom flow subroutine marks calls stack with
  | case1 marks calls =>
    simp only [Except.ok.injEq, Prod.mk.injEq] at walked
    obtain ⟨rfl, rfl⟩ := walked
    exact Nat.le_refl _
  | case2 marks calls index previous rest _ _ step => exact step walked
  | case3 marks calls index previous rest point blank _ step =>
    have bound := step walked
    have fewer : Marks.unmarked (marks.set index (some subroutine)) < marks.unmarked :=
      Marks.unmarked_set_lt blank
    split at bound
    · simp only [List.length_append, List.length_cons, List.length_nil] at bound
      omega
    · omega
  | case4 => cases walked

/-- Marks the subroutines of the calls in a queue, those of each start once. -/
def markCalls (flow : Flow) (maxLocals : Nat) (marks : Marks) (entered : List Nat)
    (queue : List Nat) : Except LocatedFault Marks :=
  match queue with
  | [] => .ok marks
  | call :: rest =>
    match flow.called? call with
    | none => markCalls flow maxLocals marks entered rest
    | some target =>
      if entered.contains target then markCalls flow maxLocals marks entered rest
      else
        match _walked : markFrom flow (.fresh (some target) maxLocals (some call)) marks rest
            [(target, none)] with
        | .error fault => .error fault
        | .ok (marks, queue) => markCalls flow maxLocals marks (target :: entered) queue
termination_by marks.unmarked + queue.length
decreasing_by
  · simp
  · simp
  · have bound := markFrom_bound _ _ _ _ _ _walked
    simp only [List.length_cons]
    omega

/-- The record of a point in a subroutine; points of the body of the method have none. -/
def withoutBody (mark : Option Subroutine) : Option Subroutine :=
  mark.filter fun subroutine => subroutine.start.isSome

/-- The record at every point inside a subroutine, before any frame is known. -/
def Flow.subroutines (flow : Flow) (maxLocals : Nat) : Except LocatedFault Marks := do
  let (marks, calls) ←
    markFrom flow (.fresh none maxLocals none) (List.replicate flow.length none) [] [(0, none)]
  let marks ← markCalls flow maxLocals marks [] calls
  return marks.map withoutBody

end MethodFlow
