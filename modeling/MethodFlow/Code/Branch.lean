import MethodFlow.Code.Instruction

/-! Instructions that may pass control elsewhere, over any representation of their targets. -/

namespace MethodFlow

/-- Comparisons of integers. -/
inductive OrdComparison where
  | eq
  | ge
  | gt
  | le
  | lt
  | ne
deriving DecidableEq, Repr

/-- The comparison that holds exactly when this one fails. -/
def OrdComparison.negate : OrdComparison → OrdComparison
  | .eq => .ne
  | .ge => .lt
  | .gt => .le
  | .le => .gt
  | .lt => .ge
  | .ne => .eq

theorem OrdComparison.negate_negate (comparison : OrdComparison) :
    comparison.negate.negate = comparison := by
  cases comparison <;> rfl

/-- Comparisons of references. -/
inductive EqComparison where
  | eq
  | ne
deriving DecidableEq, Repr

/-- The comparison that holds exactly when this one fails. -/
def EqComparison.negate : EqComparison → EqComparison
  | .eq => .ne
  | .ne => .eq

theorem EqComparison.negate_negate (comparison : EqComparison) :
    comparison.negate.negate = comparison := by
  cases comparison <;> rfl

/-- An instruction that may pass control elsewhere. -/
inductive Branch (L : Type) where
  | ifZero (comparison : OrdComparison) (target : L)
  | ifInts (comparison : OrdComparison) (target : L)
  | ifReferences (comparison : EqComparison) (target : L)
  | ifNull (comparison : EqComparison) (target : L)
  | goto (target : L)
  /-- Jumps by the distance of an `int` from `low`, or to the default. -/
  | tableSwitch (default : L) (low : Int) (targets : List L)
  /-- Jumps by the key that an `int` equals, or to the default. Keys ascend. -/
  | lookupSwitch (default : L) (targets : List (Int × L))
  | valueReturn (kind : Kind)
  | voidReturn
  | throw
  /-- Enters a subroutine, pushing the address to return to. -/
  | jsr (target : L)
  /-- Leaves a subroutine for the address in a local. -/
  | ret (slot : Nat)
deriving DecidableEq

namespace Branch

variable {L M : Type} {ε : Type}

/-- Can control go on to the next instruction? After a `jsr` it comes back there only by a `ret`. -/
def fallsThrough : Branch L → Bool
  | ifZero .. | ifInts .. | ifReferences .. | ifNull .. => true
  | _ => false

/-- Does the branch leave the method? -/
def isExit : Branch L → Bool
  | valueReturn _ | voidReturn | throw => true
  | _ => false

/-- The positions that control can jump to, a default first. -/
def jumpTargets : Branch L → List L
  | ifZero _ target | ifInts _ target | ifReferences _ target | ifNull _ target | goto target
  | jsr target => [target]
  | tableSwitch default _ targets => default :: targets
  | lookupSwitch default targets => default :: targets.map Prod.snd
  | valueReturn _ | voidReturn | throw | ret _ => []

/-- Renames every target, a default first; the first failure ends it. -/
def mapLabels (rename : L → Except ε M) : Branch L → Except ε (Branch M)
  | ifZero comparison target => do return ifZero comparison (← rename target)
  | ifInts comparison target => do return ifInts comparison (← rename target)
  | ifReferences comparison target => do return ifReferences comparison (← rename target)
  | ifNull comparison target => do return ifNull comparison (← rename target)
  | goto target => do return goto (← rename target)
  | tableSwitch default low targets => do
    let default ← rename default
    let targets ← targets.mapM rename
    return tableSwitch default low targets
  | lookupSwitch default targets => do
    let default ← rename default
    let targets ← targets.mapM fun (key, target) => do return (key, ← rename target)
    return lookupSwitch default targets
  | valueReturn kind => return valueReturn kind
  | voidReturn => return voidReturn
  | throw => return throw
  | jsr target => do return jsr (← rename target)
  | ret slot => return ret slot

end Branch

end MethodFlow
