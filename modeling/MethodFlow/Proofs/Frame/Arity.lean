import MethodFlow.Frame.Execute
import MethodFlow.Proofs.Failing

/-! What frames ask of a domain: each operation for its result at one number of operands. A domain that
answers these questions is never asked about an operation that it does not know in that place. -/

namespace MethodFlow

/-- How many operands a domain is shown of an operation. -/
inductive Arity where
  /-- Values are moved, by copies at most. -/
  | moving
  | producing
  | unary
  | binary
  | ternary
  | nary
deriving DecidableEq

def Instruction.arity : Instruction → Arity
  | .nop | .load _ _ | .store _ _ | .shuffle _ => .moving
  | .pushNull | .shortConstant _ | .pushByte _ | .pushShort _ | .loadConstant _
  | .loadWideConstant _ | .getStatic _ | .newObject _ => .producing
  | .negate _ | .increment _ _ | .convert _ | .putStatic _ | .getField _ | .newPrimitiveArray _
  | .newArray _ | .arrayLength | .checkCast _ | .instanceOf _ | .monitorEnter | .monitorExit => .unary
  | .arrayLoad _ | .arithmetic _ _ | .shift _ _ | .bitwise _ _ | .compare _ | .putField _ => .binary
  | .arrayStore _ => .ternary
  | .invoke _ _ | .invokeDynamic _ | .newMultiArray _ _ => .nary

def Branch.arity {L : Type} : Branch L → Arity
  | .goto _ | .voidReturn | .ret _ => .moving
  | .jsr _ => .producing
  | .ifZero _ _ | .ifNull _ _ | .tableSwitch _ _ _ | .lookupSwitch _ _ | .valueReturn _ | .throw => .unary
  | .ifInts _ _ | .ifReferences _ _ => .binary

/-- Does an instruction need a value for a result? -/
def Instruction.yields : Instruction → Bool
  | .nop | .store _ _ | .arrayStore _ | .putStatic _ | .putField _ | .monitorEnter | .monitorExit => false
  | .invoke _ method => method.descriptor.returnType.isSome
  | .invokeDynamic call => call.descriptor.returnType.isSome
  | _ => true

/-- Does a branch need a value for a result? -/
def Branch.yields {L : Type} : Branch L → Bool
  | .jsr _ => true
  | _ => false

namespace Operation

def arity : Operation → Arity
  | .instruction i => i.arity
  | .branch b => b.arity

def yields : Operation → Bool
  | .instruction i => i.yields
  | .branch b => b.yields

end Operation

/-- A result that is there if it is needed, or an allowed fault. -/
structure Answered {V : Type} (allowed : Fault → Prop) (yields : Bool)
    (outcome : Except Fault (Option V)) : Prop extends FailsOnly allowed outcome where
  present : yields = true → outcome ≠ .ok none

namespace Answered

variable {V α : Type} {allowed : Fault → Prop} {yields : Bool} {outcome : Except Fault (Option V)}

theorem some (value : V) : Answered allowed yields (.ok (some value)) := ⟨.ok _, nofun⟩

theorem none : Answered allowed false (.ok (none : Option V)) := ⟨.ok _, nofun⟩

theorem found {search : Except Fault V} (fails : FailsOnly allowed search) :
    Answered allowed yields (search.map Option.some) := by
  refine ⟨fails.map _, fun _ absent => ?_⟩
  cases search <;> cases absent

theorem returned {T : Type} (declared : Option T) (typed : T → V) :
    Answered allowed declared.isSome (.ok (declared.map typed)) := by
  cases declared with
  | none => exact none
  | some type => exact some (typed type)

theorem after {check : Except Fault α} (first : FailsOnly allowed check)
    (answered : Answered allowed yields outcome) :
    Answered allowed yields (check >>= fun _ => outcome) := by
  cases check with
  | error fault => exact ⟨.error (first.allows fault rfl), nofun⟩
  | ok => exact answered

theorem mono {allowed' : Fault → Prop} (answered : Answered allowed yields outcome)
    (weaker : ∀ fault, allowed fault → allowed' fault) : Answered allowed' yields outcome :=
  ⟨answered.toFailsOnly.mono weaker, answered.present⟩

end Answered

/-- The domain answers what a frame asks of the operation at a site, and fails only as allowed. -/
structure Domain.Answers {V : Type} (domain : Domain V) (site : Site) (allowed : Fault → Prop) :
    Prop where
  produce : site.operation.arity = .producing → FailsOnly allowed (domain.produce site)
  copy : ∀ value, FailsOnly allowed (domain.copy site value)
  unary : site.operation.arity = .unary →
    ∀ value, Answered allowed site.operation.yields (domain.unary site value)
  binary : site.operation.arity = .binary →
    ∀ first second, Answered allowed site.operation.yields (domain.binary site first second)
  ternary : site.operation.arity = .ternary →
    ∀ first second third, FailsOnly allowed (domain.ternary site first second third)
  nary : site.operation.arity = .nary →
    ∀ values, Answered allowed site.operation.yields (domain.nary site values)
  checkReturn : ∀ value expected, FailsOnly allowed (domain.checkReturn site value expected)

theorem Domain.Answers.mono {V : Type} {domain : Domain V} {site : Site}
    {allowed allowed' : Fault → Prop} (answers : domain.Answers site allowed)
    (weaker : ∀ fault, allowed fault → allowed' fault) : domain.Answers site allowed' where
  produce asked := (answers.produce asked).mono weaker
  copy value := (answers.copy value).mono weaker
  unary asked value := (answers.unary asked value).mono weaker
  binary asked first second := (answers.binary asked first second).mono weaker
  ternary asked first second third := (answers.ternary asked first second third).mono weaker
  nary asked values := (answers.nary asked values).mono weaker
  checkReturn value expected := (answers.checkReturn value expected).mono weaker

end MethodFlow
