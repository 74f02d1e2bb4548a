import MethodFlow.Proofs.Frame.Operations
import MethodFlow.Proofs.Mirrors

namespace MethodFlow

variable {V : Type} [AbstractValue V]

omit [AbstractValue V] in
/-- At a site, the second domain does what the first one does. -/
structure Domain.MirroredAt (lost : Fault → Prop) (domain domain' : Domain V) (site : Site) :
    Prop where
  valueOf : domain'.valueOf = domain.valueOf
  produce : Mirrors lost id (domain.produce site) (domain'.produce site)
  copy : ∀ value, Mirrors lost id (domain.copy site value) (domain'.copy site value)
  unary : ∀ value, Mirrors lost id (domain.unary site value) (domain'.unary site value)
  binary : ∀ first second,
    Mirrors lost id (domain.binary site first second) (domain'.binary site first second)
  ternary : ∀ first second third,
    Mirrors lost id (domain.ternary site first second third)
      (domain'.ternary site first second third)
  nary : ∀ values, Mirrors lost id (domain.nary site values) (domain'.nary site values)
  checkReturn : ∀ value expected,
    Mirrors lost id (domain.checkReturn site value expected)
      (domain'.checkReturn site value expected)

namespace Frame

variable {lost : Fault → Prop} {domain domain' : Domain V} {site : Site} {frame : Frame V}

section Operations

variable (mirrored : domain.MirroredAt lost domain' site)

include mirrored

omit [AbstractValue V] in
theorem copyShuffled_mirrors (items : List (Shuffled V)) :
    Mirrors lost id (copyShuffled domain site items) (copyShuffled domain' site items) := by
  induction items with
  | nil => exact .same _
  | cons item rest ih =>
    cases item with
    | kept value => exact ih.andThen fun _ => .same _
    | copied value => exact (mirrored.copy value).andThen fun _ => ih.andThen fun _ => .same _

theorem store_mirrors (slot : Nat) (value : V) :
    Mirrors lost id (frame.store domain slot value) (frame.store domain' slot value) := by
  unfold store Domain.unusable
  rw [mirrored.valueOf]
  exact .same _

theorem produce_mirrors :
    Mirrors lost id (frame.executeProduce domain site) (frame.executeProduce domain' site) :=
  mirrored.produce.andThen fun _ => .same _

theorem unary_mirrors (pushes : Bool) :
    Mirrors lost id (frame.executeUnary domain site pushes)
      (frame.executeUnary domain' site pushes) :=
  (Mirrors.same _).andThen fun (value, _) => (mirrored.unary value).andThen fun _ => .same _

theorem binary_mirrors (pushes : Bool) :
    Mirrors lost id (frame.executeBinary domain site pushes)
      (frame.executeBinary domain' site pushes) :=
  (Mirrors.same _).andThen fun (second, _) => (Mirrors.same _).andThen fun (first, _) =>
    (mirrored.binary first second).andThen fun _ => .same _

theorem nary_mirrors (count : Nat) (pushes : Bool) :
    Mirrors lost id (frame.executeNary domain site count pushes)
      (frame.executeNary domain' site count pushes) :=
  (Mirrors.same _).andThen fun (values, _) => (mirrored.nary values).andThen fun _ => .same _

theorem instruction_mirrors (i : Instruction) :
    Mirrors lost id (frame.executeInstruction domain site i)
      (frame.executeInstruction domain' site i) := by
  cases i with
  | nop => exact .same _
  | load kind slot =>
    exact (Mirrors.same _).andThen fun stored => (mirrored.copy stored).andThen fun _ => .same _
  | store kind slot =>
    exact (Mirrors.same _).andThen fun (popped, _) => (mirrored.copy popped).andThen fun value =>
      store_mirrors mirrored slot value
  | arrayStore kind =>
    exact (Mirrors.same _).andThen fun (third, _) => (Mirrors.same _).andThen fun (second, _) =>
      (Mirrors.same _).andThen fun (first, _) =>
        (mirrored.ternary first second third).andThen fun _ => .same _
  | increment slot amount =>
    exact (Mirrors.same _).andThen fun stored => (mirrored.unary stored).andThen fun _ => .same _
  | shuffle shape =>
    exact (Mirrors.same _).andThen fun (items, _) =>
      (copyShuffled_mirrors mirrored items).andThen fun _ => .same _
  | pushNull | shortConstant | pushByte | pushShort | loadConstant | loadWideConstant | getStatic
  | newObject => exact produce_mirrors mirrored
  | negate | convert | getField | newPrimitiveArray | newArray | arrayLength | checkCast
  | instanceOf | putStatic | monitorEnter | monitorExit => exact unary_mirrors mirrored _
  | arrayLoad | arithmetic | shift | bitwise | compare | putField =>
    exact binary_mirrors mirrored _
  | invoke | invokeDynamic | newMultiArray => exact nary_mirrors mirrored _ _

theorem branch_mirrors {L : Type} (b : Branch L) :
    Mirrors lost id (frame.executeBranch domain site b) (frame.executeBranch domain' site b) := by
  cases b with
  | goto | ret | voidReturn => exact .same _
  | valueReturn kind =>
    refine (Mirrors.same _).andThen fun (value, rest) => (mirrored.unary value).andThen fun _ => ?_
    split
    · exact (mirrored.checkReturn value _).andThen fun _ => .same _
    · exact .same _
  | jsr => exact produce_mirrors mirrored
  | ifInts | ifReferences => exact binary_mirrors mirrored _
  | ifZero | tableSwitch | lookupSwitch | throw | ifNull => exact unary_mirrors mirrored _

/-- In a domain that mirrors another one, so does every operation on a frame. -/
theorem execute_mirrors :
    Mirrors lost id (frame.execute domain site) (frame.execute domain' site) := by
  unfold Frame.execute
  split
  · exact instruction_mirrors mirrored _
  · exact branch_mirrors mirrored _

end Operations

omit [AbstractValue V] in
theorem mergeValues_mirrors
    (merges : ∀ old new, Mirrors lost id (domain.merge old new) (domain'.merge old new))
    (olds news : List V) :
    Mirrors lost id (mergeValues domain olds news) (mergeValues domain' olds news) := by
  induction olds generalizing news with
  | nil => exact .same _
  | cons old olds ih =>
    cases news with
    | nil => exact .same _
    | cons new news => exact (merges old new).andThen fun _ => (ih news).andThen fun _ => .same _

theorem merge_mirrors
    (merges : ∀ old new, Mirrors lost id (domain.merge old new) (domain'.merge old new))
    (frame other : Frame V) :
    Mirrors lost id (frame.merge domain other) (frame.merge domain' other) := by
  unfold merge
  split
  · exact .same _
  · exact (mergeValues_mirrors merges _ _).andThen fun _ =>
      (mergeValues_mirrors merges _ _).andThen fun _ => .same _

end Frame

end MethodFlow
