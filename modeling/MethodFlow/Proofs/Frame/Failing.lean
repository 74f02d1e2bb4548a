import MethodFlow.Proofs.Frame.Arity
import MethodFlow.Proofs.Frame.Shape

namespace MethodFlow

variable {V : Type} [AbstractValue V]

/-- A fault that speaks of values missing on the stack or of values of the wrong form there. -/
def Fault.isOfStack : Fault → Bool
  | .emptyStack | .invalidWidth _ | .incompatibleReturn _ _ => true
  | _ => false

/-- The locals that the operation at a site reads or writes. A store of a wide value writes two. -/
inductive Domain.Accesses (domain : Domain V) (site : Site) : Nat → Prop where
  | load {kind : Kind} {slot : Nat} (operated : site.operation = .instruction (.load kind slot)) :
      Accesses domain site slot
  | increment {slot : Nat} {amount : Int}
      (operated : site.operation = .instruction (.increment slot amount)) :
      Accesses domain site slot
  | store {kind : Kind} {slot : Nat} (operated : site.operation = .instruction (.store kind slot)) :
      Accesses domain site slot
  | second {kind : Kind} {slot : Nat} {value stored : V}
      (operated : site.operation = .instruction (.store kind slot))
      (copied : domain.copy site value = .ok stored) (wide : width stored = 2) :
      Accesses domain site (slot + 1)

namespace Frame

variable {domain : Domain V} {site : Site} {allowed : Fault → Prop} {kept : Frame V → Prop}

/-- What has to be allowed for an operation to fail with nothing else, in frames of a kind that its
steps keep. -/
structure Confines (domain : Domain V) (site : Site) (allowed : Fault → Prop)
    (kept : Frame V → Prop) : Prop where
  invariant : StackInvariant (fun _ => True) kept
  operands : domain.Answers site allowed
  stack : ∀ fault, fault.isOfStack = true → allowed fault
  overflow : ∀ {frame} value, kept frame → FailsOnly allowed (frame.push value)
  outside : ∀ {frame slot}, kept frame → domain.Accesses site slot → frame.locals.length ≤ slot →
    allowed (.invalidLocal slot frame.locals.length)

omit [AbstractValue V] in
theorem local?_failsOnly {frame : Frame V} {slot : Nat}
    (outside : frame.locals.length ≤ slot → allowed (.invalidLocal slot frame.locals.length)) :
    FailsOnly allowed (frame.local? slot) := by
  unfold local?
  split
  · exact .ok _
  · rename_i missing
    exact .error (outside (List.getElem?_eq_none_iff.mp missing))

omit [AbstractValue V] in
theorem setLocal_failsOnly {frame : Frame V} {slot : Nat} {value : V}
    (outside : frame.locals.length ≤ slot → allowed (.invalidLocal slot frame.locals.length)) :
    FailsOnly allowed (frame.setLocal slot value) := by
  unfold setLocal
  split
  · exact .ok _
  · rename_i missing
    exact .error (outside (Nat.le_of_not_lt missing))

theorem push_failsOnly {frame : Frame V} {value : V} (full : ∀ bound, allowed (.stackOverflow bound)) :
    FailsOnly allowed (frame.push value) := by
  unfold push
  repeat' split
  all_goals first | exact .ok _ | exact .error (full _)

omit [AbstractValue V] in
theorem pop_failsOnly {frame : Frame V} (empty : allowed .emptyStack) :
    FailsOnly allowed frame.pop := by
  unfold pop
  split
  · exact .ok _
  · exact .error empty

theorem popWidth_failsOnly {frame : Frame V} {expected : Nat}
    (stack : ∀ fault, fault.isOfStack = true → allowed fault) :
    FailsOnly allowed (frame.popWidth expected) := by
  refine (pop_failsOnly (stack _ rfl)).andThen fun ⟨value, rest⟩ => ?_
  dsimp only
  split
  · exact .ok _
  · exact .error (stack _ rfl)

omit [AbstractValue V] in
theorem popMany_failsOnly {frame : Frame V} {count : Nat} (empty : allowed .emptyStack) :
    FailsOnly allowed (frame.popMany count) := by
  induction count generalizing frame with
  | zero => exact .ok _
  | succ count ih =>
    exact (pop_failsOnly empty).andThen fun _ => FailsOnly.andThen ih fun _ => .ok _

theorem shuffleUnderTwo_failsOnly {frame : Frame V} {top : V}
    (stack : ∀ fault, fault.isOfStack = true → allowed fault) :
    FailsOnly allowed (shuffleUnderTwo top frame) := by
  refine (pop_failsOnly (stack _ rfl)).andThen fun ⟨second, rest⟩ => ?_
  dsimp only
  split
  · exact (popWidth_failsOnly stack).andThen fun _ => .ok _
  · exact .ok _
  · exact .error (stack _ rfl)

/-- The operands of a shuffle may be missing or of the wrong width. -/
theorem popShuffled_failsOnly {frame : Frame V} {shape : Shuffle}
    (stack : ∀ fault, fault.isOfStack = true → allowed fault) :
    FailsOnly allowed (frame.popShuffled shape) := by
  have pops {frame : Frame V} : FailsOnly allowed frame.pop := pop_failsOnly (stack _ rfl)
  have popsWidth {frame : Frame V} {expected : Nat} : FailsOnly allowed (frame.popWidth expected) :=
    popWidth_failsOnly stack
  cases shape with
  | pop => exact popsWidth.andThen fun _ => .ok _
  | dup => exact popsWidth.andThen fun _ => .ok _
  | dupX1 | swap => exact popsWidth.andThen fun _ => popsWidth.andThen fun _ => .ok _
  | dupX2 => exact popsWidth.andThen fun _ => shuffleUnderTwo_failsOnly stack
  | pop2 | dup2 =>
    refine pops.andThen fun ⟨top, rest⟩ => ?_
    dsimp only
    split
    · exact popsWidth.andThen fun _ => .ok _
    · exact .ok _
    · exact .error (stack _ rfl)
  | dup2X1 =>
    refine pops.andThen fun ⟨top, rest⟩ => ?_
    dsimp only
    split
    · exact popsWidth.andThen fun _ => popsWidth.andThen fun _ => .ok _
    · exact popsWidth.andThen fun _ => .ok _
    · exact .error (stack _ rfl)
  | dup2X2 =>
    refine pops.andThen fun ⟨top, rest⟩ => ?_
    dsimp only
    split
    · refine popsWidth.andThen fun _ => pops.andThen fun ⟨third, rest⟩ => ?_
      dsimp only
      split
      · exact popsWidth.andThen fun _ => .ok _
      · exact .ok _
      · exact .error (stack _ rfl)
    · exact shuffleUnderTwo_failsOnly stack
    · exact .error (stack _ rfl)

omit [AbstractValue V] in
theorem copyShuffled_failsOnly {items : List (Shuffled V)}
    (copies : ∀ value, FailsOnly allowed (domain.copy site value)) :
    FailsOnly allowed (copyShuffled domain site items) := by
  induction items with
  | nil => exact .ok _
  | cons item rest ih =>
    cases item with
    | kept value => exact FailsOnly.andThen ih fun _ => .ok _
    | copied value =>
      exact (copies value).andThen fun _ => FailsOnly.andThen ih fun _ => .ok _

theorem store_eq (frame : Frame V) (slot : Nat) (value : V) :
    frame.store domain slot value = frame.setLocal slot value >>= fun first =>
      (if width value = 2 then first.setLocal (slot + 1) domain.unusable else .ok first) >>=
        fun second => second.clearBefore domain slot := by
  by_cases wide : width value = 2 <;> cases slot <;>
    simp only [store, clearBefore, wide, ↓reduceIte] <;> rfl

theorem clearBefore_failsOnly {frame : Frame V} {slot : Nat} (inside : slot < frame.locals.length) :
    FailsOnly allowed (frame.clearBefore domain slot) := by
  cases slot with
  | zero => exact .ok _
  | succ previous =>
    refine (local?_failsOnly fun absent => absurd inside (by omega)).andThen fun before => ?_
    split
    · exact setLocal_failsOnly fun absent => absurd inside (by omega)
    · exact .ok _

/-- Storing a value fails only at the slot it is stored in and the one after. -/
theorem store_failsOnly {frame : Frame V} {slot : Nat} {value : V}
    (outside : frame.locals.length ≤ slot → allowed (.invalidLocal slot frame.locals.length))
    (outside' : width value = 2 → frame.locals.length ≤ slot + 1 →
      allowed (.invalidLocal (slot + 1) frame.locals.length)) :
    FailsOnly allowed (frame.store domain slot value) := by
  rw [store_eq]
  refine (setLocal_failsOnly outside).bind fun first written => ?_
  obtain ⟨inside, rfl⟩ := setLocal_eq_ok.mp written
  split
  · rename_i wide
    refine (setLocal_failsOnly (by simpa using outside' wide)).bind fun second widened => ?_
    obtain ⟨-, rfl⟩ := setLocal_eq_ok.mp widened
    exact clearBefore_failsOnly (by simpa using inside)
  · refine (FailsOnly.ok _).bind fun second same => ?_
    cases same
    exact clearBefore_failsOnly (by simpa using inside)

omit [AbstractValue V] in
theorem mergeValues_failsOnly (merges : ∀ old new, FailsOnly allowed (domain.merge old new))
    (olds news : List V) : FailsOnly allowed (mergeValues domain olds news) := by
  induction olds generalizing news with
  | nil => exact .ok _
  | cons old olds ih =>
    cases news with
    | nil => exact .ok _
    | cons new news => exact (merges old new).andThen fun _ => (ih news).andThen fun _ => .ok _

theorem merge_failsOnly (merges : ∀ old new, FailsOnly allowed (domain.merge old new))
    (heights : ∀ expected found, allowed (.incompatibleStackHeights expected found))
    (frame other : Frame V) : FailsOnly allowed (frame.merge domain other) := by
  unfold merge
  split
  · exact .error (heights _ _)
  · refine (mergeValues_failsOnly merges _ _).andThen fun locals =>
      (mergeValues_failsOnly merges _ _).andThen fun values => ?_
    split <;> exact .ok _

namespace Confines

variable (confines : Confines domain site allowed kept) {frame : Frame V}

include confines

theorem result (good : kept frame) {yields : Bool} {outcome : Except Fault (Option V)}
    (answered : Answered allowed yields outcome) :
    FailsOnly allowed (outcome >>= fun result =>
      if yields then frame.pushProduced result else .ok frame) := by
  refine answered.toFailsOnly.bind fun result ended => ?_
  cases yields with
  | false => exact .ok _
  | true =>
    cases result with
    | none => exact absurd ended (answered.present rfl)
    | some value => exact confines.overflow value good

theorem pushAll (good : kept frame) (values : List V) : FailsOnly allowed (frame.pushAll values) := by
  induction values generalizing frame with
  | nil => exact .ok _
  | cons value rest ih =>
    exact (confines.overflow value good).bind fun after pushed =>
      ih (confines.invariant.push good trivial pushed)

theorem pop : FailsOnly allowed frame.pop := pop_failsOnly (confines.stack _ rfl)

theorem shuffle (good : kept frame) (shape : Shuffle) :
    FailsOnly allowed (frame.executeShuffle domain site shape) := by
  refine (popShuffled_failsOnly confines.stack).bind fun ⟨items, rest⟩ popped =>
    (copyShuffled_failsOnly confines.operands.copy).andThen fun values => ?_
  obtain ⟨taken, takes, -⟩ := form_of_popShuffled popped
  exact confines.pushAll (confines.invariant.takes good takes).2 values

theorem produce (good : kept frame) (asked : site.operation.arity = .producing) :
    FailsOnly allowed (frame.executeProduce domain site) :=
  (confines.operands.produce asked).andThen fun value => confines.overflow value good

theorem unary (good : kept frame) {pushes : Bool} (asked : site.operation.arity = .unary)
    (yields : site.operation.yields = pushes) :
    FailsOnly allowed (frame.executeUnary domain site pushes) := by
  subst yields
  refine confines.pop.bind fun ⟨value, rest⟩ popped => ?_
  exact confines.result (confines.invariant.pop good popped).2 (confines.operands.unary asked value)

theorem binary (good : kept frame) {pushes : Bool} (asked : site.operation.arity = .binary)
    (yields : site.operation.yields = pushes) :
    FailsOnly allowed (frame.executeBinary domain site pushes) := by
  subst yields
  refine confines.pop.bind fun ⟨second, below⟩ popped => confines.pop.bind fun ⟨first, rest⟩ popped' => ?_
  have good' := (confines.invariant.pop good popped).2
  exact confines.result (confines.invariant.pop good' popped').2
    (confines.operands.binary asked first second)

theorem nary (good : kept frame) {pushes : Bool} (asked : site.operation.arity = .nary)
    (yields : site.operation.yields = pushes) (count : Nat) :
    FailsOnly allowed (frame.executeNary domain site count pushes) := by
  subst yields
  refine (popMany_failsOnly (confines.stack _ rfl)).bind fun ⟨values, rest⟩ popped => ?_
  exact confines.result (confines.invariant.takes good (popMany_eq_ok.mp popped).2).2
    (confines.operands.nary asked values)

theorem instruction {i : Instruction} (operated : site.operation = .instruction i)
    (good : kept frame) : FailsOnly allowed (frame.executeInstruction domain site i) := by
  have asked : site.operation.arity = i.arity := congrArg Operation.arity operated
  have yields : site.operation.yields = i.yields := congrArg Operation.yields operated
  cases i with
  | nop => exact .ok _
  | load kind slot =>
    exact (local?_failsOnly (confines.outside good (.load operated))).andThen fun stored =>
      (confines.operands.copy stored).andThen fun value => confines.overflow value good
  | store kind slot =>
    refine confines.pop.bind fun ⟨popped, rest⟩ taken =>
      (confines.operands.copy popped).bind fun value copied => ?_
    have good' := (confines.invariant.pop good taken).2
    exact store_failsOnly (confines.outside good' (.store operated))
      fun wide => confines.outside good' (.second operated copied wide)
  | increment slot amount =>
    refine (local?_failsOnly (confines.outside good (.increment operated))).andThen fun stored => ?_
    have answered := confines.operands.unary asked stored
    refine answered.toFailsOnly.bind fun result ended => ?_
    cases result with
    | none => exact absurd ended (answered.present yields)
    | some value => exact setLocal_failsOnly (confines.outside good (.increment operated))
  | arrayStore kind =>
    exact confines.pop.andThen fun _ => confines.pop.andThen fun _ => confines.pop.andThen fun _ =>
      (confines.operands.ternary asked ..).andThen fun _ => .ok _
  | shuffle shape => exact confines.shuffle good shape
  | pushNull | shortConstant | pushByte | pushShort | loadConstant | loadWideConstant | getStatic
  | newObject => exact confines.produce good asked
  | negate | convert | getField | newPrimitiveArray | newArray | arrayLength | checkCast
  | instanceOf | putStatic | monitorEnter | monitorExit => exact confines.unary good asked yields
  | arrayLoad | arithmetic | shift | bitwise | compare | putField =>
    exact confines.binary good asked yields
  | invoke | invokeDynamic | newMultiArray => exact confines.nary good asked yields _

theorem branch {b : Branch Label} (operated : site.operation = .branch b) (good : kept frame) :
    FailsOnly allowed (frame.executeBranch domain site b) := by
  have asked : site.operation.arity = b.arity := congrArg Operation.arity operated
  have yields : site.operation.yields = b.yields := congrArg Operation.yields operated
  cases b with
  | goto | ret => exact .ok _
  | voidReturn =>
    simp only [executeBranch]
    split
    · exact .error (confines.stack _ rfl)
    · exact .ok _
  | valueReturn kind =>
    refine confines.pop.andThen fun popped => ?_
    obtain ⟨value, rest⟩ := popped
    refine (confines.operands.unary asked value).toFailsOnly.andThen fun _ => ?_
    split
    · exact (confines.operands.checkReturn ..).andThen fun _ => .ok _
    · exact .error (confines.stack _ rfl)
  | jsr => exact confines.produce good asked
  | ifInts | ifReferences => exact confines.binary good asked yields
  | ifZero | tableSwitch | lookupSwitch | throw | ifNull => exact confines.unary good asked yields

theorem execute (good : kept frame) : FailsOnly allowed (frame.execute domain site) := by
  unfold Frame.execute
  split
  · rename_i operated
    exact confines.instruction operated good
  · rename_i operated
    exact confines.branch operated good

end Confines

end Frame

end MethodFlow
