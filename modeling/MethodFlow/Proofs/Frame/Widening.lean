import MethodFlow.Proofs.Frame.Absorption
import MethodFlow.Proofs.Frame.Popping
import MethodFlow.Proofs.Mirrors

/-! Frames with more locals after their own. What an operation does on a frame it does on the wider one,
and the locals beyond stay as they were; it may find a local there that the frame lacks, so that not all
faults are kept. Merging frames with as many locals also merges what is beyond. -/

namespace MethodFlow

variable {V : Type} {domain : Domain V} {site : Site}

namespace Frame

variable {spare : List V} {frame after : Frame V}

/-- The frame with more locals after its own. -/
def widen (spare : List V) (frame : Frame V) : Frame V :=
  { frame with locals := frame.locals ++ spare }

theorem leaves_widen : LeavesStack (widen spare) := by
  intro frame
  unfold pop widen
  dsimp only
  split <;> rfl

/-- A computation on a wider frame, where only what succeeds matters. -/
abbrev Widens (spare : List V) (first second : Except Fault (Frame V)) : Prop :=
  Mirrors (fun _ => True) (widen spare) first second

theorem pop_widen : Mirrors (fun _ => True) (Prod.map id (widen spare)) frame.pop
    (frame.widen spare).pop :=
  .inl (leaves_widen frame)

theorem local?_widen (slot : Nat) :
    Mirrors (fun _ => True) id (frame.local? slot) ((frame.widen spare).local? slot) := by
  refine .of_ok fun value read => ?_
  obtain ⟨inside, found⟩ := List.getElem?_eq_some_iff.mp (local?_eq_ok.mp read)
  refine local?_eq_ok.mpr ?_
  rw [widen, List.getElem?_append_left inside, List.getElem?_eq_getElem inside, found]
  rfl

theorem setLocal_widen (slot : Nat) (value : V) :
    Widens spare (frame.setLocal slot value) ((frame.widen spare).setLocal slot value) := by
  refine .of_ok fun after written => ?_
  obtain ⟨inside, rfl⟩ := setLocal_eq_ok.mp written
  have inside' : slot < (frame.widen spare).locals.length := by
    simp only [widen, List.length_append]
    omega
  refine setLocal_eq_ok.mpr ⟨inside', ?_⟩
  simp only [widen, List.set_append_left slot value inside]

variable [AbstractValue V]

theorem clearBefore_widen (slot : Nat) :
    Widens spare (frame.clearBefore domain slot) ((frame.widen spare).clearBefore domain slot) := by
  cases slot with
  | zero => exact .ok frame
  | succ previous =>
    refine (local?_widen previous).bind fun before _ => ?_
    simp only [id]
    split
    · exact setLocal_widen previous domain.unusable
    · exact .ok frame

theorem store_widen (slot : Nat) (value : V) :
    Widens spare (frame.store domain slot value) ((frame.widen spare).store domain slot value) := by
  unfold store
  refine (setLocal_widen slot value).bind fun stored _ => ?_
  by_cases wide : width value = 2
  · simp only [wide, ↓reduceIte]
    exact (setLocal_widen (slot + 1) domain.unusable).bind fun _ _ => clearBefore_widen slot
  · simp only [wide, ↓reduceIte]
    exact clearBefore_widen slot

theorem push_widen (value : V) :
    Widens spare (frame.push value) ((frame.widen spare).push value) := by
  refine .of_ok fun after pushed => ?_
  obtain ⟨rfl, room⟩ := push_eq_ok.mp pushed
  exact push_eq_ok.mpr ⟨rfl, room⟩

theorem pushAll_widen (values : List V) :
    Widens spare (frame.pushAll values) ((frame.widen spare).pushAll values) := by
  induction values generalizing frame with
  | nil => exact .ok frame
  | cons value values ih => exact (push_widen value).bind fun _ _ => ih

theorem pushResult_widen (pushes : Bool) (result : Option V) :
    Widens spare (if pushes then frame.pushProduced result else .ok frame)
      (if pushes then (frame.widen spare).pushProduced result else .ok (frame.widen spare)) := by
  cases pushes with
  | false => exact .ok frame
  | true =>
    cases result with
    | none => exact .error _
    | some value => exact push_widen value

theorem produce_widen :
    Widens spare (frame.executeProduce domain site)
      ((frame.widen spare).executeProduce domain site) :=
  (Mirrors.same _).bind fun value _ => push_widen value

theorem unary_widen (pushes : Bool) :
    Widens spare (frame.executeUnary domain site pushes)
      ((frame.widen spare).executeUnary domain site pushes) :=
  pop_widen.bind fun _ _ => (Mirrors.same _).bind fun result _ => pushResult_widen pushes result

theorem binary_widen (pushes : Bool) :
    Widens spare (frame.executeBinary domain site pushes)
      ((frame.widen spare).executeBinary domain site pushes) :=
  pop_widen.bind fun _ _ => pop_widen.bind fun _ _ =>
    (Mirrors.same _).bind fun result _ => pushResult_widen pushes result

theorem nary_widen (count : Nat) (pushes : Bool) :
    Widens spare (frame.executeNary domain site count pushes)
      ((frame.widen spare).executeNary domain site count pushes) := by
  have popped : Mirrors (fun _ => True) (Prod.map id (widen spare)) (frame.popMany count)
      ((frame.widen spare).popMany count) := .inl (leaves_widen.popMany count)
  exact popped.bind fun _ _ => (Mirrors.same _).bind fun result _ => pushResult_widen pushes result

theorem shuffle_widen (shape : Shuffle) :
    Widens spare (frame.executeShuffle domain site shape)
      ((frame.widen spare).executeShuffle domain site shape) := by
  have popped : Mirrors (fun _ => True) (Prod.map id (widen spare)) (frame.popShuffled shape)
      ((frame.widen spare).popShuffled shape) := .inl (leaves_widen.popShuffled shape)
  exact popped.bind fun _ _ => (Mirrors.same _).bind fun values _ => pushAll_widen values

theorem instruction_widen (i : Instruction) :
    Widens spare (frame.executeInstruction domain site i)
      ((frame.widen spare).executeInstruction domain site i) := by
  cases i with
  | nop => exact .ok frame
  | load kind slot =>
    exact (local?_widen slot).bind fun _ _ => (Mirrors.same _).bind fun value _ => push_widen value
  | store kind slot =>
    exact pop_widen.bind fun _ _ => (Mirrors.same _).bind fun value _ => store_widen slot value
  | arrayStore kind =>
    exact pop_widen.bind fun _ _ => pop_widen.bind fun _ _ => pop_widen.bind fun popped _ =>
      (Mirrors.same _).bind fun _ _ => .ok popped.2
  | increment slot amount =>
    refine (local?_widen slot).bind fun _ _ => (Mirrors.same _).bind fun result _ => ?_
    cases result with
    | none => exact .error _
    | some value => exact setLocal_widen slot value
  | shuffle shape => exact shuffle_widen shape
  | pushNull | shortConstant | pushByte | pushShort | loadConstant | loadWideConstant | getStatic
  | newObject => exact produce_widen
  | negate | convert | getField | newPrimitiveArray | newArray | arrayLength | checkCast
  | instanceOf | putStatic | monitorEnter | monitorExit => exact unary_widen _
  | arrayLoad | arithmetic | shift | bitwise | compare | putField => exact binary_widen _
  | invoke | invokeDynamic | newMultiArray => exact nary_widen _ _

theorem branch_widen {L : Type} (b : Branch L) :
    Widens spare (frame.executeBranch domain site b)
      ((frame.widen spare).executeBranch domain site b) := by
  have expects (frame : Frame V) : (frame.widen spare).returnValue = frame.returnValue := rfl
  cases b with
  | goto | ret => exact .ok frame
  | voidReturn =>
    simp only [executeBranch, expects]
    cases frame.returnValue with
    | none => exact .ok frame
    | some expected => exact .error _
  | valueReturn kind =>
    refine pop_widen.bind fun popped _ => (Mirrors.same _).bind fun _ _ => ?_
    obtain ⟨value, rest⟩ := popped
    simp only [id, expects]
    cases rest.returnValue with
    | none => exact .error _
    | some expected => exact (Mirrors.same _).bind fun _ _ => .ok rest
  | jsr => exact produce_widen
  | ifInts | ifReferences => exact binary_widen _
  | ifZero | tableSwitch | lookupSwitch | throw | ifNull => exact unary_widen _

/-- An operation that succeeds on a frame succeeds on a wider one, and leaves the locals beyond. -/
theorem execute_widen :
    Widens spare (frame.execute domain site) ((frame.widen spare).execute domain site) := by
  unfold Frame.execute
  split
  · exact instruction_widen _
  · exact branch_widen _

omit [AbstractValue V] in
theorem mergeValues_append {olds news : List V} (lengths : olds.length = news.length)
    (kept : mergeValues domain spare spare = .ok spare) :
    mergeValues domain (olds ++ spare) (news ++ spare) =
      (mergeValues domain olds news).map (· ++ spare) := by
  induction olds generalizing news with
  | nil =>
    obtain rfl : news = [] := List.length_eq_zero_iff.mp lengths.symm
    exact kept
  | cons old olds ih =>
    cases news with
    | nil => cases lengths
    | cons new news =>
      simp only [List.cons_append, mergeValues, ih (Nat.succ.inj lengths)]
      cases domain.merge old new with
      | error fault => rfl
      | ok value =>
        cases mergeValues domain olds news <;> rfl

/-- Merging wider frames merges the frames, if merging what is beyond leaves it as it is. -/
theorem merge_widen {other : Frame V} (lengths : frame.locals.length = other.locals.length)
    (kept : mergeValues domain spare spare = .ok spare) :
    (frame.widen spare).merge domain (other.widen spare) =
      (frame.merge domain other).map (Prod.map (widen spare) id) :=
  merge_change (widen spare) (· ++ spare) (fun _ _ _ => rfl) (List.append_left_inj spare)
    (mergeValues_append lengths kept)

end Frame

end MethodFlow
