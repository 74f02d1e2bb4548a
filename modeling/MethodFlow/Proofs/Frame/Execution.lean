import Mathlib.Data.List.Forall2
import MethodFlow.Proofs.Frame.Shuffles

/-! What every operation keeps. A property of values that the domain's operations keep, and one of
frames that popping, pushing and writing such values keep, hold after any operation. -/

namespace MethodFlow

variable {V : Type} [AbstractValue V]

/-- The values that a domain yields at a site have a property if its operands do. -/
structure Domain.ClosedAt (domain : Domain V) (site : Site) (holds : V → Prop) : Prop where
  unusable : holds domain.unusable
  produce : ∀ {value}, domain.produce site = .ok value → holds value
  copy : ∀ {value copied}, holds value → domain.copy site value = .ok copied → holds copied
  unary : ∀ {value result}, holds value → domain.unary site value = .ok (some result) →
    holds result
  binary : ∀ {first second result}, holds first → holds second →
    domain.binary site first second = .ok (some result) → holds result
  nary : ∀ {values result}, (∀ value ∈ values, holds value) →
    domain.nary site values = .ok (some result) → holds result

omit [AbstractValue V] in
theorem Domain.closedAt_true (domain : Domain V) (site : Site) :
    domain.ClosedAt site fun _ => True :=
  ⟨trivial, fun _ => trivial, fun _ _ => trivial, fun _ _ => trivial, fun _ _ _ => trivial,
    fun _ _ => trivial⟩

/-- Properties of values and of frames that popping and pushing keep, and reading a local. -/
structure Frame.StackInvariant (holds : V → Prop) (kept : Frame V → Prop) : Prop where
  pop : ∀ {frame value rest}, kept frame → frame.pop = .ok (value, rest) →
    holds value ∧ kept rest
  push : ∀ {frame value after}, kept frame → holds value → frame.push value = .ok after →
    kept after
  read : ∀ {frame slot value}, kept frame → frame.local? slot = .ok value → holds value

/-- Properties of values and of frames that the elementary steps of operations keep. -/
structure Frame.Invariant (holds : V → Prop) (kept : Frame V → Prop) : Prop
    extends Frame.StackInvariant holds kept where
  write : ∀ {frame slot value after}, kept frame → holds value →
    frame.setLocal slot value = .ok after → kept after

/-- Does an instruction change no local? -/
def Instruction.keepsLocals : Instruction → Bool
  | .store _ _ | .increment _ _ => false
  | _ => true

theorem ShuffleForm.pushed {shape : Shuffle} {taken : List V} {items : List (Shuffled V)}
    (form : ShuffleForm shape taken items) : ∀ item ∈ items, item.value ∈ taken := by
  cases form with
  | dupX2 narrow₁ form => cases form <;> simp [Shuffled.value]
  | dupWideX2 wide form => cases form <;> simp [Shuffled.value]
  | _ => simp [Shuffled.value]

/-- How an item of a shuffle turns into the value that is pushed. -/
inductive Shuffled.Becomes (domain : Domain V) (site : Site) : Shuffled V → V → Prop where
  | kept {value : V} : Becomes domain site (.kept value) value
  | copied {value copy : V} (copies : domain.copy site value = .ok copy) :
      Becomes domain site (.copied value) copy

namespace Frame

variable {domain : Domain V} {site : Site}

omit [AbstractValue V] in
theorem copyShuffled_eq_ok {items : List (Shuffled V)} {values : List V} :
    copyShuffled domain site items = .ok values ↔
      List.Forall₂ (Shuffled.Becomes domain site) items values := by
  induction items generalizing values with
  | nil => simp [copyShuffled, eq_comm]
  | cons item rest ih =>
    cases item with
    | kept value =>
      simp only [copyShuffled, bind_eq_ok, pure, Except.pure, Except.ok.injEq]
      constructor
      · rintro ⟨others, copies, rfl⟩
        exact .cons .kept (ih.mp copies)
      · intro related
        cases related with
        | cons head tail =>
          cases head
          exact ⟨_, ih.mpr tail, rfl⟩
    | copied value =>
      simp only [copyShuffled, bind_eq_ok, pure, Except.pure, Except.ok.injEq]
      constructor
      · rintro ⟨copy, copies, others, rest, rfl⟩
        exact .cons (.copied copies) (ih.mp rest)
      · intro related
        cases related with
        | cons head tail =>
          cases head with
          | copied copies => exact ⟨_, copies, _, ih.mpr tail, rfl⟩

/-- Makes the wide value before an index unusable, which has lost its second slot. -/
def clearBefore (domain : Domain V) (frame : Frame V) : Nat → Except Fault (Frame V)
  | 0 => .ok frame
  | previous + 1 => do
    let before ← frame.local? previous
    if width before = 2 then frame.setLocal previous domain.unusable else return frame

theorem store_eq_ok {frame after : Frame V} {index : Nat} {value : V} :
    frame.store domain index value = .ok after ↔
      ∃ first second, frame.setLocal index value = .ok first ∧
        (if width value = 2 then first.setLocal (index + 1) domain.unusable else .ok first) =
          .ok second ∧
        second.clearBefore domain index = .ok after := by
  by_cases wide : width value = 2 <;> cases index <;>
    simp only [store, clearBefore, wide, ↓reduceIte, bind_eq_ok]
  all_goals
    constructor
    · rintro ⟨first, written, second, widened, cleared⟩
      exact ⟨first, second, written, widened, cleared⟩
    · rintro ⟨first, second, written, widened, cleared⟩
      exact ⟨first, written, second, widened, cleared⟩

variable {holds : V → Prop} {kept : Frame V → Prop}

namespace StackInvariant

theorem takes (inv : StackInvariant holds kept) {frame rest : Frame V} {values : List V}
    (good : kept frame) (taken : Takes frame values rest) :
    (∀ value ∈ values, holds value) ∧ kept rest := by
  induction taken with
  | none => exact ⟨by simp, good⟩
  | more popped further ih =>
    obtain ⟨top, below⟩ := inv.pop good popped
    obtain ⟨others, last⟩ := ih below
    exact ⟨by simpa using ⟨top, others⟩, last⟩

theorem pushAll (inv : StackInvariant holds kept) {frame after : Frame V} {values : List V}
    (good : kept frame) (fine : ∀ value ∈ values, holds value)
    (pushed : frame.pushAll values = .ok after) : kept after := by
  induction values generalizing frame with
  | nil =>
    cases pushed
    exact good
  | cons value rest ih =>
    obtain ⟨middle, first, others⟩ := bind_eq_ok.mp pushed
    have good' := inv.push good (fine value List.mem_cons_self) first
    exact ih good' (fun other member => fine other (List.mem_cons_of_mem _ member)) others

theorem pushProduced (inv : StackInvariant holds kept) {frame after : Frame V} {result : Option V}
    (good : kept frame) (fine : ∀ value, result = some value → holds value)
    (pushed : frame.pushProduced result = .ok after) : kept after := by
  cases result with
  | none => cases pushed
  | some value => exact inv.push good (fine value rfl) pushed

theorem shuffle (inv : StackInvariant holds kept) (closed : domain.ClosedAt site holds)
    {frame after : Frame V} {shape : Shuffle} (good : kept frame)
    (executed : frame.executeShuffle domain site shape = .ok after) : kept after := by
  simp only [executeShuffle, bind_eq_ok, Prod.exists] at executed
  obtain ⟨items, rest, popped, values, copies, pushed⟩ := executed
  obtain ⟨taken, takes, form⟩ := form_of_popShuffled popped
  obtain ⟨fine, good'⟩ := inv.takes good takes
  have becomes := copyShuffled_eq_ok.mp copies
  refine inv.pushAll good' ?_ pushed
  intro value member
  obtain ⟨item, present, turned⟩ : ∃ item ∈ items, Shuffled.Becomes domain site item value := by
    obtain ⟨index, inside, rfl⟩ := List.mem_iff_getElem.mp member
    have inside' : index < items.length := becomes.length_eq ▸ inside
    exact ⟨_, List.getElem_mem inside', becomes.get inside' inside⟩
  have operand := fine _ (form.pushed item present)
  cases turned with
  | kept => exact operand
  | copied copies => exact closed.copy operand copies

theorem produce (inv : StackInvariant holds kept) (closed : domain.ClosedAt site holds)
    {frame after : Frame V} (good : kept frame)
    (executed : frame.executeProduce domain site = .ok after) : kept after := by
  obtain ⟨value, produced, pushed⟩ := bind_eq_ok.mp executed
  exact inv.push good (closed.produce produced) pushed

theorem unary (inv : StackInvariant holds kept) (closed : domain.ClosedAt site holds)
    {frame after : Frame V} {pushes : Bool} (good : kept frame)
    (executed : frame.executeUnary domain site pushes = .ok after) : kept after := by
  simp only [executeUnary, bind_eq_ok, Prod.exists] at executed
  obtain ⟨value, rest, popped, result, computed, pushed⟩ := executed
  obtain ⟨fine, good'⟩ := inv.pop good popped
  split at pushed
  · refine inv.pushProduced good' ?_ pushed
    rintro value rfl
    exact closed.unary fine computed
  · cases pushed
    exact good'

theorem binary (inv : StackInvariant holds kept) (closed : domain.ClosedAt site holds)
    {frame after : Frame V} {pushes : Bool} (good : kept frame)
    (executed : frame.executeBinary domain site pushes = .ok after) : kept after := by
  simp only [executeBinary, bind_eq_ok, Prod.exists] at executed
  obtain ⟨second, below, popped, first, rest, popped', result, computed, pushed⟩ := executed
  obtain ⟨fine, good₁⟩ := inv.pop good popped
  obtain ⟨fine', good₂⟩ := inv.pop good₁ popped'
  split at pushed
  · refine inv.pushProduced good₂ ?_ pushed
    rintro value rfl
    exact closed.binary fine' fine computed
  · cases pushed
    exact good₂

theorem nary (inv : StackInvariant holds kept) (closed : domain.ClosedAt site holds)
    {frame after : Frame V} {count : Nat} {pushes : Bool} (good : kept frame)
    (executed : frame.executeNary domain site count pushes = .ok after) : kept after := by
  simp only [executeNary, bind_eq_ok, Prod.exists] at executed
  obtain ⟨values, rest, popped, result, computed, pushed⟩ := executed
  obtain ⟨fine, good'⟩ := inv.takes good (popMany_eq_ok.mp popped).2
  split at pushed
  · refine inv.pushProduced good' ?_ pushed
    rintro value rfl
    exact closed.nary (by simpa using fine) computed
  · cases pushed
    exact good'

theorem instruction (inv : StackInvariant holds kept) (closed : domain.ClosedAt site holds)
    {frame after : Frame V} {i : Instruction} (keeps : i.keepsLocals = true) (good : kept frame)
    (executed : frame.executeInstruction domain site i = .ok after) : kept after := by
  cases i with
  | store | increment => cases keeps
  | nop =>
    cases executed
    exact good
  | load kind slot =>
    simp only [executeInstruction, bind_eq_ok] at executed
    obtain ⟨stored, read, value, copied, pushed⟩ := executed
    exact inv.push good (closed.copy (inv.read good read) copied) pushed
  | arrayStore kind =>
    simp only [executeInstruction, bind_eq_ok, Prod.exists] at executed
    obtain ⟨third, _, popped, second, _, popped', first, _, popped₃, _, _, ended⟩ := executed
    cases ended
    exact (inv.pop (inv.pop (inv.pop good popped).2 popped').2 popped₃).2
  | shuffle shape => exact inv.shuffle closed good executed
  | pushNull | shortConstant | pushByte | pushShort | loadConstant | loadWideConstant | getStatic
  | newObject => exact inv.produce closed good executed
  | negate | convert | getField | newPrimitiveArray | newArray | arrayLength | checkCast
  | instanceOf | putStatic | monitorEnter | monitorExit => exact inv.unary closed good executed
  | arrayLoad | arithmetic | shift | bitwise | compare | putField =>
    exact inv.binary closed good executed
  | invoke | invokeDynamic | newMultiArray => exact inv.nary closed good executed

theorem branch {L : Type} (inv : StackInvariant holds kept) (closed : domain.ClosedAt site holds)
    {frame after : Frame V} {b : Branch L} (good : kept frame)
    (executed : frame.executeBranch domain site b = .ok after) : kept after := by
  cases b with
  | goto | ret =>
    cases executed
    exact good
  | voidReturn =>
    simp only [executeBranch] at executed
    split at executed
    · cases executed
    · cases executed
      exact good
  | valueReturn kind =>
    simp only [executeBranch, executeReturn, bind_eq_ok, Prod.exists] at executed
    obtain ⟨value, rest, popped, _, _, continued⟩ := executed
    split at continued
    · obtain ⟨_, _, ended⟩ := bind_eq_ok.mp continued
      cases ended
      exact (inv.pop good popped).2
    · cases continued
  | jsr => exact inv.produce closed good executed
  | ifInts | ifReferences => exact inv.binary closed good executed
  | ifZero | tableSwitch | lookupSwitch | throw | ifNull => exact inv.unary closed good executed

end StackInvariant

namespace Invariant

theorem store (inv : Invariant holds kept) (closed : domain.ClosedAt site holds)
    {frame after : Frame V} {slot : Nat} {value : V} (good : kept frame) (fine : holds value)
    (stored : frame.store domain slot value = .ok after) : kept after := by
  obtain ⟨first, second, written, widened, cleared⟩ := store_eq_ok.mp stored
  have good₁ := inv.write good fine written
  have good₂ : kept second := by
    split at widened
    · exact inv.write good₁ closed.unusable widened
    · cases widened
      exact good₁
  cases slot with
  | zero =>
    cases cleared
    exact good₂
  | succ previous =>
    obtain ⟨before, read, continued⟩ := bind_eq_ok.mp cleared
    split at continued
    · exact inv.write good₂ closed.unusable continued
    · cases continued
      exact good₂

theorem instruction (inv : Invariant holds kept) (closed : domain.ClosedAt site holds)
    {frame after : Frame V} {i : Instruction} (good : kept frame)
    (executed : frame.executeInstruction domain site i = .ok after) : kept after := by
  cases i with
  | store kind slot =>
    simp only [executeInstruction, bind_eq_ok, Prod.exists] at executed
    obtain ⟨top, rest, popped, value, copied, stored⟩ := executed
    obtain ⟨fine, good'⟩ := inv.pop good popped
    exact inv.store closed good' (closed.copy fine copied) stored
  | increment slot amount =>
    simp only [executeInstruction, bind_eq_ok] at executed
    obtain ⟨stored, read, result, computed, written⟩ := executed
    split at written
    · exact inv.write good (closed.unary (inv.read good read) computed) written
    · cases written
  | _ => exact inv.toStackInvariant.instruction closed rfl good executed

/-- Whatever the elementary steps keep, every operation keeps. -/
theorem execute (inv : Invariant holds kept) (closed : domain.ClosedAt site holds)
    {frame after : Frame V} (good : kept frame)
    (executed : frame.execute domain site = .ok after) : kept after := by
  unfold Frame.execute at executed
  split at executed
  · exact inv.instruction closed good executed
  · exact inv.branch closed good executed

end Invariant

end Frame

end MethodFlow
