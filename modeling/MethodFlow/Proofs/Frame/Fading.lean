import MethodFlow.Proofs.Domain.Grading
import MethodFlow.Proofs.Frame.Simulation

/-! Frames that merges have left of earlier ones: each value is of the grade it was, or narrower. An
operation that fills as many slots from either frame fills them with values of the same grades. -/

namespace MethodFlow

variable {V : Type} [AbstractValue V] {domain : Domain V} {grade : V → Nat}

/-- A value is of the grade of another one, or narrower. -/
def Fades (grade : V → Nat) (value other : V) : Prop :=
  grade value = grade other ∨ width value < width other

namespace Fades

theorem width_le (graded : domain.Graded grade) {value other : V} (fades : Fades grade value other) :
    width value ≤ width other := by
  rcases fades with same | narrower
  · exact Nat.le_of_eq (graded.width same)
  · exact Nat.le_of_lt narrower

theorem refl (value : V) : Fades grade value value := .inl rfl

theorem trans (graded : domain.Graded grade) {upper middle lower : V}
    (above : Fades grade upper middle) (below : Fades grade middle lower) :
    Fades grade upper lower := by
  have wider := below.width_le graded
  rcases above with same | narrower
  · rcases below with same' | narrower'
    · exact .inl (same.trans same')
    · exact .inr (graded.width same ▸ narrower')
  · exact .inr (Nat.lt_of_lt_of_le narrower wider)

theorem merged (graded : domain.Graded grade) {old new value : V}
    (merged : domain.merge old new = .ok value) : Fades grade value old ∧ Fades grade value new := by
  obtain ⟨left, right⟩ := graded.shrinks merged
  refine ⟨?_, ?_⟩
  · rcases Nat.lt_or_eq_of_le left with narrower | same
    · exact .inr narrower
    · exact .inl (graded.left merged same)
  · rcases Nat.lt_or_eq_of_le right with narrower | same
    · exact .inr narrower
    · exact .inl (graded.right merged same)

theorem copy (graded : domain.Graded grade) {site : Site} {value other copied copied' : V}
    (fades : Fades grade value other) (copies : domain.copy site value = .ok copied)
    (copies' : domain.copy site other = .ok copied') : Fades grade copied copied' := by
  have same := graded.copy copies
  have same' := graded.copy copies'
  rcases fades with alike | narrower
  · exact .inl (by rw [same, same', alike])
  · exact .inr (by rwa [graded.width same, graded.width same'])

/-- Values that take as many slots together as those they are left of have kept their grades. -/
theorem grades_eq (graded : domain.Graded grade) {values others : List V}
    (fades : List.Forall₂ (Fades grade) values others)
    (same : (values.map width).sum = (others.map width).sum) :
    values.map grade = others.map grade := by
  have widths := (sum_width_le (fades.imp fun _ _ fades => fades.width_le graded)).2.mp same
  clear same
  induction fades with
  | nil => rfl
  | cons head _ ih =>
    simp only [List.map_cons, List.cons.injEq] at widths ⊢
    refine ⟨?_, ih widths.2⟩
    rcases head with alike | narrower
    · exact alike
    · omega

end Fades

theorem map_width_of_grades (graded : domain.Graded grade) {values others : List V}
    (same : values.map grade = others.map grade) : values.map width = others.map width := by
  induction values generalizing others with
  | nil =>
    cases others with
    | nil => rfl
    | cons => cases same
  | cons value values ih =>
    cases others with
    | nil => cases same
    | cons other others =>
      simp only [List.map_cons, List.cons.injEq] at same ⊢
      exact ⟨graded.width same.1, ih same.2⟩

theorem MergedValues.fades (graded : domain.Graded grade) {olds news values : List V}
    (merged : MergedValues domain olds news values) :
    List.Forall₂ (Fades grade) values olds ∧ List.Forall₂ (Fades grade) values news := by
  induction merged with
  | nil => exact ⟨.nil, .nil⟩
  | cons merged _ ih =>
    obtain ⟨left, right⟩ := Fades.merged graded merged
    exact ⟨.cons left ih.1, .cons right ih.2⟩

theorem MergedValues.grades_eq (graded : domain.Graded grade) {olds news values : List V}
    (merged : MergedValues domain olds news values) (same : olds.map grade = news.map grade) :
    values.map grade = olds.map grade := by
  induction merged with
  | nil => rfl
  | cons merged _ ih =>
    simp only [List.map_cons, List.cons.injEq] at same ⊢
    exact ⟨graded.same merged same.1, ih same.2⟩

section Shuffles

/-- Slots that a shuffle adds to the stack. -/
def Shuffle.adds : Shuffle → Nat
  | .dup | .dupX1 | .dupX2 => 1
  | .dup2 | .dup2X1 | .dup2X2 => 2
  | .pop | .pop2 | .swap => 0

/-- Slots that a shuffle drops from the stack. -/
def Shuffle.drops : Shuffle → Nat
  | .pop => 1
  | .pop2 => 2
  | _ => 0

/-- Whatever its form, a shuffle changes the height of the stack by as many slots. -/
theorem ShuffleForm.slots {shape : Shuffle} {taken : List V} {items : List (Shuffled V)}
    (form : ShuffleForm shape taken items) :
    (items.map fun item => width item.value).sum + shape.drops =
      (taken.map width).sum + shape.adds := by
  cases form with
  | dupX2 narrow₁ form =>
    cases form <;> simp [Shuffled.value, Shuffle.adds, Shuffle.drops, *]
  | dupWideX2 wide form =>
    cases form <;> simp [Shuffled.value, Shuffle.adds, Shuffle.drops, *]
  | _ => simp [Shuffled.value, Shuffle.adds, Shuffle.drops, *]

omit [AbstractValue V] in
/-- What copies keep of values, a shuffle keeps of the values it pushes. -/
theorem map_of_becomes {α : Type} {project : V → α} {site : Site}
    (copies : ∀ {value copied}, domain.copy site value = .ok copied → project copied = project value)
    {items : List (Shuffled V)} {values : List V}
    (becomes : List.Forall₂ (Shuffled.Becomes domain site) items values) :
    values.map project = items.map fun item => project item.value := by
  induction becomes with
  | nil => rfl
  | cons head _ ih =>
    simp only [List.map_cons, ih, List.cons.injEq, and_true]
    cases head with
    | kept => rfl
    | copied copied => exact copies copied

end Shuffles

namespace Frame

variable {shape : FrameShape V} {site : Site} {frame other rest rest' after after' : Frame V}
  {value value' : V}

theorem stackSlots_pop (placed : frame.stack.Placed) (popped : frame.pop = .ok (value, rest)) :
    rest.stack.Placed ∧ frame.stackSlots = rest.stackSlots + width value := by
  have values := stackValues_pop popped
  obtain ⟨stack, taken, rfl⟩ := pop_eq_ok.mp popped
  have placed' : stack.Placed := placed.pop? taken
  refine ⟨placed', ?_⟩
  rw [stackSlots, stackSlots, placed.slots_eq, placed'.slots_eq]
  simpa [stackValues] using congrArg (fun values => (values.map width).sum) values

omit [AbstractValue V] in
theorem stackValues_takes {values : List V} (taken : Takes frame values rest) :
    frame.stackValues = rest.stackValues ++ values.reverse := by
  induction taken with
  | none => simp
  | more popped _ ih => rw [stackValues_pop popped, ih, List.reverse_cons, List.append_assoc]

theorem stackValues_pushAll {values : List V} (pushed : frame.pushAll values = .ok after) :
    after.stackValues = frame.stackValues ++ values := by
  induction values generalizing frame with
  | nil =>
    cases pushed
    simp
  | cons value values ih =>
    obtain ⟨middle, first, others⟩ := bind_eq_ok.mp pushed
    rw [ih others, stackValues_push first, List.append_assoc, List.singleton_append]

omit [AbstractValue V] in
theorem stackValues_setLocal {slot : Nat} (written : frame.setLocal slot value = .ok after) :
    after.stackValues = frame.stackValues := by
  obtain ⟨-, rfl⟩ := setLocal_eq_ok.mp written
  rfl

theorem stackValues_store {slot : Nat} (stored : frame.store domain slot value = .ok after) :
    after.stackValues = frame.stackValues := by
  obtain ⟨first, second, written, widened, cleared⟩ := store_eq_ok.mp stored
  have same : second.stackValues = first.stackValues := by
    split at widened
    · exact stackValues_setLocal widened
    · cases widened
      rfl
  have same' : after.stackValues = second.stackValues := by
    cases slot with
    | zero =>
      cases cleared
      rfl
    | succ previous =>
      obtain ⟨before, -, continued⟩ := bind_eq_ok.mp cleared
      split at continued
      · exact stackValues_setLocal continued
      · cases continued
        rfl
  rw [same', same, stackValues_setLocal written]

/-- The height after a shuffle is up to the height before it. -/
theorem height_shuffle
    (copies : ∀ {value copied}, domain.copy site value = .ok copied → width copied = width value)
    {shuffle : Shuffle} (executed : frame.executeShuffle domain site shuffle = .ok after) :
    (after.stackValues.map width).sum + shuffle.drops =
      (frame.stackValues.map width).sum + shuffle.adds := by
  simp only [executeShuffle, bind_eq_ok, Prod.exists, popShuffled_eq_ok, copyShuffled_eq_ok]
    at executed
  obtain ⟨items, rest, ⟨taken, takes, form⟩, values, becomes, pushed⟩ := executed
  have widths := map_of_becomes copies becomes
  have slots := form.slots
  rw [stackValues_takes takes, stackValues_pushAll pushed]
  simp only [List.map_append, List.sum_append, List.map_reverse, List.sum_reverse, widths]
  omega

theorem stackSlots_shuffle (graded : domain.Graded grade) {shuffle : Shuffle}
    (fits : frame.Fits shape) (fits' : after.Fits shape)
    (executed : frame.executeShuffle domain site shuffle = .ok after) :
    after.stackSlots + shuffle.drops = frame.stackSlots + shuffle.adds := by
  rw [fits.stackSlots_eq, fits'.stackSlots_eq]
  exact height_shuffle (fun copies => graded.width (graded.copy copies)) executed

/-- The values in a frame are those of another one as merges have left them. -/
structure Fades (grade : V → Nat) (frame other : Frame V) : Prop where
  locals : List.Forall₂ (MethodFlow.Fades grade) frame.locals other.locals
  stack : List.Forall₂ (MethodFlow.Fades grade) frame.stackValues other.stackValues

theorem Fades.refl (frame : Frame V) : frame.Fades grade frame :=
  ⟨List.forall₂_same.mpr fun value _ => .refl value,
    List.forall₂_same.mpr fun value _ => .refl value⟩

theorem Fades.trans (graded : domain.Graded grade) {upper middle lower : Frame V}
    (above : upper.Fades grade middle) (below : middle.Fades grade lower) : upper.Fades grade lower :=
  ⟨forall₂_trans above.locals below.locals fun _ _ _ => .trans graded,
    forall₂_trans above.stack below.stack fun _ _ _ => .trans graded⟩

theorem Merged.fades (graded : domain.Graded grade) {old new after : Frame V} {changed : Bool}
    (merged : Merged domain shape old new after changed) :
    after.Fades grade old ∧ after.Fades grade new :=
  ⟨⟨(merged.locals.fades graded).1, (merged.stack.fades graded).1⟩,
    ⟨(merged.locals.fades graded).2, (merged.stack.fades graded).2⟩⟩

namespace Fades

theorem stackSlots_le (graded : domain.Graded grade) (fades : frame.Fades grade other)
    (fits : frame.Fits shape) (fits' : other.Fits shape) : frame.stackSlots ≤ other.stackSlots := by
  rw [fits.stackSlots_eq, fits'.stackSlots_eq]
  exact (sum_width_le (fades.stack.imp fun _ _ fades => fades.width_le graded)).1

theorem grades_eq (graded : domain.Graded grade) (fades : frame.Fades grade other)
    (fits : frame.Fits shape) (fits' : other.Fits shape)
    (slots : frame.stackSlots = other.stackSlots) :
    frame.stackValues.map grade = other.stackValues.map grade := by
  rw [fits.stackSlots_eq, fits'.stackSlots_eq] at slots
  exact MethodFlow.Fades.grades_eq graded fades.stack slots

theorem pop (fades : frame.Fades grade other) (popped : frame.pop = .ok (value, rest))
    (popped' : other.pop = .ok (value', rest')) :
    MethodFlow.Fades grade value value' ∧ rest.Fades grade rest' := by
  have reversed := List.rel_reverse fades.stack
  rw [stackValues_pop popped, stackValues_pop popped', List.reverse_append, List.reverse_append]
    at reversed
  obtain ⟨stack, -, rfl⟩ := pop_eq_ok.mp popped
  obtain ⟨stack', -, rfl⟩ := pop_eq_ok.mp popped'
  cases reversed with
  | cons top below => exact ⟨top, fades.locals, List.forall₂_reverse_iff.mp below⟩

theorem takes (fades : frame.Fades grade other) {values values' : List V}
    (taken : Takes frame values rest) (taken' : Takes other values' rest')
    (same : values.length = values'.length) : rest.Fades grade rest' := by
  induction taken generalizing other values' with
  | none =>
    cases List.length_eq_zero_iff.mp same.symm
    cases taken'
    exact fades
  | more popped _ ih =>
    cases taken' with
    | none => cases same
    | more popped' further' => exact ih (fades.pop popped popped').2 further' (Nat.succ.inj same)

theorem push (fades : frame.Fades grade other) (faded : MethodFlow.Fades grade value value')
    (pushed : frame.push value = .ok after) (pushed' : other.push value' = .ok after') :
    after.Fades grade after' := by
  refine ⟨?_, ?_⟩
  · obtain ⟨rfl, -⟩ := push_eq_ok.mp pushed
    obtain ⟨rfl, -⟩ := push_eq_ok.mp pushed'
    exact fades.locals
  · rw [stackValues_push pushed, stackValues_push pushed']
    exact List.rel_append fades.stack (.cons faded .nil)

theorem pushResult (fades : frame.Fades grade other) {pushes : Bool} {result result' : Option V}
    (same : result.map grade = result'.map grade)
    (pushed : (if pushes then frame.pushProduced result else .ok frame) = .ok after)
    (pushed' : (if pushes then other.pushProduced result' else .ok other) = .ok after') :
    after.Fades grade after' := by
  cases pushes with
  | false =>
    cases pushed
    cases pushed'
    exact fades
  | true =>
    cases result with
    | none => cases pushed
    | some value =>
      cases result' with
      | none => cases pushed'
      | some value' => exact fades.push (.inl (Option.some.inj same)) pushed pushed'

theorem produce (fades : frame.Fades grade other)
    (executed : frame.executeProduce domain site = .ok after)
    (executed' : other.executeProduce domain site = .ok after') : after.Fades grade after' := by
  obtain ⟨value, produced, pushed⟩ := bind_eq_ok.mp executed
  obtain ⟨value', produced', pushed'⟩ := bind_eq_ok.mp executed'
  cases produced.symm.trans produced'
  exact fades.push (.refl value) pushed pushed'

variable (graded : domain.Graded grade) (fades : frame.Fades grade other)

include graded fades

theorem unary {pushes : Bool} (executed : frame.executeUnary domain site pushes = .ok after)
    (executed' : other.executeUnary domain site pushes = .ok after') :
    after.Fades grade after' := by
  simp only [executeUnary, bind_eq_ok, Prod.exists] at executed executed'
  obtain ⟨value, rest, popped, result, computed, pushed⟩ := executed
  obtain ⟨value', rest', popped', result', computed', pushed'⟩ := executed'
  exact (fades.pop popped popped').2.pushResult (graded.unary computed computed') pushed pushed'

theorem binary {pushes : Bool} (executed : frame.executeBinary domain site pushes = .ok after)
    (executed' : other.executeBinary domain site pushes = .ok after') :
    after.Fades grade after' := by
  simp only [executeBinary, bind_eq_ok, Prod.exists] at executed executed'
  obtain ⟨second, below, popped, first, rest, popped₂, result, computed, pushed⟩ := executed
  obtain ⟨second', below', popped', first', rest', popped₂', result', computed', pushed'⟩ := executed'
  have fades' := ((fades.pop popped popped').2.pop popped₂ popped₂').2
  exact fades'.pushResult (graded.binary computed computed') pushed pushed'

theorem nary {count : Nat} {pushes : Bool}
    (executed : frame.executeNary domain site count pushes = .ok after)
    (executed' : other.executeNary domain site count pushes = .ok after') :
    after.Fades grade after' := by
  simp only [executeNary, bind_eq_ok, Prod.exists, popMany_eq_ok] at executed executed'
  obtain ⟨values, rest, ⟨length, taken⟩, result, computed, pushed⟩ := executed
  obtain ⟨values', rest', ⟨length', taken'⟩, result', computed', pushed'⟩ := executed'
  have fades' := fades.takes taken taken' (by simp [length, length'])
  exact fades'.pushResult (graded.nary computed computed') pushed pushed'

theorem instruction {i : Instruction} (unshuffled : ∀ shuffle, i ≠ .shuffle shuffle)
    (executed : frame.executeInstruction domain site i = .ok after)
    (executed' : other.executeInstruction domain site i = .ok after') :
    List.Forall₂ (MethodFlow.Fades grade) after.stackValues after'.stackValues := by
  cases i with
  | nop =>
    cases executed
    cases executed'
    exact fades.stack
  | load kind slot =>
    simp only [executeInstruction, bind_eq_ok] at executed executed'
    obtain ⟨stored, read, value, copied, pushed⟩ := executed
    obtain ⟨stored', read', value', copied', pushed'⟩ := executed'
    obtain ⟨inside, rfl⟩ := List.getElem?_eq_some_iff.mp (local?_eq_ok.mp read)
    obtain ⟨inside', rfl⟩ := List.getElem?_eq_some_iff.mp (local?_eq_ok.mp read')
    exact (fades.push ((fades.locals.get inside inside').copy graded copied copied') pushed pushed').stack
  | store kind slot =>
    simp only [executeInstruction, bind_eq_ok, Prod.exists] at executed executed'
    obtain ⟨top, rest, popped, value, -, stored⟩ := executed
    obtain ⟨top', rest', popped', value', -, stored'⟩ := executed'
    rw [stackValues_store stored, stackValues_store stored']
    exact (fades.pop popped popped').2.stack
  | arrayStore kind =>
    simp only [executeInstruction, bind_eq_ok, Prod.exists] at executed executed'
    obtain ⟨_, _, popped, _, _, popped₂, _, _, popped₃, _, -, ended⟩ := executed
    obtain ⟨_, _, popped', _, _, popped₂', _, _, popped₃', _, -, ended'⟩ := executed'
    cases ended
    cases ended'
    exact (((fades.pop popped popped').2.pop popped₂ popped₂').2.pop popped₃ popped₃').2.stack
  | increment slot amount =>
    simp only [executeInstruction, bind_eq_ok] at executed executed'
    obtain ⟨_, -, result, -, written⟩ := executed
    obtain ⟨_, -, result', -, written'⟩ := executed'
    cases result with
    | none => cases written
    | some value =>
      cases result' with
      | none => cases written'
      | some value' =>
        rw [stackValues_setLocal written, stackValues_setLocal written']
        exact fades.stack
  | shuffle shape => exact absurd rfl (unshuffled shape)
  | pushNull | shortConstant | pushByte | pushShort | loadConstant | loadWideConstant | getStatic
  | newObject => exact (fades.produce executed executed').stack
  | negate | convert | getField | newPrimitiveArray | newArray | arrayLength | checkCast
  | instanceOf | putStatic | monitorEnter | monitorExit =>
    exact (unary graded fades executed executed').stack
  | arrayLoad | arithmetic | shift | bitwise | compare | putField =>
    exact (binary graded fades executed executed').stack
  | invoke | invokeDynamic | newMultiArray => exact (nary graded fades executed executed').stack

theorem branch {L : Type} {b : Branch L} (executed : frame.executeBranch domain site b = .ok after)
    (executed' : other.executeBranch domain site b = .ok after') : after.Fades grade after' := by
  cases b with
  | goto | ret =>
    cases executed
    cases executed'
    exact fades
  | voidReturn =>
    simp only [executeBranch] at executed executed'
    split at executed
    · cases executed
    · split at executed'
      · cases executed'
      · cases executed
        cases executed'
        exact fades
  | valueReturn kind =>
    simp only [executeBranch, executeReturn, bind_eq_ok, Prod.exists] at executed executed'
    obtain ⟨value, rest, popped, _, -, continued⟩ := executed
    obtain ⟨value', rest', popped', _, -, continued'⟩ := executed'
    split at continued
    · split at continued'
      · obtain ⟨_, -, ended⟩ := bind_eq_ok.mp continued
        obtain ⟨_, -, ended'⟩ := bind_eq_ok.mp continued'
        cases ended
        cases ended'
        exact (fades.pop popped popped').2
      · cases continued'
    · cases continued
  | jsr => exact fades.produce executed executed'
  | ifInts | ifReferences => exact binary graded fades executed executed'
  | ifZero | tableSwitch | lookupSwitch | throw | ifNull =>
    exact unary graded fades executed executed'

omit graded in
/-- Frames of one height that are left of each other match entry by entry. -/
theorem alongside (graded : domain.Graded grade) (fits : frame.Fits shape) (fits' : other.Fits shape)
    (slots : frame.stackSlots = other.stackSlots) :
    frame.Alongside (MethodFlow.Fades grade) (fun _ _ => True) other := by
  have grades := fades.grades_eq graded fits fits' slots
  have matched : List.Forall₂ (Matches (MethodFlow.Fades grade)) frame.stackValues
      other.stackValues := by
    have same : List.Forall₂ (· = ·) (frame.stackValues.map grade) (other.stackValues.map grade) := by
      rw [List.forall₂_eq_eq_eq]
      exact grades
    exact (List.forall₂_map_right_iff.mp (List.forall₂_map_left_iff.mp same)).imp
      fun _ _ same => ⟨.inl same, graded.width same⟩
  have results : Option.Rel (fun _ _ : V => True) frame.returnValue other.returnValue := by
    rw [fits.returnValue, fits'.returnValue]
    cases shape.returnValue with
    | none => exact .none
    | some value => exact .some trivial
  exact ⟨fades.locals, matched, fits.placed, fits'.placed,
    fits.maxStack.trans fits'.maxStack.symm, results⟩

/-- A shuffle of frames of one height pushes values of the same grades. -/
theorem shuffle {shuffle : Shuffle} (fits : frame.Fits shape) (fits' : other.Fits shape)
    (slots : frame.stackSlots = other.stackSlots)
    (executed : frame.executeShuffle domain site shuffle = .ok after)
    (executed' : other.executeShuffle domain site shuffle = .ok after') :
    after.stackValues.map grade = after'.stackValues.map grade := by
  simp only [executeShuffle, bind_eq_ok, Prod.exists, popShuffled_eq_ok, copyShuffled_eq_ok]
    at executed executed'
  obtain ⟨items, rest, ⟨taken, takes, form⟩, values, becomes, pushed⟩ := executed
  obtain ⟨items', rest', ⟨taken', takes', form'⟩, values', becomes', pushed'⟩ := executed'
  -- the form of the shuffle on the other frame is one on this frame, and there is only one
  obtain ⟨taken₂, rest₂, takes₂, matched, along⟩ :=
    (fades.alongside graded fits fits' slots).takes takes'
  obtain ⟨items₂, form₂, paired⟩ := form'.alongside matched
  cases (popShuffled_of_form takes form).symm.trans (popShuffled_of_form takes₂ form₂)
  have below : rest.stackValues.map grade = rest'.stackValues.map grade :=
    MethodFlow.Fades.grades_eq graded (along.stack.imp fun _ _ matched => matched.related)
      (sum_width_eq along.stack)
  have above : (items.map fun item => grade item.value) = items'.map fun item => grade item.value := by
    clear becomes becomes' pushed pushed' form form' form₂
    induction paired with
    | nil => rfl
    | cons pair _ ih =>
      simp only [List.map_cons, ih, List.cons.injEq, and_true]
      cases pair with
      | kept matched | copied matched =>
        exact (matched.related.resolve_right (Nat.not_lt_of_le (Nat.le_of_eq matched.width.symm)))
  rw [stackValues_pushAll pushed, stackValues_pushAll pushed', List.map_append, List.map_append,
    map_of_becomes graded.copy becomes, map_of_becomes graded.copy becomes', below, above]

/-- An operation that fills as many slots from a frame as from one that it is left of fills them with
values of the same grades. -/
theorem execute (fits : frame.Fits shape) (fits' : other.Fits shape)
    (executed : frame.execute domain site = .ok after)
    (executed' : other.execute domain site = .ok after')
    (slots : after.stackSlots = after'.stackSlots) :
    after.stackValues.map grade = after'.stackValues.map grade := by
  have same (faded : List.Forall₂ (MethodFlow.Fades grade) after.stackValues after'.stackValues) :
      after.stackValues.map grade = after'.stackValues.map grade := by
    rw [(fits.execute executed).stackSlots_eq, (fits'.execute executed').stackSlots_eq] at slots
    exact MethodFlow.Fades.grades_eq graded faded slots
  have fitting := fits.execute executed
  have fitting' := fits'.execute executed'
  unfold Frame.execute at executed executed'
  split at executed
  · rename_i i operated
    simp only [operated] at executed'
    by_cases shuffled : ∃ shuffle, i = .shuffle shuffle
    · obtain ⟨shuffle, rfl⟩ := shuffled
      have heights := stackSlots_shuffle graded fits fitting executed
      have heights' := stackSlots_shuffle graded fits' fitting' executed'
      exact fades.shuffle graded fits fits' (by omega) executed executed'
    · exact same (fades.instruction graded (fun shuffle same => shuffled ⟨shuffle, same⟩) executed
        executed')
  · rename_i b operated
    simp only [operated] at executed'
    exact same (fades.branch graded executed executed').stack

end Fades

/-- A branch leaves a lower stack, unless it only jumps, or goes nowhere along the code. -/
theorem stackSlots_branch {L : Type} {b : Branch L} (placed : frame.stack.Placed)
    (wide : ∀ value ∈ frame.stackValues, 1 ≤ width value) (uncalled : ∀ target, b ≠ .jsr target)
    (executed : frame.executeBranch domain site b = .ok after) :
    after.stackSlots < frame.stackSlots ∨ after = frame ∧
      ((∃ target, b = .goto target) ∨ b.jumpTargets = [] ∧ b.fallsThrough = false) := by
  have popped {value : V} {rest : Frame V} (popped : frame.pop = .ok (value, rest)) :
      rest.stackSlots < frame.stackSlots ∧ rest.stack.Placed := by
    obtain ⟨placed', slots⟩ := stackSlots_pop placed popped
    have top := wide value (by simp [stackValues_pop popped])
    exact ⟨by omega, placed'⟩
  cases b with
  | goto target =>
    cases executed
    exact .inr ⟨rfl, .inl ⟨target, rfl⟩⟩
  | ret =>
    cases executed
    exact .inr ⟨rfl, .inr ⟨rfl, rfl⟩⟩
  | voidReturn =>
    simp only [executeBranch] at executed
    split at executed
    · cases executed
    · cases executed
      exact .inr ⟨rfl, .inr ⟨rfl, rfl⟩⟩
  | valueReturn kind =>
    simp only [executeBranch, executeReturn, bind_eq_ok, Prod.exists] at executed
    obtain ⟨value, rest, first, _, -, continued⟩ := executed
    split at continued
    · obtain ⟨_, -, ended⟩ := bind_eq_ok.mp continued
      cases ended
      exact .inl (popped first).1
    · cases continued
  | jsr target => exact absurd rfl (uncalled target)
  | ifInts | ifReferences =>
    simp only [executeBranch, executeBinary, bind_eq_ok, Prod.exists] at executed
    obtain ⟨_, below, first, _, rest, second, _, -, ended⟩ := executed
    cases ended
    obtain ⟨lower, placed'⟩ := popped first
    obtain ⟨-, slots⟩ := stackSlots_pop placed' second
    exact .inl (by omega)
  | ifZero | tableSwitch | lookupSwitch | throw | ifNull =>
    simp only [executeBranch, executeUnary, bind_eq_ok, Prod.exists] at executed
    obtain ⟨_, rest, first, _, -, ended⟩ := executed
    cases ended
    exact .inl (popped first).1

end Frame

end MethodFlow
