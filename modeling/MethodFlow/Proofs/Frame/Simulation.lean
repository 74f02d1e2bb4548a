import MethodFlow.Proofs.Frame.Shape

namespace MethodFlow

variable {V W : Type} [AbstractValue V] [AbstractValue W]

structure Matches (related : V → W → Prop) (value : V) (other : W) : Prop where
  related : related value other
  width : width value = width other

/-- Where an operation of the second domain yields a value, that of the first one yields one that
matches it. -/
inductive Yields (related : V → W → Prop) : Option V → Option W → Prop where
  | none {result : Option V} : Yields related result none
  | some {value : V} {value' : W} (matched : Matches related value value') :
      Yields related (some value) (some value')

theorem Yields.refl {related : V → V → Prop} (self : ∀ value, related value value)
    (result : Option V) : Yields related result result := by
  cases result with
  | none => exact .none
  | some value => exact .some ⟨self value, rfl⟩

/-- The first domain does at a site what the second one does, on related operands. Locals are related
whatever slots they take, values on the stack take as many. -/
structure Domain.Follows (domain : Domain V) (other : Domain W) (site : Site)
    (related returned : V → W → Prop) : Prop where
  unusable : related domain.unusable other.unusable
  cut : ∀ {value value'}, related value value' → width value = 2 → width value' ≠ 2 →
    related domain.unusable value'
  cut' : ∀ {value value'}, related value value' → width value' = 2 → width value ≠ 2 →
    related value other.unusable
  produce : ∀ {value'}, other.produce site = .ok value' →
    ∃ value, domain.produce site = .ok value ∧ Matches related value value'
  copy : ∀ {value value' copied'}, related value value' → other.copy site value' = .ok copied' →
    ∃ copied, domain.copy site value = .ok copied ∧ related copied copied' ∧
      (width value = width value' → width copied = width copied')
  load : ∀ {kind slot value value' copied'}, site.operation = .instruction (.load kind slot) →
    related value value' → other.copy site value' = .ok copied' → width value = width value'
  unary : ∀ {value value' result'}, related value value' → other.unary site value' = .ok result' →
    ∃ result, domain.unary site value = .ok result ∧ Yields related result result'
  binary : ∀ {first second first' second' result'}, Matches related first first' →
    Matches related second second' → other.binary site first' second' = .ok result' →
    ∃ result, domain.binary site first second = .ok result ∧ Yields related result result'
  ternary : ∀ {first second third first' second' third' result'}, Matches related first first' →
    Matches related second second' → Matches related third third' →
    other.ternary site first' second' third' = .ok result' →
    ∃ result, domain.ternary site first second third = .ok result
  nary : ∀ {values values' result'}, List.Forall₂ (Matches related) values values' →
    other.nary site values' = .ok result' →
    ∃ result, domain.nary site values = .ok result ∧ Yields related result result'
  checkReturn : ∀ {value value' expected expected' result'}, related value value' →
    other.unary site value' = .ok result' → returned expected expected' →
    other.checkReturn site value' expected' = .ok () → domain.checkReturn site value expected = .ok ()

/-- Two items of a shuffle treat values that match alike. -/
inductive Shuffled.Pairs (related : V → W → Prop) : Shuffled V → Shuffled W → Prop where
  | kept {value : V} {value' : W} (matched : Matches related value value') :
      Pairs related (.kept value) (.kept value')
  | copied {value : V} {value' : W} (matched : Matches related value value') :
      Pairs related (.copied value) (.copied value')

variable {related returned : V → W → Prop}

theorem UnderTwoForm.alongside {top : V} {top' : W} {taken : List V} {taken' : List W}
    {items' : List (Shuffled W)} (form : UnderTwoForm top' taken' items')
    (matched : Matches related top top') (others : List.Forall₂ (Matches related) taken taken') :
    ∃ items, UnderTwoForm top taken items ∧
      List.Forall₂ (Shuffled.Pairs related) items items' := by
  cases form with
  | narrow narrow₂ narrow₃ =>
    obtain _ | ⟨second, _ | ⟨third, _ | _⟩⟩ := others
    exact ⟨_, .narrow (second.width.trans narrow₂) (third.width.trans narrow₃),
      .cons (.copied matched) (.cons (.kept third) (.cons (.kept second)
        (.cons (.kept matched) .nil)))⟩
  | wide wide₂ =>
    obtain _ | ⟨second, _ | _⟩ := others
    exact ⟨_, .wide (second.width.trans wide₂),
      .cons (.copied matched) (.cons (.kept second) (.cons (.kept matched) .nil))⟩

/-- The form of a shuffle on values is its form on values that match them. -/
theorem ShuffleForm.alongside {shape : Shuffle} {taken : List V} {taken' : List W}
    {items' : List (Shuffled W)} (form : ShuffleForm shape taken' items')
    (others : List.Forall₂ (Matches related) taken taken') :
    ∃ items, ShuffleForm shape taken items ∧
      List.Forall₂ (Shuffled.Pairs related) items items' := by
  cases form with
  | pop narrow₁ =>
    obtain _ | ⟨first, _ | _⟩ := others
    exact ⟨_, .pop (first.width.trans narrow₁),
      .nil⟩
  | popTwo narrow₁ narrow₂ =>
    obtain _ | ⟨first, _ | ⟨second, _ | _⟩⟩ := others
    exact ⟨_, .popTwo (first.width.trans narrow₁) (second.width.trans narrow₂),
      .nil⟩
  | popWide wide =>
    obtain _ | ⟨first, _ | _⟩ := others
    exact ⟨_, .popWide (first.width.trans wide),
      .nil⟩
  | dup narrow₁ =>
    obtain _ | ⟨first, _ | _⟩ := others
    exact ⟨_, .dup (first.width.trans narrow₁),
      .cons (.kept first) (.cons (.copied first) .nil)⟩
  | dupX1 narrow₁ narrow₂ =>
    obtain _ | ⟨first, _ | ⟨second, _ | _⟩⟩ := others
    exact ⟨_, .dupX1 (first.width.trans narrow₁) (second.width.trans narrow₂),
      .cons (.copied first) (.cons (.kept second) (.cons (.kept first) .nil))⟩
  | dupX2 narrow₁ form =>
    obtain _ | ⟨first, others⟩ := others
    obtain ⟨items, form, paired⟩ := form.alongside first others
    exact ⟨items, .dupX2 (first.width.trans narrow₁) form, paired⟩
  | dupTwo narrow₁ narrow₂ =>
    obtain _ | ⟨first, _ | ⟨second, _ | _⟩⟩ := others
    exact ⟨_, .dupTwo (first.width.trans narrow₁) (second.width.trans narrow₂),
      .cons (.kept second) (.cons (.kept first) (.cons (.copied second) (.cons (.copied first) .nil)))⟩
  | dupWide wide =>
    obtain _ | ⟨first, _ | _⟩ := others
    exact ⟨_, .dupWide (first.width.trans wide),
      .cons (.kept first) (.cons (.copied first) .nil)⟩
  | dupTwoX1 narrow₁ narrow₂ narrow₃ =>
    obtain _ | ⟨first, _ | ⟨second, _ | ⟨third, _ | _⟩⟩⟩ := others
    exact ⟨_, .dupTwoX1 (first.width.trans narrow₁) (second.width.trans narrow₂)
      (third.width.trans narrow₃),
      .cons (.copied second) (.cons (.copied first) (.cons (.kept third)
        (.cons (.kept second) (.cons (.kept first) .nil))))⟩
  | dupWideX1 wide narrow₂ =>
    obtain _ | ⟨first, _ | ⟨second, _ | _⟩⟩ := others
    exact ⟨_, .dupWideX1 (first.width.trans wide) (second.width.trans narrow₂),
      .cons (.copied first) (.cons (.kept second) (.cons (.kept first) .nil))⟩
  | dupTwoX2 narrow₁ narrow₂ narrow₃ narrow₄ =>
    obtain _ | ⟨first, _ | ⟨second, _ | ⟨third, _ | ⟨fourth, _ | _⟩⟩⟩⟩ := others
    exact ⟨_, .dupTwoX2 (first.width.trans narrow₁) (second.width.trans narrow₂)
      (third.width.trans narrow₃) (fourth.width.trans narrow₄),
      .cons (.copied second) (.cons (.copied first) (.cons (.kept fourth) (.cons (.kept third)
        (.cons (.kept second) (.cons (.kept first) .nil)))))⟩
  | dupTwoXWide narrow₁ narrow₂ wide =>
    obtain _ | ⟨first, _ | ⟨second, _ | ⟨third, _ | _⟩⟩⟩ := others
    exact ⟨_, .dupTwoXWide (first.width.trans narrow₁) (second.width.trans narrow₂)
      (third.width.trans wide),
      .cons (.copied second) (.cons (.copied first) (.cons (.kept third)
        (.cons (.kept second) (.cons (.kept first) .nil))))⟩
  | dupWideX2 wide form =>
    obtain _ | ⟨first, others⟩ := others
    obtain ⟨items, form, paired⟩ := form.alongside first others
    exact ⟨items, .dupWideX2 (first.width.trans wide) form, paired⟩
  | swap narrow₁ narrow₂ =>
    obtain _ | ⟨first, _ | ⟨second, _ | _⟩⟩ := others
    exact ⟨_, .swap (first.width.trans narrow₁) (second.width.trans narrow₂),
      .cons (.copied first) (.cons (.copied second) .nil)⟩

namespace Frame

theorem becomes_alongside {domain : Domain V} {domain' : Domain W} {site : Site}
    (follows : domain.Follows domain' site related returned) {items : List (Shuffled V)}
    {items' : List (Shuffled W)} {values' : List W}
    (paired : List.Forall₂ (Shuffled.Pairs related) items items')
    (becomes : List.Forall₂ (Shuffled.Becomes domain' site) items' values') :
    ∃ values, List.Forall₂ (Shuffled.Becomes domain site) items values ∧
      List.Forall₂ (Matches related) values values' := by
  induction paired generalizing values' with
  | nil =>
    cases becomes
    exact ⟨[], .nil, .nil⟩
  | cons pair _ ih =>
    cases becomes with
    | cons head tail =>
      obtain ⟨values, becomes, matched⟩ := ih tail
      cases pair with
      | kept same =>
        cases head
        exact ⟨_ :: values, .cons .kept becomes, .cons same matched⟩
      | copied same =>
        cases head with
        | copied copies' =>
          obtain ⟨copy, copies, fine, wide⟩ := follows.copy same.related copies'
          exact ⟨copy :: values, .cons (.copied copies) becomes,
            .cons ⟨fine, wide same.width⟩ matched⟩

/-- Two frames hold related values, and their stacks match value by value. -/
structure Alongside (related returned : V → W → Prop) (frame : Frame V) (other : Frame W) :
    Prop where
  locals : List.Forall₂ related frame.locals other.locals
  stack : List.Forall₂ (Matches related) frame.stackValues other.stackValues
  placed : frame.stack.Placed
  placed' : other.stack.Placed
  maxStack : frame.maxStack = other.maxStack
  returnValue : Option.Rel returned frame.returnValue other.returnValue

theorem pop_of_values {frame : Frame V} (placed : frame.stack.Placed) {below : List V} {value : V}
    (values : frame.stackValues = below ++ [value]) :
    frame.pop = .ok (value, { frame with stack := .ofList below }) := by
  have stack : frame.stack = (SlotVec.ofList below).push value := by
    rw [placed, ← SlotVec.ofList_concat]
    exact congrArg SlotVec.ofList values
  exact pop_eq_ok.mpr ⟨_, by rw [stack, SlotVec.pop?_push], rfl⟩

omit [AbstractValue V] in
theorem setLocal_self {frame : Frame V} {slot : Nat} {value : V}
    (found : frame.local? slot = .ok value) : frame.setLocal slot value = .ok frame := by
  obtain ⟨inside, rfl⟩ := List.getElem?_eq_some_iff.mp (local?_eq_ok.mp found)
  refine setLocal_eq_ok.mpr ⟨inside, ?_⟩
  rw [List.set_getElem_self]

theorem sum_width_eq {values : List V} {others : List W}
    (matched : List.Forall₂ (Matches related) values others) :
    (values.map width).sum = (others.map width).sum := by
  induction matched with
  | nil => rfl
  | cons head _ ih => simp only [List.map_cons, List.sum_cons, head.width, ih]

namespace Alongside

variable {frame : Frame V} {other rest' after' : Frame W}

theorem imp {related' : V → W → Prop} (along : frame.Alongside related returned other)
    (weaker : ∀ value value', related value value' → related' value value') :
    frame.Alongside related' returned other :=
  ⟨along.locals.imp weaker, along.stack.imp fun _ _ matched =>
    ⟨weaker _ _ matched.related, matched.width⟩, along.placed, along.placed', along.maxStack,
    along.returnValue⟩

/-- What holds of the values of the first frame may be used to relate them. -/
theorem and_holds {holds : V → Prop} (along : frame.Alongside related returned other)
    (fine : frame.Holds holds) :
    frame.Alongside (fun value value' => holds value ∧ related value value') returned other := by
  refine ⟨(List.forall₂_and_left _ _).mpr ⟨fine.locals, along.locals⟩, ?_, along.placed, along.placed',
    along.maxStack, along.returnValue⟩
  refine ((List.forall₂_and_left _ _).mpr ⟨fine.stack, along.stack⟩).imp ?_
  rintro value value' ⟨holds, matched⟩
  exact ⟨⟨holds, matched.related⟩, matched.width⟩

theorem stackSlots_eq (along : frame.Alongside related returned other) :
    frame.stackSlots = other.stackSlots := by
  rw [stackSlots, stackSlots, along.placed.slots_eq, along.placed'.slots_eq]
  exact sum_width_eq along.stack

theorem clearStack (along : frame.Alongside related returned other) :
    frame.clearStack.Alongside related returned other.clearStack :=
  ⟨along.locals, .nil, SlotVec.placed_ofList [], SlotVec.placed_ofList [], along.maxStack,
    along.returnValue⟩

theorem pop (along : frame.Alongside related returned other) {value' : W}
    (popped : other.pop = .ok (value', rest')) :
    ∃ value rest, frame.pop = .ok (value, rest) ∧ Matches related value value' ∧
      rest.Alongside related returned rest' := by
  have stack := along.stack
  have values := stackValues_pop popped
  rw [values] at stack
  have below := List.forall₂_take_append _ _ _ stack
  have top := List.forall₂_drop_append _ _ _ stack
  obtain ⟨value, _, matched, none, single⟩ := List.forall₂_cons_right_iff.mp top
  cases none
  have whole : frame.stackValues = frame.stackValues.take rest'.stackValues.length ++ [value] := by
    rw [← single, List.take_append_drop]
  obtain ⟨stack', taken, rfl⟩ := pop_eq_ok.mp popped
  refine ⟨value, _, pop_of_values along.placed whole, matched, along.locals, ?_,
    SlotVec.placed_ofList _, along.placed'.pop? taken, along.maxStack, along.returnValue⟩
  simpa only [stackValues, SlotVec.toList_ofList] using below

theorem push (along : frame.Alongside related returned other) {value : V} {value' : W}
    (matched : Matches related value value') (pushed : other.push value' = .ok after') :
    ∃ after, frame.push value = .ok after ∧ after.Alongside related returned after' := by
  obtain ⟨rfl, room⟩ := push_eq_ok.mp pushed
  refine ⟨_, push_eq_ok.mpr ⟨rfl, fun bound declared => ?_⟩, along.locals, ?_,
    along.placed.push value, along.placed'.push value', along.maxStack, along.returnValue⟩
  · rw [along.stackSlots_eq, matched.width]
    exact room bound (along.maxStack ▸ declared)
  · simp only [stackValues, SlotVec.toList_push]
    exact List.rel_append along.stack (.cons matched .nil)

theorem read (along : frame.Alongside related returned other) {slot : Nat} {value' : W}
    (found : other.local? slot = .ok value') :
    ∃ value, frame.local? slot = .ok value ∧ related value value' := by
  obtain ⟨inside', rfl⟩ := List.getElem?_eq_some_iff.mp (local?_eq_ok.mp found)
  have inside : slot < frame.locals.length := along.locals.length_eq ▸ inside'
  exact ⟨_, local?_eq_ok.mpr (List.getElem?_eq_getElem inside), along.locals.get inside inside'⟩

theorem write (along : frame.Alongside related returned other) {slot : Nat} {value : V} {value' : W}
    (fine : related value value') (written : other.setLocal slot value' = .ok after') :
    ∃ after, frame.setLocal slot value = .ok after ∧ after.Alongside related returned after' := by
  obtain ⟨inside', rfl⟩ := setLocal_eq_ok.mp written
  have inside : slot < frame.locals.length := along.locals.length_eq ▸ inside'
  refine ⟨_, setLocal_eq_ok.mpr ⟨inside, rfl⟩, ?_, along.stack, along.placed, along.placed',
    along.maxStack, along.returnValue⟩
  rw [List.forall₂_iff_get]
  refine ⟨by simpa using along.locals.length_eq, fun index first second => ?_⟩
  simp only [List.get_eq_getElem, List.getElem_set]
  split
  · exact fine
  · exact along.locals.get _ _

theorem takes (along : frame.Alongside related returned other) {values' : List W}
    (taken : Takes other values' rest') :
    ∃ values rest, Takes frame values rest ∧ List.Forall₂ (Matches related) values values' ∧
      rest.Alongside related returned rest' := by
  induction taken generalizing frame with
  | none => exact ⟨[], frame, .none, .nil, along⟩
  | more popped _ ih =>
    obtain ⟨value, below, popped, matched, along'⟩ := along.pop popped
    obtain ⟨values, rest, further, others, along''⟩ := ih along'
    exact ⟨value :: values, rest, .more popped further, .cons matched others, along''⟩

theorem popMany (along : frame.Alongside related returned other) {count : Nat} {values' : List W}
    (popped : other.popMany count = .ok (values', rest')) :
    ∃ values rest, frame.popMany count = .ok (values, rest) ∧
      List.Forall₂ (Matches related) values values' ∧ rest.Alongside related returned rest' := by
  obtain ⟨length, taken⟩ := popMany_eq_ok.mp popped
  obtain ⟨values, rest, taken', matched, along'⟩ := along.takes taken
  have matched' := List.rel_reverse matched
  rw [List.reverse_reverse] at matched'
  refine ⟨values.reverse, rest, popMany_eq_ok.mpr ⟨?_, ?_⟩, matched', along'⟩
  · exact matched'.length_eq.trans length
  · rwa [List.reverse_reverse]

theorem pushAll (along : frame.Alongside related returned other) {values : List V}
    {values' : List W} (matched : List.Forall₂ (Matches related) values values')
    (pushed : other.pushAll values' = .ok after') :
    ∃ after, frame.pushAll values = .ok after ∧ after.Alongside related returned after' := by
  induction matched generalizing frame other with
  | nil =>
    cases pushed
    exact ⟨frame, rfl, along⟩
  | cons head _ ih =>
    obtain ⟨middle', first, others⟩ := bind_eq_ok.mp pushed
    obtain ⟨middle, first', along'⟩ := along.push head first
    obtain ⟨after, others', along''⟩ := ih along' others
    exact ⟨after, bind_eq_ok.mpr ⟨middle, first', others'⟩, along''⟩

theorem pushProduced (along : frame.Alongside related returned other) {result : Option V}
    {result' : Option W} (matched : Yields related result result')
    (pushed : other.pushProduced result' = .ok after') :
    ∃ after, frame.pushProduced result = .ok after ∧ after.Alongside related returned after' := by
  cases matched with
  | none => cases pushed
  | some matched => exact along.push matched pushed

variable {domain : Domain V} {domain' : Domain W} {site : Site}

theorem clearBefore (follows : domain.Follows domain' site related returned)
    (along : frame.Alongside related returned other) {index : Nat}
    (cleared : other.clearBefore domain' index = .ok after') :
    ∃ after, frame.clearBefore domain index = .ok after ∧
      after.Alongside related returned after' := by
  cases index with
  | zero =>
    cases cleared
    exact ⟨frame, rfl, along⟩
  | succ previous =>
    obtain ⟨before', found', rest'⟩ := bind_eq_ok.mp cleared
    obtain ⟨before, found, fine⟩ := along.read found'
    simp only [Frame.clearBefore, bind_eq_ok]
    by_cases wide : width before = 2 <;> by_cases wide' : width before' = 2 <;>
      simp only [wide', ↓reduceIte] at rest'
    · obtain ⟨after, written, along'⟩ := along.write follows.unusable rest'
      exact ⟨after, ⟨before, found, by simpa only [wide, ↓reduceIte] using written⟩, along'⟩
    · cases rest'
      obtain ⟨after, written, along'⟩ :=
        along.write (follows.cut fine wide wide') (setLocal_self found')
      exact ⟨after, ⟨before, found, by simpa only [wide, ↓reduceIte] using written⟩, along'⟩
    · obtain ⟨after, written, along'⟩ := along.write (follows.cut' fine wide' wide) rest'
      cases written.symm.trans (setLocal_self found)
      exact ⟨frame, ⟨before, found, by simp only [wide, ↓reduceIte]; rfl⟩, along'⟩
    · cases rest'
      exact ⟨frame, ⟨before, found, by simp only [wide, ↓reduceIte]; rfl⟩, along⟩

theorem store (follows : domain.Follows domain' site related returned)
    (along : frame.Alongside related returned other) {index : Nat} {value : V} {value' : W}
    (fine : related value value') (same : width value = width value')
    (stored : other.store domain' index value' = .ok after') :
    ∃ after, frame.store domain index value = .ok after ∧
      after.Alongside related returned after' := by
  obtain ⟨first', second', written', widened', cleared'⟩ := store_eq_ok.mp stored
  obtain ⟨first, written, along₁⟩ := along.write fine written'
  obtain ⟨second, widened, along₂⟩ : ∃ second,
      (if width value = 2 then first.setLocal (index + 1) domain.unusable else .ok first) =
        .ok second ∧ second.Alongside related returned second' := by
    by_cases wide : width value' = 2 <;> simp only [same, wide, ↓reduceIte] at widened' ⊢
    · exact along₁.write follows.unusable widened'
    · cases widened'
      exact ⟨first, rfl, along₁⟩
  obtain ⟨after, cleared, along₃⟩ := along₂.clearBefore follows cleared'
  exact ⟨after, store_eq_ok.mpr ⟨first, second, written, widened, cleared⟩, along₃⟩

theorem shuffle (follows : domain.Follows domain' site related returned)
    (along : frame.Alongside related returned other) {shape : Shuffle}
    (executed : other.executeShuffle domain' site shape = .ok after') :
    ∃ after, frame.executeShuffle domain site shape = .ok after ∧
      after.Alongside related returned after' := by
  simp only [executeShuffle, bind_eq_ok, Prod.exists, popShuffled_eq_ok, copyShuffled_eq_ok]
    at executed ⊢
  obtain ⟨items', rest', ⟨taken', takes', form'⟩, values', copies', pushed'⟩ := executed
  obtain ⟨taken, rest, takes, matched, along'⟩ := along.takes takes'
  obtain ⟨items, form, paired⟩ := form'.alongside matched
  obtain ⟨values, copies, matched'⟩ := becomes_alongside follows paired copies'
  obtain ⟨after, pushed, along''⟩ := along'.pushAll matched' pushed'
  exact ⟨after, ⟨items, rest, ⟨taken, takes, form⟩, values, copies, pushed⟩, along''⟩

theorem produce (follows : domain.Follows domain' site related returned)
    (along : frame.Alongside related returned other)
    (executed : other.executeProduce domain' site = .ok after') :
    ∃ after, frame.executeProduce domain site = .ok after ∧
      after.Alongside related returned after' := by
  obtain ⟨value', produced', pushed'⟩ := bind_eq_ok.mp executed
  obtain ⟨value, produced, matched⟩ := follows.produce produced'
  obtain ⟨after, pushed, along'⟩ := along.push matched pushed'
  exact ⟨after, bind_eq_ok.mpr ⟨value, produced, pushed⟩, along'⟩

theorem pushResult (along : frame.Alongside related returned other) {pushes : Bool}
    {result : Option V} {result' : Option W} (matched : Yields related result result')
    (pushed : (if pushes then other.pushProduced result' else .ok other) = .ok after') :
    ∃ after, (if pushes then frame.pushProduced result else .ok frame) = .ok after ∧
      after.Alongside related returned after' := by
  cases pushes with
  | true => exact along.pushProduced matched pushed
  | false =>
    cases pushed
    exact ⟨frame, rfl, along⟩

theorem unary (follows : domain.Follows domain' site related returned)
    (along : frame.Alongside related returned other) {pushes : Bool}
    (executed : other.executeUnary domain' site pushes = .ok after') :
    ∃ after, frame.executeUnary domain site pushes = .ok after ∧
      after.Alongside related returned after' := by
  simp only [executeUnary, bind_eq_ok, Prod.exists] at executed ⊢
  obtain ⟨value', rest', popped', result', computed', pushed'⟩ := executed
  obtain ⟨value, rest, popped, matched, along'⟩ := along.pop popped'
  obtain ⟨result, computed, matched'⟩ := follows.unary matched.related computed'
  obtain ⟨after, pushed, along''⟩ := along'.pushResult matched' pushed'
  exact ⟨after, ⟨value, rest, popped, result, computed, pushed⟩, along''⟩

theorem binary (follows : domain.Follows domain' site related returned)
    (along : frame.Alongside related returned other) {pushes : Bool}
    (executed : other.executeBinary domain' site pushes = .ok after') :
    ∃ after, frame.executeBinary domain site pushes = .ok after ∧
      after.Alongside related returned after' := by
  simp only [executeBinary, bind_eq_ok, Prod.exists] at executed ⊢
  obtain ⟨second', below', popped', first', rest', popped₂', result', computed', pushed'⟩ := executed
  obtain ⟨second, below, popped, matched, along'⟩ := along.pop popped'
  obtain ⟨first, rest, popped₂, matched₂, along''⟩ := along'.pop popped₂'
  obtain ⟨result, computed, matched'⟩ := follows.binary matched₂ matched computed'
  obtain ⟨after, pushed, along₃⟩ := along''.pushResult matched' pushed'
  exact ⟨after, ⟨second, below, popped, first, rest, popped₂, result, computed, pushed⟩, along₃⟩

theorem nary (follows : domain.Follows domain' site related returned)
    (along : frame.Alongside related returned other) {count : Nat} {pushes : Bool}
    (executed : other.executeNary domain' site count pushes = .ok after') :
    ∃ after, frame.executeNary domain site count pushes = .ok after ∧
      after.Alongside related returned after' := by
  simp only [executeNary, bind_eq_ok, Prod.exists] at executed ⊢
  obtain ⟨values', rest', popped', result', computed', pushed'⟩ := executed
  obtain ⟨values, rest, popped, matched, along'⟩ := along.popMany popped'
  obtain ⟨result, computed, matched'⟩ := follows.nary matched computed'
  obtain ⟨after, pushed, along''⟩ := along'.pushResult matched' pushed'
  exact ⟨after, ⟨values, rest, popped, result, computed, pushed⟩, along''⟩

theorem arrayStore (follows : domain.Follows domain' site related returned)
    (along : frame.Alongside related returned other) {kind : ArrayKind}
    (executed : other.executeInstruction domain' site (.arrayStore kind) = .ok after') :
    ∃ after, frame.executeInstruction domain site (.arrayStore kind) = .ok after ∧
      after.Alongside related returned after' := by
  simp only [executeInstruction, bind_eq_ok, Prod.exists] at executed ⊢
  obtain ⟨third', _, popped', second', _, popped₂', first', _, popped₃', _, computed', ended⟩ :=
    executed
  cases ended
  obtain ⟨third, _, popped, matched, along₁⟩ := along.pop popped'
  obtain ⟨second, _, popped₂, matched₂, along₂⟩ := along₁.pop popped₂'
  obtain ⟨first, rest, popped₃, matched₃, along₃⟩ := along₂.pop popped₃'
  obtain ⟨result, computed⟩ := follows.ternary matched₃ matched₂ matched computed'
  exact ⟨rest, ⟨third, _, popped, second, _, popped₂, first, rest, popped₃, result, computed, rfl⟩,
    along₃⟩

theorem instruction {i : Instruction} (operated : site.operation = .instruction i)
    (follows : domain.Follows domain' site related returned)
    (along : frame.Alongside related returned other)
    (executed : other.executeInstruction domain' site i = .ok after') :
    ∃ after, frame.executeInstruction domain site i = .ok after ∧
      after.Alongside related returned after' := by
  cases i with
  | nop =>
    cases executed
    exact ⟨frame, rfl, along⟩
  | load kind slot =>
    simp only [executeInstruction, bind_eq_ok] at executed ⊢
    obtain ⟨stored', read', value', copied', pushed'⟩ := executed
    obtain ⟨stored, read, fine⟩ := along.read read'
    obtain ⟨value, copied, fine', wide⟩ := follows.copy fine copied'
    obtain ⟨after, pushed, along'⟩ :=
      along.push ⟨fine', wide (follows.load operated fine copied')⟩ pushed'
    exact ⟨after, ⟨stored, read, value, copied, pushed⟩, along'⟩
  | store kind slot =>
    simp only [executeInstruction, bind_eq_ok, Prod.exists] at executed ⊢
    obtain ⟨top', rest', popped', value', copied', stored'⟩ := executed
    obtain ⟨top, rest, popped, matched, along'⟩ := along.pop popped'
    obtain ⟨value, copied, fine, wide⟩ := follows.copy matched.related copied'
    obtain ⟨after, stored, along''⟩ := along'.store follows fine (wide matched.width) stored'
    exact ⟨after, ⟨top, rest, popped, value, copied, stored⟩, along''⟩
  | increment slot amount =>
    simp only [executeInstruction, bind_eq_ok] at executed ⊢
    obtain ⟨stored', read', result', computed', written'⟩ := executed
    obtain ⟨stored, read, fine⟩ := along.read read'
    obtain ⟨result, computed, matched⟩ := follows.unary fine computed'
    cases matched with
    | none => cases written'
    | some matched =>
      obtain ⟨after, written, along'⟩ := along.write matched.related written'
      exact ⟨after, ⟨stored, read, _, computed, written⟩, along'⟩
  | arrayStore kind => exact along.arrayStore follows executed
  | shuffle shape => exact along.shuffle follows executed
  | pushNull | shortConstant | pushByte | pushShort | loadConstant | loadWideConstant | getStatic
  | newObject => exact along.produce follows executed
  | negate | convert | getField | newPrimitiveArray | newArray | arrayLength | checkCast
  | instanceOf | putStatic | monitorEnter | monitorExit => exact along.unary follows executed
  | arrayLoad | arithmetic | shift | bitwise | compare | putField =>
    exact along.binary follows executed
  | invoke | invokeDynamic | newMultiArray => exact along.nary follows executed

theorem branch {L : Type} {b : Branch L} (follows : domain.Follows domain' site related returned)
    (along : frame.Alongside related returned other)
    (executed : other.executeBranch domain' site b = .ok after') :
    ∃ after, frame.executeBranch domain site b = .ok after ∧
      after.Alongside related returned after' := by
  cases b with
  | goto | ret =>
    cases executed
    exact ⟨frame, rfl, along⟩
  | voidReturn =>
    have results := along.returnValue
    simp only [executeBranch] at executed ⊢
    split at executed
    · cases executed
    · rename_i none
      cases executed
      rw [none] at results
      cases matched : frame.returnValue with
      | none => exact ⟨frame, rfl, along⟩
      | some expected =>
        rw [matched] at results
        cases results
  | valueReturn kind =>
    simp only [executeBranch, executeReturn, bind_eq_ok, Prod.exists] at executed ⊢
    obtain ⟨value', rest', popped', result', computed', continued'⟩ := executed
    obtain ⟨value, rest, popped, matched, along'⟩ := along.pop popped'
    obtain ⟨result, computed, -⟩ := follows.unary matched.related computed'
    have results' := along'.returnValue
    split at continued'
    · rename_i expected' declared'
      obtain ⟨_, checked, ended⟩ := bind_eq_ok.mp continued'
      cases ended
      rw [declared'] at results'
      cases declared : rest.returnValue with
      | none =>
        rw [declared] at results'
        cases results'
      | some expected =>
        rw [declared] at results'
        cases results' with
        | some fine =>
          refine ⟨rest, ⟨value, rest, popped, result, computed, ?_⟩, along'⟩
          rw [declared]
          exact bind_eq_ok.mpr ⟨(), follows.checkReturn matched.related computed' fine checked, rfl⟩
    · cases continued'
  | jsr => exact along.produce follows executed
  | ifInts | ifReferences => exact along.binary follows executed
  | ifZero | tableSwitch | lookupSwitch | throw | ifNull => exact along.unary follows executed

/-- An operation that succeeds on a frame succeeds on every frame alongside it, and leaves them
alongside each other. -/
theorem execute (follows : domain.Follows domain' site related returned)
    (along : frame.Alongside related returned other)
    (executed : other.execute domain' site = .ok after') :
    ∃ after, frame.execute domain site = .ok after ∧ after.Alongside related returned after' := by
  unfold Frame.execute at executed ⊢
  split at executed
  · rename_i i operated
    exact along.instruction operated follows executed
  · exact along.branch follows executed

end Alongside

end Frame

end MethodFlow
