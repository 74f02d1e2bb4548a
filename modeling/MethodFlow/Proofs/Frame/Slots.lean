import MethodFlow.Proofs.Frame.Fading

/-! Stacks as sequences of slots, of which a wide value holds two. On these a shuffle is that of an untyped
machine: it goes by depths alone, and works where no boundary of its blocks cuts a value. -/

namespace MethodFlow

namespace SlotVec

variable {α : Type} [HasWidth α]

theorem slots_le_extend (vec : SlotVec α) (values : List α) :
    vec.slots ≤ (vec.extend values).slots := by
  induction values generalizing vec with
  | nil => exact Nat.le_refl _
  | cons value values ih => exact Nat.le_trans (Nat.le_add_right _ _) (ih (vec.push value))

theorem extend_ofList (below above : List α) : (ofList below).extend above = ofList (below ++ above) := by
  simp [ofList, extend]

end SlotVec

/-- What a slot holds: a part of a value, of which the lowest is part 0. -/
structure HeldSlot (V : Type) where
  value : V
  part : Nat
deriving DecidableEq

/-- Depths where the blocks of a shuffle end. -/
def Shuffle.boundaries : Shuffle → List Nat
  | .pop | .dup => [1]
  | .pop2 | .dup2 => [2]
  | .dupX1 | .swap => [1, 2]
  | .dupX2 => [1, 3]
  | .dup2X1 => [2, 3]
  | .dup2X2 => [2, 4]

/-- Slots of the block on top of the stack. -/
def Shuffle.topSlots : Shuffle → Nat
  | .pop | .dup | .dupX1 | .dupX2 | .swap => 1
  | .pop2 | .dup2 | .dup2X1 | .dup2X2 => 2

/-- Slots of the block under it. -/
def Shuffle.underSlots : Shuffle → Nat
  | .pop | .pop2 | .dup | .dup2 => 0
  | .dupX1 | .dup2X1 | .swap => 1
  | .dupX2 | .dup2X2 => 2

/-- What a shuffle leaves of its blocks, from bottom to top: each number is the depth a slot had. -/
def Shuffle.pattern : Shuffle → List Nat
  | .pop | .pop2 => []
  | .dup => [1, 1]
  | .dupX1 => [1, 2, 1]
  | .dupX2 => [1, 3, 2, 1]
  | .dup2 => [2, 1, 2, 1]
  | .dup2X1 => [2, 1, 3, 2, 1]
  | .dup2X2 => [2, 1, 4, 3, 2, 1]
  | .swap => [1, 2]

/-- The slots after a shuffle that does not know of values. -/
def Shuffle.rearranged {α : Type} (shape : Shuffle) (slots : List α) : List α :=
  slots.take (slots.length - (shape.underSlots + shape.topSlots)) ++
    shape.pattern.filterMap fun depth => slots[slots.length - depth]?

/-- What is at a depth does not depend on what is below. -/
theorem getElem?_depth {α : Type} (base : List α) {slots : List α} {depth : Nat}
    (inside : depth ≤ slots.length) :
    (base ++ slots)[(base ++ slots).length - depth]? = slots[slots.length - depth]? := by
  rw [List.length_append, Nat.add_sub_assoc inside, List.getElem?_append_right (Nat.le_add_right _ _),
    Nat.add_sub_cancel_left]

/-- No slot below the blocks is moved. -/
theorem Shuffle.rearranged_append {α : Type} {shape : Shuffle} (base : List α) {blocks : List α}
    (whole : blocks.length = shape.underSlots + shape.topSlots) :
    shape.rearranged (base ++ blocks) =
      base ++ shape.pattern.filterMap fun depth => blocks[blocks.length - depth]? := by
  have reached : ∀ depth ∈ shape.pattern, depth ≤ blocks.length := by
    rw [whole]
    cases shape <;> decide
  have above : (base ++ blocks).length - (shape.underSlots + shape.topSlots) = base.length := by
    rw [List.length_append, whole, Nat.add_sub_cancel]
  rw [rearranged, above, List.take_left]
  congr 1
  exact List.filterMap_congr fun depth member => getElem?_depth base (reached depth member)

section Values

variable {V : Type} [AbstractValue V]

/-- The slots of values, from bottom to top. -/
def heldSlots (values : List V) : List (HeldSlot V) :=
  values.flatMap fun value => (List.range (width value)).map (HeldSlot.mk value)

@[simp] theorem heldSlots_nil : heldSlots ([] : List V) = [] := rfl

theorem heldSlots_cons (value : V) (values : List V) :
    heldSlots (value :: values) =
      (List.range (width value)).map (HeldSlot.mk value) ++ heldSlots values := rfl

@[simp] theorem heldSlots_append (below above : List V) :
    heldSlots (below ++ above) = heldSlots below ++ heldSlots above :=
  List.flatMap_append

@[simp] theorem length_heldSlots (values : List V) :
    (heldSlots values).length = (values.map width).sum := by
  simp [heldSlots, List.length_flatMap]

/-- The lowest slot of values is where one of them starts. -/
theorem part_of_head {values : List V} {slot : HeldSlot V} (head : (heldSlots values)[0]? = some slot) :
    slot.part = 0 := by
  induction values with
  | nil => cases head
  | cons value values ih =>
    rw [heldSlots_cons] at head
    cases slots : width value with
    | zero => exact ih (by simpa [slots] using head)
    | succ more =>
      simp only [slots, List.range_succ_eq_map, List.map_cons, List.cons_append,
        List.getElem?_cons_zero, Option.some.injEq] at head
      rw [← head]

/-- A depth where slots can be parted: within them, and where no value is cut. -/
structure Boundary (slots : List (HeldSlot V)) (depth : Nat) : Prop where
  inside : depth ≤ slots.length
  uncut : ∀ slot, slots[slots.length - depth]? = some slot → slot.part = 0

instance (slots : List (HeldSlot V)) (depth : Nat) : Decidable (Boundary slots depth) :=
  decidable_of_iff
    (depth ≤ slots.length ∧ ∀ slot ∈ slots[slots.length - depth]?, slot.part = 0)
    ⟨fun ⟨inside, uncut⟩ => ⟨inside, uncut⟩, fun ⟨inside, uncut⟩ => ⟨inside, uncut⟩⟩

omit [AbstractValue V] in
theorem Boundary.above {base slots : List (HeldSlot V)} {depth : Nat}
    (boundary : Boundary (base ++ slots) depth) (inside : depth ≤ slots.length) :
    Boundary slots depth :=
  ⟨inside, fun slot found => boundary.uncut slot ((getElem?_depth base inside).trans found)⟩

theorem boundary_iff {values : List V} {depth : Nat} :
    Boundary (heldSlots values) depth ↔
      ∃ below block, values = below ++ block ∧ (block.map width).sum = depth := by
  constructor
  · intro boundary
    induction values with
    | nil => exact ⟨[], [], rfl, (Nat.le_zero.mp boundary.inside).symm⟩
    | cons value values ih =>
      by_cases higher : depth ≤ (heldSlots values).length
      · obtain ⟨below, block, rfl, slots⟩ := ih (boundary.above higher)
        exact ⟨value :: below, block, rfl, slots⟩
      · -- the boundary is within the lowest value, so that only its part 0 can be the slot above it
        obtain ⟨inside, uncut⟩ := boundary
        simp only [length_heldSlots, List.map_cons, List.sum_cons] at higher inside uncut
        let part := width value + (values.map width).sum - depth
        have cut : part < width value := by omega
        have found : (heldSlots (value :: values))[part]? = some ⟨value, part⟩ := by
          rw [heldSlots_cons, List.getElem?_append_left (by simpa using cut)]
          simp [List.getElem?_range cut]
        have lowest : part = 0 := uncut _ found
        exact ⟨[], value :: values, rfl, by simp only [List.map_cons, List.sum_cons]; omega⟩
  · rintro ⟨below, block, rfl, rfl⟩
    have start : (heldSlots (below ++ block)).length - (block.map width).sum =
        (heldSlots below).length := by
      simp
    refine ⟨by simp, fun slot found => ?_⟩
    rw [start, heldSlots_append, List.getElem?_append_right (Nat.le_refl _), Nat.sub_self] at found
    exact part_of_head found

/-- Values are the blocks of a shuffle: those on top, and those under them. -/
structure Shuffle.Blocks (shape : Shuffle) (under top : List V) : Prop where
  under : (under.map width).sum = shape.underSlots
  top : (top.map width).sum = shape.topSlots

variable {shape : Shuffle} {taken under top : List V} {items : List (Shuffled V)}

theorem Shuffle.boundaries_iff {values : List V} :
    (∀ depth ∈ shape.boundaries, Boundary (heldSlots values) depth) ↔
      Boundary (heldSlots values) shape.topSlots ∧
        Boundary (heldSlots values) (shape.underSlots + shape.topSlots) := by
  cases shape <;> simp [Shuffle.boundaries, Shuffle.topSlots, Shuffle.underSlots]

theorem UnderTwoForm.slots {value : V} (form : UnderTwoForm value taken items) :
    (taken.map width).sum = 2 := by
  cases form <;> simp [*]

/-- What a form takes are the blocks of its shape. -/
theorem ShuffleForm.blocks (form : ShuffleForm shape taken items) :
    ∃ under top, taken.reverse = under ++ top ∧ shape.Blocks under top := by
  cases form with
  | @pop a narrow₁ => exact ⟨[], [a], rfl, rfl, by simp [narrow₁, Shuffle.topSlots]⟩
  | @popTwo a b narrow₁ narrow₂ =>
    exact ⟨[], [b, a], rfl, rfl, by simp [narrow₁, narrow₂, Shuffle.topSlots]⟩
  | @popWide a wide => exact ⟨[], [a], rfl, rfl, by simp [wide, Shuffle.topSlots]⟩
  | @dup a narrow₁ => exact ⟨[], [a], rfl, rfl, by simp [narrow₁, Shuffle.topSlots]⟩
  | @dupX1 a b narrow₁ narrow₂ =>
    exact ⟨[b], [a], rfl, by simp [narrow₂, Shuffle.underSlots], by simp [narrow₁, Shuffle.topSlots]⟩
  | @dupX2 a under items narrow₁ form =>
    refine ⟨under.reverse, [a], by simp, ?_, by simp [narrow₁, Shuffle.topSlots]⟩
    simp [List.sum_reverse, form.slots, Shuffle.underSlots]
  | @dupTwo a b narrow₁ narrow₂ =>
    exact ⟨[], [b, a], rfl, rfl, by simp [narrow₁, narrow₂, Shuffle.topSlots]⟩
  | @dupWide a wide => exact ⟨[], [a], rfl, rfl, by simp [wide, Shuffle.topSlots]⟩
  | @dupTwoX1 a b c narrow₁ narrow₂ narrow₃ =>
    exact ⟨[c], [b, a], rfl, by simp [narrow₃, Shuffle.underSlots],
      by simp [narrow₁, narrow₂, Shuffle.topSlots]⟩
  | @dupWideX1 a b wide narrow₂ =>
    exact ⟨[b], [a], rfl, by simp [narrow₂, Shuffle.underSlots], by simp [wide, Shuffle.topSlots]⟩
  | @dupTwoX2 a b c d narrow₁ narrow₂ narrow₃ narrow₄ =>
    exact ⟨[d, c], [b, a], rfl, by simp [narrow₃, narrow₄, Shuffle.underSlots],
      by simp [narrow₁, narrow₂, Shuffle.topSlots]⟩
  | @dupTwoXWide a b c narrow₁ narrow₂ wide =>
    exact ⟨[c], [b, a], rfl, by simp [wide, Shuffle.underSlots],
      by simp [narrow₁, narrow₂, Shuffle.topSlots]⟩
  | @dupWideX2 a under items wide form =>
    refine ⟨under.reverse, [a], by simp, ?_, by simp [wide, Shuffle.topSlots]⟩
    simp [List.sum_reverse, form.slots, Shuffle.underSlots]
  | @swap a b narrow₁ narrow₂ =>
    exact ⟨[b], [a], rfl, by simp [narrow₂, Shuffle.underSlots], by simp [narrow₁, Shuffle.topSlots]⟩

/-- A form leaves the slots of what it takes as its shape says. -/
theorem ShuffleForm.heldSlots_eq (form : ShuffleForm shape taken items) :
    heldSlots (items.map Shuffled.value) =
      shape.pattern.filterMap fun depth =>
        (heldSlots taken.reverse)[(heldSlots taken.reverse).length - depth]? := by
  cases form with
  | dupX2 narrow₁ form =>
    cases form <;> simp [heldSlots_cons, Shuffle.pattern, Shuffled.value, List.range_succ, *]
  | dupWideX2 wide form =>
    cases form <;> simp [heldSlots_cons, Shuffle.pattern, Shuffled.value, List.range_succ, *]
  | _ => simp [heldSlots_cons, Shuffle.pattern, Shuffled.value, List.range_succ, *]

section Positive

variable (positive : ∀ value : V, 0 < width value) {block : List V}
include positive

theorem block_of_zero (slots : (block.map width).sum = 0) : block = [] := by
  cases block with
  | nil => rfl
  | cons value values =>
    have := positive value
    simp only [List.map_cons, List.sum_cons] at slots
    omega

theorem block_of_one (slots : (block.map width).sum = 1) :
    ∃ value, block = [value] ∧ width value = 1 := by
  cases block with
  | nil => cases slots
  | cons value values =>
    have := positive value
    simp only [List.map_cons, List.sum_cons] at slots
    obtain rfl := block_of_zero positive (show (values.map width).sum = 0 by omega)
    exact ⟨value, rfl, by simpa using slots⟩

theorem block_of_two (slots : (block.map width).sum = 2) :
    (∃ value, block = [value] ∧ width value = 2) ∨
      ∃ lower upper, block = [lower, upper] ∧ width lower = 1 ∧ width upper = 1 := by
  cases block with
  | nil => cases slots
  | cons value values =>
    have := positive value
    simp only [List.map_cons, List.sum_cons] at slots
    by_cases wide : width value = 2
    · obtain rfl := block_of_zero positive (show (values.map width).sum = 0 by omega)
      exact .inl ⟨value, rfl, wide⟩
    · obtain ⟨upper, rfl, narrow⟩ :=
        block_of_one positive (show (values.map width).sum = 1 by omega)
      exact .inr ⟨value, upper, rfl, by omega, narrow⟩

theorem underTwoForm_of_two {value : V} (slots : (block.map width).sum = 2) :
    ∃ items, UnderTwoForm value block.reverse items := by
  rcases block_of_two positive slots with ⟨second, rfl, wide⟩ | ⟨third, second, rfl, narrow, narrow'⟩
  · exact ⟨_, .wide wide⟩
  · exact ⟨_, .narrow narrow' narrow⟩

theorem form_of_blocks (blocks : shape.Blocks under top) :
    ∃ items, ShuffleForm shape (under ++ top).reverse items := by
  obtain ⟨unders, tops⟩ := blocks
  cases shape with
  | pop | dup =>
    obtain rfl := block_of_zero positive unders
    obtain ⟨a, rfl, narrow⟩ := block_of_one positive tops
    first
      | exact ⟨_, .pop narrow⟩
      | exact ⟨_, .dup narrow⟩
  | pop2 =>
    obtain rfl := block_of_zero positive unders
    rcases block_of_two positive tops with ⟨a, rfl, wide⟩ | ⟨b, a, rfl, narrow₂, narrow₁⟩
    · exact ⟨_, .popWide wide⟩
    · exact ⟨_, .popTwo narrow₁ narrow₂⟩
  | dup2 =>
    obtain rfl := block_of_zero positive unders
    rcases block_of_two positive tops with ⟨a, rfl, wide⟩ | ⟨b, a, rfl, narrow₂, narrow₁⟩
    · exact ⟨_, .dupWide wide⟩
    · exact ⟨_, .dupTwo narrow₁ narrow₂⟩
  | dupX1 | swap =>
    obtain ⟨b, rfl, narrow₂⟩ := block_of_one positive unders
    obtain ⟨a, rfl, narrow₁⟩ := block_of_one positive tops
    first
      | exact ⟨_, .dupX1 narrow₁ narrow₂⟩
      | exact ⟨_, .swap narrow₁ narrow₂⟩
  | dupX2 =>
    obtain ⟨a, rfl, narrow₁⟩ := block_of_one positive tops
    obtain ⟨items, form⟩ := underTwoForm_of_two positive unders
    exact ⟨items, by simpa using .dupX2 narrow₁ form⟩
  | dup2X1 =>
    obtain ⟨c, rfl, narrow₃⟩ := block_of_one positive unders
    rcases block_of_two positive tops with ⟨a, rfl, wide⟩ | ⟨b, a, rfl, narrow₂, narrow₁⟩
    · exact ⟨_, .dupWideX1 wide narrow₃⟩
    · exact ⟨_, .dupTwoX1 narrow₁ narrow₂ narrow₃⟩
  | dup2X2 =>
    rcases block_of_two positive tops with ⟨a, rfl, wide⟩ | ⟨b, a, rfl, narrow₂, narrow₁⟩
    · obtain ⟨items, form⟩ := underTwoForm_of_two positive unders
      exact ⟨items, by simpa using .dupWideX2 wide form⟩
    · rcases block_of_two positive unders with ⟨c, rfl, wide⟩ | ⟨d, c, rfl, narrow₄, narrow₃⟩
      · exact ⟨_, .dupTwoXWide narrow₁ narrow₂ wide⟩
      · exact ⟨_, .dupTwoX2 narrow₁ narrow₂ narrow₃ narrow₄⟩

end Positive

end Values

namespace Frame

section

variable {V : Type} [AbstractValue V] {domain : Domain V} {site : Site} {shape : Shuffle}
  {frame rest after : Frame V}

/-- The slots of the stack, from bottom to top. -/
def heldSlots (frame : Frame V) : List (HeldSlot V) := MethodFlow.heldSlots frame.stackValues

theorem length_heldSlots (placed : frame.stack.Placed) :
    frame.heldSlots.length = frame.stackSlots := by
  rw [heldSlots, MethodFlow.length_heldSlots]
  exact placed.slots_eq.symm

theorem takes_iff (placed : frame.stack.Placed) {values : List V} :
    Takes frame values rest ↔
      ∃ below, frame.stackValues = below ++ values.reverse ∧
        rest = { frame with stack := .ofList below } := by
  induction values generalizing frame with
  | nil =>
    simp only [takes_nil, List.reverse_nil, List.append_nil, exists_eq_left', restacked placed]
    exact eq_comm
  | cons value values ih =>
    rw [takes_cons]
    constructor
    · rintro ⟨middle, popped, further⟩
      have values' := stackValues_pop popped
      obtain ⟨placed', -⟩ := stackSlots_pop placed popped
      obtain ⟨stack, -, rfl⟩ := pop_eq_ok.mp popped
      obtain ⟨below, others, rfl⟩ := (ih placed').mp further
      exact ⟨below, by rw [values', others, List.reverse_cons, List.append_assoc], rfl⟩
    · rintro ⟨below, values', rfl⟩
      rw [List.reverse_cons, ← List.append_assoc] at values'
      refine ⟨_, pop_of_values placed values', (ih (SlotVec.placed_ofList _)).mpr ⟨below, ?_, rfl⟩⟩
      exact SlotVec.toList_ofList _

/-- Pushes of values are within the bound if the last one is. -/
theorem pushAll_eq_ok (within : ∀ bound, frame.maxStack = some bound → frame.stackSlots ≤ bound)
    {values : List V} :
    frame.pushAll values = .ok after ↔
      after = { frame with stack := frame.stack.extend values } ∧
        ∀ bound, frame.maxStack = some bound → after.stackSlots ≤ bound := by
  induction values generalizing frame with
  | nil =>
    constructor
    · intro pushed
      cases pushed
      exact ⟨rfl, within⟩
    · rintro ⟨rfl, -⟩
      rfl
  | cons value values ih =>
    rw [pushAll, bind_eq_ok]
    constructor
    · rintro ⟨middle, first, others⟩
      obtain ⟨rfl, fits⟩ := push_eq_ok.mp first
      exact (ih fits).mp others
    · rintro ⟨rfl, fits⟩
      have grown : (frame.stack.push value).slots ≤ ((frame.stack.push value).extend values).slots :=
        SlotVec.slots_le_extend _ values
      have first : ∀ bound, frame.maxStack = some bound → frame.stackSlots + width value ≤ bound :=
        fun bound declared => Nat.le_trans grown (fits bound declared)
      exact ⟨_, push_eq_ok.mpr ⟨rfl, first⟩, (ih first).mpr ⟨rfl, fits⟩⟩

/-- Where copies are what is copied, a shuffle replaces the values of a form. -/
theorem executeShuffle_eq_ok (copies : ∀ value, domain.copy site value = .ok value)
    (placed : frame.stack.Placed)
    (within : ∀ bound, frame.maxStack = some bound → frame.stackSlots ≤ bound) :
    frame.executeShuffle domain site shape = .ok after ↔
      ∃ below taken items, frame.stackValues = below ++ taken.reverse ∧
        ShuffleForm shape taken items ∧
        after = { frame with stack := .ofList (below ++ items.map Shuffled.value) } ∧
        ∀ bound, frame.maxStack = some bound → after.stackSlots ≤ bound := by
  have copied (items : List (Shuffled V)) :
      copyShuffled domain site items = .ok (items.map Shuffled.value) := by
    induction items with
    | nil => rfl
    | cons item items ih => cases item <;> simp [copyShuffled, copies, ih, bind_eq_ok, Shuffled.value]
  have lower {below taken : List V} (values : frame.stackValues = below ++ taken.reverse)
      (bound : Nat) (declared : ({ frame with stack := .ofList below } : Frame V).maxStack = some bound) :
      ({ frame with stack := .ofList below } : Frame V).stackSlots ≤ bound := by
    have whole : frame.stackSlots = ((SlotVec.ofList below).extend taken.reverse).slots := by
      rw [SlotVec.extend_ofList, ← values]
      exact congrArg SlotVec.slots placed
    exact Nat.le_trans (SlotVec.slots_le_extend _ _) (whole ▸ within bound declared)
  simp only [executeShuffle, bind_eq_ok, Prod.exists, popShuffled_eq_ok, takes_iff placed]
  constructor
  · rintro ⟨items, rest, ⟨taken, ⟨below, values, rfl⟩, form⟩, _, copied', pushed⟩
    cases (copied items).symm.trans copied'
    obtain ⟨rfl, fits⟩ := (pushAll_eq_ok (lower values)).mp pushed
    exact ⟨below, taken, items, values, form, by rw [SlotVec.extend_ofList], fits⟩
  · rintro ⟨below, taken, items, values, form, rfl, fits⟩
    refine ⟨items, _, ⟨taken, ⟨below, values, rfl⟩, form⟩, _, copied items, ?_⟩
    exact (pushAll_eq_ok (lower values)).mpr ⟨by rw [SlotVec.extend_ofList], fits⟩

theorem rearranged_eq {below taken : List V} {items : List (Shuffled V)}
    (values : frame.stackValues = below ++ taken.reverse) (form : ShuffleForm shape taken items) :
    MethodFlow.heldSlots (below ++ items.map Shuffled.value) = shape.rearranged frame.heldSlots := by
  obtain ⟨under, top, parts, blocks⟩ := form.blocks
  have whole : (MethodFlow.heldSlots taken.reverse).length = shape.underSlots + shape.topSlots := by
    rw [parts, MethodFlow.length_heldSlots, List.map_append, List.sum_append, blocks.under, blocks.top]
  rw [heldSlots, values, heldSlots_append, heldSlots_append, Shuffle.rearranged_append _ whole,
    form.heldSlots_eq]

/-- Where the boundaries of a shape are, the values are those of one of its forms. -/
theorem form_iff_boundaries (positive : ∀ value : V, 0 < width value) :
    (∃ below taken items, frame.stackValues = below ++ taken.reverse ∧ ShuffleForm shape taken items) ↔
      ∀ depth ∈ shape.boundaries, Boundary frame.heldSlots depth := by
  rw [heldSlots, Shuffle.boundaries_iff]
  constructor
  · rintro ⟨below, taken, items, values, form⟩
    obtain ⟨under, top, parts, blocks⟩ := form.blocks
    rw [values, parts]
    refine ⟨boundary_iff.mpr ⟨below ++ under, top, by simp, blocks.top⟩,
      boundary_iff.mpr ⟨below, under ++ top, rfl, ?_⟩⟩
    rw [List.map_append, List.sum_append, blocks.under, blocks.top]
  · rintro ⟨above, both⟩
    obtain ⟨below, block, values, slots⟩ := boundary_iff.mp both
    rw [values, heldSlots_append] at above
    have within : Boundary (MethodFlow.heldSlots block) shape.topSlots :=
      above.above (by rw [MethodFlow.length_heldSlots, slots]; exact Nat.le_add_left _ _)
    obtain ⟨under, top, rfl, slots'⟩ := boundary_iff.mp within
    have blocks : shape.Blocks under top := by
      refine ⟨?_, slots'⟩
      rw [List.map_append, List.sum_append] at slots
      omega
    obtain ⟨items, form⟩ := form_of_blocks positive blocks
    exact ⟨below, _, items, by rwa [List.reverse_reverse], form⟩

/-- A shuffle works where the boundaries of its blocks are and where what it leaves is within the bound.
Then it leaves what an untyped machine does. -/
theorem executeShuffle_slots (copies : ∀ value, domain.copy site value = .ok value)
    (positive : ∀ value : V, 0 < width value) (placed : frame.stack.Placed)
    (within : ∀ bound, frame.maxStack = some bound → frame.stackSlots ≤ bound) :
    ((∃ after, frame.executeShuffle domain site shape = .ok after) ↔
      (∀ depth ∈ shape.boundaries, Boundary frame.heldSlots depth) ∧
        ∀ bound, frame.maxStack = some bound →
          (shape.rearranged frame.heldSlots).length ≤ bound) ∧
    ∀ after, frame.executeShuffle domain site shape = .ok after →
      after.heldSlots = shape.rearranged frame.heldSlots ∧
        after.stackSlots = after.heldSlots.length ∧ after = { frame with stack := after.stack } := by
  simp only [executeShuffle_eq_ok copies placed within]
  refine ⟨⟨?_, ?_⟩, ?_⟩
  · rintro ⟨after, below, taken, items, values, form, rfl, fits⟩
    refine ⟨(form_iff_boundaries positive).mp ⟨below, taken, items, values, form⟩, ?_⟩
    intro bound declared
    rw [← rearranged_eq values form, MethodFlow.length_heldSlots, ← SlotVec.slots_ofList]
    exact fits bound declared
  · rintro ⟨boundaries, fits⟩
    obtain ⟨below, taken, items, values, form⟩ := (form_iff_boundaries positive).mpr boundaries
    refine ⟨_, below, taken, items, values, form, rfl, fun bound declared => ?_⟩
    have height := fits bound declared
    rwa [← rearranged_eq values form, MethodFlow.length_heldSlots, ← SlotVec.slots_ofList] at height
  · rintro after ⟨below, taken, items, values, form, rfl, -⟩
    refine ⟨?_, (length_heldSlots (SlotVec.placed_ofList _)).symm, rfl⟩
    rw [← rearranged_eq values form, heldSlots, stackValues, SlotVec.toList_ofList]

end

end Frame

namespace ValueKind

/-- On kinds, a shuffle works where the boundaries of its blocks are and where what it leaves is within the
bound. Then it leaves what an untyped machine does. -/
theorem shuffle_rearranges {frame : Frame ValueKind} {site : Site} {shape : Shuffle}
    (operated : site.operation = .instruction (.shuffle shape)) (placed : frame.stack.Placed)
    (within : ∀ bound, frame.maxStack = some bound → frame.stackSlots ≤ bound) :
    ((∃ after, frame.execute domain site = .ok after) ↔
      (∀ depth ∈ shape.boundaries, Boundary frame.heldSlots depth) ∧
        ∀ bound, frame.maxStack = some bound →
          (shape.rearranged frame.heldSlots).length ≤ bound) ∧
    ∀ after, frame.execute domain site = .ok after →
      after.heldSlots = shape.rearranged frame.heldSlots ∧
        after.stackSlots = after.heldSlots.length ∧ after = { frame with stack := after.stack } := by
  have positive (value : ValueKind) : 0 < MethodFlow.width value := by cases value <;> decide
  have executed : frame.execute domain site = frame.executeShuffle domain site shape := by
    unfold Frame.execute
    rw [operated]
    rfl
  rw [executed]
  exact Frame.executeShuffle_slots (fun _ => rfl) positive placed within

/-- The depth of 1 that `dup` works at is not a boundary where it cuts a `long`. -/
example : ¬Boundary (heldSlots [ValueKind.int, .long]) 1 := by decide

/-- Two narrow values above a wide one, and room for two more slots. -/
def pairAboveLong : Frame ValueKind := ⟨[.int], .ofList [.float, .long, .int, .reference], some 7, none⟩

/-- A copy of two slots that is put under four. -/
def duplication : Site := ⟨0, .instruction (.shuffle .dup2X2)⟩

theorem pairAboveLong_rearranges :
    pairAboveLong.stack.Placed ∧
    (∀ bound, pairAboveLong.maxStack = some bound → pairAboveLong.stackSlots ≤ bound) ∧
    (∀ depth ∈ Shuffle.dup2X2.boundaries, Boundary pairAboveLong.heldSlots depth) ∧
    (∀ bound, pairAboveLong.maxStack = some bound →
      (Shuffle.dup2X2.rearranged pairAboveLong.heldSlots).length ≤ bound) ∧
    ∃ after, pairAboveLong.execute domain duplication = .ok after ∧
      after.heldSlots = [⟨.float, 0⟩, ⟨.int, 0⟩, ⟨.reference, 0⟩, ⟨.long, 0⟩, ⟨.long, 1⟩, ⟨.int, 0⟩,
        ⟨.reference, 0⟩] := by
  have placed : pairAboveLong.stack.Placed := SlotVec.placed_ofList _
  have within : ∀ bound, pairAboveLong.maxStack = some bound → pairAboveLong.stackSlots ≤ bound := by
    rintro _ ⟨⟩
    decide
  have boundaries : ∀ depth ∈ Shuffle.dup2X2.boundaries, Boundary pairAboveLong.heldSlots depth := by
    decide
  have fits : ∀ bound, pairAboveLong.maxStack = some bound →
      (Shuffle.dup2X2.rearranged pairAboveLong.heldSlots).length ≤ bound := by
    rintro _ ⟨⟩
    decide
  obtain ⟨succeeds, rearranges⟩ := @shuffle_rearranges _ duplication .dup2X2 rfl placed within
  obtain ⟨after, executed⟩ := succeeds.mpr ⟨boundaries, fits⟩
  exact ⟨placed, within, boundaries, fits, after, executed, (rearranges after executed).1⟩

end ValueKind

end MethodFlow
