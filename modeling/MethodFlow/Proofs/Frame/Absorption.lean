import MethodFlow.Proofs.Frame.Shape

namespace MethodFlow

variable {V : Type} [AbstractValue V]

omit [AbstractValue V] in
/-- Merging the second value into the first changes nothing. -/
def Domain.Absorbs (domain : Domain V) (upper lower : V) : Prop :=
  domain.merge upper lower = .ok upper

omit [AbstractValue V] in
/-- Merged values absorb what they were merged from, for good. -/
structure Domain.Joins (domain : Domain V) : Prop where
  self : ∀ value, domain.Absorbs value value
  left : ∀ {old new value}, domain.merge old new = .ok value → domain.Absorbs value old
  right : ∀ {old new value}, domain.merge old new = .ok value → domain.Absorbs value new
  trans : ∀ {upper middle lower}, domain.Absorbs upper middle → domain.Absorbs middle lower →
    domain.Absorbs upper lower

/-- A merged value takes no more slots than the value it replaces. -/
def Domain.Narrows (domain : Domain V) : Prop :=
  ∀ {old new value}, domain.merge old new = .ok value → width value ≤ width old

/-- A merged value takes no more slots than either of the values it comes from. -/
def Domain.Shrinks (domain : Domain V) : Prop :=
  ∀ {old new value}, domain.merge old new = .ok value →
    width value ≤ width old ∧ width value ≤ width new

theorem Domain.Shrinks.narrows {domain : Domain V} (shrinks : domain.Shrinks) : domain.Narrows :=
  fun merged => (shrinks merged).1

omit [AbstractValue V] in
/-- Merging a value that absorbs the old one replaces the old one by it. -/
def Domain.Replaces (domain : Domain V) : Prop :=
  ∀ {upper lower value}, domain.Absorbs upper lower → domain.merge lower upper = .ok value →
    value = upper

omit [AbstractValue V] in
theorem Domain.Replaces.antisymm {domain : Domain V} (replaces : domain.Replaces) {first second : V}
    (above : domain.Absorbs first second) (below : domain.Absorbs second first) : first = second :=
  (replaces above below).symm

/-- Values that are pairwise no wider take no more slots together, and as many only if each of them
does. -/
theorem sum_width_le {firsts seconds : List V}
    (smaller : List.Forall₂ (fun first second => width first ≤ width second) firsts seconds) :
    (firsts.map width).sum ≤ (seconds.map width).sum ∧
      ((firsts.map width).sum = (seconds.map width).sum ↔
        firsts.map width = seconds.map width) := by
  induction smaller with
  | nil => simp
  | @cons first second firsts seconds head _ ih =>
    obtain ⟨bound, same⟩ := ih
    simp only [List.map_cons, List.sum_cons, List.cons.injEq]
    refine ⟨Nat.add_le_add head bound, ?_⟩
    rw [← same]
    constructor
    · intro total
      omega
    · rintro ⟨first, rest⟩
      rw [first, rest]

omit [AbstractValue V] in
/-- The third list holds the merges of the first two, value by value. -/
inductive MergedValues (domain : Domain V) : List V → List V → List V → Prop where
  | nil : MergedValues domain [] [] []
  | cons {old new value : V} {olds news values : List V}
      (merged : domain.merge old new = .ok value) (rest : MergedValues domain olds news values) :
      MergedValues domain (old :: olds) (new :: news) (value :: values)

namespace MergedValues

variable {domain : Domain V} {olds news values : List V}

omit [AbstractValue V] in
theorem length_eq (merged : MergedValues domain olds news values) :
    values.length = olds.length := by
  induction merged with
  | nil => rfl
  | cons _ _ ih => simp [ih]

omit [AbstractValue V] in
theorem length_eq' (merged : MergedValues domain olds news values) :
    values.length = news.length := by
  induction merged with
  | nil => rfl
  | cons _ _ ih => simp [ih]

omit [AbstractValue V] in
theorem of_getElem? (merged : MergedValues domain olds news values) {slot : Nat} {value : V}
    (found : values[slot]? = some value) :
    ∃ old new, olds[slot]? = some old ∧ news[slot]? = some new ∧ domain.merge old new = .ok value := by
  induction merged generalizing slot with
  | nil => cases found
  | cons merged rest ih =>
    cases slot with
    | zero =>
      cases found
      exact ⟨_, _, rfl, rfl, merged⟩
    | succ slot => exact ih found

omit [AbstractValue V] in
theorem absorbs_left (joins : domain.Joins) (merged : MergedValues domain olds news values) :
    List.Forall₂ domain.Absorbs values olds := by
  induction merged with
  | nil => exact .nil
  | cons merged _ ih => exact .cons (joins.left merged) ih

omit [AbstractValue V] in
theorem absorbs_right (joins : domain.Joins) (merged : MergedValues domain olds news values) :
    List.Forall₂ domain.Absorbs values news := by
  induction merged with
  | nil => exact .nil
  | cons merged _ ih => exact .cons (joins.right merged) ih

theorem narrower (shrinks : domain.Shrinks) (merged : MergedValues domain olds news values) :
    List.Forall₂ (fun value old => width value ≤ width old) values olds ∧
      List.Forall₂ (fun value new => width value ≤ width new) values news := by
  induction merged with
  | nil => exact ⟨.nil, .nil⟩
  | cons merged rest ih =>
    obtain ⟨left, right⟩ := shrinks merged
    exact ⟨.cons left ih.1, .cons right ih.2⟩

theorem width_le (narrows : domain.Narrows) (merged : MergedValues domain olds news values) :
    (values.map width).sum ≤ (olds.map width).sum := by
  induction merged with
  | nil => exact Nat.le_refl _
  | cons merged _ ih =>
    have narrow := narrows merged
    simp only [List.map_cons, List.sum_cons]
    omega

omit [AbstractValue V] in
theorem holds {holds : V → Prop}
    (closed : ∀ {old new value}, holds old → holds new → domain.merge old new = .ok value →
      holds value)
    (merged : MergedValues domain olds news values) (old : ∀ value ∈ olds, holds value)
    (new : ∀ value ∈ news, holds value) : ∀ value ∈ values, holds value := by
  induction merged with
  | nil => simp
  | cons merged _ ih =>
    simp only [List.forall_mem_cons] at old new ⊢
    exact ⟨closed old.1 new.1 merged, ih old.2 new.2⟩

omit [AbstractValue V] in
/-- A relation to other values that merges keep holds of merged values. -/
theorem forall₂ {W : Type} {related : V → W → Prop} {others : List W}
    (closed : ∀ {old new value other}, related old other → related new other →
      domain.merge old new = .ok value → related value other)
    (merged : MergedValues domain olds news values) (old : List.Forall₂ related olds others)
    (new : List.Forall₂ related news others) : List.Forall₂ related values others := by
  induction merged generalizing others with
  | nil => exact old
  | cons merged _ ih =>
    cases old with
    | cons head tail =>
      cases new with
      | cons head' tail' => exact .cons (closed head head' merged) (ih tail tail')

end MergedValues

namespace Frame

variable {domain : Domain V} {shape : FrameShape V}

omit [AbstractValue V] in
theorem mergeValues_eq_ok {olds news values : List V} (same : olds.length = news.length) :
    mergeValues domain olds news = .ok values ↔ MergedValues domain olds news values := by
  induction olds generalizing news values with
  | nil =>
    cases news with
    | nil =>
      simp only [mergeValues, Except.ok.injEq]
      constructor
      · rintro rfl
        exact .nil
      · intro merged
        cases merged
        rfl
    | cons => simp at same
  | cons old olds ih =>
    cases news with
    | nil => simp at same
    | cons new news =>
      have same' : olds.length = news.length := by simpa using same
      simp only [mergeValues, bind_eq_ok, pure, Except.pure, Except.ok.injEq]
      constructor
      · rintro ⟨value, merged, rest, others, rfl⟩
        exact .cons merged ((ih same').mp others)
      · intro merged
        cases merged with
        | cons merged rest => exact ⟨_, merged, _, (ih same').mpr rest, rfl⟩

/-- Merging the second frame into the first would change nothing. -/
structure Absorbs (domain : Domain V) (upper lower : Frame V) : Prop where
  locals : List.Forall₂ domain.Absorbs upper.locals lower.locals
  stack : List.Forall₂ domain.Absorbs upper.stackValues lower.stackValues

theorem forall₂_trans {α β γ : Type} {related : α → β → Prop} {related' : β → γ → Prop}
    {through : α → γ → Prop} {firsts : List α} {seconds : List β} {thirds : List γ}
    (above : List.Forall₂ related firsts seconds) (below : List.Forall₂ related' seconds thirds)
    (trans : ∀ first second third, related first second → related' second third →
      through first third) : List.Forall₂ through firsts thirds := by
  induction above generalizing thirds with
  | nil =>
    cases below
    exact .nil
  | cons head _ ih =>
    cases below with
    | cons head' tail' => exact .cons (trans _ _ _ head head') (ih tail')

omit [AbstractValue V] in
theorem Absorbs.self (joins : domain.Joins) (frame : Frame V) : frame.Absorbs domain frame :=
  ⟨List.forall₂_same.mpr fun value _ => joins.self value,
    List.forall₂_same.mpr fun value _ => joins.self value⟩

omit [AbstractValue V] in
theorem Absorbs.trans (joins : domain.Joins) {upper middle lower : Frame V}
    (above : upper.Absorbs domain middle) (below : middle.Absorbs domain lower) :
    upper.Absorbs domain lower :=
  ⟨forall₂_trans above.locals below.locals fun _ _ _ => joins.trans,
    forall₂_trans above.stack below.stack fun _ _ _ => joins.trans⟩

theorem merge_eq_ok {frame other merged : Frame V} {changed : Bool} (placed : frame.stack.Placed) :
    frame.merge domain other = .ok (merged, changed) ↔
      frame.stackLength = other.stackLength ∧ frame.stackSlots = other.stackSlots ∧
        ∃ locals values, mergeValues domain frame.locals other.locals = .ok locals ∧
          mergeValues domain frame.stackValues other.stackValues = .ok values ∧
          merged = { frame with locals := locals, stack := .ofList values } ∧
          (changed = false ↔ locals = frame.locals ∧ values = frame.stackValues) := by
  have whole := restacked placed
  unfold merge
  split
  · rename_i heights
    constructor
    · intro failed
      cases failed
    · rintro ⟨lengths, slots, -⟩
      exact absurd heights (by simp [lengths, slots])
  rename_i heights
  obtain ⟨lengths, slots⟩ :
      frame.stackLength = other.stackLength ∧ frame.stackSlots = other.stackSlots := by
    simpa only [not_or, not_not] using heights
  constructor
  · intro succeeds
    simp only [bind_eq_ok] at succeeds
    obtain ⟨locals, metLocals, values, metValues, ended⟩ := succeeds
    refine ⟨lengths, slots, locals, values, metLocals, metValues, ?_⟩
    split at ended
    · rename_i same
      cases ended
      exact ⟨by rw [same.1, same.2, whole], by simp [same]⟩
    · rename_i different
      cases ended
      exact ⟨rfl, by simp [different]⟩
  · rintro ⟨-, -, locals, values, metLocals, metValues, rfl, changes⟩
    refine bind_eq_ok.mpr ⟨locals, metLocals, bind_eq_ok.mpr ⟨values, metValues, ?_⟩⟩
    split
    · rename_i same
      rw [changes.mpr same, same.1, same.2, whole]
      rfl
    · rename_i different
      cases changed with
      | true => rfl
      | false => exact absurd (changes.mp rfl) different

/-- What a merge of two frames of one shape yields. -/
structure Merged (domain : Domain V) (shape : FrameShape V) (old new after : Frame V)
    (changed : Bool) : Prop where
  locals : MergedValues domain old.locals new.locals after.locals
  stack : MergedValues domain old.stackValues new.stackValues after.stackValues
  slots : old.stackSlots = new.stackSlots
  shaped : after.HasShape shape
  unchanged : changed = false ↔ after = old

theorem Merged.of_merge {old new after : Frame V} {changed : Bool} (shaped : old.HasShape shape)
    (shaped' : new.HasShape shape) (merged : old.merge domain new = .ok (after, changed)) :
    Merged domain shape old new after changed := by
  obtain ⟨lengths, slots, locals, values, metLocals, metValues, rfl, changes⟩ :=
    (merge_eq_ok shaped.placed).mp merged
  simp only [stackLength, SlotVec.length_eq] at lengths
  have mergedLocals := (mergeValues_eq_ok (shaped.locals.trans shaped'.locals.symm)).mp metLocals
  have mergedValues :=
    (mergeValues_eq_ok (show old.stackValues.length = new.stackValues.length from lengths)).mp metValues
  have toList : (SlotVec.ofList values).toList = values := SlotVec.toList_ofList values
  refine ⟨mergedLocals, ?_, slots, ⟨?_, SlotVec.placed_ofList values, shaped.maxStack,
    shaped.returnValue⟩, changes.trans ⟨?_, fun same => ?_⟩⟩
  · simpa only [stackValues, toList] using mergedValues
  · exact mergedLocals.length_eq.trans shaped.locals
  · rintro ⟨rfl, rfl⟩
    exact restacked shaped.placed
  · refine ⟨congrArg Frame.locals same, ?_⟩
    rw [← same]
    exact toList.symm

theorem Merged.fits {old new after : Frame V} {changed : Bool} (narrows : domain.Narrows)
    (fits : old.Fits shape) (merged : Merged domain shape old new after changed) :
    after.Fits shape := by
  refine ⟨merged.shaped, fun bound declared => ?_⟩
  have before := fits.within bound declared
  rw [merged.shaped.stackSlots_eq]
  rw [fits.stackSlots_eq] at before
  exact Nat.le_trans (merged.stack.width_le narrows) before

theorem Merged.absorbs_left (joins : domain.Joins) {old new after : Frame V} {changed : Bool}
    (merged : Merged domain shape old new after changed) : after.Absorbs domain old :=
  ⟨merged.locals.absorbs_left joins, merged.stack.absorbs_left joins⟩

theorem Merged.absorbs_right (joins : domain.Joins) {old new after : Frame V} {changed : Bool}
    (merged : Merged domain shape old new after changed) : after.Absorbs domain new :=
  ⟨merged.locals.absorbs_right joins, merged.stack.absorbs_right joins⟩

omit [AbstractValue V] in
private theorem mergeValues_ok (total : ∀ old new, ∃ value, domain.merge old new = .ok value)
    (olds news : List V) : ∃ values, mergeValues domain olds news = .ok values := by
  induction olds generalizing news with
  | nil => exact ⟨[], rfl⟩
  | cons old olds ih =>
    cases news with
    | nil => exact ⟨old :: olds, rfl⟩
    | cons new news =>
      obtain ⟨value, merged⟩ := total old new
      obtain ⟨rest, others⟩ := ih news
      exact ⟨value :: rest, bind_eq_ok.mpr ⟨value, merged, bind_eq_ok.mpr ⟨rest, others, rfl⟩⟩⟩

theorem merge_ok (total : ∀ old new, ∃ value, domain.merge old new = .ok value)
    {old new : Frame V} (lengths : old.stackLength = new.stackLength)
    (slots : old.stackSlots = new.stackSlots) :
    ∃ after changed, old.merge domain new = .ok (after, changed) := by
  obtain ⟨locals, mergedLocals⟩ := mergeValues_ok total old.locals new.locals
  obtain ⟨values, mergedValues⟩ := mergeValues_ok total old.stackValues new.stackValues
  have heights : ¬(old.stackLength ≠ new.stackLength ∨ old.stackSlots ≠ new.stackSlots) := by
    simp [lengths, slots]
  rw [merge, if_neg heights]
  by_cases same : locals = old.locals ∧ values = old.stackValues
  · exact ⟨old, false, bind_eq_ok.mpr ⟨locals, mergedLocals, bind_eq_ok.mpr ⟨values, mergedValues,
      by rw [if_pos same]; rfl⟩⟩⟩
  · exact ⟨_, true, bind_eq_ok.mpr ⟨locals, mergedLocals, bind_eq_ok.mpr ⟨values, mergedValues,
      by rw [if_neg same]; rfl⟩⟩⟩

end Frame

end MethodFlow
