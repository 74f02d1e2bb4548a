import Mathlib.Data.List.InsertIdx
import MethodFlow.Proofs.Code.Labelling

/-! Line numbers inserted into code. The nodes after the position move by one index and everything else
is where it was: labels, jumps, and what handlers protect. -/

namespace MethodFlow

/-- Where a node stands after one was inserted at a position. -/
def shifted (position index : Nat) : Nat := if index < position then index else index + 1

variable {position number index other target : Nat}

theorem shifted_before (before : index + 1 = position) : shifted position index = index :=
  if_pos (by omega)

theorem shifted_self (position : Nat) : shifted position position = position + 1 :=
  if_neg (Nat.lt_irrefl position)

theorem shifted_ne (position index : Nat) : shifted position index ≠ position := by
  unfold shifted
  split <;> omega

theorem shifted_lt_iff : shifted position index < shifted position other ↔ index < other := by
  unfold shifted
  split <;> split <;> omega

theorem shifted_le_iff : shifted position index ≤ shifted position other ↔ index ≤ other := by
  rw [← Nat.not_lt, shifted_lt_iff, Nat.not_lt]

theorem shifted_injective (same : shifted position index = shifted position other) :
    index = other :=
  Nat.le_antisymm (shifted_le_iff.mp (Nat.le_of_eq same)) (shifted_le_iff.mp (Nat.le_of_eq same.symm))

theorem shifted_succ (apart : index + 1 ≠ position) :
    shifted position (index + 1) = shifted position index + 1 := by
  unfold shifted
  split <;> split <;> omega

/-- Every index is that of what was inserted, or that of what has moved there. -/
theorem eq_or_shifted (position index : Nat) :
    index = position ∨ ∃ earlier, index = shifted position earlier := by
  by_cases before : index < position
  · exact .inr ⟨index, (if_pos before).symm⟩
  · by_cases same : index = position
    · exact .inl same
    · refine .inr ⟨index - 1, ?_⟩
      rw [shifted, if_neg (by omega)]
      omega

namespace Method

/-- The method with a line number before the node at a position. -/
def insertLine (method : Method) (position number : Nat) : Method :=
  { method with nodes := method.nodes.insertIdx position (.line number) }

variable {method : Method} {label : Label} {node : Node} {handler : ExceptionHandler}

theorem node_shifted (index : Nat) :
    (method.insertLine position number).nodes[shifted position index]? = method.nodes[index]? := by
  simp only [insertLine, shifted, List.getElem?_insertIdx]
  split
  · rfl
  · rw [if_neg (by omega), if_neg (by omega)]
    rfl

section

variable (inside : position ≤ method.nodes.length)

include inside

theorem node_inserted :
    (method.insertLine position number).nodes[position]? = some (.line number) := by
  simp [insertLine, List.getElem?_insertIdx, inside]

theorem mem_insertLine :
    node ∈ (method.insertLine position number).nodes ↔ node = .line number ∨ node ∈ method.nodes :=
  List.mem_insertIdx inside

theorem places_insertLine : (method.insertLine position number).Places label index ↔
    ∃ earlier, index = shifted position earlier ∧ method.Places label earlier := by
  constructor
  · intro placed
    rcases eq_or_shifted position index with rfl | ⟨earlier, rfl⟩
    · cases (node_inserted inside).symm.trans placed
    · exact ⟨earlier, rfl, (node_shifted earlier).symm.trans placed⟩
  · rintro ⟨earlier, rfl, placed⟩
    exact (node_shifted earlier).trans placed

theorem places_shifted : (method.insertLine position number).Places label (shifted position index) ↔
    method.Places label index := by
  rw [places_insertLine inside]
  constructor
  · rintro ⟨earlier, same, placed⟩
    rwa [shifted_injective same]
  · exact fun placed => ⟨index, rfl, placed⟩

theorem protects_shifted :
    (method.insertLine position number).Protects handler (shifted position index) ↔
      method.Protects handler index := by
  simp only [Protects, places_insertLine inside]
  constructor
  · rintro ⟨_, _, ⟨first, rfl, placed⟩, ⟨past, rfl, placed'⟩, lower, upper⟩
    exact ⟨first, past, placed, placed', shifted_le_iff.mp lower, shifted_lt_iff.mp upper⟩
  · rintro ⟨first, past, placed, placed', lower, upper⟩
    exact ⟨_, _, ⟨first, rfl, placed⟩, ⟨past, rfl, placed'⟩, shifted_le_iff.mpr lower,
      shifted_lt_iff.mpr upper⟩

/-- A handler protects the line if it protects the node before it, also where its range ended with
that node. -/
theorem protects_inserted :
    (method.insertLine position number).Protects handler position ↔
      ∃ index, index + 1 = position ∧ method.Protects handler index ∧
        (method.Protects handler position ∨ method.Places handler.past position) := by
  have before (first : Nat) : shifted position first ≤ position ↔ first < position := by
    unfold shifted
    split <;> omega
  have after (past : Nat) : position < shifted position past ↔ position ≤ past := by
    unfold shifted
    split <;> omega
  simp only [Protects, places_insertLine inside]
  constructor
  · rintro ⟨_, _, ⟨first, rfl, placed⟩, ⟨past, rfl, placed'⟩, lower, upper⟩
    have lower := (before first).mp lower
    have upper := (after past).mp upper
    refine ⟨position - 1, by omega, ⟨first, past, placed, placed', by omega, by omega⟩, ?_⟩
    rcases Nat.lt_or_eq_of_le upper with further | rfl
    · exact .inl ⟨first, past, placed, placed', Nat.le_of_lt lower, further⟩
    · exact .inr placed'
  · rintro ⟨index, rfl, ⟨first, past, placed, placed', lower, upper⟩, -⟩
    exact ⟨_, _, ⟨first, rfl, placed⟩, ⟨past, rfl, placed'⟩, (before first).mpr (by omega),
      (after past).mpr upper⟩

theorem leads_inserted : (method.insertLine position number).Leads position target ↔
    target = shifted position position := by
  have stands : (method.insertLine position number).nodes[position]? = some (.line number) :=
    node_inserted inside
  rw [shifted_self]
  constructor
  · intro leads
    cases leads with
    | next => rfl
    | jump found jumps =>
      cases stands.symm.trans found
      cases jumps
  · rintro rfl
    exact .next stands rfl

/-- Control leads from other nodes where it led, but first to the line from the node before it. -/
theorem leads_shifted :
    (method.insertLine position number).Leads (shifted position index) target ↔
      (∃ node, method.nodes[index]? = some node ∧ node.fallsThrough = true ∧
        target = shifted position index + 1) ∨
      ∃ node label earlier, method.nodes[index]? = some node ∧ label ∈ node.targets ∧
        method.Places label earlier ∧ target = shifted position earlier := by
  constructor
  · intro leads
    cases leads with
    | next found falls => exact .inl ⟨_, (node_shifted index).symm.trans found, falls, rfl⟩
    | jump found jumps placed =>
      obtain ⟨earlier, rfl, placed'⟩ := (places_insertLine inside).mp placed
      exact .inr ⟨_, _, earlier, (node_shifted index).symm.trans found, jumps, placed', rfl⟩
  · rintro (⟨node, found, falls, rfl⟩ | ⟨node, label, earlier, found, jumps, placed, rfl⟩)
    · exact .next ((node_shifted index).trans found) falls
    · exact .jump ((node_shifted index).trans found) jumps ((places_shifted inside).mpr placed)

theorem callless_insertLine :
    (method.insertLine position number).HasNoCall ↔ method.HasNoCall := by
  simp only [HasNoCall, mem_insertLine inside]
  constructor
  · exact fun callless label member => callless label (.inr member)
  · rintro callless label (same | member)
    · cases same
    · exact callless label member

theorem labelled_insertLine : (method.insertLine position number).Labelled ↔ method.Labelled := by
  have somewhere (label : Label) : (∃ target, (method.insertLine position number).Places label target) ↔
      ∃ target, method.Places label target := by
    constructor
    · rintro ⟨_, placed⟩
      obtain ⟨target, -, placed⟩ := (places_insertLine inside).mp placed
      exact ⟨target, placed⟩
    · rintro ⟨target, placed⟩
      exact ⟨_, (places_shifted inside).mpr placed⟩
  constructor
  · intro labelled
    refine ⟨fun label first second placed placed' => ?_, fun node member label used => ?_,
      fun handler member => ?_⟩
    · exact shifted_injective (labelled.once label _ _ ((places_shifted inside).mpr placed)
        ((places_shifted inside).mpr placed'))
    · exact (somewhere label).mp
        (labelled.targets node ((mem_insertLine inside).mpr (.inr member)) label used)
    · obtain ⟨_, _, _, starts, ends, handles, ordered⟩ := labelled.handlers handler member
      obtain ⟨first, rfl, placed⟩ := (places_insertLine inside).mp starts
      obtain ⟨past, rfl, placed'⟩ := (places_insertLine inside).mp ends
      obtain ⟨target, rfl, placed''⟩ := (places_insertLine inside).mp handles
      exact ⟨first, past, target, placed, placed', placed'', shifted_le_iff.mp ordered⟩
  · intro labelled
    refine ⟨fun label first second placed placed' => ?_, fun node member label used => ?_,
      fun handler member => ?_⟩
    · obtain ⟨earlier, rfl, own⟩ := (places_insertLine inside).mp placed
      obtain ⟨earlier', rfl, own'⟩ := (places_insertLine inside).mp placed'
      rw [labelled.once label earlier earlier' own own']
    · rcases (mem_insertLine inside).mp member with rfl | member
      · cases used
      · exact (somewhere label).mpr (labelled.targets node member label used)
    · obtain ⟨first, past, target, placed, placed', placed'', ordered⟩ :=
        labelled.handlers handler member
      exact ⟨_, _, _, (places_shifted inside).mpr placed, (places_shifted inside).mpr placed',
        (places_shifted inside).mpr placed'', shifted_le_iff.mpr ordered⟩

end

end Method

end MethodFlow
