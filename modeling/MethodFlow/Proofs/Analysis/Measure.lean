import Mathlib.Algebra.BigOperators.Group.Finset.Basic
import Mathlib.Algebra.Order.BigOperators.Group.Finset
import MethodFlow.Proofs.Domain.Height

/-! The potential of a state: the room that frames and records have left to change, and what is on
the worklist. Merges pay for what they queue, and every index taken off the worklist uses some up. -/

namespace MethodFlow

open Relation (ReflTransGen)

variable {V : Type} [AbstractValue V] {domain : Domain V} {flow : Flow} {shape : FrameShape V}
  {allowed : V → Prop} {left : V → Nat} {height nodes : Nat}

/-- How often merges can still change a frame. -/
def Frame.room (left : V → Nat) (frame : Frame V) : Nat :=
  (frame.locals.map left).sum + (frame.stackValues.map left).sum

/-- How often merges can still change a record. -/
def Subroutine.room (nodes : Nat) (record : Subroutine) : Nat :=
  record.used.count false + (nodes - record.callers.length)

/-- What processing an index may add to the worklist unpaid: a call may queue every return. -/
def Flow.weight (flow : Flow) (index : Nat) : Nat :=
  if (flow.called? index).isSome then flow.length + 1 else 1

section Rooms

omit [AbstractValue V] in
theorem sum_room_le {bound : Nat} {values : List V}
    (bounded : ∀ value ∈ values, left value ≤ bound) :
    (values.map left).sum ≤ bound * values.length := by
  induction values with
  | nil => exact Nat.zero_le _
  | cons value rest ih =>
    rw [List.forall_mem_cons] at bounded
    have first := bounded.1
    have others := ih bounded.2
    simp only [List.map_cons, List.sum_cons, List.length_cons, Nat.mul_add, Nat.mul_one]
    omega

theorem length_le_sum_width {values : List V} (wide : ∀ value ∈ values, 1 ≤ width value) :
    values.length ≤ (values.map width).sum := by
  induction values with
  | nil => exact Nat.zero_le _
  | cons value rest ih =>
    rw [List.forall_mem_cons] at wide
    have first := wide.1
    have others := ih wide.2
    simp only [List.map_cons, List.sum_cons, List.length_cons]
    omega

/-- A frame can change in each of its slots only so often. -/
theorem Frame.room_le (measured : domain.Measured nodes height allowed left) {frame : Frame V}
    {bound : Nat} (declared : shape.maxStack = some bound) (fits : frame.Fits shape)
    (fine : frame.Holds allowed) :
    frame.room left ≤ height * (shape.maxLocals + bound) := by
  have locals := sum_room_le fun value member => measured.bounded value (fine.locals value member)
  have values := sum_room_le fun value member => measured.bounded value (fine.stack value member)
  have slots := length_le_sum_width fun value member =>
    measured.wide value (fine.stack value member)
  have within := fits.within bound declared
  rw [fits.stackSlots_eq] at within
  rw [fits.locals] at locals
  have high : height * frame.stackValues.length ≤ height * bound :=
    Nat.mul_le_mul_left height (Nat.le_trans slots within)
  rw [Frame.room, Nat.mul_add]
  omega

/-- Merged values have no more room than before, and less if one of them changed. -/
theorem MergedValues.room_lt (measured : domain.Measured nodes height allowed left)
    {olds news values : List V} (merged : MergedValues domain olds news values)
    (fine : ∀ value ∈ olds, allowed value) (fine' : ∀ value ∈ news, allowed value) :
    values = olds ∨ (values.map left).sum < (olds.map left).sum := by
  induction merged with
  | nil => exact .inl rfl
  | cons merged rest ih =>
    rw [List.forall_mem_cons] at fine fine'
    simp only [List.map_cons, List.sum_cons]
    rcases measured.lowers fine.1 fine'.1 merged with rfl | lower
    · rcases ih fine.2 fine'.2 with rfl | lower
      · exact .inl rfl
      · right
        omega
    · right
      rcases ih fine.2 fine'.2 with rfl | lower'
      · omega
      · omega

theorem Frame.Merged.room_lt (measured : domain.Measured nodes height allowed left)
    {old new after : Frame V} {changed : Bool} (shaped : old.HasShape shape)
    (merged : Frame.Merged domain shape old new after changed) (fine : old.Holds allowed)
    (fine' : new.Holds allowed) : after = old ∨ after.room left < old.room left := by
  unfold Frame.room
  rcases merged.locals.room_lt measured fine.locals fine'.locals with locals | lower
  · rcases merged.stack.room_lt measured fine.stack fine'.stack with values | lower
    · exact .inl (merged.shaped.ext shaped locals values)
    · right
      rw [locals]
      omega
  · rcases merged.stack.room_lt measured fine.stack fine'.stack with values | lower'
    · right
      rw [values]
      omega
    · right
      omega

theorem Subroutine.count_mergeUsed (marks others : List Bool) :
    mergeUsed marks others = marks ∨ (mergeUsed marks others).count false < marks.count false := by
  induction marks generalizing others with
  | nil => cases others <;> exact .inl rfl
  | cons mark marks ih =>
    cases others with
    | nil => exact .inl rfl
    | cons other others =>
      rcases ih others with same | fewer
      · cases mark <;> cases other <;> simp [mergeUsed, same]
      · cases mark <;> cases other <;> simp [mergeUsed] <;> omega

theorem Subroutine.length_mergeCallers (callers others : List Nat) :
    mergeCallers callers others = callers ∨
      callers.length < (mergeCallers callers others).length := by
  induction others generalizing callers with
  | nil => exact .inl rfl
  | cons other rest ih =>
    rw [mergeCallers]
    split
    · exact ih callers
    · right
      rcases ih (callers ++ [other]) with same | longer
      · simp [same]
      · simp only [List.length_append, List.length_singleton] at longer
        omega

theorem Subroutine.Coherent.length_le {record : Subroutine} {maxLocals : Nat}
    (coherent : record.Coherent flow maxLocals) : record.callers.length ≤ flow.length := by
  obtain ⟨target, -, called⟩ := coherent.entered
  have inside : record.callers ⊆ List.range flow.length := by
    intro caller member
    rw [List.mem_range]
    by_contra outside
    have absent : flow[caller]? = none := List.getElem?_eq_none (Nat.le_of_not_lt outside)
    have found := called caller member
    simp [Flow.called?, absent] at found
  simpa using (coherent.distinct.subperm inside).length_le

theorem Subroutine.room_merge {record other : Subroutine}
    (few : (record.merge other).1.callers.length ≤ nodes) :
    (record.merge other).1.room nodes + (record.merge other).2.toNat ≤ record.room nodes := by
  have callers : (record.merge other).1.callers = record.callers ∨
      record.callers.length < (record.merge other).1.callers.length := by
    simp only [merge]
    split
    · exact length_mergeCallers _ _
    · exact .inl rfl
  have used : (record.merge other).1.used = record.used ∨
      (record.merge other).1.used.count false < record.used.count false :=
    count_mergeUsed _ _
  have once := (record.merge other).2.toNat_le
  unfold room
  rcases used with same | fewer
  · rcases callers with same' | longer
    · have kept : (record.merge other).1 = record := by
        rw [show (record.merge other).1 = ⟨record.start, (record.merge other).1.used,
          (record.merge other).1.callers⟩ from rfl, same, same']
      simp [(merge_changed record other).mpr kept, kept]
    · rw [same]
      omega
  · rcases callers with same' | longer
    · rw [same']
      omega
    · omega

end Rooms

theorem sum_drop {count index drop : Nat} {before after : Nat → Nat} (inside : index < count)
    (others : ∀ other, other ≠ index → after other = before other)
    (lower : after index + drop ≤ before index) :
    ∑ other ∈ Finset.range count, after other + drop ≤
      ∑ other ∈ Finset.range count, before other := by
  have member : index ∈ Finset.range count := Finset.mem_range.mpr inside
  have rest : ∑ other ∈ (Finset.range count).erase index, after other =
      ∑ other ∈ (Finset.range count).erase index, before other :=
    Finset.sum_congr rfl fun other erased => others other (Finset.ne_of_mem_erase erased)
  rw [← Finset.add_sum_erase _ _ member, ← Finset.add_sum_erase _ _ member, rest]
  omega

namespace AnalysisState

/-- The room of the frame at an index; without one there is more than any frame has. -/
def frameRoom (left : V → Nat) (most : Nat) (frame : Option (Frame V)) : Nat :=
  frame.elim (1 + most) fun frame => frame.room left

/-- The room of the record at an index. -/
def recordRoom (nodes maxLocals : Nat) (record : Option Subroutine) : Nat :=
  record.elim (1 + maxLocals + nodes) fun record => record.room nodes

/-- The room that all frames have left, each weighted by what queueing its index costs. -/
def framePotential (flow : Flow) (left : V → Nat) (most : Nat) (state : AnalysisState V) : Nat :=
  ∑ index ∈ Finset.range flow.length,
    flow.weight index * frameRoom left most (state.frame? index)

/-- The room that all records have left. -/
def recordPotential (flow : Flow) (maxLocals : Nat) (state : AnalysisState V) : Nat :=
  ∑ index ∈ Finset.range flow.length,
    flow.weight index * recordRoom flow.length maxLocals (state.subroutine? index)

/-- What the indices on the worklist cost. -/
def queuePotential (flow : Flow) (state : AnalysisState V) : Nat :=
  (state.worklist.map flow.weight).sum

/-- What is left to do in a state, at most. -/
def potential (flow : Flow) (left : V → Nat) (most maxLocals : Nat) (state : AnalysisState V) : Nat :=
  state.framePotential flow left most + state.recordPotential flow maxLocals +
    state.queuePotential flow

variable {most : Nat} {state after : AnalysisState V} {index : Nat}

/-- A joined frame has no more room than was there, and less if anything changed. -/
theorem Joined.room_add_le (measured : domain.Measured nodes height allowed left)
    {old : Option (Frame V)} {new merged : Frame V} {changed : Bool}
    (joined : Joined domain shape old new merged changed)
    (fits : ∀ frame, old = some frame → frame.Fits shape)
    (fine : ∀ frame, old = some frame → frame.Holds allowed) (fine' : new.Holds allowed)
    (least : new.room left ≤ most) :
    frameRoom left most (some merged) + changed.toNat ≤ frameRoom left most old := by
  cases old with
  | none =>
    obtain ⟨rfl, rfl⟩ := joined.first rfl
    simp only [frameRoom, Option.elim_some, Option.elim_none, Bool.toNat_true]
    omega
  | some frame =>
    have step := joined.merged frame rfl
    rcases step.room_lt measured (fits frame rfl).toHasShape (fine frame rfl) fine' with
      same | lower
    · have unchanged : changed = false := step.unchanged.mpr same
      simp [frameRoom, same, unchanged]
    · have once := changed.toNat_le
      simp only [frameRoom, Option.elim_some]
      omega

theorem joinSubroutine_room {maxLocals : Nat} {old new : Option Subroutine}
    (coherent : ∀ record, old = some record → record.Coherent flow maxLocals)
    (coherent' : ∀ record, new = some record → record.Coherent flow maxLocals) :
    recordRoom flow.length maxLocals (joinSubroutine old new).1 + (joinSubroutine old new).2.toNat ≤
      recordRoom flow.length maxLocals old := by
  cases old with
  | none =>
    cases new with
    | none => simp [joinSubroutine]
    | some record =>
      have used := (coherent' record rfl).used
      have unused : record.used.count false ≤ record.used.length := List.count_le_length
      simp only [joinSubroutine, recordRoom, Option.elim_some, Option.elim_none, Bool.toNat_true,
        Subroutine.room]
      omega
  | some record =>
    cases new with
    | none => simp [joinSubroutine]
    | some other =>
      exact Subroutine.room_merge ((coherent record rfl).merge (coherent' other rfl)).length_le

omit [AbstractValue V] in
theorem framePotential_updated {merged : Frame V} {record : Option Subroutine} {changed : Bool}
    {drop : Nat} (inside : index < flow.length) (length : state.frames.length = flow.length)
    (lower : frameRoom left most (some merged) + drop ≤ frameRoom left most (state.frame? index)) :
    (state.updated index merged record changed).framePotential flow left most +
      flow.weight index * drop ≤ state.framePotential flow left most := by
  refine sum_drop inside (fun other different => ?_) ?_
  · rw [frame?_updated (length ▸ inside), if_neg different]
  · rw [frame?_updated (length ▸ inside), if_pos rfl, ← Nat.mul_add]
    exact Nat.mul_le_mul_left _ lower

omit [AbstractValue V] in
theorem recordPotential_updated {maxLocals : Nat} {merged : Frame V} {record : Option Subroutine}
    {changed : Bool} {drop : Nat} (inside : index < flow.length)
    (length : state.subroutines.length = flow.length)
    (lower : recordRoom flow.length maxLocals record + drop ≤
      recordRoom flow.length maxLocals (state.subroutine? index)) :
    (state.updated index merged record changed).recordPotential flow maxLocals +
      flow.weight index * drop ≤ state.recordPotential flow maxLocals := by
  refine sum_drop inside (fun other different => ?_) ?_
  · rw [subroutine?_updated (length ▸ inside), if_neg different]
  · rw [subroutine?_updated (length ▸ inside), if_pos rfl, ← Nat.mul_add]
    exact Nat.mul_le_mul_left _ lower

/-- Queueing an index costs its weight, and makes the worklist no shorter. -/
theorem queuePotential_enqueue (coherent : state.Coherent flow shape) (inside : index < flow.length) :
    (state.enqueue index).queuePotential flow ≤ state.queuePotential flow + flow.weight index ∧
      state.worklist.length ≤ (state.enqueue index).worklist.length := by
  unfold queuePotential
  rcases worklist_enqueue coherent.toQueued (coherent.frames_length ▸ inside) with
    ⟨-, same⟩ | ⟨-, same⟩
  · rw [same]
    omega
  · rw [same, List.map_cons, List.sum_cons, List.length_cons]
    omega

theorem worklist_length_le (coherent : state.Coherent flow shape) :
    state.worklist.length ≤ flow.length := by
  have inside : state.worklist ⊆ List.range flow.length := fun index member =>
    List.mem_range.mpr (coherent.frames_length ▸ coherent.toQueued.inside member)
  simpa using (coherent.nodup.subperm inside).length_le

/-- A merge pays for what it queues. -/
theorem Coherent.potential_merge (measured : domain.Measured nodes height allowed left)
    (narrows : domain.Narrows) (coherent : state.Coherent flow shape) (good : state.Holds allowed)
    {frame : Frame V} {record : Option Subroutine} (fits : frame.Fits shape)
    (fine : frame.Holds allowed) (least : frame.room left ≤ most)
    (recorded : ∀ other, record = some other → other.Coherent flow shape.maxLocals)
    (merged : state.merge domain index frame record = .ok after) :
    after.potential flow left most shape.maxLocals ≤
        state.potential flow left most shape.maxLocals ∧
      state.worklist.length ≤ after.worklist.length := by
  obtain ⟨inside, -, own, changed, joined, rfl⟩ := coherent.merge narrows fits recorded merged
  have lower := joined.room_add_le measured (coherent.fits index) (good index) fine least
  have lower' := joinSubroutine_room (coherent.records index) recorded
  obtain ⟨queue, longer⟩ := queuePotential_enqueue coherent inside
  generalize joinSubroutine (state.subroutine? index) record = joinedRecord at lower'
  obtain ⟨record', changed'⟩ := joinedRecord
  have frames : (state.updated index own record' (changed || changed')).framePotential flow left most +
      flow.weight index * changed.toNat ≤ state.framePotential flow left most :=
    framePotential_updated inside coherent.frames_length lower
  have records : (state.updated index own record' (changed || changed')).recordPotential flow
      shape.maxLocals + flow.weight index * changed'.toNat ≤
        state.recordPotential flow shape.maxLocals :=
    recordPotential_updated inside coherent.subroutines_length lower'
  have worklist : (state.updated index own record' (changed || changed')).worklist =
      if changed || changed' then (state.enqueue index).worklist else state.worklist :=
    worklist_updated
  unfold potential
  unfold queuePotential at queue ⊢
  rw [worklist]
  cases changed <;> cases changed' <;>
    simp only [Bool.or_false, Bool.or_true, Bool.toNat_true, Bool.toNat_false, Nat.mul_zero,
      Nat.mul_one, Bool.false_eq_true, ↓reduceIte] at frames records ⊢ <;>
    omega

variable {visit : Visit V} {now next popped final start : AnalysisState V} {count bound : Nat}

/-- What changes to the state cost while an index is processed: no more than the room that was left
on the worklist, and nothing at all if the index is no call. -/
structure Paid (flow : Flow) (left : V → Nat) (most maxLocals index : Nat)
    (before after : AnalysisState V) : Prop where
  called : after.potential flow left most maxLocals + (flow.length - after.worklist.length) ≤
    before.potential flow left most maxLocals + (flow.length - before.worklist.length)
  plain : flow.called? index = none →
    after.potential flow left most maxLocals ≤ before.potential flow left most maxLocals

omit [AbstractValue V] in
theorem Paid.trans {maxLocals : Nat} {first middle last : AnalysisState V}
    (sooner : Paid flow left most maxLocals index first middle)
    (later : Paid flow left most maxLocals index middle last) :
    Paid flow left most maxLocals index first last :=
  ⟨Nat.le_trans later.called sooner.called, fun uncalled =>
    Nat.le_trans (later.plain uncalled) (sooner.plain uncalled)⟩

theorem Touches.paid (measured : domain.Measured flow.length height allowed left)
    (narrows : domain.Narrows) (declared : shape.maxStack = some bound)
    (valid : visit.Valid flow shape) (fine : visit.after.Holds allowed)
    (before : visit.before.Holds allowed) (coherent : now.Coherent flow shape)
    (good : now.Holds allowed) (touches : Touches domain shape.maxLocals visit now next) :
    Paid flow left (height * (shape.maxLocals + bound)) shape.maxLocals visit.index now next := by
  cases touches with
  | merge sends merged =>
    obtain ⟨fits, recorded⟩ := sends.fits valid coherent
    have sent := sends.holds measured.toKeeps valid fine before good
    obtain ⟨paid, longer⟩ := coherent.potential_merge measured narrows good fits sent
      (Frame.room_le measured declared fits sent) recorded merged
    refine ⟨?_, fun _ => paid⟩
    omega
  | requeue calls member =>
    rename_i labelled target ret
    obtain ⟨⟨_, _, _, pointed⟩, -⟩ := coherent.returns _ member
    have inside : ret < flow.length := (List.getElem?_eq_some_iff.mp pointed).1
    have light : flow.weight ret = 1 := by simp [Flow.weight, Flow.called?, pointed]
    refine ⟨?_, fun uncalled => ?_⟩
    · have most := worklist_length_le (coherent.enqueue inside)
      unfold potential framePotential recordPotential queuePotential
      simp only [frame?_enqueue, subroutine?_enqueue]
      rcases worklist_enqueue coherent.toQueued (coherent.frames_length ▸ inside) with
        ⟨-, same⟩ | ⟨-, same⟩
      · rw [same]
      · rw [same, List.length_cons] at most
        rw [same, List.map_cons, List.sum_cons, List.length_cons, light]
        omega
    · rw [Flow.called?_of_call valid.pointed calls] at uncalled
      cases uncalled
  | register => exact ⟨Nat.le_refl _, fun _ => Nat.le_refl _⟩

omit [AbstractValue V] in
theorem potential_next? (taken : state.next? = some (index, popped)) {maxLocals : Nat} :
    popped.potential flow left most maxLocals + flow.weight index =
      state.potential flow left most maxLocals := by
  obtain ⟨others, found, rfl⟩ := next?_eq_some.mp taken
  unfold potential framePotential recordPotential queuePotential
  simp only [frame?, subroutine?, found, List.map_cons, List.sum_cons]
  omega

/-- Every index that is taken off the worklist and processed uses some of the potential up. -/
theorem Coherent.potential_process (measured : domain.Measured flow.length height allowed left)
    (narrows : domain.Narrows) (declared : shape.maxStack = some bound)
    (coherent : state.Coherent flow shape) (good : state.Holds allowed)
    (taken : state.next? = some (index, popped))
    (processed : popped.process domain flow shape.maxLocals index = .ok final) :
    final.potential flow left (height * (shape.maxLocals + bound)) shape.maxLocals + 1 ≤
      state.potential flow left (height * (shape.maxLocals + bound)) shape.maxLocals := by
  have freed : popped.potential flow left (height * (shape.maxLocals + bound)) shape.maxLocals +
      flow.weight index =
        state.potential flow left (height * (shape.maxLocals + bound)) shape.maxLocals :=
    potential_next? taken
  have heavy : 1 ≤ flow.weight index := by
    unfold Flow.weight
    split <;> omega
  rcases (coherent.next? taken).process_cases processed with
    ⟨rfl, -⟩ | ⟨point, frame, after, valid, visited⟩
  · omega
  have inside : index < flow.length := (coherent.next? taken).inside valid.found
  have before : popped.Holds allowed := good.next? taken
  have fine : after.Holds allowed :=
    holds_of_effect (fun operation => measured.closed ⟨index, operation⟩ inside)
      (valid.coherent.fits _ _ valid.found) (before _ _ valid.found) visited.executed
  have step {now next : AnalysisState V} (coherent' : now.Coherent flow shape)
      (kept : now.Holds allowed ∧ Paid flow left (height * (shape.maxLocals + bound))
        shape.maxLocals index popped now)
      (touches : Touches domain shape.maxLocals ⟨popped, index, point, frame, after⟩ now next) :
      next.Holds allowed ∧ Paid flow left (height * (shape.maxLocals + bound)) shape.maxLocals index
        popped next :=
    ⟨touches.holds measured.toKeeps narrows valid fine before coherent' kept.1,
      kept.2.trans (touches.paid measured narrows declared valid fine before coherent' kept.1)⟩
  obtain ⟨-, paid⟩ := steps_keep narrows valid step
    ⟨before, Nat.le_refl _, fun _ => Nat.le_refl _⟩ visited.steps
  cases called : flow.called? index with
  | none =>
    have unpaid := paid.plain called
    omega
  | some target =>
    have weight : flow.weight index = flow.length + 1 := by simp [Flow.weight, called]
    have room := paid.called
    omega

end AnalysisState

end MethodFlow
