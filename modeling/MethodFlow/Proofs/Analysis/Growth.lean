import MethodFlow.Proofs.Analysis.Merging
import MethodFlow.Proofs.Analysis.Records

/-! How the state of an analysis grows: frames only rise, records only gain, and an index whose frame
or record has changed is on the worklist. Every merge grows a coherent state into a coherent one. -/

namespace MethodFlow

/-- Is the operation at an index a `ret`? -/
def Flow.IsReturn (flow : Flow) (index : Nat) : Prop :=
  ∃ labelled slot handlers, flow[index]? = some ⟨.branch labelled (.ret slot), handlers⟩

namespace AnalysisState

variable {V : Type} [AbstractValue V] {flow : Flow} {shape : FrameShape V} {domain : Domain V}

structure Coherent (flow : Flow) (shape : FrameShape V) (state : AnalysisState V) : Prop
    extends Queued state where
  frames_length : state.frames.length = flow.length
  subroutines_length : state.subroutines.length = flow.length
  fits : ∀ index frame, state.frame? index = some frame → frame.Fits shape
  records : ∀ index record, state.subroutine? index = some record →
    record.Coherent flow shape.maxLocals
  returns : ∀ entry ∈ state.returns, flow.IsReturn entry.2 ∧
    ∃ record, state.subroutine? entry.2 = some record ∧ record.start = some entry.1

theorem Coherent.inside {state : AnalysisState V} (coherent : state.Coherent flow shape)
    {index : Nat} {frame : Frame V} (found : state.frame? index = some frame) :
    index < flow.length := by
  rw [← coherent.frames_length]
  by_contra outside
  rw [frame?, List.getElem?_eq_none (Nat.le_of_not_lt outside)] at found
  cases found

/-- A relation between a later and an earlier frame at an index that merging respects. -/
structure Rises (domain : Domain V) (shape : FrameShape V) (above : Frame V → Frame V → Prop) :
    Prop where
  refl : ∀ frame, above frame frame
  trans : ∀ {upper middle lower}, above upper middle → above middle lower → above upper lower
  merged : ∀ {old new after changed}, Frame.Merged domain shape old new after changed →
    above after old

/-- A relation between the frame at an index and all frames merged into it that merging respects. -/
structure Collects (domain : Domain V) (shape : FrameShape V) (above : Frame V → Frame V → Prop) :
    Prop extends Rises domain shape above where
  collected : ∀ {old new after changed}, Frame.Merged domain shape old new after changed →
    above after new

structure Gains (above : Frame V → Frame V → Prop) (before after : AnalysisState V) : Prop where
  frames : ∀ index old, before.frame? index = some old →
    ∃ new, after.frame? index = some new ∧ above new old
  records : ∀ index old, before.subroutine? index = some old →
    ∃ new, after.subroutine? index = some new ∧ new.Extends old
  returns : ∀ entry ∈ before.returns, entry ∈ after.returns

/-- One state comes before another one while an index is processed. -/
structure Grows (above : Frame V → Frame V → Prop) (before after : AnalysisState V) : Prop
    extends Gains above before after where
  queued : ∀ index ∈ before.worklist, index ∈ after.worklist
  changed : ∀ index, (after.frame? index ≠ before.frame? index ∨
    after.subroutine? index ≠ before.subroutine? index) → index ∈ after.worklist

variable {above : Frame V → Frame V → Prop}

theorem rises_absorbs (shape : FrameShape V) (joins : domain.Joins) :
    Rises domain shape (Frame.Absorbs domain) where
  refl := Frame.Absorbs.self joins
  trans := Frame.Absorbs.trans joins
  merged := fun merged => merged.absorbs_left joins

theorem collects_absorbs (shape : FrameShape V) (joins : domain.Joins) :
    Collects domain shape (Frame.Absorbs domain) where
  toRises := rises_absorbs shape joins
  collected := fun merged => merged.absorbs_right joins

theorem Grows.refl (rises : Rises domain shape above) (state : AnalysisState V) :
    Grows above state state where
  frames _ old found := ⟨old, found, rises.refl old⟩
  records _ old found := ⟨old, found, .refl old⟩
  returns _ member := member
  queued _ member := member
  changed := by simp

theorem Gains.trans (rises : Rises domain shape above) {before middle after : AnalysisState V}
    (first : Gains above before middle) (second : Gains above middle after) :
    Gains above before after where
  frames index old found := by
    obtain ⟨mid, found', above₁⟩ := first.frames index old found
    obtain ⟨new, found'', above₂⟩ := second.frames index mid found'
    exact ⟨new, found'', rises.trans above₂ above₁⟩
  records index old found := by
    obtain ⟨mid, found', extends₁⟩ := first.records index old found
    obtain ⟨new, found'', extends₂⟩ := second.records index mid found'
    exact ⟨new, found'', extends₂.trans extends₁⟩
  returns entry member := second.returns entry (first.returns entry member)

theorem Grows.trans (rises : Rises domain shape above) {before middle after : AnalysisState V}
    (first : Grows above before middle) (second : Grows above middle after) :
    Grows above before after where
  toGains := first.toGains.trans rises second.toGains
  queued index member := second.queued index (first.queued index member)
  changed index different := by
    by_cases frames : after.frame? index = middle.frame? index
    · by_cases records : after.subroutine? index = middle.subroutine? index
      · exact second.queued index (first.changed index (by rwa [frames, records] at different))
      · exact second.changed index (.inr records)
    · exact second.changed index (.inl frames)

omit [AbstractValue V] in
/-- What is known at an index that is not queued is what was known there before. -/
theorem Grows.settled {before after : AnalysisState V} (grows : Grows above before after)
    {index : Nat} (settled : index ∉ after.worklist) :
    index ∉ before.worklist ∧ after.frame? index = before.frame? index ∧
      after.subroutine? index = before.subroutine? index := by
  refine ⟨fun member => settled (grows.queued index member), ?_, ?_⟩
  · by_contra different
    exact settled (grows.changed index (.inl different))
  · by_contra different
    exact settled (grows.changed index (.inr different))

/-- A frame and a record have been merged into those at an index. -/
structure ArrivedUnder (above : Frame V → Frame V → Prop) (state : AnalysisState V) (index : Nat)
    (frame : Frame V) (record : Option Subroutine) : Prop where
  frame : ∃ own, state.frame? index = some own ∧ above own frame
  record : ∀ other, record = some other →
    ∃ own, state.subroutine? index = some own ∧ own.Absorbs other

theorem ArrivedUnder.gain (rises : Rises domain shape above) {before after : AnalysisState V}
    {index : Nat} {frame : Frame V} {record : Option Subroutine}
    (arrived : before.ArrivedUnder above index frame record) (gains : Gains above before after) :
    after.ArrivedUnder above index frame record := by
  refine ⟨?_, fun other given => ?_⟩
  · obtain ⟨own, found, absorbs⟩ := arrived.frame
    obtain ⟨new, found', later⟩ := gains.frames index own found
    exact ⟨new, found', rises.trans later absorbs⟩
  · obtain ⟨own, found, absorbs⟩ := arrived.record other given
    obtain ⟨new, found', later⟩ := gains.records index own found
    exact ⟨new, found', later.absorbs absorbs⟩

/-- What merging a frame into the one at an index yields. -/
structure Joined (domain : Domain V) (shape : FrameShape V) (old : Option (Frame V))
    (new after : Frame V) (changed : Bool) : Prop where
  fits : after.Fits shape
  first : old = none → after = new ∧ changed = true
  merged : ∀ frame, old = some frame → Frame.Merged domain shape frame new after changed

theorem joined_of_joinFrame (narrows : domain.Narrows) {old : Option (Frame V)} {new after : Frame V}
    {changed : Bool} (fits : ∀ frame, old = some frame → frame.Fits shape) (fits' : new.Fits shape)
    (joined : joinFrame domain old new = .ok (after, changed)) :
    Joined domain shape old new after changed := by
  cases old with
  | none =>
    cases joined
    exact ⟨fits', fun _ => ⟨rfl, rfl⟩, by simp⟩
  | some frame =>
    have merged := Frame.Merged.of_merge (fits frame rfl).toHasShape fits'.toHasShape joined
    refine ⟨merged.fits narrows (fits frame rfl), by simp, ?_⟩
    rintro _ ⟨⟩
    exact merged

theorem joinSubroutine_unchanged {old new : Option Subroutine}
    (unchanged : (joinSubroutine old new).2 = false) : (joinSubroutine old new).1 = old := by
  cases old with
  | none => cases new with
    | none => rfl
    | some record => cases unchanged
  | some record => cases new with
    | none => rfl
    | some other => exact congrArg some ((Subroutine.merge_changed record other).mp unchanged)

theorem joinSubroutine_spec {maxLocals : Nat} {old new : Option Subroutine}
    (coherent : ∀ record, old = some record → record.Coherent flow maxLocals)
    (coherent' : ∀ record, new = some record → record.Coherent flow maxLocals) :
    (∀ record, (joinSubroutine old new).1 = some record → record.Coherent flow maxLocals) ∧
      (∀ record, old = some record →
        ∃ merged, (joinSubroutine old new).1 = some merged ∧ merged.Extends record) ∧
      ∀ record, new = some record →
        ∃ merged, (joinSubroutine old new).1 = some merged ∧ merged.Absorbs record := by
  cases old with
  | none =>
    cases new with
    | none => simp [joinSubroutine]
    | some other =>
      refine ⟨?_, by simp, ?_⟩
      · rintro _ ⟨⟩
        exact coherent' other rfl
      · rintro _ ⟨⟩
        exact ⟨other, rfl, fun _ marked => marked, fun _ _ member => member⟩
  | some record =>
    have own := coherent record rfl
    cases new with
    | none =>
      refine ⟨?_, ?_, by simp⟩
      · rintro _ ⟨⟩
        exact own
      · rintro _ ⟨⟩
        exact ⟨record, rfl, .refl record⟩
    | some other =>
      have foreign := coherent' other rfl
      have same : record.used.length = other.used.length := own.used.trans foreign.used.symm
      refine ⟨?_, ?_, ?_⟩
      · rintro _ ⟨⟩
        exact own.merge foreign
      · rintro _ ⟨⟩
        exact ⟨_, rfl, Subroutine.extends_merge same⟩
      · rintro _ ⟨⟩
        exact ⟨_, rfl, Subroutine.absorbs_merge same⟩

variable {state after : AnalysisState V} {index : Nat} {frame : Frame V}
  {record : Option Subroutine}

theorem Coherent.enqueue (coherent : state.Coherent flow shape) (inside : index < flow.length) :
    (state.enqueue index).Coherent flow shape where
  toQueued := coherent.toQueued.enqueue (coherent.frames_length ▸ inside)
  frames_length := by simpa using coherent.frames_length
  subroutines_length := by simpa using coherent.subroutines_length
  fits := by simpa using coherent.fits
  records := by simpa using coherent.records
  returns := by simpa using coherent.returns

theorem Grows.enqueue (rises : Rises domain shape above) (coherent : state.Coherent flow shape)
    (inside : index < flow.length) : Grows above state (state.enqueue index) where
  frames _ old found := ⟨old, by simpa using found, rises.refl old⟩
  records _ old found := ⟨old, by simpa using found, .refl old⟩
  returns _ member := by simpa using member
  queued other member :=
    (mem_enqueue coherent.toQueued (coherent.frames_length ▸ inside)).mpr (.inr member)
  changed := by simp

/-- A merge into a coherent state in terms of what was there and what is merged. -/
theorem Coherent.merge (narrows : domain.Narrows) (coherent : state.Coherent flow shape)
    (fits : frame.Fits shape)
    (recorded : ∀ other, record = some other → other.Coherent flow shape.maxLocals)
    (merged : state.merge domain index frame record = .ok after) :
    index < flow.length ∧ after.Coherent flow shape ∧
      ∃ own changed, Joined domain shape (state.frame? index) frame own changed ∧
        after = state.updated index own (joinSubroutine (state.subroutine? index) record).1
          (changed || (joinSubroutine (state.subroutine? index) record).2) := by
  obtain ⟨inside, own, changed, joined, rfl⟩ := merge_eq_ok.mp merged
  have inside' : index < state.subroutines.length := by
    rw [coherent.subroutines_length, ← coherent.frames_length]
    exact inside
  have joined' := joined_of_joinFrame narrows (coherent.fits index) fits joined
  obtain ⟨kept, extending, _⟩ := joinSubroutine_spec (coherent.records index) recorded
  refine ⟨coherent.frames_length ▸ inside, ?_, own, changed, joined', rfl⟩
  refine ⟨coherent.toQueued.updated inside, ?_, ?_, ?_, ?_, ?_⟩
  · simpa using coherent.frames_length
  · simpa using coherent.subroutines_length
  · intro other found present
    rw [frame?_updated inside] at present
    split at present
    · cases present
      exact joined'.fits
    · exact coherent.fits other found present
  · intro other found present
    rw [subroutine?_updated inside'] at present
    split at present
    · exact kept found present
    · exact coherent.records other found present
  · intro entry member
    rw [returns_updated] at member
    obtain ⟨returning, found, present, start⟩ := coherent.returns entry member
    refine ⟨returning, ?_⟩
    rw [subroutine?_updated inside']
    split
    · rename_i same
      obtain ⟨new, present', later⟩ := extending found (same ▸ present)
      exact ⟨new, present', later.start.trans start⟩
    · exact ⟨found, present, start⟩

theorem Grows.merge (rises : Rises domain shape above) (narrows : domain.Narrows)
    (coherent : state.Coherent flow shape) (fits : frame.Fits shape)
    (recorded : ∀ other, record = some other → other.Coherent flow shape.maxLocals)
    (merged : state.merge domain index frame record = .ok after) : Grows above state after := by
  obtain ⟨inside, -, own, changed, joined, rfl⟩ := coherent.merge narrows fits recorded merged
  have inside₁ : index < state.frames.length := coherent.frames_length ▸ inside
  have inside₂ : index < state.subroutines.length := coherent.subroutines_length ▸ inside
  obtain ⟨-, extending, -⟩ := joinSubroutine_spec (coherent.records index) recorded
  refine ⟨⟨?_, ?_, ?_⟩, ?_, ?_⟩
  · intro other old found
    rw [frame?_updated inside₁]
    split
    · rename_i same
      exact ⟨own, rfl, rises.merged (joined.merged old (same ▸ found))⟩
    · exact ⟨old, found, rises.refl old⟩
  · intro other old found
    rw [subroutine?_updated inside₂]
    split
    · rename_i same
      exact extending old (same ▸ found)
    · exact ⟨old, found, .refl old⟩
  · intro entry member
    rwa [returns_updated]
  · intro other member
    exact (mem_updated coherent.toQueued inside₁).mpr (.inr member)
  · intro other different
    rw [frame?_updated inside₁, subroutine?_updated inside₂] at different
    rw [mem_updated coherent.toQueued inside₁]
    by_cases own' : other = index
    · left
      refine ⟨own', ?_⟩
      subst own'
      by_contra unchanged
      obtain ⟨frameSame, recordSame⟩ := Bool.or_eq_false_iff.mp (Bool.eq_false_iff.mpr unchanged)
      have recordKept := joinSubroutine_unchanged recordSame
      rcases different with frames | records
      · cases present : state.frame? other with
        | none => exact absurd ((joined.first present).2) (by simp [frameSame])
        | some old =>
          have kept := (joined.merged old present).unchanged.mp frameSame
          simp [present, kept] at frames
      · simp [recordKept] at records
    · simp [own'] at different

theorem ArrivedUnder.merge (collects : Collects domain shape above) (narrows : domain.Narrows)
    (coherent : state.Coherent flow shape) (fits : frame.Fits shape)
    (recorded : ∀ other, record = some other → other.Coherent flow shape.maxLocals)
    (merged : state.merge domain index frame record = .ok after) :
    after.ArrivedUnder above index frame record := by
  obtain ⟨inside, -, own, changed, joined, rfl⟩ := coherent.merge narrows fits recorded merged
  have inside₁ : index < state.frames.length := coherent.frames_length ▸ inside
  have inside₂ : index < state.subroutines.length := coherent.subroutines_length ▸ inside
  obtain ⟨-, -, absorbing⟩ := joinSubroutine_spec (coherent.records index) recorded
  refine ⟨⟨own, by simp [frame?_updated inside₁], ?_⟩, fun other given => ?_⟩
  · cases present : state.frame? index with
    | none =>
      obtain ⟨rfl, -⟩ := joined.first present
      exact collects.refl own
    | some old => exact collects.collected (joined.merged old present)
  · simpa [subroutine?_updated inside₂] using absorbing other given

end AnalysisState

end MethodFlow
