import MethodFlow.Proofs.Analysis.FixedPoint
import MethodFlow.Proofs.Analysis.Usage

/-! Which calls the record at a `ret` lists when an analysis is done. A `ret` that lies in one
subroutine only lists every call of that subroutine which has a frame. -/

namespace MethodFlow

open Relation (ReflTransGen)

variable {method : Method} {table : LabelTable} {flow : Flow}

namespace AnalysisState

variable {V : Type} {state now next final : AnalysisState V} {visit : Visit V} {index target : Nat}

/-- Every record is one of a subroutine that its index lies in. -/
def Housed (method : Method) (state : AnalysisState V) : Prop :=
  ∀ index record, state.subroutine? index = some record →
    ∃ start, record.start = some start ∧ method.Contains (some start) index

theorem Housed.start_eq (housed : Housed method state) {start : Option Nat} {record : Subroutine}
    (alone : method.Alone start index) (recorded : state.subroutine? index = some record) :
    record.start = start := by
  obtain ⟨own, started, contains⟩ := housed index record recorded
  exact started.trans (alone _ contains)

/-- How an index comes to have a frame: from the entry of the method or of a subroutine that is called,
through indices with frames that the subroutine's record is passed along. -/
inductive Stems (flow : Flow) (state : AnalysisState V) : Option Nat → Nat → Prop where
  | body : Stems flow state none 0
  | entered {call target : Nat} {frame : Frame V} (called : flow.called? call = some target)
      (found : state.frame? call = some frame) : Stems flow state (some target) target
  | passed {start : Option Nat} {index target : Nat} {frame : Frame V}
      (stems : Stems flow state start index) (found : state.frame? index = some frame)
      (passes : Passes flow state index target) : Stems flow state start target

/-- Every index with a frame has come to it from some entry. -/
def Grounded (flow : Flow) (state : AnalysisState V) : Prop :=
  ∀ index frame, state.frame? index = some frame → ∃ start, Stems flow state start index

theorem Stems.gain {above : Frame V → Frame V → Prop} (gains : Gains above state next)
    {start : Option Nat} (stems : Stems flow state start index) :
    Stems flow next start index := by
  induction stems with
  | body => exact .body
  | entered called found =>
    obtain ⟨frame, found', -⟩ := gains.frames _ _ found
    exact .entered called found'
  | passed _ found passes ih =>
    obtain ⟨frame, found', -⟩ := gains.frames _ _ found
    exact .passed ih found' (passes.gain gains)

theorem start_of_joinSubroutine {old new : Option Subroutine} {record : Subroutine}
    (joined : (joinSubroutine old new).1 = some record) :
    ∃ other, (old = some other ∨ new = some other) ∧ record.start = other.start := by
  cases old with
  | none =>
    cases new with
    | none => cases joined
    | some other =>
      cases joined
      exact ⟨record, .inr rfl, rfl⟩
  | some own =>
    cases new with
    | none =>
      cases joined
      exact ⟨record, .inl rfl, rfl⟩
    | some other =>
      cases joined
      exact ⟨own, .inl rfl, rfl⟩

variable [AbstractValue V] {domain : Domain V} {shape : FrameShape V}

theorem Passes.stays (resolved : method.Resolved table flow) (coherent : state.Coherent flow shape)
    (passes : Passes flow state index target) : method.Stays index target := by
  cases passes with
  | onward pointed plain successor => exact resolved.stays_of_successor pointed plain successor
  | handler pointed member => exact resolved.stays_of_handler pointed member
  | past returns found recorded member =>
    obtain ⟨start, -, called⟩ := (coherent.records _ _ recorded).entered
    exact resolved.stays_past (called index member)

theorem Stems.contains (resolved : method.Resolved table flow)
    (coherent : state.Coherent flow shape) {start : Option Nat}
    (stems : Stems flow state start index) : method.Contains start index := by
  induction stems with
  | body => exact ReflTransGen.refl
  | entered called found => exact ⟨⟨_, resolved.calls_of_called? called⟩, .refl⟩
  | passed _ found passes ih => exact ih.tail (passes.stays resolved coherent)

/-- What is sent on goes along the trace of where it comes from, and starts one at a call. -/
theorem Sends.stems (valid : visit.Valid flow shape)
    {above : Frame V → Frame V → Prop} (gains : Gains above visit.before now)
    (grounded : Grounded flow now) {sent : Frame V} {record : Option Subroutine}
    (sends : Sends domain shape.maxLocals visit now target sent record) :
    ∃ start, Stems flow now start target := by
  obtain ⟨frame, found, -⟩ := gains.frames _ _ valid.found
  obtain ⟨start, own⟩ := grounded visit.index frame found
  cases sends with
  | onward plain successor => exact ⟨start, .passed own found (.onward valid.pointed plain successor)⟩
  | call calls => exact ⟨some target, .entered (Flow.called?_of_call valid.pointed calls) found⟩
  | handler member => exact ⟨start, .passed own found (.handler valid.pointed member)⟩
  | back returns inside member found' =>
    rename_i labelled slot caller returning callerFrame
    obtain ⟨start', stems⟩ := grounded caller callerFrame found'
    have answered := answered_of_back valid gains returns inside member
    exact ⟨start', .passed stems found' answered.passes⟩

theorem Touches.grounded {above : Frame V → Frame V → Prop} (rises : Rises domain shape above)
    (narrows : domain.Narrows) (valid : visit.Valid flow shape) (coherent : now.Coherent flow shape)
    (grown : Grows above visit.before now) (grounded : Grounded flow now)
    (touches : Touches domain shape.maxLocals visit now next) : Grounded flow next := by
  obtain ⟨-, grown'⟩ := touches.grows rises narrows valid coherent grown
  have before (index : Nat) (frame : Frame V) (found : now.frame? index = some frame) :
      ∃ start, Stems flow next start index := by
    obtain ⟨start, stems⟩ := grounded index frame found
    exact ⟨start, stems.gain grown'.toGains⟩
  cases touches with
  | merge sends merged =>
    obtain ⟨fits, recorded⟩ := sends.fits valid coherent
    obtain ⟨inside, -, own, changed, -, rfl⟩ := coherent.merge narrows fits recorded merged
    intro index frame found
    rw [frame?_updated (coherent.frames_length ▸ inside)] at found
    split at found
    · rename_i same
      obtain ⟨start, stems⟩ := sends.stems valid grown.toGains grounded
      exact ⟨start, same ▸ stems.gain grown'.toGains⟩
    · exact before index frame found
  | requeue calls member =>
    intro index frame found
    rw [frame?_enqueue] at found
    exact before index frame found
  | register returns inside started => exact before

/-- The record that is sent on is one of a subroutine that it stays in, or of the one that is called. -/
theorem Sends.housed (resolved : method.Resolved table flow) (valid : visit.Valid flow shape)
    (before : Housed method visit.before) (housed : Housed method now) {sent : Frame V}
    {record : Subroutine}
    (sends : Sends domain shape.maxLocals visit now target sent (some record)) :
    ∃ start, record.start = some start ∧ method.Contains (some start) target := by
  have own (recorded : visit.record = some record) :
      ∃ start, record.start = some start ∧ method.Contains (some start) visit.index := by
    obtain ⟨earlier, found, same, -⟩ := usedBy_eq_some recorded
    obtain ⟨start, started, contains⟩ := before _ _ found
    exact ⟨start, same.trans started, contains⟩
  generalize given : some record = passed at sends
  cases sends with
  | onward plain successor =>
    obtain ⟨start, started, contains⟩ := own given.symm
    exact ⟨start, started, contains.tail (resolved.stays_of_successor valid.pointed plain successor)⟩
  | call calls =>
    cases given
    have called := resolved.calls_of_called? (Flow.called?_of_call valid.pointed calls)
    exact ⟨target, rfl, ⟨_, called⟩, .refl⟩
  | handler member =>
    obtain ⟨start, started, contains⟩ := own given.symm
    exact ⟨start, started, contains.tail (resolved.stays_of_handler valid.pointed member)⟩
  | back returns inside member found =>
    rename_i labelled slot caller returning callerFrame
    obtain ⟨earlier, recorded, callers, -⟩ := usedBy_marks inside
    obtain ⟨start', -, called⟩ := (valid.coherent.records _ _ recorded).entered
    obtain ⟨start, started, contains⟩ := housed caller record given.symm
    exact ⟨start, started, contains.tail (resolved.stays_past (called caller (callers ▸ member)))⟩

theorem Touches.housed (resolved : method.Resolved table flow) (narrows : domain.Narrows)
    (valid : visit.Valid flow shape) (before : Housed method visit.before)
    (coherent : now.Coherent flow shape) (housed : Housed method now)
    (touches : Touches domain shape.maxLocals visit now next) : Housed method next := by
  cases touches with
  | merge sends merged =>
    obtain ⟨fits, recorded⟩ := sends.fits valid coherent
    obtain ⟨inside, -, own, changed, -, rfl⟩ := coherent.merge narrows fits recorded merged
    intro index record found
    rw [subroutine?_updated (coherent.subroutines_length ▸ inside)] at found
    split at found
    · rename_i same
      subst same
      obtain ⟨other, known, started⟩ := start_of_joinSubroutine found
      obtain ⟨start, started', contains⟩ : ∃ start, other.start = some start ∧
          method.Contains (some start) index := by
        rcases known with old | new
        · exact housed index other old
        · exact (new ▸ sends).housed resolved valid before housed
      exact ⟨start, started.trans started', contains⟩
    · exact housed index record found
  | requeue calls member =>
    intro index record found
    rw [subroutine?_enqueue] at found
    exact housed index record found
  | register returns inside started => exact housed

variable {start : AnalysisState V} {count : Nat}

theorem Run.housed (resolved : method.Resolved table flow) (narrows : domain.Narrows)
    (coherent : start.Coherent flow shape) (housed : Housed method start)
    (run : Run domain flow shape.maxLocals start count final) : Housed method final := by
  have next {state popped : AnalysisState V} {index : Nat}
      (taken : state.next? = some (index, popped)) (housed : Housed method state) :
      Housed method popped := by
    intro other record found
    rw [subroutine?, (known_next? taken).2.1] at found
    exact housed other record found
  exact (run.keeps (rises_any domain shape) narrows next
    (fun valid _ before coherent _ housed touches =>
      touches.housed resolved narrows valid before coherent housed) coherent housed).2

theorem Run.grounded (narrows : domain.Narrows) (coherent : start.Coherent flow shape)
    (grounded : Grounded flow start) (run : Run domain flow shape.maxLocals start count final) :
    Grounded flow final := by
  have rises := rises_any domain shape
  have next {state popped : AnalysisState V} {index : Nat}
      (taken : state.next? = some (index, popped)) (grounded : Grounded flow state) :
      Grounded flow popped := by
    intro other frame found
    rw [frame?, (known_next? taken).1] at found
    obtain ⟨start, stems⟩ := grounded other frame found
    exact ⟨start, stems.gain (Gains.next? rises taken)⟩
  exact (run.keeps rises narrows next (fun valid _ _ coherent grown grounded touches =>
    touches.grounded rises narrows valid coherent grown grounded) coherent grounded).2

/-- When an analysis is done, the record of an index that lies in one subroutine only lists every call
of the subroutine that has a frame. -/
theorem Stems.listed (resolved : method.Resolved table flow) (coherent : final.Coherent flow shape)
    (stable : Stable domain flow shape.maxLocals final) (done : final.worklist = [])
    (housed : Housed method final) {call target : Nat} {frame : Frame V}
    (called : flow.called? call = some target) (found : final.frame? call = some frame)
    {start : Option Nat} (stems : Stems flow final start index) (started : start = some target)
    (alone : method.Alone start index) :
    ∃ record, final.subroutine? index = some record ∧ call ∈ record.callers := by
  induction stems with
  | body => cases started
  | @entered other entry callFrame called' found' =>
    cases started
    obtain ⟨labelled, handlers, pointed⟩ := Flow.call_of_called? called
    have waiting : call ∉ final.worklist := by simp [done]
    obtain ⟨after, settled⟩ := stable call frame _ waiting found pointed
    have arrived := settled.call labelled target rfl
    obtain ⟨own, recorded, absorbs⟩ := arrived.record _ rfl
    exact ⟨own, recorded,
      absorbs.callers (housed.start_eq alone recorded) call (List.mem_singleton.mpr rfl)⟩
  | @passed start source index sourceFrame stems found' passes ih =>
    -- what lies in the subroutine before the index lies there alone, too
    have alone' : method.Alone start source := fun other contains =>
      alone other (contains.tail (passes.stays resolved coherent))
    obtain ⟨record, recorded, member⟩ := ih started alone'
    obtain ⟨point, pointed⟩ : ∃ point, flow[source]? = some point :=
      ⟨_, List.getElem?_eq_getElem (coherent.inside found')⟩
    obtain ⟨passed, recorded', callers, -⟩ := usedBy_some point.action record
    obtain ⟨sent, arrived⟩ :=
      passes.arrived coherent stable done pointed found' (recorded ▸ recorded')
    obtain ⟨own, recorded'', absorbs⟩ := arrived.record _ rfl
    obtain ⟨earlier, same, kept, -⟩ := usedBy_eq_some recorded'
    cases same
    have alike : own.start = passed.start :=
      (housed.start_eq alone recorded'').trans (kept.trans (housed.start_eq alone' recorded)).symm
    exact ⟨own, recorded'', absorbs.callers alike call (callers ▸ member)⟩

theorem IsStart.grounded {entry : Frame V} (isStart : start.IsStart flow shape entry) :
    Grounded flow start := by
  intro index frame found
  obtain ⟨rfl, -⟩ := (isStart.frames index frame).mp found
  exact ⟨none, .body⟩

end AnalysisState

theorem Prepared.housed {V : Type} [AbstractValue V] {domain : Domain V} {owner : BinaryName}
    {maxLocals : Nat} {maxStack : Option Nat} {entry : Frame V} {start : AnalysisState V}
    (resolved : method.Resolved table flow) (narrows : domain.Narrows)
    (prepared : Prepared domain owner method maxLocals maxStack flow entry start) :
    start.Housed method := by
  intro index record found
  obtain ⟨marks, marked, found'⟩ := prepared.recorded narrows found
  have inside : marks.length = flow.length ∧ ∀ (index : Nat) (record : Subroutine),
      (marks[index]?).join = some record →
        ∃ start, record.start = some start ∧ method.Contains (some start) index := by
    refine subroutines_spec _ ?_ ?_ marked
    · intro call target called
      exact ⟨target, rfl, ⟨call, resolved.calls_of_called? called⟩, .refl⟩
    · intro record index point next held pointed onward
      obtain ⟨start, started, contains⟩ := held
      exact ⟨start, started, contains.tail (resolved.stays_of_onward pointed onward)⟩
  exact inside.2 index record found'

end MethodFlow
