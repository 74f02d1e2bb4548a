import MethodFlow.Proofs.Analysis.Running

/-! Which locals the record at a `ret` marks when an analysis is done: those accessed where control,
and the record with it, comes to the `ret` from. Control steps over calls on the way. -/

namespace MethodFlow

open Relation (ReflTransGen TransGen)

/-- Does an action read or write a local? -/
def Action.Accesses (slot : Nat) : Action → Prop
  | .instruction i =>
    ∃ first width, i.localAccess? = some (first, width) ∧ first ≤ slot ∧ slot < first + width
  | .branch _ (.ret own) => slot = own
  | _ => False

variable {V : Type} {flow : Flow}

namespace AnalysisState

theorem usedBy_some (action : Action) (earlier : Subroutine) :
    ∃ record, usedBy action (some earlier) = some record ∧ record.callers = earlier.callers ∧
      ∀ slot, record.used[slot]? = some true ↔ earlier.used[slot]? = some true ∨
        action.Accesses slot ∧ slot < earlier.used.length := by
  unfold usedBy
  split
  · rename_i i
    split
    · rename_i first width accessed
      refine ⟨_, rfl, Subroutine.callers_useFrom .., fun slot => ?_⟩
      rw [Subroutine.getElem?_useFrom]
      simp [Action.Accesses, accessed]
    · rename_i untouched
      exact ⟨earlier, rfl, rfl, fun slot => by simp [Action.Accesses, untouched]⟩
  · refine ⟨_, rfl, rfl, fun slot => ?_⟩
    rw [Subroutine.getElem?_use]
    rfl
  · rename_i other notReturn
    refine ⟨earlier, rfl, rfl, fun slot => ?_⟩
    have untouched : ¬action.Accesses slot := by
      intro accessed
      unfold Action.Accesses at accessed
      split at accessed <;> simp_all
    simp [untouched]

theorem usedBy_marks {action : Action} {old : Option Subroutine} {record : Subroutine}
    (recorded : usedBy action old = some record) :
    ∃ earlier, old = some earlier ∧ record.callers = earlier.callers ∧
      ∀ slot, record.used[slot]? = some true ↔ earlier.used[slot]? = some true ∨
        action.Accesses slot ∧ slot < earlier.used.length := by
  obtain ⟨earlier, rfl, -, -⟩ := usedBy_eq_some recorded
  obtain ⟨record', recorded', callers, marks⟩ := usedBy_some action earlier
  cases recorded'.symm.trans recorded
  exact ⟨earlier, rfl, callers, marks⟩

/-- Where an index passes its record on to: along with control, into a handler, and past a call for
which some `ret` hands back. -/
inductive Passes (flow : Flow) (state : AnalysisState V) : Nat → Nat → Prop where
  | onward {index target : Nat} {point : Point} (pointed : flow[index]? = some point)
      (plain : point.action.isPlain = true) (successor : target ∈ point.action.successors index) :
      Passes flow state index target
  | handler {index target : Nat} {point : Point} {handler : ExceptionHandler}
      (pointed : flow[index]? = some point) (member : (target, handler) ∈ point.handlers) :
      Passes flow state index target
  | past {caller ret : Nat} {frame : Frame V} {record : Subroutine} (returns : flow.IsReturn ret)
      (found : state.frame? ret = some frame) (recorded : state.subroutine? ret = some record)
      (member : caller ∈ record.callers) : Passes flow state caller (caller + 1)

/-- Some `ret` that has a frame is known to return to a call. -/
def Answered (flow : Flow) (state : AnalysisState V) (call : Nat) : Prop :=
  ∃ ret frame record, flow.IsReturn ret ∧ state.frame? ret = some frame ∧
    state.subroutine? ret = some record ∧ call ∈ record.callers

/-- An index in a subroutine that control reaches accesses a local. -/
structure AccessedAt (flow : Flow) (state : AnalysisState V) (slot index : Nat) : Prop where
  accesses : ∃ point, flow[index]? = some point ∧ point.action.Accesses slot
  found : ∃ frame, state.frame? index = some frame
  recorded : ∃ record, state.subroutine? index = some record

/-- A local is accessed at an index, or at one whose record comes to it. -/
def Used (flow : Flow) (state : AnalysisState V) (slot index : Nat) : Prop :=
  ∃ source, AccessedAt flow state slot source ∧ ReflTransGen (Passes flow state) source index

variable {above : Frame V → Frame V → Prop} {before after : AnalysisState V} {slot : Nat}

theorem Passes.gain (gains : Gains above before after) {index target : Nat}
    (passes : Passes flow before index target) : Passes flow after index target := by
  cases passes with
  | onward pointed plain successor => exact .onward pointed plain successor
  | handler pointed member => exact .handler pointed member
  | past returns found recorded member =>
    obtain ⟨_, found', -⟩ := gains.frames _ _ found
    obtain ⟨record, recorded', later⟩ := gains.records _ _ recorded
    exact .past returns found' recorded' (later.callers _ member)

theorem Answered.passes {state : AnalysisState V} {call : Nat} (answered : Answered flow state call) :
    Passes flow state call (call + 1) := by
  obtain ⟨ret, frame, record, returns, found, recorded, member⟩ := answered
  exact .past returns found recorded member

theorem Answered.gain (gains : Gains above before after) {call : Nat}
    (answered : Answered flow before call) : Answered flow after call := by
  obtain ⟨ret, frame, record, returns, found, recorded, member⟩ := answered
  obtain ⟨frame', found', -⟩ := gains.frames _ _ found
  obtain ⟨record', recorded', later⟩ := gains.records _ _ recorded
  exact ⟨ret, frame', record', returns, found', recorded', later.callers call member⟩

theorem AccessedAt.gain (gains : Gains above before after) {index : Nat}
    (accessed : AccessedAt flow before slot index) : AccessedAt flow after slot index := by
  obtain ⟨accesses, ⟨frame, found⟩, ⟨record, recorded⟩⟩ := accessed
  obtain ⟨frame', found', -⟩ := gains.frames _ _ found
  obtain ⟨record', recorded', -⟩ := gains.records _ _ recorded
  exact ⟨accesses, ⟨frame', found'⟩, ⟨record', recorded'⟩⟩

theorem Used.gain (gains : Gains above before after) {index : Nat}
    (used : Used flow before slot index) : Used flow after slot index := by
  obtain ⟨source, accessed, path⟩ := used
  exact ⟨source, accessed.gain gains, path.lift id fun _ _ passes => passes.gain gains⟩

/-- A local is used on the way to an index from another one. -/
def UsedBefore (flow : Flow) (state : AnalysisState V) (slot index : Nat) : Prop :=
  ∃ previous, Used flow state slot previous ∧ Passes flow state previous index

theorem UsedBefore.gain (gains : Gains above before after) {index : Nat}
    (used : UsedBefore flow before slot index) : UsedBefore flow after slot index := by
  obtain ⟨previous, earlier, passes⟩ := used
  exact ⟨previous, earlier.gain gains, passes.gain gains⟩

theorem UsedBefore.used {state : AnalysisState V} {index : Nat}
    (used : UsedBefore flow state slot index) : Used flow state slot index := by
  obtain ⟨previous, ⟨source, accessed, path⟩, passes⟩ := used
  exact ⟨source, accessed, path.tail passes⟩

/-- Every local that a record marks was used on the way. -/
def Explained (flow : Flow) (state : AnalysisState V) : Prop :=
  ∀ index record slot, state.subroutine? index = some record → record.used[slot]? = some true →
    UsedBefore flow state slot index

variable {state now next final : AnalysisState V}

theorem Explained.used (explained : Explained flow state) {index : Nat} {point : Point}
    {frame : Frame V} {record : Subroutine} (pointed : flow[index]? = some point)
    (found : state.frame? index = some frame)
    (recorded : usedBy point.action (state.subroutine? index) = some record)
    (marked : record.used[slot]? = some true) : Used flow state slot index := by
  obtain ⟨earlier, own, -, marks⟩ := usedBy_marks recorded
  rcases (marks slot).mp marked with before | ⟨accesses, -⟩
  · exact (explained index earlier slot own before).used
  · exact ⟨index, ⟨⟨point, pointed, accesses⟩, ⟨frame, found⟩, ⟨earlier, own⟩⟩, .refl⟩

theorem marked_of_joinSubroutine {maxLocals : Nat} {old new : Option Subroutine}
    {record : Subroutine}
    (coherent : ∀ other, old = some other → other.Coherent flow maxLocals)
    (coherent' : ∀ other, new = some other → other.Coherent flow maxLocals)
    (joined : (joinSubroutine old new).1 = some record) (marked : record.used[slot]? = some true) :
    ∃ other, (old = some other ∨ new = some other) ∧ other.used[slot]? = some true := by
  cases old with
  | none =>
    cases new with
    | none => cases joined
    | some other =>
      cases joined
      exact ⟨record, .inr rfl, marked⟩
  | some own =>
    cases new with
    | none =>
      cases joined
      exact ⟨record, .inl rfl, marked⟩
    | some other =>
      cases joined
      have same : own.used.length = other.used.length :=
        (coherent own rfl).used.trans (coherent' other rfl).used.symm
      rcases (Subroutine.getElem?_mergeUsed same slot).mp marked with first | second
      · exact ⟨own, .inl rfl, first⟩
      · exact ⟨other, .inr rfl, second⟩

section Steps

variable [AbstractValue V] {domain : Domain V} {shape : FrameShape V} {visit : Visit V}

/-- A `ret` that is handed back to a call answers it from then on. -/
theorem answered_of_back (valid : visit.Valid flow shape) (gains : Gains above visit.before now)
    {labelled : Branch Label} {own call : Nat} {returning : Subroutine}
    (returns : visit.point.action = .branch labelled (.ret own))
    (inside : visit.record = some returning) (member : call ∈ returning.callers) :
    Answered flow now call := by
  obtain ⟨earlier, recorded, callers, -⟩ := usedBy_marks inside
  obtain ⟨frame, found, -⟩ := gains.frames _ _ valid.found
  obtain ⟨record, recorded', later⟩ := gains.records _ _ recorded
  exact ⟨visit.index, frame, record, ⟨labelled, own, visit.point.handlers, returns ▸ valid.pointed⟩,
    found, recorded', later.callers call (callers ▸ member)⟩

/-- What an index sends on marks only locals that are used before the target. -/
theorem Sends.usedBefore (valid : visit.Valid flow shape) (before : Explained flow visit.before)
    (explained : Explained flow now) (gains : Gains above visit.before now) {target : Nat}
    {sent : Frame V} {record : Subroutine}
    (sends : Sends domain shape.maxLocals visit now target sent (some record))
    (marked : record.used[slot]? = some true) : UsedBefore flow now slot target := by
  have own (recorded : visit.record = some record) : Used flow now slot visit.index :=
    (before.used valid.pointed valid.found recorded marked).gain gains
  generalize given : some record = passed at sends
  cases sends with
  | onward plain successor =>
    exact ⟨visit.index, own given.symm, .onward valid.pointed plain successor⟩
  | call calls =>
    cases given
    have blank : (List.replicate shape.maxLocals false)[slot]? = some true := marked
    rw [List.getElem?_replicate] at blank
    split at blank <;> cases blank
  | back returns inside member found =>
    rename_i labelled ret caller returning callerFrame
    have answered := answered_of_back valid gains returns inside member
    exact ⟨caller, (explained caller record slot given.symm marked).used, answered.passes⟩
  | handler member pushed => exact ⟨visit.index, own given.symm, .handler valid.pointed member⟩

theorem Touches.explained (rises : Rises domain shape above) (narrows : domain.Narrows)
    (valid : visit.Valid flow shape) (before : Explained flow visit.before)
    (coherent : now.Coherent flow shape) (grown : Grows above visit.before now)
    (explained : Explained flow now) (touches : Touches domain shape.maxLocals visit now next) :
    Explained flow next := by
  obtain ⟨-, grown'⟩ := touches.grows rises narrows valid coherent grown
  intro index record slot recorded marked
  cases touches with
  | merge sends merged =>
    obtain ⟨fits, sound⟩ := sends.fits valid coherent
    obtain ⟨inside, -, own, changed, -, rfl⟩ := coherent.merge narrows fits sound merged
    rw [subroutine?_updated (coherent.subroutines_length ▸ inside)] at recorded
    split at recorded
    · rename_i same
      subst same
      obtain ⟨other, old | new, marked'⟩ :=
        marked_of_joinSubroutine (coherent.records index) sound recorded marked
      · exact (explained index other slot old marked').gain grown'.toGains
      · have sends' := new ▸ sends
        exact (sends'.usedBefore valid before explained grown.toGains marked').gain grown'.toGains
    · exact (explained index record slot recorded marked).gain grown'.toGains
  | requeue calls member =>
    rw [subroutine?_enqueue] at recorded
    exact (explained index record slot recorded marked).gain grown'.toGains
  | register returns inside started =>
    exact (explained index record slot recorded marked).gain grown'.toGains

/-- Throughout a run, records mark only locals that are used on the way to them. -/
theorem Run.explained (narrows : domain.Narrows) {start : AnalysisState V} {count : Nat}
    (coherent : start.Coherent flow shape) (explained : Explained flow start)
    (run : Run domain flow shape.maxLocals start count final) :
    final.Coherent flow shape ∧ Explained flow final := by
  have rises := rises_any domain shape
  have next {state popped : AnalysisState V} {index : Nat}
      (taken : state.next? = some (index, popped)) (explained : Explained flow state) :
      Explained flow popped := by
    intro other record slot recorded marked
    rw [subroutine?, (known_next? taken).2.1] at recorded
    exact (explained other record slot recorded marked).gain (Gains.next? rises taken)
  exact run.keeps rises narrows next (fun valid _ before coherent grown explained touches =>
    touches.explained rises narrows valid before coherent grown explained) coherent explained

/-- The record that an index passes on marks a local. -/
structure MarksAt (flow : Flow) (state : AnalysisState V) (slot index : Nat) : Prop where
  marks : ∃ point record, flow[index]? = some point ∧
    usedBy point.action (state.subroutine? index) = some record ∧ record.used[slot]? = some true
  found : ∃ frame, state.frame? index = some frame

theorem AccessedAt.marksAt (coherent : final.Coherent flow shape) (inside : slot < shape.maxLocals)
    {index : Nat} (accessed : AccessedAt flow final slot index) : MarksAt flow final slot index := by
  obtain ⟨⟨point, pointed, accesses⟩, found, ⟨earlier, recorded⟩⟩ := accessed
  obtain ⟨record, recorded', -, marks⟩ := usedBy_some point.action earlier
  have within : slot < earlier.used.length := (coherent.records _ _ recorded).used ▸ inside
  exact ⟨⟨point, record, pointed, recorded ▸ recorded', (marks slot).mpr (.inr ⟨accesses, within⟩)⟩,
    found⟩

theorem ArrivedUnder.marksAt (coherent : final.Coherent flow shape) {index : Nat} {sent : Frame V}
    {other : Subroutine} (arrived : final.ArrivedUnder above index sent (some other))
    (marked : other.used[slot]? = some true) : MarksAt flow final slot index := by
  obtain ⟨own, found, -⟩ := arrived.frame
  obtain ⟨earlier, recorded, absorbs⟩ := arrived.record other rfl
  obtain ⟨point, pointed⟩ : ∃ point, flow[index]? = some point :=
    ⟨_, List.getElem?_eq_getElem (coherent.inside found)⟩
  obtain ⟨record, recorded', -, marks⟩ := usedBy_some point.action earlier
  exact ⟨⟨point, record, pointed, recorded ▸ recorded',
    (marks slot).mpr (.inl (absorbs.used slot marked))⟩, own, found⟩

/-- When an analysis is done, the record of an index with a frame has arrived wherever it is passed on
to. -/
theorem Passes.arrived (coherent : final.Coherent flow shape)
    (stable : StableUnder domain above flow shape.maxLocals final) (done : final.worklist = [])
    {index target : Nat} {point : Point} {frame : Frame V} {record : Subroutine}
    (pointed : flow[index]? = some point) (found : final.frame? index = some frame)
    (recorded : usedBy point.action (final.subroutine? index) = some record)
    (passes : Passes flow final index target) :
    ∃ sent, final.ArrivedUnder above target sent (some record) := by
  have waiting (other : Nat) : other ∉ final.worklist := by simp [done]
  obtain ⟨after, settled⟩ := stable index frame point (waiting index) found pointed
  cases passes with
  | onward pointed' plain successor =>
    cases pointed.symm.trans pointed'
    have arrived := settled.onward plain target successor
    rw [Visit.record, recorded] at arrived
    exact ⟨after, arrived⟩
  | handler pointed' member =>
    cases pointed.symm.trans pointed'
    obtain ⟨caught, -, arrived⟩ := settled.handlers _ _ member
    rw [Visit.record, recorded] at arrived
    exact ⟨caught, arrived⟩
  | @past ret retFrame returning returns found' recorded' member =>
    obtain ⟨labelled, own, handlers, pointed'⟩ := returns
    obtain ⟨after', settled'⟩ := stable ret retFrame _ (waiting ret) found' pointed'
    obtain ⟨passed, inside, -, handed⟩ := settled'.back labelled own rfl
    obtain ⟨known, recorded'', callers, -⟩ := usedBy_marks inside
    cases recorded'.symm.trans recorded''
    have arrived := handed index (callers ▸ member) (waiting index) frame found
    obtain ⟨start, -, called⟩ := (coherent.records _ _ recorded').entered
    -- a call leaves its record as it is
    have same : usedBy point.action (final.subroutine? index) = final.subroutine? index := by
      obtain ⟨labelled', handlers', pointed''⟩ := Flow.call_of_called? (called index member)
      cases pointed.symm.trans pointed''
      rfl
    have own' : final.subroutine? index = some record := same.symm.trans recorded
    rw [show AnalysisState.subroutine? _ index = _ from own'] at arrived
    exact ⟨_, arrived⟩

theorem MarksAt.passes (coherent : final.Coherent flow shape)
    (stable : StableUnder domain above flow shape.maxLocals final) (done : final.worklist = [])
    {index target : Nat} (marks : MarksAt flow final slot index)
    (passes : Passes flow final index target) : MarksAt flow final slot target := by
  obtain ⟨⟨point, record, pointed, recorded, marked⟩, frame, found⟩ := marks
  obtain ⟨sent, arrived⟩ := passes.arrived coherent stable done pointed found recorded
  exact arrived.marksAt coherent marked

/-- When an analysis is done, an index passes on as marked exactly the locals that are used there. -/
theorem marksAt_iff_used (coherent : final.Coherent flow shape)
    (stable : StableUnder domain above flow shape.maxLocals final) (done : final.worklist = [])
    (explained : Explained flow final) (inside : slot < shape.maxLocals) {index : Nat} :
    MarksAt flow final slot index ↔ Used flow final slot index := by
  constructor
  · intro marks
    obtain ⟨⟨point, record, pointed, recorded, marked⟩, frame, found⟩ := marks
    exact explained.used pointed found recorded marked
  · intro used
    obtain ⟨source, accessed, path⟩ := used
    -- the mark comes along the way from where the local is accessed
    induction path with
    | refl => exact accessed.marksAt coherent inside
    | tail _ passes ih => exact ih.passes coherent stable done passes

end Steps

end AnalysisState

theorem Prepared.explained [AbstractValue V] {domain : Domain V} (narrows : domain.Narrows)
    {owner : BinaryName} {method : Method} {maxLocals : Nat} {maxStack : Option Nat}
    {entry : Frame V} {start : AnalysisState V}
    (prepared : Prepared domain owner method maxLocals maxStack flow entry start) :
    AnalysisState.Explained flow start := by
  intro index record slot recorded marked
  rw [prepared.unused narrows recorded, List.getElem?_replicate] at marked
  split at marked <;> cases marked

end MethodFlow
