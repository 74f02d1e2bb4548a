import MethodFlow.Proofs.Analysis.Growth
import MethodFlow.Proofs.Analysis.Processing
import MethodFlow.Proofs.Code.Subroutines
import MethodFlow.Proofs.Frame.Locals

namespace MethodFlow

open Relation (ReflTransGen)

variable {V : Type} [AbstractValue V] {domain : Domain V} {flow : Flow} {shape : FrameShape V}
  {maxLocals : Nat} {visit : Visit V}

/-- A visit of an index with a frame of the given shape. -/
structure Visit.Valid (flow : Flow) (shape : FrameShape V) (visit : Visit V) : Prop where
  coherent : visit.before.Coherent flow shape
  pointed : flow[visit.index]? = some visit.point
  found : visit.before.frame? visit.index = some visit.frame
  after : visit.after.Fits shape

namespace AnalysisState

omit [AbstractValue V] in
theorem usedBy_eq_some {action : Action} {old : Option Subroutine} {record : Subroutine}
    (recorded : usedBy action old = some record) :
    ∃ earlier, old = some earlier ∧ record.start = earlier.start ∧
      ∀ flow maxLocals, earlier.Coherent flow maxLocals → record.Coherent flow maxLocals := by
  unfold usedBy at recorded
  split at recorded
  · split at recorded
    · obtain ⟨earlier, rfl, rfl⟩ := Option.map_eq_some_iff.mp recorded
      exact ⟨earlier, rfl, Subroutine.start_useFrom .., fun _ _ coherent => coherent.useFrom _ _⟩
    · exact ⟨record, recorded, rfl, fun _ _ coherent => coherent⟩
  · obtain ⟨earlier, rfl, rfl⟩ := Option.map_eq_some_iff.mp recorded
    exact ⟨earlier, rfl, rfl, fun _ _ coherent => coherent.use _⟩
  · exact ⟨record, recorded, rfl, fun _ _ coherent => coherent⟩

omit [AbstractValue V] in
@[simp] theorem usedBy_none (action : Action) : usedBy action none = none := by
  cases recorded : usedBy action none with
  | none => rfl
  | some record =>
    obtain ⟨earlier, found, -⟩ := usedBy_eq_some recorded
    cases found

omit [AbstractValue V] in
theorem record_eq_none (outside : visit.before.subroutine? visit.index = none) :
    visit.record = none := by
  rw [Visit.record, outside, usedBy_none]

theorem fits_of_effect {index : Nat} {action : Action} {frame after : Frame V}
    (fits : frame.Fits shape) (executed : action.effect domain index frame = .ok after) :
    after.Fits shape := by
  rcases Action.effect_eq_ok executed with rfl | ⟨operation, executed⟩
  · exact fits
  · exact fits.execute executed

omit [AbstractValue V] in
theorem returns_of_register {now : AnalysisState V} {labelled : Branch Label} {slot start : Nat}
    {returning : Subroutine} (pointed : flow[visit.index]? = some visit.point)
    (returns : visit.point.action = .branch labelled (.ret slot))
    (inside : visit.record = some returning) (started : returning.start = some start)
    (kept : ∀ old, visit.before.subroutine? visit.index = some old →
      ∃ new, now.subroutine? visit.index = some new ∧ new.Extends old)
    (known : ∀ entry ∈ now.returns, flow.IsReturn entry.2 ∧
      ∃ record, now.subroutine? entry.2 = some record ∧ record.start = some entry.1) :
    ∀ entry ∈ now.returns.add start visit.index, flow.IsReturn entry.2 ∧
      ∃ record, now.subroutine? entry.2 = some record ∧ record.start = some entry.1 := by
  intro entry member
  rcases Returns.mem_add.mp member with rfl | old
  · obtain ⟨earlier, found, same, -⟩ := usedBy_eq_some inside
    obtain ⟨record, found', later⟩ := kept earlier found
    refine ⟨⟨labelled, slot, visit.point.handlers, ?_⟩, record, found', ?_⟩
    · rw [← returns]
      exact pointed
    · rw [later.start, ← same]
      exact started
  · exact known entry old

theorem Sends.coherent (pointed : flow[visit.index]? = some visit.point)
    (before : ∀ index record, visit.before.subroutine? index = some record →
      record.Coherent flow maxLocals)
    {now : AnalysisState V}
    (current : ∀ index record, now.subroutine? index = some record → record.Coherent flow maxLocals)
    {target : Nat} {sent : Frame V} {record : Option Subroutine}
    (sends : Sends domain maxLocals visit now target sent record) :
    ∀ other, record = some other → other.Coherent flow maxLocals := by
  have own (other : Subroutine) (recorded : visit.record = some other) :
      other.Coherent flow maxLocals := by
    obtain ⟨earlier, found, -, kept⟩ := usedBy_eq_some recorded
    exact kept _ _ (before _ _ found)
  cases sends with
  | onward plain successor => exact own
  | call calls =>
    rintro _ ⟨⟩
    exact Subroutine.coherent_fresh (Flow.called?_of_call pointed calls)
  | back returns inside member found => exact current _
  | handler member pushed => exact own

theorem Sends.fits (valid : visit.Valid flow shape) {now : AnalysisState V}
    (coherent : now.Coherent flow shape) {target : Nat} {sent : Frame V}
    {record : Option Subroutine}
    (sends : Sends domain shape.maxLocals visit now target sent record) :
    sent.Fits shape ∧ ∀ other, record = some other → other.Coherent flow shape.maxLocals := by
  refine ⟨?_, sends.coherent valid.pointed valid.coherent.records coherent.records⟩
  cases sends with
  | onward plain successor => exact valid.after
  | call calls => exact valid.after
  | back returns inside member found => exact valid.after.mergeSubroutine _
  | handler member pushed => exact (valid.coherent.fits _ _ valid.found).clearStack.push pushed

variable {above : Frame V → Frame V → Prop}

theorem Touches.grows_of_gains (rises : Rises domain shape above) (narrows : domain.Narrows)
    (valid : visit.Valid flow shape) {now next : AnalysisState V}
    (coherent : now.Coherent flow shape) (gained : Gains above visit.before now)
    (touches : Touches domain shape.maxLocals visit now next) :
    next.Coherent flow shape ∧ Grows above now next := by
  cases touches with
  | merge sends merged =>
    obtain ⟨fits, recorded⟩ := sends.fits valid coherent
    exact ⟨(coherent.merge narrows fits recorded merged).2.1,
      .merge rises narrows coherent fits recorded merged⟩
  | requeue calls member =>
    obtain ⟨⟨_, _, _, pointed⟩, -⟩ := coherent.returns _ member
    have inside := (List.getElem?_eq_some_iff.mp pointed).1
    exact ⟨coherent.enqueue inside, .enqueue rises coherent inside⟩
  | register returns inside started =>
    refine ⟨⟨⟨coherent.flags, coherent.mem_iff, coherent.nodup⟩, coherent.frames_length,
      coherent.subroutines_length, coherent.fits, coherent.records,
      returns_of_register valid.pointed returns inside started (gained.records _)
        coherent.returns⟩, ?_⟩
    exact ⟨⟨fun _ old found => ⟨old, found, rises.refl old⟩,
      fun _ old found => ⟨old, found, .refl old⟩,
      fun entry member => Returns.mem_add.mpr (.inr member)⟩, fun _ member => member,
      by simp [frame?, subroutine?]⟩

theorem Touches.grows (rises : Rises domain shape above) (narrows : domain.Narrows)
    (valid : visit.Valid flow shape) {now next : AnalysisState V}
    (coherent : now.Coherent flow shape) (grown : Grows above visit.before now)
    (touches : Touches domain shape.maxLocals visit now next) :
    next.Coherent flow shape ∧ Grows above now next :=
  touches.grows_of_gains rises narrows valid coherent grown.toGains

theorem steps_grow (rises : Rises domain shape above) (narrows : domain.Narrows)
    (valid : visit.Valid flow shape) {now next : AnalysisState V}
    (coherent : now.Coherent flow shape) (grown : Grows above visit.before now)
    (steps : ReflTransGen (Touches domain shape.maxLocals visit) now next) :
    next.Coherent flow shape ∧ Grows above now next := by
  induction steps with
  | refl => exact ⟨coherent, .refl rises now⟩
  | tail steps touches ih =>
    obtain ⟨coherent', grown'⟩ := ih
    obtain ⟨coherent'', grown''⟩ :=
      touches.grows rises narrows valid coherent' (grown.trans rises grown')
    exact ⟨coherent'', grown'.trans rises grown''⟩

theorem rises_any (domain : Domain V) (shape : FrameShape V) :
    Rises domain shape fun _ _ => True :=
  ⟨fun _ => trivial, fun _ _ => trivial, fun _ => trivial⟩

/-- What every change keeps in coherent states holds when an index has been processed. -/
theorem steps_keep (narrows : domain.Narrows) (valid : visit.Valid flow shape)
    {kept : AnalysisState V → Prop}
    (step : ∀ {now next}, now.Coherent flow shape → kept now →
      Touches domain shape.maxLocals visit now next → kept next)
    {final : AnalysisState V} (before : kept visit.before)
    (steps : ReflTransGen (Touches domain shape.maxLocals visit) visit.before final) :
    kept final := by
  have rises := rises_any domain shape
  induction steps with
  | refl => exact before
  | tail steps touches ih =>
    obtain ⟨coherent, -⟩ :=
      steps_grow rises narrows valid valid.coherent (.refl rises visit.before) steps
    exact step coherent ih touches

/-- Everything that an index sends on has arrived. What a `ret` hands back to a caller need not have
while the call is on the worklist, for then the `ret` is still to be queued again. -/
structure SettledUnder (domain : Domain V) (above : Frame V → Frame V → Prop) (maxLocals : Nat)
    (visit : Visit V) : Prop where
  executed : visit.point.action.effect domain visit.index visit.frame = .ok visit.after
  onward : visit.point.action.isPlain = true →
    ∀ target ∈ visit.point.action.successors visit.index,
      visit.before.ArrivedUnder above target visit.after visit.record
  call : ∀ labelled target, visit.point.action = .branch labelled (.jsr target) →
    visit.before.ArrivedUnder above target visit.after
      (some (.fresh (some target) maxLocals (some visit.index)))
  back : ∀ labelled slot, visit.point.action = .branch labelled (.ret slot) →
    ∃ returning, visit.record = some returning ∧
      (∀ start, returning.start = some start → (start, visit.index) ∈ visit.before.returns) ∧
      ∀ caller ∈ returning.callers, caller ∉ visit.before.worklist →
        ∀ callerFrame, visit.before.frame? caller = some callerFrame →
          visit.before.ArrivedUnder above (caller + 1)
            (visit.after.mergeSubroutine callerFrame returning.used)
            (visit.before.subroutine? caller)
  handlers : ∀ target handler, (target, handler) ∈ visit.point.handlers → ∃ caught,
    visit.frame.clearStack.push (domain.exception handler.caught) = .ok caught ∧
      visit.before.ArrivedUnder above target caught visit.record

/-- Everything that is sent on from any index that has a frame and is not on the worklist has
arrived. -/
def StableUnder (domain : Domain V) (above : Frame V → Frame V → Prop) (flow : Flow)
    (maxLocals : Nat) (state : AnalysisState V) : Prop :=
  ∀ index frame point, index ∉ state.worklist → state.frame? index = some frame →
    flow[index]? = some point →
    ∃ after, SettledUnder domain above maxLocals ⟨state, index, point, frame, after⟩

/-- Every index that has a frame and is not on the worklist is settled. -/
abbrev Stable (domain : Domain V) (flow : Flow) (maxLocals : Nat) (state : AnalysisState V) : Prop :=
  StableUnder domain (Frame.Absorbs domain) flow maxLocals state

variable {final : AnalysisState V}

theorem Sends.arrived (collects : Collects domain shape above) (narrows : domain.Narrows)
    (valid : visit.Valid flow shape) {now next : AnalysisState V} {target : Nat} {sent : Frame V}
    {record : Option Subroutine}
    (earlier : ReflTransGen (Touches domain shape.maxLocals visit) visit.before now)
    (sends : Sends domain shape.maxLocals visit now target sent record)
    (merged : now.merge domain target sent record = .ok next)
    (later : ReflTransGen (Touches domain shape.maxLocals visit) next final) :
    final.ArrivedUnder above target sent record := by
  have rises := collects.toRises
  obtain ⟨coherent, grown⟩ :=
    steps_grow rises narrows valid valid.coherent (.refl rises visit.before) earlier
  obtain ⟨fits, recorded⟩ := sends.fits valid coherent
  have arrived := ArrivedUnder.merge collects narrows coherent fits recorded merged
  obtain ⟨coherent', grown'⟩ :=
    (Touches.merge sends merged).grows rises narrows valid coherent grown
  obtain ⟨-, grown''⟩ :=
    steps_grow rises narrows valid coherent' (grown.trans rises grown') later
  exact arrived.gain rises grown''.toGains

theorem Delivers.arrived (collects : Collects domain shape above) (narrows : domain.Narrows)
    (valid : visit.Valid flow shape) {target : Nat} {sent : Frame V} {record : Option Subroutine}
    (sends : ∀ now, Sends domain shape.maxLocals visit now target sent record)
    (delivers : Delivers domain (Touches domain shape.maxLocals visit) target sent record
      visit.before final) : final.ArrivedUnder above target sent record := by
  obtain ⟨now, next, earlier, merged, later⟩ := delivers
  exact Sends.arrived collects narrows valid earlier (sends now) merged later

/-- A caller that is not queued again has the frame it had when the `ret` was handed back to it. -/
theorem HandsBack.arrived (collects : Collects domain shape above) (narrows : domain.Narrows)
    (valid : visit.Valid flow shape) {labelled : Branch Label} {slot caller : Nat}
    {returning : Subroutine} (returns : visit.point.action = .branch labelled (.ret slot))
    (inside : visit.record = some returning) (member : caller ∈ returning.callers)
    (handed : HandsBack domain (Touches domain shape.maxLocals visit) visit.after returning.used
      caller visit.before final)
    (settled : caller ∉ final.worklist) {callerFrame : Frame V}
    (found : final.frame? caller = some callerFrame) :
    final.ArrivedUnder above (caller + 1) (visit.after.mergeSubroutine callerFrame returning.used)
      (final.subroutine? caller) := by
  have rises := collects.toRises
  obtain ⟨now, earlier, outcome⟩ := handed
  obtain ⟨coherent, grown⟩ :=
    steps_grow rises narrows valid valid.coherent (.refl rises visit.before) earlier
  rcases outcome with ⟨absent, later⟩ | ⟨earlierFrame, next, found', merged, later⟩
  · obtain ⟨-, grown'⟩ := steps_grow rises narrows valid coherent grown later
    rw [(grown'.settled settled).2.1, absent] at found
    cases found
  · have sends : Sends domain shape.maxLocals visit now (caller + 1)
        (visit.after.mergeSubroutine earlierFrame returning.used) (now.subroutine? caller) :=
      .back returns inside member found'
    have arrived := Sends.arrived collects narrows valid earlier sends merged later
    obtain ⟨-, grown'⟩ := steps_grow rises narrows valid coherent grown
      (.head (.merge sends merged) later)
    obtain ⟨-, frames, records⟩ := grown'.settled settled
    have same : callerFrame = earlierFrame := by
      rw [frames, found', Option.some.injEq] at found
      exact found.symm
    rw [same, records]
    exact arrived

variable {state popped : AnalysisState V} {index : Nat} {point : Point} {frame : Frame V}

/-- An index that is not queued again by its own processing is settled by it. -/
theorem Processed.settled (collects : Collects domain shape above) (narrows : domain.Narrows)
    (valid : visit.Valid flow shape) (processed : Processed domain shape.maxLocals visit final)
    (settled : visit.index ∉ final.worklist) :
    SettledUnder domain above shape.maxLocals { visit with before := final } := by
  have rises := collects.toRises
  obtain ⟨-, grown⟩ :=
    steps_grow rises narrows valid valid.coherent (.refl rises visit.before) processed.steps
  obtain ⟨-, -, records⟩ := grown.settled settled
  have record : Visit.record { visit with before := final } = visit.record := by
    simp [Visit.record, records]
  refine ⟨processed.executed, ?_, ?_, ?_, ?_⟩
  · intro plain target member
    rw [record]
    exact (processed.onward plain target member).arrived collects narrows valid
      (fun _ => .onward plain member)
  · intro labelled target calls
    exact (processed.call labelled target calls).1.arrived collects narrows valid
      (fun _ => .call calls)
  · intro labelled slot returns
    rw [record]
    obtain ⟨returning, inside, registered, handed⟩ := processed.back labelled slot returns
    refine ⟨returning, inside, ?_, ?_⟩
    · intro start started
      obtain ⟨now, known, earlier, later⟩ := registered start started
      obtain ⟨coherent', grown'⟩ :=
        steps_grow rises narrows valid valid.coherent (.refl rises visit.before) earlier
      exact (steps_grow rises narrows valid coherent' grown' later).2.returns _ known
    · intro caller member unqueued callerFrame found
      exact (handed caller member).arrived collects narrows valid returns inside member unqueued found
  · intro target handler member
    rw [record]
    obtain ⟨caught, pushed, delivers⟩ := processed.handlers target handler member
    exact ⟨caught, pushed, delivers.arrived collects narrows valid fun _ => .handler member pushed⟩

/-- A settled index stays so while its record and the frames and records of its unqueued callers
are as they were. -/
theorem SettledUnder.gain (rises : Rises domain shape above)
    (settled : SettledUnder domain above maxLocals visit)
    (gains : Gains above visit.before final)
    (record : final.subroutine? visit.index = visit.before.subroutine? visit.index)
    (callers : ∀ labelled slot returning, visit.point.action = .branch labelled (.ret slot) →
      visit.record = some returning →
      (∀ start, returning.start = some start → (start, visit.index) ∈ visit.before.returns) →
      ∀ caller ∈ returning.callers, caller ∉ final.worklist → final.frame? caller ≠ none →
        caller ∉ visit.before.worklist ∧ final.frame? caller = visit.before.frame? caller ∧
          final.subroutine? caller = visit.before.subroutine? caller) :
    SettledUnder domain above maxLocals { visit with before := final } := by
  have same : Visit.record { visit with before := final } = visit.record := by
    simp [Visit.record, record]
  refine ⟨settled.executed, ?_, ?_, ?_, ?_⟩
  · intro plain target member
    rw [same]
    exact (settled.onward plain target member).gain rises gains
  · intro labelled target calls
    exact (settled.call labelled target calls).gain rises gains
  · intro labelled slot returns
    rw [same]
    obtain ⟨returning, inside, registered, handed⟩ := settled.back labelled slot returns
    refine ⟨returning, inside, fun start started => gains.returns _ (registered start started), ?_⟩
    intro caller member unqueued callerFrame found
    obtain ⟨unqueued', frames, records⟩ :=
      callers labelled slot returning returns inside registered caller member unqueued
        (by simp [show final.frame? caller = _ from found])
    show final.ArrivedUnder above (caller + 1) _ (final.subroutine? caller)
    rw [records]
    exact (handed caller member unqueued' callerFrame (frames ▸ found)).gain rises gains
  · intro target handler member
    rw [same]
    obtain ⟨caught, pushed, arrived⟩ := settled.handlers target handler member
    exact ⟨caught, pushed, arrived.gain rises gains⟩

omit [AbstractValue V] in
theorem known_next? (taken : state.next? = some (index, popped)) :
    popped.frames = state.frames ∧ popped.subroutines = state.subroutines ∧
      popped.returns = state.returns := by
  obtain ⟨others, -, rfl⟩ := next?_eq_some.mp taken
  exact ⟨rfl, rfl, rfl⟩

theorem Gains.next? (rises : Rises domain shape above)
    (taken : state.next? = some (index, popped)) : Gains above state popped := by
  obtain ⟨frames, subroutines, returns⟩ := known_next? taken
  refine ⟨?_, ?_, ?_⟩
  · simpa [frame?, frames] using (Grows.refl rises state).frames
  · simpa [subroutine?, subroutines] using (Grows.refl rises state).records
  · simp [returns]

theorem Coherent.next? (coherent : state.Coherent flow shape)
    (taken : state.next? = some (index, popped)) : popped.Coherent flow shape := by
  obtain ⟨queued, -⟩ := coherent.toQueued.next? taken
  obtain ⟨others, -, rfl⟩ := next?_eq_some.mp taken
  exact ⟨queued, coherent.frames_length, coherent.subroutines_length, coherent.fits,
    coherent.records, coherent.returns⟩

/-- Processing an index of a coherent state does nothing, or it is a visit. -/
theorem Coherent.process_cases (coherent : state.Coherent flow shape)
    (processed : state.process domain flow shape.maxLocals index = .ok final) :
    (final = state ∧ (state.frame? index = none ∨ flow[index]? = none)) ∨
      ∃ point frame after, Visit.Valid flow shape ⟨state, index, point, frame, after⟩ ∧
        Processed domain shape.maxLocals ⟨state, index, point, frame, after⟩ final := by
  cases found : state.frame? index with
  | none => exact .inl ⟨process_idle (.inl found) processed, .inl rfl⟩
  | some frame =>
    cases pointed : flow[index]? with
    | none => exact .inl ⟨process_idle (.inr pointed) processed, .inr rfl⟩
    | some point =>
      obtain ⟨after, visited⟩ := process_eq_ok found pointed processed
      exact .inr ⟨point, frame, after, ⟨coherent, pointed, found,
        fits_of_effect (coherent.fits _ _ found) visited.executed⟩, visited⟩

theorem Coherent.process (rises : Rises domain shape above) (narrows : domain.Narrows)
    (coherent : state.Coherent flow shape)
    (processed : state.process domain flow shape.maxLocals index = .ok final) :
    final.Coherent flow shape ∧ Grows above state final := by
  rcases coherent.process_cases processed with ⟨rfl, -⟩ | ⟨point, frame, after, valid, visited⟩
  · exact ⟨coherent, .refl rises _⟩
  · exact steps_grow rises narrows valid coherent (.refl rises state) visited.steps

/-- A `ret` for a call that is processed is on the worklist afterwards. -/
theorem requeued_of_call (rises : Rises domain shape above) (narrows : domain.Narrows)
    (coherent : state.Coherent flow shape) {target ret : Nat} {caller : Frame V}
    (called : flow.called? index = some target) (found : state.frame? index = some caller)
    (registered : (target, ret) ∈ state.returns)
    (processed : state.process domain flow shape.maxLocals index = .ok final) :
    ret ∈ final.worklist := by
  obtain ⟨labelled, handlers, pointed⟩ := Flow.call_of_called? called
  obtain ⟨after, processed⟩ := process_eq_ok found pointed processed
  have valid : Visit.Valid flow shape
      ⟨state, index, ⟨.branch labelled (.jsr target), handlers⟩, caller, after⟩ :=
    ⟨coherent, pointed, found, fits_of_effect (coherent.fits _ _ found) processed.executed⟩
  obtain ⟨now, earlier, later⟩ := (processed.call labelled target rfl).2 ret registered
  obtain ⟨coherent', grown⟩ := steps_grow rises narrows valid coherent (.refl rises state) earlier
  obtain ⟨⟨_, _, _, pointed'⟩, -⟩ := coherent.returns _ registered
  have inside : ret < flow.length := (List.getElem?_eq_some_iff.mp pointed').1
  have grown' := grown.trans rises (.enqueue rises coherent' inside)
  obtain ⟨-, grown''⟩ :=
    steps_grow rises narrows valid (coherent'.enqueue inside) grown' later
  apply grown''.queued ret
  exact (mem_enqueue coherent'.toQueued (coherent'.frames_length ▸ inside)).mpr (.inl rfl)

/-- Taking an index off the worklist and processing it keeps the invariant of the worklist. -/
theorem StableUnder.process (collects : Collects domain shape above) (narrows : domain.Narrows)
    (coherent : state.Coherent flow shape)
    (stable : StableUnder domain above flow shape.maxLocals state)
    (taken : state.next? = some (index, popped))
    (processed : popped.process domain flow shape.maxLocals index = .ok final) :
    StableUnder domain above flow shape.maxLocals final := by
  have rises := collects.toRises
  have coherent' := coherent.next? taken
  obtain ⟨-, members⟩ := coherent.toQueued.next? taken
  obtain ⟨-, grown⟩ := coherent'.process rises narrows processed
  obtain ⟨frames, subroutines, known⟩ := known_next? taken
  replace frames (other : Nat) : popped.frame? other = state.frame? other := by
    simp [frame?, frames]
  have records (other : Nat) : popped.subroutine? other = state.subroutine? other := by
    simp [subroutine?, subroutines]
  have gains := (Gains.next? rises taken).trans rises grown.toGains
  intro other frame point unqueued found pointed
  obtain ⟨unqueued', frames', records'⟩ := grown.settled unqueued
  by_cases own : other = index
  · subst own
    obtain ⟨after, processed⟩ := process_eq_ok (frames' ▸ found) pointed processed
    have valid : Visit.Valid flow shape ⟨popped, other, point, frame, after⟩ :=
      ⟨coherent', pointed, frames' ▸ found,
        fits_of_effect (coherent'.fits _ _ (frames' ▸ found)) processed.executed⟩
    exact ⟨after, processed.settled collects narrows valid unqueued⟩
  · have waiting : other ∉ state.worklist :=
      fun member => unqueued' ((members other).mpr ⟨member, own⟩)
    obtain ⟨after, settled⟩ := stable other frame point waiting
      (by rw [← frames, ← frames']; exact found) pointed
    refine ⟨after, settled.gain rises gains (records'.trans (records other)) ?_⟩
    intro labelled slot returning returns inside registered caller member settled' present
    obtain ⟨unqueued'', frames'', records''⟩ := grown.settled settled'
    have different : caller ≠ index := by
      rintro rfl
      obtain ⟨earlier, recorded, start, kept⟩ := usedBy_eq_some inside
      obtain ⟨target, started, called⟩ :=
        (kept _ _ (coherent.records _ _ recorded)).entered
      obtain ⟨callerFrame, found'⟩ := Option.ne_none_iff_exists'.mp present
      exact unqueued (requeued_of_call rises narrows coherent' (called caller member)
        (frames'' ▸ found') (known ▸ registered target started) processed)
    exact ⟨fun queued => unqueued'' ((members caller).mpr ⟨queued, different⟩),
      frames''.trans (frames caller), records''.trans (records caller)⟩

end AnalysisState

end MethodFlow
