import MethodFlow.Proofs.Analysis.Separation
import MethodFlow.Proofs.Domain.Addressing

/-! The locals that a `ret` returns through. Neither the frame nor the record checks the local of a `ret`,
so that it holds an address only where every way along the code stores one there. -/

namespace MethodFlow

open Relation (ReflTransGen)

/-- Does an instruction write a local? -/
def Instruction.Writes (slot : Nat) : Instruction → Prop
  | .store kind first => first ≤ slot ∧ slot < first + kind.width
  | .increment own _ => slot = own
  | _ => False

/-- Does a node read or write a local? -/
def Node.Accesses (slot : Nat) : Node → Prop
  | .instruction i =>
    ∃ first width, i.localAccess? = some (first, width) ∧ first ≤ slot ∧ slot < first + width
  | .branch (.ret own) => slot = own
  | _ => False

variable {V : Type} {address : V} {slot : Nat}

namespace Method

variable {method : Method} {frames : Nat → Option (Frame V)}

/-- A local is read or written where there is a frame, and control stays on from there to an index. -/
def AccessedBefore (method : Method) (frames : Nat → Option (Frame V)) (slot index : Nat) : Prop :=
  ∃ source node frame, method.nodes[source]? = some node ∧ node.Accesses slot ∧
    frames source = some frame ∧ ReflTransGen method.Stays source index

/-- Control can come to an index with something else than an address in a local: none is there on entry;
something else is written; or it goes on along the code, into a handler, into a subroutine, past a call,
or back from a subroutine that accesses the local. -/
inductive Loses (method : Method) (frames : Nat → Option (Frame V)) (address : V) (slot : Nat) :
    Nat → Prop where
  | entry : Loses method frames address slot 0
  | written {index : Nat} {i : Instruction} {frame : Frame V} (found : frames index = some frame)
      (stands : method.nodes[index]? = some (.instruction i)) (writes : i.Writes slot)
      (other : i = .store .reference slot → frame.stackValues.getLast? ≠ some address) :
      Loses method frames address slot (index + 1)
  | onward {index target : Nat} {frame : Frame V} (loses : Loses method frames address slot index)
      (found : frames index = some frame) (stays : method.Stays index target)
      (unstored : method.nodes[index]? ≠ some (.instruction (.store .reference slot))) :
      Loses method frames address slot target
  | caught {index target : Nat} {handler : ExceptionHandler} {frame : Frame V}
      (loses : Loses method frames address slot index) (found : frames index = some frame)
      (member : handler ∈ method.handlers) (protects : method.Protects handler index)
      (placed : method.Places handler.handler target) : Loses method frames address slot target
  | called {call start : Nat} {frame : Frame V} (loses : Loses method frames address slot call)
      (found : frames call = some frame) (calls : method.Calls call start) :
      Loses method frames address slot start
  | back {call ret start own : Nat} {frame : Frame V} (loses : Loses method frames address slot ret)
      (found : frames ret = some frame) (leaves : method.nodes[ret]? = some (.branch (.ret own)))
      (contains : method.Contains (some start) ret) (calls : method.Calls call start)
      (accessed : method.AccessedBefore frames slot ret) :
      Loses method frames address slot (call + 1)

end Method

variable [AbstractValue V] {domain : Domain V}

namespace Frame

variable {frame after : Frame V} {index : Nat} {node : Node}

omit [AbstractValue V] in
theorem getLast?_of_pop {rest : Frame V} {value : V} (popped : frame.pop = .ok (value, rest)) :
    frame.stackValues.getLast? = some value := by
  obtain ⟨stack, taken, -⟩ := pop_eq_ok.mp popped
  unfold SlotVec.pop? at taken
  split at taken
  · cases taken
  · rename_i slot top found
    cases taken
    simp [stackValues, SlotVec.toList, found]

/-- What is not written stays in a local, except for a wide value that is cut in two. -/
theorem holds_of_unwritten (conveys : domain.Conveys address)
    (executed : node.effect domain index frame = .ok after)
    (unwritten : ∀ i, node = .instruction i → ¬i.Writes slot)
    (held : frame.locals[slot]? = some address) : after.locals[slot]? = some address := by
  rcases node with label | line | operation
  case operation =>
    cases changesLocals_of_execute executed with
    | kept same => rw [same, held]
    | @stored kind first popped value rest operated taken copied stored =>
      cases operated
      have apart := unwritten _ rfl
      have wide := conveys.stored rfl copied
      obtain ⟨-, -, previous, others⟩ := stored_of_store stored
      rw [← locals_pop taken] at held
      by_cases next : slot + 1 = first
      · rw [previous slot address next held, if_neg conveys.narrow]
      · rw [others slot ?_ next ?_, held]
        · rintro rfl
          exact apart ⟨Nat.le_refl _, by cases kind <;> simp [Kind.width]⟩
        · rintro rfl double
          exact apart ⟨Nat.le_succ _, by omega⟩
    | @incremented own amount before value operated read computed written =>
      cases operated
      have apart : slot ≠ own := unwritten _ rfl
      rw [getElem?_setLocal written, if_neg apart, held]
  all_goals
    cases executed
    exact held

theorem holds_of_stored (conveys : domain.Conveys address)
    (executed : (Node.instruction (.store .reference slot)).effect domain index frame = .ok after)
    (top : frame.stackValues.getLast? = some address) : after.locals[slot]? = some address := by
  simp only [Node.effect, execute, executeInstruction, bind_eq_ok, Prod.exists] at executed
  obtain ⟨popped, rest, taken, value, copied, stored⟩ := executed
  cases (getLast?_of_pop taken).symm.trans top
  rw [(stored_of_store stored).own, conveys.copied copied]

theorem Merged.conveys (conveys : domain.Conveys address) {shape : FrameShape V} {old new : Frame V}
    {changed : Bool} (merged : Merged domain shape old new after changed)
    (held : old.locals[slot]? = some address) (held' : new.locals[slot]? = some address) :
    after.locals[slot]? = some address := by
  have inside : slot < after.locals.length :=
    merged.locals.length_eq ▸ (List.getElem?_eq_some_iff.mp held).1
  have current := List.getElem?_eq_getElem inside
  obtain ⟨first, second, own, own', met⟩ := merged.locals.of_getElem? current
  rw [current, (conveys.merged met).mpr
    ⟨Option.some.inj (own.symm.trans held), Option.some.inj (own'.symm.trans held')⟩]

end Frame

namespace AnalysisState

variable {method : Method} {table : LabelTable} {flow : Flow} {shape : FrameShape V}
  {state now next before after : AnalysisState V} {visit : Visit V} {target index : Nat}

/-- An address that is on top of the stack was there before as well. -/
def TopAbove (address : V) (upper lower : Frame V) : Prop :=
  upper.stackValues.getLast? = some address → lower.stackValues.getLast? = some address

/-- An address is on top of the stack only while nothing else is merged into it. -/
theorem collects_topAbove (conveys : domain.Conveys address) (shape : FrameShape V) :
    Collects domain shape (TopAbove address) where
  refl _ top := top
  trans upper lower top := lower (upper top)
  merged := by
    intro old new after changed merged top
    rw [List.getLast?_eq_getElem?] at top ⊢
    obtain ⟨first, second, own, -, met⟩ := merged.stack.of_getElem? top
    rw [← merged.stack.length_eq, own, ((conveys.merged met).mp rfl).1]
  collected := by
    intro old new after changed merged top
    rw [List.getLast?_eq_getElem?] at top ⊢
    obtain ⟨first, second, -, own, met⟩ := merged.stack.of_getElem? top
    rw [← merged.stack.length_eq', own, ((conveys.merged met).mp rfl).2]

/-- In every frame, a local holds an address unless some way to it loses it. -/
def Addressed (method : Method) (address : V) (slot : Nat) (state : AnalysisState V) : Prop :=
  ∀ index frame, state.frame? index = some frame →
    method.Loses state.frame? address slot index ∨ frame.locals[slot]? = some address

theorem Used.accessedBefore (resolved : method.Resolved table flow)
    (coherent : state.Coherent flow shape) (used : Used flow state slot index) :
    method.AccessedBefore state.frame? slot index := by
  obtain ⟨source, ⟨⟨point, pointed, accesses⟩, ⟨frame, found⟩, -⟩, path⟩ := used
  obtain ⟨node, stands, actioned, -⟩ := resolved.node_of_point pointed
  refine ⟨source, node, frame, stands, ?_, found, path.lift id fun _ _ passes =>
    passes.stays resolved coherent⟩
  rcases node with label | line | (i | b)
  case operation.branch =>
    obtain ⟨renamed, mapped, same⟩ := bind_eq_ok.mp actioned
    rw [← Except.ok.inj same] at accesses actioned
    cases renamed with
    | ret own =>
      cases Node.ret_of_action actioned
      exact accesses
    | _ => exact accesses.elim
  all_goals
    rw [← Except.ok.inj actioned] at accesses
    exact accesses

omit [AbstractValue V] in
theorem loses_gain (gains : Gains (TopAbove address) before after)
    (loses : method.Loses before.frame? address slot index) :
    method.Loses after.frame? address slot index := by
  induction loses with
  | entry => exact .entry
  | written found stands writes other =>
    obtain ⟨_, found', top⟩ := gains.frames _ _ found
    exact .written found' stands writes fun own holds => other own (top holds)
  | onward _ found stays unstored ih =>
    obtain ⟨_, found', -⟩ := gains.frames _ _ found
    exact .onward ih found' stays unstored
  | caught _ found member protects placed ih =>
    obtain ⟨_, found', -⟩ := gains.frames _ _ found
    exact .caught ih found' member protects placed
  | called _ found calls ih =>
    obtain ⟨_, found', -⟩ := gains.frames _ _ found
    exact .called ih found' calls
  | back _ found leaves contains calls accessed ih =>
    obtain ⟨_, found', -⟩ := gains.frames _ _ found
    obtain ⟨source, node, frame, stands, accesses, present, path⟩ := accessed
    obtain ⟨_, present', -⟩ := gains.frames _ _ present
    exact .back ih found' leaves contains calls
      ⟨source, node, _, stands, accesses, present', path⟩

/-- What an index sends on holds an address unless some way to the target loses it. -/
theorem Sends.addressed (conveys : domain.Conveys address) (resolved : method.Resolved table flow)
    (valid : visit.Valid flow shape)
    (executed : visit.point.action.effect domain visit.index visit.frame = .ok visit.after)
    (explained : Explained flow visit.before) (housed : Housed method visit.before)
    (coherent : now.Coherent flow shape) (gains : Gains (TopAbove address) visit.before now)
    (own : method.Loses visit.before.frame? address slot visit.index ∨
      visit.frame.locals[slot]? = some address)
    (addressed : Addressed method address slot now) {sent : Frame V} {record : Option Subroutine}
    (sends : Sends domain shape.maxLocals visit now target sent record) :
    method.Loses now.frame? address slot target ∨ sent.locals[slot]? = some address := by
  obtain ⟨node, stands, actioned, -⟩ := resolved.node_of_point valid.pointed
  obtain ⟨frame, found, top⟩ := gains.frames _ _ valid.found
  replace own := own.imp_left (loses_gain gains)
  rw [effect_of_action actioned] at executed
  cases sends with
  | onward plain successor =>
    by_cases written : ∃ i, node = .instruction i ∧ i.Writes slot
    · obtain ⟨i, rfl, writes⟩ := written
      by_cases stored : i = .store .reference slot ∧ visit.frame.stackValues.getLast? = some address
      · obtain ⟨rfl, held⟩ := stored
        exact .inr (Frame.holds_of_stored conveys executed held)
      · -- the instruction goes on to the next index only
        obtain rfl : target = visit.index + 1 := by
          rw [← Except.ok.inj actioned] at successor
          simpa [Action.successors, Action.fallsThrough, Action.jumps] using successor
        exact .inl (.written found stands writes fun same held => stored ⟨same, top held⟩)
    · have unwritten (i : Instruction) (same : node = .instruction i) : ¬i.Writes slot :=
        fun writes => written ⟨i, same, writes⟩
      refine own.imp (fun loses => ?_) (Frame.holds_of_unwritten conveys executed unwritten)
      refine .onward loses found (resolved.stays_of_successor valid.pointed plain successor) ?_
      intro stands'
      cases stands.symm.trans stands'
      exact unwritten _ rfl ⟨Nat.le_refl _, Nat.lt_succ_self _⟩
  | call calls =>
    have called := resolved.calls_of_called? (Flow.called?_of_call valid.pointed calls)
    refine own.imp (fun loses => .called loses found called)
      (Frame.holds_of_unwritten conveys executed ?_)
    rintro i rfl
    obtain ⟨label, branched⟩ := Node.jsr_of_action (calls ▸ actioned)
    cases branched
  | handler member pushed =>
    obtain ⟨node', stands', -, handlers⟩ := resolved.node_of_point valid.pointed
    obtain ⟨known, protects, placed⟩ := (handlers target _).mp member
    refine own.imp (fun loses => .caught loses found known protects placed) fun held => ?_
    rw [Frame.locals_push pushed]
    exact held
  | back returns inside member found' =>
    rename_i labelled own' caller returning callerFrame
    obtain ⟨earlier, recorded, callers, -⟩ := usedBy_marks inside
    obtain ⟨entered, same, called⟩ := (valid.coherent.records _ _ recorded).entered
    obtain ⟨start, started, contains⟩ := housed _ _ recorded
    obtain rfl : entered = start := Option.some.inj (same.symm.trans started)
    have calls := resolved.calls_of_called? (called caller (callers ▸ member))
    obtain ⟨label, jumps, -⟩ := id calls
    have leaves := Node.ret_of_action (returns ▸ actioned)
    subst leaves
    -- a `ret` leaves the frame as it is
    have unchanged : visit.after = visit.frame := (Except.ok.inj executed).symm
    have alike : visit.frame.locals.length = callerFrame.locals.length :=
      (valid.coherent.fits _ _ valid.found).locals.trans (coherent.fits _ _ found').locals.symm
    rw [unchanged, Frame.locals_mergeSubroutine alike]
    split
    · rename_i marked
      have used := (explained.used valid.pointed valid.found inside marked).gain gains
      exact own.imp_left fun loses =>
        .back loses found stands contains calls (used.accessedBefore resolved coherent)
    · refine (addressed caller callerFrame found').imp_left fun loses =>
        .onward loses found' (.past jumps) ?_
      intro stored
      cases jumps.symm.trans stored

theorem Touches.addressed (conveys : domain.Conveys address) (narrows : domain.Narrows)
    (resolved : method.Resolved table flow) (valid : visit.Valid flow shape)
    (executed : visit.point.action.effect domain visit.index visit.frame = .ok visit.after)
    (explained : Explained flow visit.before) (housed : Housed method visit.before)
    (before : Addressed method address slot visit.before) (coherent : now.Coherent flow shape)
    (grown : Grows (TopAbove address) visit.before now) (addressed : Addressed method address slot now)
    (touches : Touches domain shape.maxLocals visit now next) :
    Addressed method address slot next := by
  obtain ⟨-, grown'⟩ := touches.grows (collects_topAbove conveys shape).toRises narrows valid coherent grown
  intro index frame found
  cases touches with
  | merge sends merged =>
    obtain ⟨fits, recorded⟩ := sends.fits valid coherent
    obtain ⟨inside, -, own, changed, joined, rfl⟩ := coherent.merge narrows fits recorded merged
    have arrived := sends.addressed conveys resolved valid executed explained housed coherent
      grown.toGains (before _ _ valid.found) addressed
    rw [frame?_updated (coherent.frames_length ▸ inside)] at found
    split at found
    · rename_i same
      subst same
      cases found
      rcases arrived with loses | held
      · exact .inl (loses_gain grown'.toGains loses)
      cases present : now.frame? index with
      | none =>
        rw [(joined.first present).1]
        exact .inr held
      | some old =>
        rcases addressed index old present with loses | held'
        · exact .inl (loses_gain grown'.toGains loses)
        · exact .inr ((joined.merged old present).conveys conveys held' held)
    · exact (addressed index frame found).imp_left (loses_gain grown'.toGains)
  | requeue calls member =>
    rw [frame?_enqueue] at found
    exact (addressed index frame found).imp_left (loses_gain grown'.toGains)
  | register returns inside started =>
    exact (addressed index frame found).imp_left (loses_gain grown'.toGains)

/-- Throughout a run, a local holds an address at every index that no way loses it on. -/
theorem Run.addressed (conveys : domain.Conveys address) (narrows : domain.Narrows)
    (resolved : method.Resolved table flow) {start final : AnalysisState V} {count : Nat}
    {entry : Frame V} (isStart : start.IsStart flow shape entry) (explained : Explained flow start)
    (housed : Housed method start) (run : Run domain flow shape.maxLocals start count final) :
    Addressed method address slot final := by
  have rises := (collects_topAbove conveys shape).toRises
  have first : Addressed method address slot start := by
    intro index frame found
    obtain ⟨rfl, -⟩ := (isStart.frames index frame).mp found
    exact .inl .entry
  have next {state popped : AnalysisState V} {index : Nat}
      (taken : state.next? = some (index, popped))
      (kept : Explained flow state ∧ Housed method state ∧ Addressed method address slot state) :
      Explained flow popped ∧ Housed method popped ∧ Addressed method address slot popped := by
    obtain ⟨explained, housed, addressed⟩ := kept
    have gains := Gains.next? rises taken
    obtain ⟨frames, records, -⟩ := known_next? taken
    refine ⟨fun other record slot recorded marked => ?_, fun other record found => ?_,
      fun other frame found => ?_⟩
    · rw [subroutine?, records] at recorded
      exact (explained other record slot recorded marked).gain gains
    · rw [subroutine?, records] at found
      exact housed other record found
    · rw [frame?, frames] at found
      exact (addressed other frame found).imp_left (loses_gain gains)
  refine (run.keeps rises narrows next ?_ isStart.coherent ⟨explained, housed, first⟩).2.2.2
  rintro visit now after valid executed ⟨before, before', before''⟩ coherent grown
    ⟨explained, housed, addressed⟩ touches
  exact ⟨touches.explained rises narrows valid before coherent grown explained,
    touches.housed resolved narrows valid before' coherent housed,
    touches.addressed conveys narrows resolved valid executed before before' before'' coherent grown
      addressed⟩

end AnalysisState

/-- A `ret` that has a frame in an accepted method lies in a subroutine, and its local exists and holds
the address of a call if no way along the code to it loses one. -/
theorem returnAddress_at_ret (addressed : domain.Addressed address) {owner : BinaryName}
    {method : Method} {analysis : Analysis V} (analyzed : analyze domain owner method = .ok analysis)
    {index : Nat} {frame : Frame V} (found : analysis.frame? index = some frame)
    (leaves : method.nodes[index]? = some (.branch (.ret slot))) :
    (∃ start, method.Contains (some start) index) ∧
      (¬method.Loses analysis.frame? address slot index →
        slot < method.maxLocals ∧ frame.locals[slot]? = some address) := by
  have conveys : domain.Conveys address := addressed.conveys
  have narrows : domain.Narrows := addressed.checked.policy.narrows
  obtain ⟨flow, entry, start, final, count, prepared, run, done, rfl⟩ :=
    run_of_result (code_of_frame analyzed found) analyzed
  have known : final.frame? index = some frame := found
  obtain ⟨table, resolved⟩ := Method.resolved_of_flow prepared.resolved
  have isStart := prepared.isStart narrows
  have housed := prepared.housed resolved narrows
  constructor
  · obtain ⟨coherent, stable, -⟩ := run.stableUnder
      (AnalysisState.collects_topAbove conveys _) narrows isStart.coherent isStart.stable
    obtain ⟨point, pointed, actioned, -⟩ := resolved.points index _ leaves
    obtain ⟨after, settled⟩ := stable index frame point (by simp [done]) known pointed
    obtain ⟨returning, inside, -⟩ := settled.back (.ret slot) slot (Except.ok.inj actioned).symm
    obtain ⟨record, recorded, -⟩ := AnalysisState.usedBy_marks inside
    obtain ⟨begin', -, contains⟩ :=
      run.housed resolved narrows isStart.coherent housed index record recorded
    exact ⟨begin', contains⟩
  · intro saved
    have held := (run.addressed conveys narrows resolved isStart (prepared.explained narrows) housed
      index frame known).resolve_left saved
    obtain ⟨coherent, -⟩ :=
      run.explained narrows isStart.coherent (prepared.explained narrows)
    have inside := (List.getElem?_eq_some_iff.mp held).1
    rw [(coherent.fits index frame known).locals] at inside
    exact ⟨inside, held⟩

/-- Calls two subroutines. The first one returns through the local that it stores its address in; the
second one drops it and returns through a local that the method does not have. -/
def strayReturn : Method where
  flags := .static
  name := ⟨"stray".toList, by decide⟩
  descriptor := ⟨[], none⟩
  nodes := [.branch (.jsr ⟨0⟩), .branch (.jsr ⟨1⟩), .branch .voidReturn, .label ⟨0⟩,
    .instruction (.store .reference 0), .branch (.ret 0), .label ⟨1⟩,
    .instruction (.shuffle .pop), .branch (.ret 7)]
  handlers := []
  maxStack := 1
  maxLocals := 1

def strayReturnFlow : Flow :=
  [⟨.branch (.jsr ⟨0⟩) (.jsr 3), []⟩, ⟨.branch (.jsr ⟨1⟩) (.jsr 6), []⟩,
    ⟨.branch .voidReturn .voidReturn, []⟩, ⟨.idle, []⟩, ⟨.instruction (.store .reference 0), []⟩,
    ⟨.branch (.ret 0) (.ret 0), []⟩, ⟨.idle, []⟩, ⟨.instruction (.shuffle .pop), []⟩,
    ⟨.branch (.ret 7) (.ret 7), []⟩]

theorem strayReturn_marks : strayReturnFlow.subroutines 1 = .ok
    (List.replicate 3 none ++ List.replicate 3 (some (.fresh (some 3) 1 (some 0))) ++
      List.replicate 3 (some (.fresh (some 6) 1 (some 1)))) := by
  let body : Option Subroutine := some (.fresh none 1 none)
  let first : Option Subroutine := some (.fresh (some 3) 1 (some 0))
  let second : Option Subroutine := some (.fresh (some 6) 1 (some 1))
  have walked : markFrom strayReturnFlow (.fresh none 1 none) (List.replicate 9 none) [] [(0, none)] =
      .ok (List.replicate 3 body ++ List.replicate 6 none, [0, 1]) := by cbv
  have walked' : markFrom strayReturnFlow (.fresh (some 3) 1 (some 0))
      (List.replicate 3 body ++ List.replicate 6 none) [1] [(3, none)] =
      .ok (List.replicate 3 body ++ List.replicate 3 first ++ List.replicate 3 none, [1]) := by cbv
  have walked'' : markFrom strayReturnFlow (.fresh (some 6) 1 (some 1))
      (List.replicate 3 body ++ List.replicate 3 first ++ List.replicate 3 none) [] [(6, none)] =
      .ok (List.replicate 3 body ++ List.replicate 3 first ++ List.replicate 3 second, []) := by cbv
  simp only [Flow.subroutines, bind_eq_ok, Prod.exists]
  refine ⟨_, _, walked, List.replicate 3 body ++ List.replicate 3 first ++ List.replicate 3 second,
    ?_, rfl⟩
  rw [markCalls_enter rfl rfl walked', markCalls_enter rfl rfl walked'', markCalls]

theorem strayReturn_run : ∃ analysis fourth fifth last,
    analyze ValueKind.verifier .object strayReturn = .ok analysis ∧
      analysis.frame? 4 = some fourth ∧ analysis.frame? 5 = some fifth ∧
      analysis.frame? 8 = some last ∧ fourth.stackValues = [.returnAddress] ∧
      last.locals.length = 1 := by
  have solved : ((AnalysisState.initial
      (List.replicate 3 none ++ List.replicate 3 (some (.fresh (some 3) 1 (some 0))) ++
        List.replicate 3 (some (.fresh (some 6) 1 (some 1))))
      [.started .object strayReturn.name strayReturn.descriptor]).merge ValueKind.verifier 0
        (.entry [.unusable] (some 1) none) none >>=
      AnalysisState.solve ValueKind.verifier strayReturnFlow 1
        (ValueKind.verifier.steps strayReturnFlow 1 (some 1))).map (fun final =>
          [4, 5, 8].map fun index => (final.frame? index).map fun frame =>
            (frame.stackValues, frame.locals.length)) =
      .ok [some ([.returnAddress], 1), some ([], 1), some ([], 1)] := by cbv
  obtain ⟨start, final, count, -, -, -, analyzed, known⟩ :=
    run_of_solve (by decide) (by cbv) strayReturn_marks rfl solved
  simp only [List.map_cons, List.map_nil, List.cons.injEq, Option.map_eq_some_iff,
    Prod.mk.injEq] at known
  obtain ⟨⟨fourth, found, stack, -⟩, ⟨fifth, found', -, -⟩, ⟨last, found'', -, locals⟩, -⟩ := known
  exact ⟨_, fourth, fifth, last, analyzed, found, found', found'', stack, locals⟩

theorem strayReturn_addressed : ∃ analysis frame,
    analyze ValueKind.verifier .object strayReturn = .ok analysis ∧
      analysis.frame? 5 = some frame ∧ strayReturn.nodes[5]? = some (.branch (.ret 0)) ∧
      0 < strayReturn.maxLocals ∧ frame.locals[0]? = some .returnAddress := by
  obtain ⟨analysis, fourth, frame, last, analyzed, before, found, -, stack, -⟩ := strayReturn_run
  have leaves : strayReturn.nodes[5]? = some (.branch (.ret 0)) := rfl
  have result := (returnAddress_at_ret ValueKind.verifier_addressed analyzed found leaves).2 ?_
  · exact ⟨analysis, frame, analyzed, found, rfl, result⟩
  have unlabelled (label : Label) : ¬strayReturn.Places label 5 := nofun
  have uncalled (label : Label) : strayReturn.nodes[4]? ≠ some (.branch (.jsr label)) := nofun
  generalize target : 5 = index
  intro loses
  cases loses with
  | entry => cases target
  | @written previous i held present stands writes other =>
    obtain rfl : 4 = previous := Nat.succ.inj target
    cases stands
    cases before.symm.trans present
    exact other rfl (by simp [stack])
  | @onward previous _ held loses present stays unstored =>
    subst target
    cases stays with
    | onward plain leads =>
      generalize target : 5 = index at leads
      cases leads with
      | next stands falls =>
        obtain rfl : 4 = previous := Nat.succ.inj target
        exact unstored rfl
      | jump stands jumps placed => exact unlabelled _ (target ▸ placed)
    | caught member => cases member
    | past jumps => exact uncalled _ jumps
  | caught loses present member => cases member
  | called loses present calls =>
    obtain ⟨label, -, placed⟩ := calls
    exact unlabelled label (target ▸ placed)
  | @back call ret start own held loses present leaves contains calls =>
    obtain rfl : 4 = call := Nat.succ.inj target
    obtain ⟨label, jumps, -⟩ := calls
    exact uncalled label jumps

/-- The second subroutine is left although its local does not exist. -/
theorem strayReturn_stray : ∃ analysis frame,
    analyze ValueKind.verifier .object strayReturn = .ok analysis ∧
      analysis.frame? 8 = some frame ∧ strayReturn.nodes[8]? = some (.branch (.ret 7)) ∧
      ¬(7 < strayReturn.maxLocals) ∧ frame.locals[7]? = none := by
  obtain ⟨analysis, -, -, last, analyzed, -, -, found, -, locals⟩ := strayReturn_run
  exact ⟨analysis, last, analyzed, found, rfl, by decide,
    List.getElem?_eq_none (by rw [locals]; decide)⟩

end MethodFlow
