import MethodFlow.Proofs.Analysis.FixedPoint
import MethodFlow.Proofs.Analysis.Usage

/-! What comes back from a subroutine: the locals used on the way to its `ret` as they are there, and
all others as they are at the call. Locals that only a nested subroutine uses are among the others. -/

namespace MethodFlow

variable {V : Type} [AbstractValue V] {domain : Domain V} {flow : Flow} {shape : FrameShape V}

namespace AnalysisState

variable {final : AnalysisState V} {call ret : Nat} {callFrame retFrame : Frame V}
  {record : Subroutine}

/-- When an analysis is done, the frame after a call absorbs that at a `ret` of it in every local that
is used on the way to the `ret`, and that at the call in every other local. -/
theorem Stable.handedBack (coherent : final.Coherent flow shape)
    (stable : Stable domain flow shape.maxLocals final) (done : final.worklist = [])
    (explained : Explained flow final) {own : Nat} {handlers : List (Nat × ExceptionHandler)}
    (pointed : flow[ret]? = some ⟨.branch (.ret own) (.ret own), handlers⟩)
    (called : final.frame? call = some callFrame) (left : final.frame? ret = some retFrame)
    (recorded : final.subroutine? ret = some record) (member : call ∈ record.callers) :
    ∃ next, final.frame? (call + 1) = some next ∧ ∀ slot now after before,
      next.locals[slot]? = some now → retFrame.locals[slot]? = some after →
      callFrame.locals[slot]? = some before →
      (Used flow final slot ret → domain.Absorbs now after) ∧
        (¬Used flow final slot ret → domain.Absorbs now before) := by
  have waiting (index : Nat) : index ∉ final.worklist := by simp [done]
  obtain ⟨after, settled⟩ := stable ret retFrame _ (waiting ret) left pointed
  -- a `ret` leaves the frame as it is
  obtain rfl : retFrame = after := Except.ok.inj settled.executed
  obtain ⟨returning, inside, -, handed⟩ := settled.back _ own rfl
  obtain ⟨known, recorded', callers, -⟩ := usedBy_marks inside
  cases recorded.symm.trans recorded'
  obtain ⟨next, found, absorbs⟩ :=
    (handed call (callers ▸ member) (waiting call) callFrame called).frame
  have callShaped : callFrame.locals.length = shape.maxLocals := (coherent.fits _ _ called).locals
  have retShaped : retFrame.locals.length = shape.maxLocals := (coherent.fits _ _ left).locals
  refine ⟨next, found, ?_⟩
  intro slot now after before current returned kept
  have inRange : slot < shape.maxLocals := by
    rw [← retShaped]
    exact (List.getElem?_eq_some_iff.mp returned).1
  have marked : returning.used[slot]? = some true ↔ Used flow final slot ret := by
    rw [← marksAt_iff_used coherent stable done explained inRange]
    constructor
    · intro marked
      exact ⟨⟨_, returning, pointed, inside, marked⟩, retFrame, left⟩
    · intro marks
      obtain ⟨⟨point, other, pointed', passed, marked⟩, -⟩ := marks
      cases pointed.symm.trans pointed'
      cases inside.symm.trans passed
      exact marked
  have restored := Frame.getElem?_restoreLocals (retShaped.trans callShaped.symm) returning.used slot
  have absorbed (value : V)
      (found : (retFrame.mergeSubroutine callFrame returning.used).locals[slot]? = some value) :
      domain.Absorbs now value := by
    obtain ⟨inside, rfl⟩ := List.getElem?_eq_some_iff.mp current
    obtain ⟨inside', rfl⟩ := List.getElem?_eq_some_iff.mp found
    exact absorbs.locals.get inside inside'
  constructor
  · intro used
    apply absorbed
    rw [Frame.mergeSubroutine, restored, if_pos (marked.mpr used)]
    exact returned
  · intro unused
    apply absorbed
    rw [Frame.mergeSubroutine, restored, if_neg fun mark => unused (marked.mp mark)]
    exact kept

end AnalysisState

/-- After a call, a local absorbs what a `ret` of the call leaves in it exactly if it is used on the
way to the `ret`, past the calls on that way, or has the same kind at the call and at the `ret`, or is
not usable after the call anyway. -/
theorem returned_iff_used {owner : BinaryName} {method : Method} {entry : Frame ValueKind}
    {start final : AnalysisState ValueKind} {count : Nat}
    (prepared : Prepared ValueKind.verifier owner method method.maxLocals (some method.maxStack) flow
      entry start)
    (run : AnalysisState.Run ValueKind.verifier flow method.maxLocals start count final)
    (done : final.worklist = []) {call ret : Nat} {callFrame retFrame : Frame ValueKind}
    {record : Subroutine} (called : final.frame? call = some callFrame)
    (left : final.frame? ret = some retFrame) (returns : flow.IsReturn ret)
    (recorded : final.subroutine? ret = some record) (member : call ∈ record.callers) :
    ∃ next, final.frame? (call + 1) = some next ∧ ∀ slot < method.maxLocals,
      ∃ now after before, next.locals[slot]? = some now ∧ retFrame.locals[slot]? = some after ∧
        callFrame.locals[slot]? = some before ∧
        (ValueKind.verifier.Absorbs now after ↔
          AnalysisState.Used flow final slot ret ∨ after = before ∨ now = .unusable) := by
  have joins : ValueKind.verifier.Joins := ValueKind.verifier_joins
  have narrows : ValueKind.verifier.Narrows := ValueKind.verifier_narrows
  have isStart := prepared.isStart narrows
  obtain ⟨coherent, stable, -⟩ := run.stable joins narrows isStart.coherent isStart.stable
  obtain ⟨-, explained⟩ := run.explained narrows isStart.coherent (prepared.explained narrows)
  obtain ⟨table, resolved⟩ := Method.resolved_of_flow prepared.resolved
  obtain ⟨labelled, own, handlers, pointed⟩ := returns
  obtain rfl : labelled = .ret own := by
    have inside := resolved.length ▸ (List.getElem?_eq_some_iff.mp pointed).1
    obtain ⟨point, pointed', actioned, -⟩ :=
      resolved.points ret _ (List.getElem?_eq_getElem inside)
    cases pointed.symm.trans pointed'
    obtain ⟨stands, -⟩ := Node.branch_of_action actioned
    cases stands.symm.trans (Node.ret_of_action actioned)
    rfl
  obtain ⟨next, found, handed⟩ :=
    stable.handedBack coherent done explained pointed called left recorded member
  refine ⟨next, found, ?_⟩
  intro slot inside
  have shaped {index : Nat} {frame : Frame ValueKind} (found : final.frame? index = some frame) :
      ∃ value, frame.locals[slot]? = some value :=
    ⟨_, List.getElem?_eq_getElem ((coherent.fits _ _ found).locals ▸ inside)⟩
  obtain ⟨now, current⟩ := shaped found
  obtain ⟨after, returned⟩ := shaped left
  obtain ⟨before, kept⟩ := shaped called
  obtain ⟨used, unused⟩ := handed slot now after before current returned kept
  refine ⟨now, after, before, current, returned, kept, ?_, ?_⟩
  · intro absorbs
    by_cases touched : AnalysisState.Used flow final slot ret
    · exact .inl touched
    · rcases ValueKind.verifier_absorbs.mp absorbs with rfl | rfl
      · rcases ValueKind.verifier_absorbs.mp (unused touched) with same | unusable
        · exact .inr (.inl same)
        · exact .inr (.inr unusable)
      · exact .inr (.inr rfl)
  · intro condition
    rcases condition with touched | rfl | rfl
    · exact used touched
    · by_cases touched : AnalysisState.Used flow final slot ret
      · exact used touched
      · exact unused touched
    · exact ValueKind.verifier_absorbs.mpr (.inr rfl)

/-- Control goes from one index to another along others, into handlers, and through the subroutines
that are called on the way: from a call to the start, there to a `ret` of the call, and back. -/
inductive Way (flow : Flow) {V : Type} (state : AnalysisState V) : Nat → List Nat → Nat → Prop where
  | here (index : Nat) : Way flow state index [index] index
  | onward {first last target : Nat} {visited : List Nat} {point : Point}
      (way : Way flow state first visited last) (pointed : flow[last]? = some point)
      (plain : point.action.isPlain = true) (successor : target ∈ point.action.successors last) :
      Way flow state first (visited ++ [target]) target
  | handler {first last target : Nat} {visited : List Nat} {point : Point}
      {handler : ExceptionHandler} (way : Way flow state first visited last)
      (pointed : flow[last]? = some point) (member : (target, handler) ∈ point.handlers) :
      Way flow state first (visited ++ [target]) target
  | through {first call target ret : Nat} {visited inner : List Nat} {record : Subroutine}
      (way : Way flow state first visited call) (called : flow.called? call = some target)
      (body : Way flow state target inner ret) (returns : flow.IsReturn ret)
      (recorded : state.subroutine? ret = some record) (member : call ∈ record.callers) :
      Way flow state first (visited ++ inner ++ [call + 1]) (call + 1)

/-- Stores an integer, then calls a subroutine that calls another one, which stores a float over it. -/
def nestedSubroutines : Method where
  flags := .static
  name := ⟨"nest".toList, by decide⟩
  descriptor := ⟨[], none⟩
  nodes := [.instruction (.shortConstant .int1), .instruction (.store .int 3), .branch (.jsr ⟨0⟩),
    .branch .voidReturn, .label ⟨0⟩, .instruction (.store .reference 1), .branch (.jsr ⟨1⟩),
    .branch (.ret 1), .label ⟨1⟩, .instruction (.store .reference 2),
    .instruction (.shortConstant .float0), .instruction (.store .float 3), .branch (.ret 2)]
  handlers := []
  maxStack := 1
  maxLocals := 4

def nestedSubroutinesFlow : Flow :=
  [⟨.instruction (.shortConstant .int1), []⟩, ⟨.instruction (.store .int 3), []⟩,
    ⟨.branch (.jsr ⟨0⟩) (.jsr 4), []⟩, ⟨.branch .voidReturn .voidReturn, []⟩, ⟨.idle, []⟩,
    ⟨.instruction (.store .reference 1), []⟩, ⟨.branch (.jsr ⟨1⟩) (.jsr 8), []⟩,
    ⟨.branch (.ret 1) (.ret 1), []⟩, ⟨.idle, []⟩, ⟨.instruction (.store .reference 2), []⟩,
    ⟨.instruction (.shortConstant .float0), []⟩, ⟨.instruction (.store .float 3), []⟩,
    ⟨.branch (.ret 2) (.ret 2), []⟩]

theorem nestedSubroutines_marks : nestedSubroutinesFlow.subroutines 4 = .ok
    (List.replicate 4 none ++ List.replicate 4 (some (.fresh (some 4) 4 (some 2))) ++
      List.replicate 5 (some (.fresh (some 8) 4 (some 6)))) := by
  let body : Option Subroutine := some (.fresh none 4 none)
  let outer : Option Subroutine := some (.fresh (some 4) 4 (some 2))
  let inner : Option Subroutine := some (.fresh (some 8) 4 (some 6))
  have walked : markFrom nestedSubroutinesFlow (.fresh none 4 none) (List.replicate 13 none) []
      [(0, none)] = .ok (List.replicate 4 body ++ List.replicate 9 none, [2]) := by cbv
  have walked' : markFrom nestedSubroutinesFlow (.fresh (some 4) 4 (some 2))
      (List.replicate 4 body ++ List.replicate 9 none) [] [(4, none)] =
      .ok (List.replicate 4 body ++ List.replicate 4 outer ++ List.replicate 5 none, [6]) := by cbv
  have walked'' : markFrom nestedSubroutinesFlow (.fresh (some 8) 4 (some 6))
      (List.replicate 4 body ++ List.replicate 4 outer ++ List.replicate 5 none) [] [(8, none)] =
      .ok (List.replicate 4 body ++ List.replicate 4 outer ++ List.replicate 5 inner, []) := by cbv
  simp only [Flow.subroutines, bind_eq_ok, Prod.exists]
  refine ⟨_, _, walked, List.replicate 4 body ++ List.replicate 4 outer ++ List.replicate 5 inner,
    ?_, rfl⟩
  rw [markCalls_enter rfl rfl walked', markCalls_enter rfl rfl walked'', markCalls]

/-- The analysis ends with the integer after the call, and the float where the subroutine is left. -/
theorem nestedSubroutines_run : ∃ entry start final count,
    Prepared ValueKind.verifier .object nestedSubroutines 4 (some 1) nestedSubroutinesFlow entry
        start ∧
      AnalysisState.Run ValueKind.verifier nestedSubroutinesFlow 4 start count final ∧
      final.worklist = [] ∧
      analyze ValueKind.verifier .object nestedSubroutines =
        .ok ⟨final.frames, some entry, final.processed⟩ ∧
      [2, 3, 6, 7, 12].map (fun index => (final.frame? index).map Frame.locals) =
        [some [.unusable, .unusable, .unusable, .int],
          some [.unusable, .returnAddress, .unusable, .int],
          some [.unusable, .returnAddress, .unusable, .int],
          some [.unusable, .returnAddress, .returnAddress, .float],
          some [.unusable, .returnAddress, .returnAddress, .float]] ∧
      (final.subroutine? 7).map Subroutine.callers = some [2] ∧
      (final.subroutine? 12).map Subroutine.callers = some [6] := by
  have solved : ((AnalysisState.initial
      (List.replicate 4 none ++ List.replicate 4 (some (.fresh (some 4) 4 (some 2))) ++
        List.replicate 5 (some (.fresh (some 8) 4 (some 6))))
      [.started .object nestedSubroutines.name nestedSubroutines.descriptor]).merge
        ValueKind.verifier 0 (.entry (List.replicate 4 .unusable) (some 1) none) none >>=
      AnalysisState.solve ValueKind.verifier nestedSubroutinesFlow 4
        (ValueKind.verifier.steps nestedSubroutinesFlow 4 (some 1))).map (fun final =>
          ([2, 3, 6, 7, 12].map (fun index => (final.frame? index).map Frame.locals),
            (final.subroutine? 7).map Subroutine.callers,
            (final.subroutine? 12).map Subroutine.callers)) =
      .ok ([some [.unusable, .unusable, .unusable, .int],
        some [.unusable, .returnAddress, .unusable, .int],
        some [.unusable, .returnAddress, .unusable, .int],
        some [.unusable, .returnAddress, .returnAddress, .float],
        some [.unusable, .returnAddress, .returnAddress, .float]], some [2], some [6]) := by cbv
  obtain ⟨start, final, count, prepared, run, done, analyzed, known⟩ :=
    run_of_solve (by decide) (by cbv) nestedSubroutines_marks rfl solved
  simp only [Prod.mk.injEq] at known
  obtain ⟨frames, outer, inner⟩ := known
  exact ⟨_, start, final, count, prepared, run, done, analyzed, frames, outer, inner⟩

theorem nestedSubroutines_returned : ∃ entry start final count callFrame retFrame record next,
    Prepared ValueKind.verifier .object nestedSubroutines 4 (some 1) nestedSubroutinesFlow entry
        start ∧
      AnalysisState.Run ValueKind.verifier nestedSubroutinesFlow 4 start count final ∧
      final.worklist = [] ∧ final.frame? 6 = some callFrame ∧ final.frame? 12 = some retFrame ∧
      nestedSubroutinesFlow.IsReturn 12 ∧ final.subroutine? 12 = some record ∧
      6 ∈ record.callers ∧ final.frame? 7 = some next ∧
      ∀ slot < 4, ∃ now after before, next.locals[slot]? = some now ∧
        retFrame.locals[slot]? = some after ∧ callFrame.locals[slot]? = some before ∧
        (ValueKind.verifier.Absorbs now after ↔
          AnalysisState.Used nestedSubroutinesFlow final slot 12 ∨ after = before ∨
            now = .unusable) := by
  obtain ⟨entry, start, final, count, prepared, run, done, -, frames, -, inner⟩ :=
    nestedSubroutines_run
  simp only [List.map_cons, List.map_nil, List.cons.injEq, Option.map_eq_some_iff] at frames
  obtain ⟨-, -, ⟨callFrame, called, -⟩, -, ⟨retFrame, left, -⟩, -⟩ := frames
  obtain ⟨record, recorded, callers⟩ := Option.map_eq_some_iff.mp inner
  have returns : nestedSubroutinesFlow.IsReturn 12 := ⟨_, 2, [], rfl⟩
  have member : 6 ∈ record.callers := callers ▸ List.mem_cons_self
  obtain ⟨next, found, exactly⟩ :=
    returned_iff_used prepared run done called left returns recorded member
  exact ⟨entry, start, final, count, callFrame, retFrame, record, next, prepared, run, done, called,
    left, returns, recorded, member, found, exactly⟩

/-- The float that the nested subroutine stores is forgotten after the outer call, although it lies on
the way through the outer subroutine and no merge has made the local unusable. -/
theorem nestedSubroutines_forgotten :
    ∃ entry start final count callFrame retFrame record next visited,
    Prepared ValueKind.verifier .object nestedSubroutines 4 (some 1) nestedSubroutinesFlow entry
        start ∧
      AnalysisState.Run ValueKind.verifier nestedSubroutinesFlow 4 start count final ∧
      final.worklist = [] ∧
      analyze ValueKind.verifier .object nestedSubroutines =
        .ok ⟨final.frames, some entry, final.processed⟩ ∧
      final.frame? 2 = some callFrame ∧ final.frame? 7 = some retFrame ∧
      nestedSubroutinesFlow.called? 2 = some 4 ∧ nestedSubroutinesFlow.IsReturn 7 ∧
      final.subroutine? 7 = some record ∧ 2 ∈ record.callers ∧
      Way nestedSubroutinesFlow final 4 visited 7 ∧ 11 ∈ visited ∧
      (∃ point, nestedSubroutinesFlow[11]? = some point ∧ point.action.Accesses 3) ∧
      final.frame? 3 = some next ∧ next.locals[3]? = some .int ∧
      retFrame.locals[3]? = some .float ∧ ¬ValueKind.verifier.Absorbs .int .float := by
  obtain ⟨entry, start, final, count, prepared, run, done, analyzed, frames, outer, inner⟩ :=
    nestedSubroutines_run
  simp only [List.map_cons, List.map_nil, List.cons.injEq, Option.map_eq_some_iff] at frames
  obtain ⟨⟨callFrame, called, -⟩, ⟨next, found, now⟩, -, ⟨retFrame, left, after⟩, -⟩ := frames
  obtain ⟨record, recorded, callers⟩ := Option.map_eq_some_iff.mp outer
  obtain ⟨nested, recorded', callers'⟩ := Option.map_eq_some_iff.mp inner
  have body : Way nestedSubroutinesFlow final 8 [8, 9, 10, 11, 12] 12 := by
    have start : Way nestedSubroutinesFlow final 8 [8] 8 := .here 8
    have stored := (start.onward rfl rfl List.mem_cons_self).onward rfl rfl List.mem_cons_self
    exact (stored.onward rfl rfl List.mem_cons_self).onward rfl rfl List.mem_cons_self
  have way : Way nestedSubroutinesFlow final 4 [4, 5, 6, 8, 9, 10, 11, 12, 7] 7 := by
    have start : Way nestedSubroutinesFlow final 4 [4] 4 := .here 4
    have call := (start.onward rfl rfl List.mem_cons_self).onward rfl rfl List.mem_cons_self
    exact call.through rfl body ⟨_, 2, [], rfl⟩ recorded' (callers' ▸ List.mem_cons_self)
  refine ⟨entry, start, final, count, callFrame, retFrame, record, next, _, prepared, run, done,
    analyzed, called, left, rfl, ⟨_, 1, [], rfl⟩, recorded, callers ▸ List.mem_cons_self, way, by simp,
    ⟨_, rfl, 3, 1, rfl, by decide⟩, found, by simp [now], by simp [after], ?_⟩
  rw [ValueKind.verifier_absorbs]
  decide

end MethodFlow
