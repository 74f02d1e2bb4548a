import Mathlib.Tactic.IntervalCases
import MethodFlow.Proofs.Analysis.FixedPoint
import MethodFlow.Proofs.Analysis.Origins
import MethodFlow.Proofs.Domain.Pairing

/-! Wide values in the locals of an analysis. Everything but a `ret` leaves the local after a wide one
unusable. A `ret` breaks a wide local where it hands back one of its slots and the call keeps the
other. -/

namespace MethodFlow

variable {V : Type} [AbstractValue V] {domain : Domain V} {flow : Flow} {shape : FrameShape V}
  {slot : Nat}

/-- Once a local is whole it stays so, whatever is merged into it. -/
theorem AnalysisState.collects_wholeAt (pairs : domain.Pairs) (shape : FrameShape V) (slot : Nat) :
    AnalysisState.Collects domain shape fun upper lower : Frame V =>
      lower.WholeAt domain slot → upper.WholeAt domain slot where
  refl _ whole := whole
  trans above below whole := above (below whole)
  merged merged whole := merged.wholeAt pairs (.inl whole)
  collected merged whole := merged.wholeAt pairs (.inr whole)

theorem wholeAt_of_effect (pairs : domain.Pairs) {index : Nat} {action : Action}
    {frame after : Frame V} (whole : frame.WholeAt domain slot)
    (executed : action.effect domain index frame = .ok after) : after.WholeAt domain slot := by
  rcases Action.effect_eq_ok executed with rfl | ⟨operation, executed⟩
  · exact whole
  · exact whole.execute pairs executed

/-- Parameters are laid out with an unusable local after every wide one. -/
theorem initialFrame_wholeAt (pairs : domain.Pairs) {owner : BinaryName} {method : Method}
    {maxLocals : Nat} {maxStack : Option Nat} {entry : Frame V}
    (entered : initialFrame domain owner method maxLocals maxStack = .ok entry) :
    entry.WholeAt domain slot := by
  obtain ⟨-, rfl⟩ := initialFrame_eq_ok.mp entered
  have rest (count slot : Nat) (value : V)
      (current : (List.replicate count domain.unusable)[slot]? = some value) : width value ≠ 2 := by
    obtain ⟨-, rfl⟩ := List.getElem?_eq_some_iff.mp current
    rw [List.getElem_replicate]
    exact pairs.narrow
  have parameters (types : List FieldType) (count slot : Nat) (value : V)
      (current : (parameterLocals domain types ++ List.replicate count domain.unusable)[slot]? =
        some value) (wide : width value = 2) :
      (parameterLocals domain types ++ List.replicate count domain.unusable)[slot + 1]? =
        some domain.unusable := by
    induction types generalizing slot with
    | nil => exact absurd wide (rest count slot value current)
    | cons type types ih =>
      simp only [parameterLocals] at current ⊢
      cases slot with
      | zero =>
        cases current
        simp [pairs.parameter type wide]
      | succ slot =>
        rw [List.cons_append, List.getElem?_cons_succ] at current ⊢
        split at current
        · rename_i double
          rw [if_pos double]
          cases slot with
          | zero =>
            cases current
            exact absurd wide pairs.narrow
          | succ slot =>
            rw [List.cons_append, List.getElem?_cons_succ] at current ⊢
            exact ih slot current
        · rename_i single
          rw [if_neg single]
          exact ih slot current
  intro value current wide
  simp only [Frame.entry, Method.entryValues, List.append_assoc] at current ⊢
  split at current
  · rename_i isStatic
    rw [if_pos isStatic]
    exact parameters _ _ slot value current wide
  · rename_i receiver
    rw [if_neg receiver]
    cases slot with
    | zero =>
      cases current
      cases pairs.parameter _ wide
    | succ slot => exact parameters _ _ slot value current wide

namespace AnalysisState

/-- A `ret` hands back to a call one slot of a wide local and not the other one, and the call does not
keep an unusable local after the wide value, or a wide value before an unusable local. -/
def Separates (domain : Domain V) (flow : Flow) (state : AnalysisState V) (slot ret call : Nat) :
    Prop :=
  ∃ left caller record value, flow.IsReturn ret ∧ state.frame? ret = some left ∧
    state.frame? call = some caller ∧ state.subroutine? ret = some record ∧
    call ∈ record.callers ∧ width value = 2 ∧
    ((Used flow state slot ret ∧ ¬Used flow state (slot + 1) ret ∧
        left.locals[slot]? = some value ∧ caller.locals[slot + 1]? ≠ some domain.unusable) ∨
      (¬Used flow state slot ret ∧ Used flow state (slot + 1) ret ∧
        caller.locals[slot]? = some value ∧ left.locals[slot + 1]? ≠ some domain.unusable))

variable {final : AnalysisState V} {above : Frame V → Frame V → Prop}

theorem wholeAt_of_back (coherent : final.Coherent flow shape)
    (stable : StableUnder domain above flow shape.maxLocals final) (done : final.worklist = [])
    (explained : Explained flow final) {ret call : Nat} {left caller : Frame V}
    {record returning : Subroutine} {point : Point}
    (returns : flow.IsReturn ret) (pointed : flow[ret]? = some point)
    (found : final.frame? ret = some left) (found' : final.frame? call = some caller)
    (recorded : final.subroutine? ret = some record) (member : call ∈ record.callers)
    (passed : usedBy point.action (final.subroutine? ret) = some returning)
    (whole : left.WholeAt domain slot) (whole' : caller.WholeAt domain slot)
    (together : slot + 1 < shape.maxLocals → ¬final.Separates domain flow slot ret call) :
    (left.mergeSubroutine caller returning.used).WholeAt domain slot := by
  have same : left.locals.length = caller.locals.length :=
    (coherent.fits _ _ found).locals.trans (coherent.fits _ _ found').locals.symm
  have marked (slot : Nat) (inside : slot < shape.maxLocals) :
      returning.used[slot]? = some true ↔ Used flow final slot ret := by
    rw [← marksAt_iff_used coherent stable done explained inside]
    constructor
    · intro marked
      exact ⟨⟨point, returning, pointed, passed, marked⟩, left, found⟩
    · intro marks
      obtain ⟨⟨point', returning', pointed', passed', marked⟩, -⟩ := marks
      cases pointed.symm.trans pointed'
      cases passed.symm.trans passed'
      exact marked
  refine whole.mergeSubroutine same whole' ?_
  rintro ⟨value, wide, split⟩
  by_cases inside : slot + 1 < shape.maxLocals
  · refine together inside ⟨left, caller, record, value, returns, found, found', recorded, member,
      wide, ?_⟩
    simpa only [ne_eq, marked slot (by omega), marked (slot + 1) inside] using split
  · -- the last local is not wide in a frame that is whole
    have past (frame : Frame V) (index : Nat) (found : final.frame? index = some frame) :
        frame.locals[slot + 1]? = none :=
      List.getElem?_eq_none ((coherent.fits _ _ found).locals ▸ Nat.le_of_not_lt inside)
    rcases split with ⟨-, -, current, -⟩ | ⟨-, -, current, -⟩
    · cases (past left ret found).symm.trans (whole value current wide)
    · cases (past caller call found').symm.trans (whole' value current wide)

/-- When an analysis is done, a local is whole in every frame unless a `ret` separates its slots. -/
theorem wholeAt_of_derived {method : Method} {table : LabelTable}
    (resolved : method.Resolved table flow) (pairs : domain.Pairs) (coherent : final.Coherent flow shape)
    (stable : StableUnder domain (fun upper lower : Frame V =>
      lower.WholeAt domain slot → upper.WholeAt domain slot) flow shape.maxLocals final)
    (done : final.worklist = []) (explained : Explained flow final)
    (first : ∀ frame, final.frame? 0 = some frame → frame.WholeAt domain slot)
    (together : slot + 1 < shape.maxLocals → ∀ ret call, ¬final.Separates domain flow slot ret call)
    {index : Nat} (derived : Derived flow final index) {frame : Frame V}
    (found : final.frame? index = some frame) : frame.WholeAt domain slot := by
  have waiting (index : Nat) : index ∉ final.worklist := by simp [done]
  -- what has arrived whole is the frame there
  have arrive {target : Nat} {sent own : Frame V} {record : Option Subroutine}
      (arrived : final.ArrivedUnder (fun upper lower : Frame V =>
        lower.WholeAt domain slot → upper.WholeAt domain slot) target sent record)
      (found : final.frame? target = some own) (whole : sent.WholeAt domain slot) :
      own.WholeAt domain slot := by
    obtain ⟨held, found', rises⟩ := arrived.frame
    cases found.symm.trans found'
    exact rises whole
  induction derived generalizing frame with
  | entry => exact first frame found
  | @onward index target point before derived found' pointed plain successor ih =>
    obtain ⟨after, settled⟩ := stable index before point (waiting index) found' pointed
    exact arrive (settled.onward plain target successor) found
      (wholeAt_of_effect pairs (ih found') settled.executed)
  | @call index target before derived found' called ih =>
    obtain ⟨labelled, handlers, pointed⟩ := Flow.call_of_called? called
    obtain ⟨after, settled⟩ := stable index before _ (waiting index) found' pointed
    exact arrive (settled.call labelled target rfl) found
      (wholeAt_of_effect pairs (ih found') settled.executed)
  | @back call ret caller left record derived found' derived' found'' returns recorded member ih ih' =>
    obtain ⟨labelled, own, handlers, pointed⟩ := id returns
    obtain ⟨after, settled⟩ := stable ret left _ (waiting ret) found'' pointed
    obtain rfl := resolved.labelled_of_ret pointed
    -- a `ret` leaves the frame as it is
    obtain rfl : left = after := Except.ok.inj settled.executed
    obtain ⟨returning, inside, -, handed⟩ := settled.back _ own rfl
    obtain ⟨earlier, recorded', callers, -⟩ := usedBy_marks inside
    cases recorded.symm.trans recorded'
    refine arrive (handed call (callers ▸ member) (waiting call) caller found') found ?_
    exact wholeAt_of_back coherent stable done explained returns pointed found'' found' recorded
      member inside (ih' found'') (ih found') fun inside => together inside ret call
  | @handler index target point handler before derived found' pointed member ih =>
    obtain ⟨after, settled⟩ := stable index before point (waiting index) found' pointed
    obtain ⟨caught, pushed, arrived⟩ := settled.handlers target handler member
    exact arrive arrived found ((ih found').of_locals (Frame.caught_of_push pushed).1)

theorem wholeAt_of_run (pairs : domain.Pairs) (narrows : domain.Narrows) {owner : BinaryName}
    {method : Method} {maxLocals : Nat} {maxStack : Option Nat} {entry : Frame V}
    {start : AnalysisState V} {count : Nat}
    (prepared : Prepared domain owner method maxLocals maxStack flow entry start)
    (run : Run domain flow maxLocals start count final) (done : final.worklist = [])
    (together : slot + 1 < maxLocals → ∀ ret call, ¬final.Separates domain flow slot ret call)
    {index : Nat} {frame : Frame V} (found : final.frame? index = some frame) :
    frame.WholeAt domain slot := by
  have isStart := prepared.isStart narrows
  obtain ⟨coherent, stable, gains⟩ :=
    run.stableUnder (collects_wholeAt pairs _ slot) narrows isStart.coherent isStart.stable
  obtain ⟨-, explained⟩ :=
    run.explained narrows isStart.coherent (prepared.explained narrows)
  obtain ⟨table, resolved⟩ := Method.resolved_of_flow prepared.resolved
  have first (frame : Frame V) (found : final.frame? 0 = some frame) : frame.WholeAt domain slot := by
    obtain ⟨held, found', rises⟩ := gains.frames 0 entry ((isStart.frames 0 entry).mpr ⟨rfl, rfl⟩)
    cases found.symm.trans found'
    exact rises (initialFrame_wholeAt pairs prepared.entered)
  exact wholeAt_of_derived resolved pairs coherent stable done explained first together
    (run.sourced narrows isStart index frame found) found

end AnalysisState

theorem wholeAt_of_callless (checked : domain.Checked) {owner : BinaryName} {method : Method}
    (callless : method.HasNoCall) {analysis : Analysis V}
    (analyzed : analyze domain owner method = .ok analysis) {index : Nat} {frame : Frame V}
    (found : analysis.frame? index = some frame) :
    frame.WholeAt domain slot ∧ frame.locals.length = method.maxLocals := by
  have narrows : domain.Narrows := checked.policy.narrows
  obtain ⟨flow, entry, start, final, count, prepared, run, done, rfl⟩ :=
    run_of_result (code_of_frame analyzed found) analyzed
  obtain ⟨table, resolved⟩ := Method.resolved_of_flow prepared.resolved
  obtain ⟨coherent, -⟩ :=
    run.explained narrows (prepared.isStart narrows).coherent (prepared.explained narrows)
  refine ⟨AnalysisState.wholeAt_of_run checked.pairs narrows prepared run done (fun _ => ?_) found,
    (coherent.fits index frame found).locals⟩
  rintro ret call ⟨left, caller, record, value, -, -, -, recorded, member, -⟩
  obtain ⟨target, -, called⟩ := (coherent.records ret record recorded).entered
  cases (resolved.uncalled callless call).symm.trans (called call member)

/-- In every frame of an accepted method, a wide value is in a local that has one after it, and that one
is unusable if no `ret` separates the two: it hands back what is used on the way to it, and the call
keeps the rest. -/
theorem unusable_after_wide (checked : domain.Checked) {owner : BinaryName} {method : Method}
    {analysis : Analysis V} (analyzed : analyze domain owner method = .ok analysis) {index : Nat}
    {frame : Frame V} (found : analysis.frame? index = some frame) {value : V}
    (holds : frame.locals[slot]? = some value) (wide : width value = 2) :
    slot + 1 < method.maxLocals ∧ ∃ flow entry start final count,
      Prepared domain owner method method.maxLocals (some method.maxStack) flow entry start ∧
      AnalysisState.Run domain flow method.maxLocals start count final ∧ final.worklist = [] ∧
      analysis = ⟨final.frames, some entry, final.processed⟩ ∧
      ((∀ ret call, ¬final.Separates domain flow slot ret call) →
        frame.locals[slot + 1]? = some domain.unusable) := by
  have pairs : domain.Pairs := checked.pairs
  have narrows : domain.Narrows := checked.policy.narrows
  obtain ⟨flow, entry, start, final, count, prepared, run, done, rfl⟩ :=
    run_of_result (code_of_frame analyzed found) analyzed
  have known : final.frame? index = some frame := found
  obtain ⟨coherent, -⟩ :=
    run.explained narrows (prepared.isStart narrows).coherent (prepared.explained narrows)
  refine ⟨?_, flow, entry, start, final, count, prepared, run, done, rfl, fun together => ?_⟩
  · by_contra outside
    -- nothing separates the last local from the next one, for there is none
    have whole := AnalysisState.wholeAt_of_run pairs narrows prepared run done
      (fun inside => absurd inside outside) known
    have next := (List.getElem?_eq_some_iff.mp (whole value holds wide)).1
    rw [(coherent.fits index frame known).locals] at next
    exact outside next
  · exact AnalysisState.wholeAt_of_run pairs narrows prepared run done (fun _ => together) known
      value holds wide

/-- Stores two long values, then calls a subroutine that stores an integer over the second slot of the
first one. -/
def cutLong : Method where
  flags := .static
  name := ⟨"cut".toList, by decide⟩
  descriptor := ⟨[], none⟩
  nodes := [.instruction (.shortConstant .long0), .instruction (.store .long 1),
    .instruction (.shortConstant .long0), .instruction (.store .long 3), .branch (.jsr ⟨0⟩),
    .branch .voidReturn, .label ⟨0⟩, .instruction (.store .reference 0),
    .instruction (.shortConstant .int0), .instruction (.store .int 2), .branch (.ret 0)]
  handlers := []
  maxStack := 2
  maxLocals := 5

def cutLongFlow : Flow :=
  [⟨.instruction (.shortConstant .long0), []⟩, ⟨.instruction (.store .long 1), []⟩,
    ⟨.instruction (.shortConstant .long0), []⟩, ⟨.instruction (.store .long 3), []⟩,
    ⟨.branch (.jsr ⟨0⟩) (.jsr 6), []⟩, ⟨.branch .voidReturn .voidReturn, []⟩, ⟨.idle, []⟩,
    ⟨.instruction (.store .reference 0), []⟩, ⟨.instruction (.shortConstant .int0), []⟩,
    ⟨.instruction (.store .int 2), []⟩, ⟨.branch (.ret 0) (.ret 0), []⟩]

theorem cutLong_marks : cutLongFlow.subroutines 5 = .ok
    (List.replicate 6 none ++ List.replicate 5 (some (.fresh (some 6) 5 (some 4)))) := by
  let body : Option Subroutine := some (.fresh none 5 none)
  let inner : Option Subroutine := some (.fresh (some 6) 5 (some 4))
  have walked : markFrom cutLongFlow (.fresh none 5 none) (List.replicate 11 none) [] [(0, none)] =
      .ok (List.replicate 6 body ++ List.replicate 5 none, [4]) := by cbv
  have walked' : markFrom cutLongFlow (.fresh (some 6) 5 (some 4))
      (List.replicate 6 body ++ List.replicate 5 none) [] [(6, none)] =
      .ok (List.replicate 6 body ++ List.replicate 5 inner, []) := by cbv
  simp only [Flow.subroutines, bind_eq_ok, Prod.exists]
  refine ⟨_, _, walked, List.replicate 6 body ++ List.replicate 5 inner, ?_, rfl⟩
  rw [markCalls_enter rfl rfl walked', markCalls]

/-- The subroutine leaves the first long value unusable, and the call has both afterwards. -/
theorem cutLong_run : ∃ entry start final count after left,
    Prepared ValueKind.verifier .object cutLong 5 (some 2) cutLongFlow entry start ∧
      AnalysisState.Run ValueKind.verifier cutLongFlow 5 start count final ∧ final.worklist = [] ∧
      analyze ValueKind.verifier .object cutLong =
        .ok ⟨final.frames, some entry, final.processed⟩ ∧
      final.subroutine? 3 = none ∧ final.frame? 5 = some after ∧ final.frame? 10 = some left ∧
      after.locals = [.returnAddress, .long, .int, .long, .unusable] ∧
      left.locals = [.returnAddress, .unusable, .int, .long, .unusable] := by
  have solved : ((AnalysisState.initial
      (List.replicate 6 none ++ List.replicate 5 (some (.fresh (some 6) 5 (some 4))))
      [.started .object cutLong.name cutLong.descriptor]).merge ValueKind.verifier 0
        (.entry (List.replicate 5 .unusable) (some 2) none) none >>=
      AnalysisState.solve ValueKind.verifier cutLongFlow 5
        (ValueKind.verifier.steps cutLongFlow 5 (some 2))).map (fun final =>
          ([5, 10].map (fun index => (final.frame? index).map Frame.locals),
            final.subroutine? 3)) =
      .ok ([some [.returnAddress, .long, .int, .long, .unusable],
        some [.returnAddress, .unusable, .int, .long, .unusable]], none) := by cbv
  obtain ⟨start, final, count, prepared, run, done, analyzed, known⟩ :=
    run_of_solve (by decide) (by cbv) cutLong_marks rfl solved
  simp only [List.map_cons, List.map_nil, Prod.mk.injEq, List.cons.injEq,
    Option.map_eq_some_iff] at known
  obtain ⟨⟨⟨after, found, locals⟩, ⟨left, found', locals'⟩, -⟩, outside⟩ := known
  exact ⟨_, start, final, count, after, left, prepared, run, done, analyzed, outside, found, found',
    locals, locals'⟩

/-- The second long value is not touched by the subroutine, and has an unusable local behind it. -/
theorem cutLong_kept : ∃ analysis after,
    analyze ValueKind.verifier .object cutLong = .ok analysis ∧
      analysis.frame? 5 = some after ∧ after.locals[3]? = some .long ∧
      3 + 1 < cutLong.maxLocals ∧ after.locals[3 + 1]? = some ValueKind.verifier.unusable := by
  obtain ⟨entry, start, final, count, after, -, prepared, run, done, analyzed, outside, found, -,
    locals, -⟩ := cutLong_run
  have holds : after.locals[3]? = some .long := by simp [locals]
  obtain ⟨inside, flow, entry', start', final', count', prepared', run', done', -, unusable⟩ :=
    unusable_after_wide ValueKind.verifier_checked analyzed found holds rfl
  obtain ⟨rfl, rfl, rfl⟩ := prepared.unique prepared'
  obtain rfl := run.unique run' done done'
  refine ⟨_, after, analyzed, found, holds, inside, unusable ?_⟩
  -- only the store outside of the subroutine accesses the local or the next one
  have unused (slot : Nat) (behind : slot = 3 ∨ slot = 4) (ret : Nat) :
      ¬AnalysisState.Used cutLongFlow final slot ret := by
    rintro ⟨source, ⟨⟨point, pointed, accesses⟩, -, ⟨record, recorded⟩⟩, -⟩
    have within : source < 11 := (List.getElem?_eq_some_iff.mp pointed).1
    have elsewhere : source ≠ 3 := by
      rintro rfl
      cases outside.symm.trans recorded
    interval_cases source <;> cases pointed <;> try contradiction
    all_goals
      simp only [Action.Accesses, Instruction.localAccess?, Option.some.injEq, Prod.mk.injEq,
        Kind.width, reduceCtorEq, false_and, exists_const] at accesses
      try omega
  rintro ret call ⟨left, caller, record, value, -, -, -, -, -, -, ⟨used, -⟩ | ⟨-, used, -⟩⟩
  · exact unused 3 (.inl rfl) ret used
  · exact unused 4 (.inr rfl) ret used

/-- The first long value is back after the call, with the integer in its second slot. -/
theorem cutLong_broken : ∃ analysis after,
    analyze ValueKind.verifier .object cutLong = .ok analysis ∧ analysis.frame? 5 = some after ∧
      after.locals[1]? = some .long ∧ width ValueKind.long = 2 ∧
      after.locals[2]? ≠ some ValueKind.verifier.unusable := by
  obtain ⟨entry, start, final, count, after, -, -, -, -, analyzed, -, found, -, locals, -⟩ :=
    cutLong_run
  exact ⟨_, after, analyzed, found, by simp [locals], rfl, by simp [locals]; decide⟩

end MethodFlow
