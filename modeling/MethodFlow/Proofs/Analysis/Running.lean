import MethodFlow.Proofs.Analysis.Preparation
import MethodFlow.Proofs.Analysis.Stability
import MethodFlow.Proofs.Analysis.Stopping

namespace MethodFlow

variable {V : Type} [AbstractValue V] {domain : Domain V} {flow : Flow} {shape : FrameShape V}

namespace AnalysisState

/-- The worklist loop takes so many indices off the worklist to get from one state to another. -/
inductive Run (domain : Domain V) (flow : Flow) (maxLocals : Nat) (start : AnalysisState V) :
    Nat → AnalysisState V → Prop where
  | start : Run domain flow maxLocals start 0 start
  | step {count : Nat} {state popped next : AnalysisState V} {index : Nat}
      (run : Run domain flow maxLocals start count state)
      (taken : state.next? = some (index, popped))
      (processed : popped.process domain flow maxLocals index = .ok next) :
      Run domain flow maxLocals start (count + 1) next

/-- The worklist loop ends with an outcome after so many indices: the worklist is empty, or an index
cannot be processed. -/
inductive Ends (domain : Domain V) (flow : Flow) (maxLocals : Nat) (start : AnalysisState V) :
    Nat → Except Stopped (AnalysisState V) → Prop where
  | empty {count : Nat} {final : AnalysisState V}
      (run : Run domain flow maxLocals start count final) (done : final.next? = none) :
      Ends domain flow maxLocals start count (.ok final)
  | stopped {count : Nat} {state popped : AnalysisState V} {index : Nat} {stopped : Stopped}
      (run : Run domain flow maxLocals start count state)
      (taken : state.next? = some (index, popped))
      (failed : popped.process domain flow maxLocals index = .error stopped) :
      Ends domain flow maxLocals start (count + 1) (.error stopped)

variable {maxLocals count steps : Nat} {start state popped next final : AnalysisState V}
  {index : Nat}

theorem Run.head (taken : start.next? = some (index, popped))
    (processed : popped.process domain flow maxLocals index = .ok next)
    (run : Run domain flow maxLocals next count final) :
    Run domain flow maxLocals start (count + 1) final := by
  induction run with
  | start => exact .step .start taken processed
  | step _ taken' processed' ih => exact .step ih taken' processed'

theorem Run.head_cases (run : Run domain flow maxLocals start count final) :
    final = start ∨ ∃ index popped next fewer, start.next? = some (index, popped) ∧
      popped.process domain flow maxLocals index = .ok next ∧
      Run domain flow maxLocals next fewer final := by
  induction run with
  | start => exact .inl rfl
  | step run taken processed ih =>
    right
    rcases ih with rfl | ⟨index, popped, next, fewer, taken', processed', rest⟩
    · exact ⟨_, _, _, 0, taken, processed, .start⟩
    · exact ⟨index, popped, next, fewer + 1, taken', processed', .step rest taken processed⟩

theorem Ends.head {outcome : Except Stopped (AnalysisState V)}
    (taken : start.next? = some (index, popped))
    (processed : popped.process domain flow maxLocals index = .ok next)
    (ends : Ends domain flow maxLocals next count outcome) :
    Ends domain flow maxLocals start (count + 1) outcome := by
  cases ends with
  | empty run done => exact .empty (run.head taken processed) done
  | stopped run taken' failed => exact .stopped (run.head taken processed) taken' failed

theorem solve_of_empty (done : start.next? = none) :
    start.solve domain flow maxLocals steps = .ok start := by
  unfold solve
  rw [done]

theorem solve_succ (taken : start.next? = some (index, popped)) :
    start.solve domain flow maxLocals (steps + 1) =
      popped.process domain flow maxLocals index >>= solve domain flow maxLocals steps := by
  rw [solve, taken]

/-- The bounded loop goes on from the end of a run with the steps it has left. -/
theorem Run.solve (run : Run domain flow maxLocals start count final) :
    start.solve domain flow maxLocals (count + steps) = final.solve domain flow maxLocals steps := by
  induction run generalizing steps with
  | start => rw [Nat.zero_add]
  | @step count state popped next index run taken processed ih =>
    rw [Nat.add_assoc, ih, Nat.add_comm 1 steps, solve_succ taken, processed]
    rfl

theorem Ends.solve {outcome : Except Stopped (AnalysisState V)}
    (ends : Ends domain flow maxLocals start count outcome) (enough : count ≤ steps) :
    start.solve domain flow maxLocals steps = outcome := by
  obtain ⟨further, rfl⟩ := Nat.exists_eq_add_of_le enough
  cases ends with
  | empty run done => rw [run.solve, solve_of_empty done]
  | stopped run taken failed =>
    rw [Nat.add_assoc, run.solve, Nat.add_comm 1 further, solve_succ taken, failed]
    rfl

theorem Ends.unique {count' : Nat} {outcome outcome' : Except Stopped (AnalysisState V)}
    (ends : Ends domain flow maxLocals start count outcome)
    (ends' : Ends domain flow maxLocals start count' outcome') : outcome = outcome' :=
  (ends.solve (Nat.le_max_left count count')).symm.trans (ends'.solve (Nat.le_max_right count count'))

theorem Run.lt_of_empty {total : Nat} {entry : Nat × AnalysisState V}
    (run : Run domain flow maxLocals start count state) (taken : state.next? = some entry)
    (ends : Ends domain flow maxLocals start total (.ok final)) : count < total := by
  by_contra longer
  have solved := ends.solve (Nat.le_of_not_lt longer)
  rw [← Nat.add_zero count, run.solve, AnalysisState.solve, taken] at solved
  cases solved

/-- The bounded loop either ends as the unbounded one does, or makes all its steps in a run that has
not ended. -/
theorem solve_spec (domain : Domain V) (flow : Flow) (maxLocals steps : Nat)
    (start : AnalysisState V) :
    (∃ count, count ≤ steps ∧
        Ends domain flow maxLocals start count (start.solve domain flow maxLocals steps)) ∨
      ∃ final taken, Run domain flow maxLocals start steps final ∧ final.next? = some taken ∧
        ∃ events, start.solve domain flow maxLocals steps = .error ⟨.unsettled, events⟩ := by
  induction steps generalizing start with
  | zero =>
    cases taken : start.next? with
    | none =>
      left
      refine ⟨0, Nat.le_refl _, ?_⟩
      rw [solve_of_empty taken]
      exact .empty .start taken
    | some entry => exact .inr ⟨start, entry, .start, taken, entry.2.events, by rw [solve, taken]⟩
  | succ steps ih =>
    cases taken : start.next? with
    | none =>
      left
      refine ⟨0, Nat.zero_le _, ?_⟩
      rw [solve_of_empty taken]
      exact .empty .start taken
    | some entry =>
      obtain ⟨index, popped⟩ := entry
      rw [solve_succ taken]
      cases processed : popped.process domain flow maxLocals index with
      | error stopped => exact .inl ⟨1, by omega, .stopped .start taken processed⟩
      | ok next =>
        rcases ih next with ⟨count, within, ends⟩ | ⟨final, entry, run, taken', stuck⟩
        · exact .inl ⟨count + 1, by omega, ends.head taken processed⟩
        · exact .inr ⟨final, entry, run.head taken processed, taken', stuck⟩

theorem Ends.faulty {stopped : Stopped}
    (ends : Ends domain flow maxLocals start count (.error stopped)) :
    stopped.For fun _ => True := by
  cases ends with
  | stopped run taken failed =>
    refine FailsOnly.allows ?_ stopped failed
    exact process_failsOnly (fun _ _ _ _ => .any _) trivial (fun _ _ _ _ _ _ _ => .any _)
      fun _ _ _ _ _ _ _ _ _ _ _ _ => merge_failsOnly (.any _) fun _ => trivial

theorem solve_failsOnly {allowed : Fault → Prop}
    (stops : ∀ count stopped, Ends domain flow maxLocals start count (.error stopped) →
      stopped.For allowed) :
    FailsOnly (fun stopped => stopped.failure.Within allowed)
      (start.solve domain flow maxLocals steps) := by
  refine ⟨fun stopped failed => ?_⟩
  rcases solve_spec domain flow maxLocals steps start with ⟨count, -, ends⟩ | ⟨_, _, -, -, _, stuck⟩
  · rw [failed] at ends
    exact (stops count stopped ends).within
  · cases stuck.symm.trans failed
    nofun

theorem Run.coherent (narrows : domain.Narrows) (coherent : start.Coherent flow shape)
    (run : Run domain flow shape.maxLocals start count final) : final.Coherent flow shape := by
  induction run with
  | start => exact coherent
  | step run taken processed ih =>
    exact ((ih.next? taken).process (rises_any domain shape) narrows processed).1

theorem Run.stableUnder {above : Frame V → Frame V → Prop} (collects : Collects domain shape above)
    (narrows : domain.Narrows) (coherent : start.Coherent flow shape)
    (stable : StableUnder domain above flow shape.maxLocals start)
    (run : Run domain flow shape.maxLocals start count final) :
    final.Coherent flow shape ∧ StableUnder domain above flow shape.maxLocals final ∧
      Gains above start final := by
  have rises := collects.toRises
  induction run with
  | start => exact ⟨coherent, stable, (Grows.refl rises start).toGains⟩
  | step run taken processed ih =>
    obtain ⟨coherent', stable', gains⟩ := ih
    obtain ⟨coherent'', grown⟩ := (coherent'.next? taken).process rises narrows processed
    have gains' := (Gains.next? rises taken).trans rises grown.toGains
    exact ⟨coherent'', stable'.process collects narrows coherent' taken processed,
      gains.trans rises gains'⟩

theorem Run.stable (joins : domain.Joins) (narrows : domain.Narrows)
    (coherent : start.Coherent flow shape) (stable : Stable domain flow shape.maxLocals start)
    (run : Run domain flow shape.maxLocals start count final) :
    final.Coherent flow shape ∧ Stable domain flow shape.maxLocals final ∧
      Gains (Frame.Absorbs domain) start final :=
  run.stableUnder (collects_absorbs shape joins) narrows coherent stable

/-- What taking an index off the worklist and every change in the course of a visit keep holds
throughout a run. -/
theorem Run.keeps {above : Frame V → Frame V → Prop} (rises : Rises domain shape above)
    (narrows : domain.Narrows) {kept : AnalysisState V → Prop}
    (next : ∀ {state popped index}, state.next? = some (index, popped) → kept state → kept popped)
    (step : ∀ {visit now next}, Visit.Valid flow shape visit →
      visit.point.action.effect domain visit.index visit.frame = .ok visit.after →
      kept visit.before → now.Coherent flow shape → Grows above visit.before now → kept now →
      Touches domain shape.maxLocals visit now next → kept next)
    (coherent : start.Coherent flow shape) (before : kept start)
    (run : Run domain flow shape.maxLocals start count final) :
    final.Coherent flow shape ∧ kept final := by
  induction run with
  | start => exact ⟨coherent, before⟩
  | @step count state popped _ index run taken processed ih =>
    obtain ⟨coherent', kept'⟩ := ih
    have before' : kept popped := next taken kept'
    have coherent'' := coherent'.next? taken
    refine ⟨(coherent''.process rises narrows processed).1, ?_⟩
    rcases coherent''.process_cases processed with ⟨rfl, -⟩ | ⟨point, frame, after, valid, visited⟩
    · exact before'
    · -- what the visit has changed so far grows the state that it began with
      have along {now next : AnalysisState V} (coherent : now.Coherent flow shape)
          (so : Grows above popped now ∧ kept now)
          (touches : Touches domain shape.maxLocals ⟨popped, index, point, frame, after⟩ now next) :
          Grows above popped next ∧ kept next := by
        obtain ⟨-, grown⟩ := touches.grows rises narrows valid coherent so.1
        exact ⟨so.1.trans rises grown,
          step valid visited.executed before' coherent so.1 so.2 touches⟩
      exact (steps_keep narrows valid along ⟨.refl rises popped, before'⟩ visited.steps).2

end AnalysisState

variable {owner : BinaryName} {method : Method} {maxLocals : Nat} {maxStack : Option Nat}

/-- The steps that the analysis of a method makes at most. -/
abbrev Domain.steps (domain : Domain V) (flow : Flow) (maxLocals : Nat) (maxStack : Option Nat) :
    Nat :=
  stepBound flow.length maxLocals maxStack (domain.height flow.length)

theorem result_of_code (code : method.flags.hasNoCode = false) :
    (analyzeWithin domain owner method maxLocals maxStack).result =
      match settle domain owner method maxLocals maxStack
        [.started owner method.name method.descriptor] with
      | .ok (analysis, _) => .ok analysis
      | .error stopped => .error stopped.failure := by
  cases settled : settle domain owner method maxLocals maxStack
      [.started owner method.name method.descriptor] with
  | error stopped =>
    simp [analyzeWithin, code, Traced.andThen, settled, Traced.ofExcept, Except.bind]
  | ok outcome =>
    simp [analyzeWithin, code, Traced.andThen, settled, Traced.ofExcept, Except.bind]

theorem Prepared.result {flow : Flow} {entry : Frame V} {start : AnalysisState V}
    (prepared : Prepared domain owner method maxLocals maxStack flow entry start)
    (code : method.flags.hasNoCode = false) :
    (analyzeWithin domain owner method maxLocals maxStack).result =
      match start.solve domain flow maxLocals (domain.steps flow maxLocals maxStack) with
      | .ok final => .ok ⟨final.frames, some entry, final.processed⟩
      | .error stopped => .error stopped.failure := by
  obtain ⟨marks, marked, merged⟩ := prepared.started
  rw [result_of_code code]
  cases solved : start.solve domain flow maxLocals (domain.steps flow maxLocals maxStack) with
  | error stopped =>
    simp [settle, prepared.resolved, marked, prepared.entered, merged, Except.mapError, bind,
      Except.bind, solved]
  | ok final =>
    simp [settle, prepared.resolved, marked, prepared.entered, merged, Except.mapError, bind,
      Except.bind, solved, pure, Except.pure]

theorem prepared_of_result {analysis : Analysis V} (code : method.flags.hasNoCode = false)
    (analyzed : (analyzeWithin domain owner method maxLocals maxStack).result = .ok analysis) :
    ∃ flow entry start, Prepared domain owner method maxLocals maxStack flow entry start := by
  rw [result_of_code code] at analyzed
  split at analyzed
  · rename_i found _ settled
    simp only [settle, bind_eq_ok, mapError_eq_ok] at settled
    obtain ⟨flow, resolved, marks, marked, entry, entered, start, merged, -⟩ := settled
    exact ⟨flow, entry, start, resolved, entered, marks, marked, merged⟩
  · cases analyzed

/-- An analysis fails only with what finding the control flow and the records, entering the method
and the loop fail with. -/
theorem result_failsOnly {allowed : AnalysisFailure → Prop}
    (resolving : FailsOnly (fun located => allowed (.fault located)) method.flow)
    (marking : ∀ flow, method.flow = .ok flow →
      FailsOnly (fun located => allowed (.fault located)) (flow.subroutines maxLocals))
    (entering : FailsOnly (fun located => allowed (.fault located))
      (initialFrame domain owner method maxLocals maxStack))
    (looping : ∀ flow entry start, Prepared domain owner method maxLocals maxStack flow entry start →
      FailsOnly (fun stopped => allowed stopped.failure)
        (start.solve domain flow maxLocals (domain.steps flow maxLocals maxStack))) :
    FailsOnly allowed (analyzeWithin domain owner method maxLocals maxStack).result := by
  cases code : method.flags.hasNoCode with
  | true =>
    simp only [analyzeWithin, code, if_true]
    exact .ok _
  | false =>
    have settling : FailsOnly (fun stopped => allowed stopped.failure)
        (settle domain owner method maxLocals maxStack
          [.started owner method.name method.descriptor]) := by
      have located {α : Type} {outcome : Except LocatedFault α} {events : List Event}
          (failsOnly : FailsOnly (fun located => allowed (.fault located)) outcome) :
          FailsOnly (fun stopped => allowed stopped.failure)
            (outcome.mapError fun fault => (⟨.fault fault, events⟩ : Stopped)) :=
        failsOnly.mapError fun _ fine => fine
      refine (located resolving).bind fun flow resolved =>
        (located (marking flow (mapError_eq_ok.mp resolved))).bind fun marks marked =>
          (located entering).bind fun entry entered => ?_
      obtain ⟨start, merged, prepared⟩ := Prepared.of_entered (mapError_eq_ok.mp resolved)
        (mapError_eq_ok.mp marked) (mapError_eq_ok.mp entered)
      refine FailsOnly.bind ?_ fun start' same => ?_
      · rw [merged]
        exact .ok start
      · cases merged.symm.trans same
        exact (looping flow entry start prepared).andThen fun _ => .ok _
    rw [result_of_code code]
    refine ⟨fun failure failed => ?_⟩
    split at failed
    · cases failed
    · rename_i stopped settled
      cases failed
      exact settling.allows stopped settled

theorem settled_of_ends
    (ends : ∀ flow entry start, Prepared domain owner method maxLocals maxStack flow entry start →
      ∃ count, AnalysisState.Ends domain flow maxLocals start count
        (start.solve domain flow maxLocals (domain.steps flow maxLocals maxStack))) :
    (analyzeWithin domain owner method maxLocals maxStack).result ≠ .error .unsettled := by
  have settles : FailsOnly (· ≠ .unsettled)
      (analyzeWithin domain owner method maxLocals maxStack).result := by
    refine result_failsOnly ⟨nofun⟩ (fun _ _ => ⟨nofun⟩) ⟨nofun⟩ fun flow entry start prepared =>
      ⟨fun stopped failed => ?_⟩
    obtain ⟨count, ends⟩ := ends flow entry start prepared
    rw [failed] at ends
    obtain ⟨located, caused, -⟩ := ends.faulty
    rw [caused]
    nofun
  exact fun failed => settles.allows _ failed rfl

theorem code_of_frame {analysis : Analysis V} {index : Nat} {frame : Frame V}
    (analyzed : (analyzeWithin domain owner method maxLocals maxStack).result = .ok analysis)
    (found : analysis.frame? index = some frame) : method.flags.hasNoCode = false := by
  cases code : method.flags.hasNoCode with
  | false => rfl
  | true =>
    simp only [analyzeWithin, code, if_true, Except.ok.injEq] at analyzed
    subst analyzed
    cases found

/-- What an analysis of code returns is the state at the end of a run from where it starts, of no more
steps than the loop is given. -/
theorem run_within_of_result {owner : BinaryName} {method : Method} {maxLocals : Nat}
    {maxStack : Option Nat} {analysis : Analysis V} (code : method.flags.hasNoCode = false)
    (analyzed : (analyzeWithin domain owner method maxLocals maxStack).result = .ok analysis) :
    ∃ flow entry start final count,
      Prepared domain owner method maxLocals maxStack flow entry start ∧
      AnalysisState.Run domain flow maxLocals start count final ∧ final.worklist = [] ∧
      count ≤ domain.steps flow maxLocals maxStack ∧
      analysis = ⟨final.frames, some entry, final.processed⟩ := by
  obtain ⟨flow, entry, start, prepared⟩ := prepared_of_result code analyzed
  rw [prepared.result code] at analyzed
  split at analyzed
  · rename_i final solved
    cases analyzed
    rcases AnalysisState.solve_spec domain flow maxLocals
      (domain.steps flow maxLocals maxStack) start with
      ⟨count, within, ends⟩ | ⟨_, _, -, -, _, stuck⟩
    · rw [solved] at ends
      cases ends with
      | empty run done =>
        exact ⟨flow, entry, start, final, count, prepared, run,
          AnalysisState.next?_eq_none.mp done, within, rfl⟩
    · rw [solved] at stuck
      cases stuck
  · cases analyzed

theorem run_of_result {owner : BinaryName} {method : Method} {maxLocals : Nat}
    {maxStack : Option Nat} {analysis : Analysis V} (code : method.flags.hasNoCode = false)
    (analyzed : (analyzeWithin domain owner method maxLocals maxStack).result = .ok analysis) :
    ∃ flow entry start final count,
      Prepared domain owner method maxLocals maxStack flow entry start ∧
      AnalysisState.Run domain flow maxLocals start count final ∧ final.worklist = [] ∧
      analysis = ⟨final.frames, some entry, final.processed⟩ := by
  obtain ⟨flow, entry, start, final, count, prepared, run, done, -, same⟩ :=
    run_within_of_result code analyzed
  exact ⟨flow, entry, start, final, count, prepared, run, done, same⟩

/-- The state at the end of a run of no more steps than the loop is given is what the analysis of
code returns. -/
theorem Prepared.result_of_run {flow : Flow} {entry : Frame V} {start final : AnalysisState V}
    {count : Nat} (prepared : Prepared domain owner method maxLocals maxStack flow entry start)
    (code : method.flags.hasNoCode = false)
    (run : AnalysisState.Run domain flow maxLocals start count final) (done : final.worklist = [])
    (within : count ≤ domain.steps flow maxLocals maxStack) :
    (analyzeWithin domain owner method maxLocals maxStack).result =
      .ok ⟨final.frames, some entry, final.processed⟩ := by
  have ends : AnalysisState.Ends domain flow maxLocals start count (.ok final) :=
    .empty run (AnalysisState.next?_eq_none.mpr done)
  rw [prepared.result code, ends.solve within]

theorem Prepared.unique {flow flow' : Flow} {entry entry' : Frame V} {start start' : AnalysisState V}
    (prepared : Prepared domain owner method maxLocals maxStack flow entry start)
    (prepared' : Prepared domain owner method maxLocals maxStack flow' entry' start') :
    flow = flow' ∧ entry = entry' ∧ start = start' := by
  cases prepared.resolved.symm.trans prepared'.resolved
  cases prepared.entered.symm.trans prepared'.entered
  obtain ⟨marks, marked, merged⟩ := prepared.started
  obtain ⟨marks', marked', merged'⟩ := prepared'.started
  cases marked.symm.trans marked'
  cases merged.symm.trans merged'
  exact ⟨rfl, rfl, rfl⟩

theorem AnalysisState.Run.unique {flow : Flow} {start final final' : AnalysisState V}
    {count count' : Nat} (run : Run domain flow maxLocals start count final)
    (run' : Run domain flow maxLocals start count' final') (done : final.worklist = [])
    (done' : final'.worklist = []) : final = final' := by
  have ends := Ends.empty run (next?_eq_none.mpr done)
  exact Except.ok.inj (ends.unique (.empty run' (next?_eq_none.mpr done')))

end MethodFlow
