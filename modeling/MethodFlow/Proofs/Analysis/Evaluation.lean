import Mathlib
import MethodFlow.Proofs.Analysis.Running

/-! Evaluating the analysis of a given method, from the records of its points on. Evaluation by `cbv`
goes by equations of library functions, which it derives again in each module that does not have
them from Mathlib. -/

namespace MethodFlow

variable {V : Type} [AbstractValue V] {domain : Domain V} {owner : BinaryName} {method : Method}
  {maxLocals : Nat} {maxStack : Option Nat} {flow : Flow} {entry : Frame V} {marks : Marks}

theorem run_of_solve {α : Type} {project : AnalysisState V → α} {value : α}
    (code : method.flags.hasNoCode = false)
    (resolved : method.flow = .ok flow) (marked : flow.subroutines maxLocals = .ok marks)
    (entered : initialFrame domain owner method maxLocals maxStack = .ok entry)
    (solved : ((AnalysisState.initial marks
        [.started owner method.name method.descriptor]).merge domain 0 entry none >>=
      AnalysisState.solve domain flow maxLocals (domain.steps flow maxLocals maxStack)).map project =
        .ok value) :
    ∃ start final count, Prepared domain owner method maxLocals maxStack flow entry start ∧
      AnalysisState.Run domain flow maxLocals start count final ∧ final.worklist = [] ∧
      (analyzeWithin domain owner method maxLocals maxStack).result =
        .ok ⟨final.frames, some entry, final.processed⟩ ∧ project final = value := by
  obtain ⟨final, ended, projected⟩ := map_eq_ok.mp solved
  obtain ⟨start, merged, ended⟩ := bind_eq_ok.mp ended
  have prepared : Prepared domain owner method maxLocals maxStack flow entry start :=
    ⟨resolved, entered, marks, marked, merged⟩
  have analyzed := prepared.result code
  rw [ended] at analyzed
  rcases AnalysisState.solve_spec domain flow maxLocals
    (domain.steps flow maxLocals maxStack) start with ⟨count, -, ends⟩ | ⟨_, _, -, -, _, stuck⟩
  · rw [ended] at ends
    cases ends with
    | empty run done =>
      exact ⟨start, final, count, prepared, run, AnalysisState.next?_eq_none.mp done, analyzed,
        projected⟩
  · rw [ended] at stuck
    cases stuck

theorem isOk_of_solve (code : method.flags.hasNoCode = false) (resolved : method.flow = .ok flow)
    (marked : flow.subroutines maxLocals = .ok marks)
    (entered : initialFrame domain owner method maxLocals maxStack = .ok entry) :
    (analyzeWithin domain owner method maxLocals maxStack).result.isOk =
      ((AnalysisState.initial marks
        [.started owner method.name method.descriptor]).merge domain 0 entry none >>=
      AnalysisState.solve domain flow maxLocals (domain.steps flow maxLocals maxStack)).isOk := by
  cases merged : (AnalysisState.initial marks
      [.started owner method.name method.descriptor]).merge domain 0 entry none with
  | error stopped =>
    rw [result_of_code code]
    simp [settle, resolved, marked, entered, merged, Except.mapError, bind, Except.bind, Except.isOk,
      Except.toBool]
  | ok start =>
    have prepared : Prepared domain owner method maxLocals maxStack flow entry start :=
      ⟨resolved, entered, marks, marked, merged⟩
    rw [prepared.result code]
    simp only [bind, Except.bind]
    split <;> rename_i solved <;> rw [solved] <;> rfl

end MethodFlow
