import MethodFlow.Proofs.Analysis.Evaluation
import MethodFlow.Proofs.Analysis.Mirroring
import MethodFlow.Proofs.Domain.Extension

namespace MethodFlow

open VerificationType

variable {graph bigger : ClassGraph}

theorem ClassGraph.Extends.verifier_mirroredBy (extended : bigger.Extends graph) :
    (verifier graph.hierarchy).MirroredBy Fault.IsUnresolved (verifier bigger.hierarchy) where
  sites := verifier_mirroredAt extended
  merge := merge_mirrors extended
  height _ := Nat.mul_le_mul_left 4 (Nat.add_le_add_right extended.count 65536)

/-- Whatever classes are added, an analysis ends as before unless it stopped at a class that was not
stored, and so does its loop however many steps that takes. -/
theorem analyze_addAll (graph : ClassGraph) (infos : List ClassInfo) (owner : BinaryName)
    (method : Method) :
    (∀ outcome, analyze (verifier graph.hierarchy) owner method = outcome →
      outcome ≠ .error .unsettled →
      (∀ index name, outcome ≠ .error (.fault ((Fault.unresolvedClass name).at index))) →
      analyze (verifier (graph.addAll infos).hierarchy) owner method = outcome) ∧
    ∀ flow entry start count outcome,
      Prepared (verifier graph.hierarchy) owner method method.maxLocals (some method.maxStack) flow
        entry start →
      AnalysisState.Ends (verifier graph.hierarchy) flow method.maxLocals start count outcome →
      (∀ stopped index name, outcome = .error stopped →
        stopped.failure ≠ .fault ((Fault.unresolvedClass name).at index)) →
      Prepared (verifier (graph.addAll infos).hierarchy) owner method method.maxLocals
          (some method.maxStack) flow entry start ∧
        AnalysisState.Ends (verifier (graph.addAll infos).hierarchy) flow method.maxLocals start
          count outcome := by
  have mirrored := (graph.extends_addAll infos).verifier_mirroredBy
  constructor
  · rintro _ rfl settled stored
    have alike : Mirrors (fun failure => failure = .unsettled ∨
        ∃ located, failure = .fault located ∧ located.fault.IsUnresolved) id
        (analyze (verifier graph.hierarchy) owner method)
        (analyze (verifier (graph.addAll infos).hierarchy) owner method) := mirrored.result
    rcases alike with same | ⟨failure, failed, stuck | missing⟩
    · rwa [Except.map_id] at same
    · exact absurd (stuck ▸ failed) settled
    · obtain ⟨located, rfl, name, unresolved⟩ := missing
      exact absurd (failed.trans (by rw [← unresolved]; rfl)) (stored located.index name)
  · intro flow entry start count outcome prepared ends stored
    refine ⟨mirrored.prepared prepared, ?_⟩
    rcases mirrored.ends ends with ⟨stopped, failed, missing⟩ | ends'
    · obtain ⟨located, caused, name, unresolved⟩ := missing
      exact absurd (caused.trans (by rw [← unresolved]; rfl)) (stored stopped located.index name failed)
    · exact ends'

/-- Leaves an integer or a string on the stack and drops it. -/
def droppedChoice : Method where
  flags := .static
  name := ⟨"drop".toList, by decide⟩
  descriptor := ⟨[.base .int], none⟩
  nodes := [.instruction (.load .int 0), .branch (.ifZero .eq ⟨0⟩),
    .instruction (.newObject .boxedInteger), .branch (.goto ⟨1⟩), .label ⟨0⟩,
    .instruction (.newObject .string), .label ⟨1⟩, .instruction (.shuffle .pop),
    .branch .voidReturn]
  handlers := []
  maxStack := 1
  maxLocals := 1

/-- A class below `Integer`, and one under a name that is taken. -/
def addedClasses : List ClassInfo :=
  [⟨.main, some .boxedInteger, [], false⟩, ⟨.boxedInteger, some .string, [], false⟩]

theorem droppedChoice_addAll : ∃ analysis,
    analyze (verifier ClassGraph.library.hierarchy) .object droppedChoice = .ok analysis ∧
      (ClassGraph.library.addAll addedClasses).classes.length =
        ClassGraph.library.classes.length + 1 ∧
      analyze (verifier (ClassGraph.library.addAll addedClasses).hierarchy) .object droppedChoice =
        .ok analysis := by
  obtain ⟨analysis, analyzed⟩ :
      ∃ analysis, analyze (verifier ClassGraph.library.hierarchy) .object droppedChoice =
        .ok analysis := isOk_iff.mp (by cbv)
  refine ⟨analysis, analyzed, by cbv, ?_⟩
  exact (analyze_addAll ClassGraph.library addedClasses .object droppedChoice).1 _ analyzed
    (by simp) (by simp)

end MethodFlow
