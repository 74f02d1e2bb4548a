import MethodFlow.Proofs.Analysis.Closing
import MethodFlow.Proofs.Analysis.Evaluation
import MethodFlow.Proofs.Code.Failing
import MethodFlow.Proofs.Domain.Addressing
import MethodFlow.Proofs.Domain.Failing

/-! The locals that a method is found to need are enough. What a store needs follows from its opcode,
and what it takes from the value stored, so that the check of the value has to come first. -/

namespace MethodFlow

variable {V : Type} [AbstractValue V] {domain : Domain V} {flow : Flow} {shape : FrameShape V}
  {method : Method}

/-- A fault that speaks of the limits of a frame. -/
def Fault.isOfLimits : Fault → Bool
  | .invalidLocal _ _ | .stackOverflow _ => true
  | _ => false

/-- A fault of another kind. -/
abbrev BeyondLimits (fault : Fault) : Prop := fault.isOfLimits = false

theorem Fault.beyondLimits_of_operands {fault : Fault} (operands : fault.isOfOperands = true) :
    BeyondLimits fault := by
  cases fault <;> first | rfl | cases operands

theorem Fault.beyondLimits_of_stack {fault : Fault} (stack : fault.isOfStack = true) :
    BeyondLimits fault := by
  cases fault <;> first | rfl | cases stack

theorem Fault.beyondLimits_of_labels {fault : Fault} (labels : fault.isOfLabels = true) :
    BeyondLimits fault := by
  cases fault <;> first | rfl | cases labels

/-- A checked store takes as many slots as its opcode says. -/
theorem Domain.Checked.stored (checked : domain.Checked) {site : Site} {kind : Kind} {slot : Nat}
    {value stored : V} (operated : site.operation = .instruction (.store kind slot))
    (copied : domain.copy site value = .ok stored) : width stored = kind.width := by
  obtain ⟨hierarchy, chosen | chosen⟩ := checked
  · cases chosen
    exact ValueKind.verifier_conveys.stored operated copied
  · cases chosen
    exact (VerificationType.verifier_conveys hierarchy).stored operated copied

theorem Domain.Checked.accesses_lt (checked : domain.Checked) {operation : Operation} {index slot : Nat}
    (member : .operation operation ∈ method.nodes)
    (accesses : domain.Accesses ⟨index, operation⟩ slot) : slot < method.neededLocals := by
  have narrow (kind : Kind) : 1 ≤ kind.width := by cases kind <;> decide
  cases accesses with
  | @load kind _ operated =>
    obtain rfl : operation = .instruction (.load kind slot) := operated
    exact Nat.lt_of_lt_of_le (Nat.lt_add_of_pos_right (narrow kind)) (Method.localsEnd_le member rfl)
  | @increment _ amount operated =>
    obtain rfl : operation = .instruction (.increment slot amount) := operated
    exact Method.localsEnd_le member rfl
  | @store kind _ operated =>
    obtain rfl : operation = .instruction (.store kind slot) := operated
    exact Nat.lt_of_lt_of_le (Nat.lt_add_of_pos_right (narrow kind)) (Method.localsEnd_le member rfl)
  | @second kind slot value stored operated copied wide =>
    have taken : kind.width = 2 := (checked.stored operated copied).symm.trans wide
    obtain rfl : operation = .instruction (.store kind slot) := operated
    have reaches : slot + kind.width ≤ method.neededLocals := Method.localsEnd_le member rfl
    omega

/-- An operation on a frame with enough locals and no bound of the stack fails for other reasons. -/
theorem Frame.Fits.execute_failsOnly (checked : domain.Checked) {operation : Operation} {index : Nat}
    {frame : Frame V} (member : .operation operation ∈ method.nodes)
    (fits : frame.Fits (method.frameShape domain method.neededLocals none)) :
    FailsOnly BeyondLimits (frame.execute domain ⟨index, operation⟩) := by
  have confines : Frame.Confines domain ⟨index, operation⟩ BeyondLimits fun frame =>
      frame.Fits (method.frameShape domain method.neededLocals none) ∧
        frame.Holds fun _ => True := by
    refine ⟨(fits_invariant _ _).toStackInvariant, ?_, ?_, ?_, ?_⟩
    · exact (checked.policy.answers _).mono fun _ => Fault.beyondLimits_of_operands
    · exact fun _ => Fault.beyondLimits_of_stack
    · rintro frame value ⟨fits, -⟩
      have unbounded : frame.maxStack = none := fits.maxStack
      simp only [Frame.push, unbounded]
      exact .ok _
    · rintro frame slot ⟨fits, -⟩ accesses outside
      have inside := checked.accesses_lt member accesses
      rw [fits.locals] at outside
      exact absurd inside (Nat.not_lt_of_le outside)
  exact confines.execute ⟨fits, ⟨fun _ _ => trivial, fun _ _ => trivial⟩⟩

namespace AnalysisState

theorem Coherent.process_failsOnly (checked : domain.Checked) {table : LabelTable}
    (resolved : method.Resolved table flow) {state : AnalysisState V} {index : Nat}
    (coherent : state.Coherent flow (method.frameShape domain method.neededLocals none)) :
    FailsOnly (Stopped.For BeyondLimits)
      (state.process domain flow method.neededLocals index) := by
  have merges (old new : V) : FailsOnly BeyondLimits (domain.merge old new) :=
    (checked.policy.merge_failsOnly old new).mono fun _ => Fault.beyondLimits_of_operands
  apply AnalysisState.process_failsOnly
  · intro point frame found pointed
    obtain ⟨node, listed, actioned, -⟩ := resolved.node_of_point pointed
    rw [effect_of_action actioned]
    rcases node with label | line | operation
    · exact .ok _
    · exact .ok _
    · exact (coherent.fits _ _ found).execute_failsOnly checked (List.mem_of_getElem? listed)
  · rfl
  · intro point frame target handler found _ _
    have unbounded : frame.clearStack.maxStack = none := (coherent.fits _ _ found).maxStack
    simp only [Frame.push, unbounded]
    exact .ok _
  · intro point frame after _ _ _ now target sent record _ _
    exact merge_failsOnly (joinFrame_failsOnly merges (fun _ _ => rfl) _ _) fun _ => rfl

end AnalysisState

/-- An analysis with the locals that the method needs and any stack never runs out of either. -/
theorem analyzeWithin_needed_failsOnly (checked : domain.Checked) (owner : BinaryName)
    (method : Method) :
    FailsOnly (·.Within BeyondLimits)
      (analyzeWithin domain owner method method.neededLocals none).result := by
  apply result_failsOnly
  · exact method.flow_failsOnly.mono fun _ labels => .fault (Fault.beyondLimits_of_labels labels)
  · intro flow flowed
    obtain ⟨table, resolved⟩ := Method.resolved_of_flow flowed
    refine (subroutines_failsOnly resolved.bounded).mono fun located falls => .fault ?_
    rw [BeyondLimits, falls]
    rfl
  · have room := method.parameterSlots_le
    rw [← entryValues_length domain owner method] at room
    rw [initialFrame_eq_ok.mpr ⟨room, rfl⟩]
    exact .ok _
  · intro flow entry start prepared
    obtain ⟨table, resolved⟩ := Method.resolved_of_flow prepared.resolved
    refine AnalysisState.solve_failsOnly fun count stopped ends => ?_
    cases ends with
    | stopped run taken failed =>
      have narrows : domain.Narrows := checked.policy.narrows
      have coherent := run.coherent narrows (prepared.isStart narrows).coherent
      exact ((coherent.next? taken).process_failsOnly checked resolved).allows stopped failed

/-- A verifier that computes the limits of a method never reports that one of them is too small. -/
theorem computeLimits_ne_limits (checked : domain.Checked) (owner : BinaryName) (method : Method)
    (index : Nat) :
    (∀ slot maxLocals, computeLimits domain owner method ≠
        .error (.fault ((Fault.invalidLocal slot maxLocals).at index))) ∧
      ∀ maxStack, computeLimits domain owner method ≠
        .error (.fault ((Fault.stackOverflow maxStack).at index)) := by
  have limited {limit : Limit} {value : Nat} {where? : Option Nat} :
      FailsOnly (·.Within BeyondLimits)
        (checkedLimit limit value where?) := by
    unfold checkedLimit
    split
    · exact .ok _
    · exact .error (.fault rfl)
  have computed :
      FailsOnly (·.Within BeyondLimits)
        (computeLimits domain owner method) := by
    unfold computeLimits computeLimitsTraced
    dsimp only
    split
    · rename_i failure failed
      exact .error (limited.allows failure failed)
    · exact (analyzeWithin_needed_failsOnly checked owner method).andThen fun _ => limited.map _
  constructor
  · intro slot maxLocals failed
    exact absurd (computed.allows _ failed _ rfl) nofun
  · intro maxStack failed
    exact absurd (computed.allows _ failed _ rfl) nofun

/-- Stores a long value where its opcode takes an integer. -/
def wideStore : Method where
  flags := .static
  name := ⟨"spill".toList, by decide⟩
  descriptor := ⟨[], none⟩
  nodes := [.instruction (.shortConstant .long0), .instruction (.store .int 0), .branch .voidReturn]
  handlers := []
  maxStack := 2
  maxLocals := 1

/-- The store needs a local more than the opcode tells; where operands are checked, it is not made. -/
theorem wideStore_refused :
    computeLimits ValueKind.domain .object wideStore =
        .error (.fault ((Fault.invalidLocal 1 1).at 1)) ∧
      computeLimits ValueKind.verifier .object wideStore =
        .error (.fault ((Fault.mismatch none "I" "J").at 1)) ∧
      computeLimits ValueKind.verifier .object wideStore ≠
        .error (.fault ((Fault.invalidLocal 1 1).at 1)) :=
  ⟨by cbv, by cbv, (computeLimits_ne_limits ValueKind.verifier_checked .object wideStore 1).1 1 1⟩

end MethodFlow
