import MethodFlow.Analysis.Analyzer
import MethodFlow.Proofs.Analysis.Marking

namespace MethodFlow

variable {V : Type} [AbstractValue V] {flow : Flow} {maxLocals : Nat}

/-- The shape of the frames of a method under the given limits. -/
def Method.frameShape (domain : Domain V) (method : Method) (maxLocals : Nat)
    (maxStack : Option Nat) : FrameShape V :=
  ⟨maxLocals, maxStack, domain.returned method.descriptor.returnType⟩

/-- The receiver and the parameters of a method, as locals on entry. -/
def Method.entryValues (domain : Domain V) (owner : BinaryName) (method : Method) : List V :=
  (if method.isStatic then [] else [domain.parameter (.object owner)]) ++
    parameterLocals domain method.descriptor.parameters

variable {domain : Domain V} {owner : BinaryName} {method : Method} {maxStack : Option Nat}
  {entry : Frame V} {start : AnalysisState V}

omit [AbstractValue V] in
theorem entryValues_length (domain : Domain V) (owner : BinaryName) (method : Method) :
    (method.entryValues domain owner).length = method.parameterSlots := by
  have parameters (types : List FieldType) : (parameterLocals domain types).length =
      types.foldr (fun type slots => type.width + slots) 0 := by
    induction types with
    | nil => rfl
    | cons type rest ih =>
      have width : type.width = 1 ∨ type.width = 2 := by
        rcases type with base | ref
        · cases base <;> decide
        · exact .inl rfl
      rcases width with narrow | wide
      · simp only [parameterLocals, narrow, List.foldr_cons, ← ih]
        simp [Nat.add_comm]
      · simp only [parameterLocals, wide, List.foldr_cons, ← ih]
        simp only [↓reduceIte, List.length_cons]
        omega
  rw [Method.entryValues, List.length_append, parameters, Method.parameterSlots,
    MethodDescriptor.parameterLength]
  cases method.isStatic <;> rfl

omit [AbstractValue V] in
theorem initialFrame_eq (domain : Domain V) (owner : BinaryName) (method : Method) (maxLocals : Nat)
    (maxStack : Option Nat) : initialFrame domain owner method maxLocals maxStack =
      if maxLocals < (method.entryValues domain owner).length then
        .error (Fault.invalidLocal maxLocals maxLocals |>.at 0)
      else .ok (.entry (method.entryValues domain owner ++
          List.replicate (maxLocals - (method.entryValues domain owner).length) domain.unusable)
          maxStack (domain.returned method.descriptor.returnType)) :=
  rfl

omit [AbstractValue V] in
theorem initialFrame_eq_ok :
    initialFrame domain owner method maxLocals maxStack = .ok entry ↔
      (method.entryValues domain owner).length ≤ maxLocals ∧
        entry = .entry (method.entryValues domain owner ++
          List.replicate (maxLocals - (method.entryValues domain owner).length) domain.unusable)
          maxStack (domain.returned method.descriptor.returnType) := by
  rw [initialFrame_eq]
  split
  · rename_i full
    simp [Nat.not_le_of_lt full]
  · rename_i room
    simp [Nat.le_of_not_lt room, eq_comm]

theorem initialFrame_fits (entered : initialFrame domain owner method maxLocals maxStack = .ok entry) :
    entry.Fits (method.frameShape domain maxLocals maxStack) := by
  obtain ⟨room, rfl⟩ := initialFrame_eq_ok.mp entered
  refine ⟨⟨?_, SlotVec.placed_ofList [], rfl, rfl⟩, fun _ _ => Nat.zero_le _⟩
  simp only [Frame.entry, List.length_append, List.length_replicate, Method.frameShape]
  omega

/-- The state that an analysis starts from: only the first point has a frame. -/
structure AnalysisState.IsStart (flow : Flow) (shape : FrameShape V) (entry : Frame V)
    (start : AnalysisState V) : Prop where
  coherent : start.Coherent flow shape
  nonempty : 0 < flow.length
  frames : ∀ index frame, start.frame? index = some frame ↔ index = 0 ∧ frame = entry
  worklist : start.worklist = [0]
  returns : start.returns = []
  processed : start.processed = 0

/-- How the analysis of a method with code comes to the state that it starts from. -/
structure Prepared (domain : Domain V) (owner : BinaryName) (method : Method) (maxLocals : Nat)
    (maxStack : Option Nat) (flow : Flow) (entry : Frame V) (start : AnalysisState V) : Prop where
  resolved : method.flow = .ok flow
  entered : initialFrame domain owner method maxLocals maxStack = .ok entry
  started : ∃ marks, flow.subroutines maxLocals = .ok marks ∧
    (AnalysisState.initial marks [.started owner method.name method.descriptor]).merge domain 0
      entry none = .ok start

namespace Prepared

theorem initial_coherent {marks : Marks} {shape : FrameShape V} {events : List Event}
    (marked : flow.subroutines shape.maxLocals = .ok marks) :
    (AnalysisState.initial marks events : AnalysisState V).Coherent flow shape := by
  obtain ⟨length, coherent⟩ := subroutines_coherent marked
  have absent (index : Nat) :
      (AnalysisState.initial marks events : AnalysisState V).frame? index = none := by
    simp only [AnalysisState.initial, AnalysisState.frame?, List.getElem?_replicate]
    split <;> rfl
  refine ⟨⟨by simp [AnalysisState.initial], fun index => ?_, .nil⟩, ?_, length, ?_, coherent, ?_⟩
  · simp [AnalysisState.initial, List.getElem?_replicate]
  · simpa [AnalysisState.initial] using length
  · intro index frame found
    rw [absent] at found
    cases found
  · simp [AnalysisState.initial]

variable {flow : Flow}

/-- The loop is reached where control flow and records are found and there is room for parameters. -/
theorem of_flow {marks : Marks} (resolved : method.flow = .ok flow)
    (marked : flow.subroutines maxLocals = .ok marks) (nonempty : 0 < flow.length)
    (room : method.parameterSlots ≤ maxLocals) :
    ∃ entry start, Prepared domain owner method maxLocals maxStack flow entry start := by
  obtain ⟨entry, entered⟩ : ∃ entry,
      initialFrame domain owner method maxLocals maxStack = .ok entry :=
    ⟨_, initialFrame_eq_ok.mpr ⟨(entryValues_length domain owner method).symm ▸ room, rfl⟩⟩
  obtain ⟨start, merged⟩ : ∃ start, (AnalysisState.initial marks
      [.started owner method.name method.descriptor]).merge domain 0 entry none = .ok start := by
    have inside : 0 < marks.length := (subroutines_coherent marked).1 ▸ nonempty
    refine ⟨_, AnalysisState.merge_eq_ok.mpr ⟨?_, entry, true, ?_, rfl⟩⟩
    · simpa [AnalysisState.initial] using inside
    · simp [AnalysisState.initial, AnalysisState.frame?, AnalysisState.joinFrame, inside]
  exact ⟨entry, start, resolved, entered, marks, marked, merged⟩

theorem of_entered {marks : Marks} (resolved : method.flow = .ok flow)
    (marked : flow.subroutines maxLocals = .ok marks)
    (entered : initialFrame domain owner method maxLocals maxStack = .ok entry) :
    ∃ start, (AnalysisState.initial marks
        [.started owner method.name method.descriptor]).merge domain 0 entry none = .ok start ∧
      Prepared domain owner method maxLocals maxStack flow entry start := by
  have room := (initialFrame_eq_ok.mp entered).1
  rw [entryValues_length] at room
  obtain ⟨entry', start, prepared⟩ : ∃ entry' start,
      Prepared domain owner method maxLocals maxStack flow entry' start :=
    of_flow resolved marked (length_pos_of_subroutines marked) room
  cases entered.symm.trans prepared.entered
  obtain ⟨marks', marked', merged⟩ := prepared.started
  cases marked.symm.trans marked'
  exact ⟨start, merged, prepared⟩

theorem recorded (narrows : domain.Narrows)
    (prepared : Prepared domain owner method maxLocals maxStack flow entry start) {index : Nat}
    {record : Subroutine} (found : start.subroutine? index = some record) :
    ∃ marks, flow.subroutines maxLocals = .ok marks ∧ (marks[index]?).join = some record := by
  obtain ⟨marks, marked, merged⟩ := prepared.started
  have initial : (AnalysisState.initial marks
      [.started owner method.name method.descriptor] : AnalysisState V).Coherent flow
        (method.frameShape domain maxLocals maxStack) := initial_coherent marked
  obtain ⟨inside, -, own, changed, -, rfl⟩ :=
    initial.merge narrows (initialFrame_fits prepared.entered) (by simp) merged
  rw [AnalysisState.subroutine?_updated (initial.subroutines_length ▸ inside)] at found
  refine ⟨marks, marked, ?_⟩
  split at found
  · rename_i first
    subst first
    have same (old : Option Subroutine) : (AnalysisState.joinSubroutine old none).1 = old := by
      cases old <;> rfl
    exact (same _).symm.trans found
  · exact found

theorem unused (narrows : domain.Narrows)
    (prepared : Prepared domain owner method maxLocals maxStack flow entry start) {index : Nat}
    {record : Subroutine} (recorded : start.subroutine? index = some record) :
    record.used = List.replicate maxLocals false := by
  obtain ⟨marks, marked, found⟩ := prepared.recorded narrows recorded
  exact subroutines_unused marked found

theorem isStart (narrows : domain.Narrows)
    (prepared : Prepared domain owner method maxLocals maxStack flow entry start) :
    start.IsStart flow (method.frameShape domain maxLocals maxStack) entry := by
  obtain ⟨marks, marked, merged⟩ := prepared.started
  have initial : (AnalysisState.initial marks
      [.started owner method.name method.descriptor] : AnalysisState V).Coherent flow
        (method.frameShape domain maxLocals maxStack) := initial_coherent marked
  have fits := initialFrame_fits prepared.entered
  obtain ⟨inside, coherent, own, changed, joined, rfl⟩ :=
    initial.merge narrows fits (by simp) merged
  have absent (index : Nat) : (AnalysisState.initial marks
      [.started owner method.name method.descriptor] : AnalysisState V).frame? index = none := by
    simp only [AnalysisState.initial, AnalysisState.frame?, List.getElem?_replicate]
    split <;> rfl
  obtain ⟨rfl, rfl⟩ := joined.first (absent 0)
  have inside' := initial.frames_length ▸ inside
  refine ⟨coherent, inside, ?_, ?_, by simp [AnalysisState.initial],
    by simp [AnalysisState.initial]⟩
  · intro index frame
    rw [AnalysisState.frame?_updated inside', absent]
    split
    · rename_i first
      simp [first, eq_comm]
    · rename_i other
      simp [other]
  · refine List.perm_singleton.mp ((List.perm_ext_iff_of_nodup coherent.nodup (by simp)).mpr ?_)
    intro index
    rw [AnalysisState.mem_updated initial.toQueued inside']
    simp [AnalysisState.initial]

end Prepared

end MethodFlow
