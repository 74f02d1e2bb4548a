import MethodFlow.Proofs.Analysis.Wholeness
import MethodFlow.Proofs.StackMap.Decoding

namespace MethodFlow

variable {analysis : Analysis VerificationType}

namespace StackMapEntry

/-- Entries, each with the locals that the one before it stands for. -/
def chain (previous : List VerificationType) :
    List StackMapEntry → List (List VerificationType × StackMapEntry)
  | [] => []
  | entry :: rest => (previous, entry) :: chain (entry.frame.decode previous).1 rest

end StackMapEntry

/-- An entry after the given locals stands for a frame with so many locals, in a form that is no longer
than it has to be. -/
structure StackMapFrame.Encodes (encoded : StackMapFrame) (previous : List VerificationType)
    (maxLocals : Nat) (frame : Frame VerificationType) : Prop where
  locals : expandLocals maxLocals (encoded.decode previous).1 = frame.locals
  stack : (encoded.decode previous).2 = frame.stackValues
  limited : encoded.Limited
  full : encoded.isFull = true → ∀ other : StackMapFrame, other.Limited → other.isFull = false →
    other.decode previous ≠ encoded.decode previous
  /-- What else expands to the frame lists an unusable local at the end. -/
  trailing : encoded.isFull = true → ∀ other : StackMapFrame, other.Limited → other.isFull = false →
    expandLocals maxLocals (other.decode previous).1 = frame.locals →
    (other.decode previous).2 = frame.stackValues → (other.decode previous).1.getLast? = some .top

theorem StackMapFrame.encodes_relativeTo {maxLocals : Nat} {frame : Frame VerificationType}
    (previous : List VerificationType)
    (restored : expandLocals maxLocals frame.compressedLocals = frame.locals) :
    (relativeTo previous frame.compressedLocals frame.stackValues).Encodes previous maxLocals
      frame where
  locals := by rw [decode_relativeTo, restored]
  stack := by rw [decode_relativeTo]
  limited := limited_relativeTo
  full full other limited partly decoded := by
    rw [decode_relativeTo] at decoded
    exact absurd (isFull_of_relativeTo full limited decoded) (by simp [partly])
  trailing full other limited partly expanded same := by
    by_contra usable
    have listed := eq_compressedLocals expanded usable
    have decoded : other.decode previous = (frame.compressedLocals, frame.stackValues) :=
      Prod.ext listed same
    exact absurd (isFull_of_relativeTo full limited decoded) (by simp [partly])

/-- The entries are for the frames at the given indices, each relative to the one before it. -/
theorem mem_chain {previous before : List VerificationType} {indices : List Nat}
    {entry : StackMapEntry}
    (member : (before, entry) ∈ StackMapEntry.chain previous
      (stackMapEntries analysis previous indices)) :
    ∃ frame, analysis.frame? entry.index = some frame ∧
      entry.frame = .relativeTo before frame.compressedLocals frame.stackValues := by
  induction indices generalizing previous with
  | nil => cases member
  | cons index rest ih =>
    rw [stackMapEntries] at member
    split at member
    · exact ih member
    · rename_i frame found
      simp only [StackMapEntry.chain, StackMapFrame.decode_relativeTo, List.mem_cons,
        Prod.mk.injEq] at member
      rcases member with ⟨rfl, rfl⟩ | later
      · exact ⟨frame, found, rfl⟩
      · exact ih later

theorem stackMapEntries_indices (analysis : Analysis VerificationType)
    (previous : List VerificationType) (indices : List Nat) :
    (stackMapEntries analysis previous indices).map StackMapEntry.index =
      indices.filter fun index => (analysis.frame? index).isSome := by
  induction indices generalizing previous with
  | nil => rfl
  | cons index rest ih =>
    rw [stackMapEntries]
    split
    · rename_i missing
      rw [ih, List.filter_cons, missing]
      rfl
    · rename_i frame found
      rw [List.map_cons, ih, List.filter_cons, found]
      rfl

/-- A branch leads to an index, or a handler starts there. -/
def Method.IsTarget (method : Method) (index : Nat) : Prop :=
  (∃ node ∈ method.nodes, ∃ label ∈ node.targets, method.Places label index) ∨
    ∃ handler ∈ method.handlers, method.Places handler.handler index

namespace Method

variable {method : Method} {table : LabelTable} {label : Label} {index : Nat}

theorem mem_targetLabels : label ∈ method.targetLabels ↔
    (∃ node ∈ method.nodes, label ∈ node.targets) ∨
      ∃ handler ∈ method.handlers, handler.handler = label := by
  have branched (node : Node) :
      label ∈ node.targets ↔ ∃ b, node.branch? = some b ∧ label ∈ b.jumpTargets := by
    rcases node with _ | _ | _ | _ <;> simp [Node.targets, Node.branch?]
  simp only [targetLabels, List.mem_append, List.mem_flatMap, List.mem_filterMap, List.mem_map,
    branched]
  constructor
  · rintro (⟨b, ⟨node, member, own⟩, jumps⟩ | handled)
    · exact .inl ⟨node, member, b, own, jumps⟩
    · exact .inr handled
  · rintro (⟨node, member, b, own, jumps⟩ | handled)
    · exact .inl ⟨b, ⟨node, member, own⟩, jumps⟩
    · exact .inr handled

theorem mem_targets (tabled : method.labelTable = .ok table) :
    index ∈ method.targets table ↔ method.IsTarget index := by
  have placed (label : Label) : table.find? label = some index ↔ method.Places label index :=
    find?_labelTable tabled
  have inside {label : Label} (placed : method.Places label index) : index < method.nodes.length :=
    (List.getElem?_eq_some_iff.mp placed).1
  simp only [targets, List.mem_filter, List.mem_range, List.contains_iff_mem, List.mem_filterMap,
    mem_targetLabels, placed]
  constructor
  · rintro ⟨-, label, ⟨node, member, jumps⟩ | ⟨handler, member, rfl⟩, placed⟩
    · exact .inl ⟨node, member, label, jumps, placed⟩
    · exact .inr ⟨handler, member, placed⟩
  · rintro (⟨node, member, label, jumps, placed⟩ | ⟨handler, member, placed⟩)
    · exact ⟨inside placed, label, .inl ⟨node, member, jumps⟩, placed⟩
    · exact ⟨inside placed, handler.handler, .inr ⟨handler, member, rfl⟩, placed⟩

theorem pairwise_targets (method : Method) (table : LabelTable) :
    (method.targets table).Pairwise (· < ·) :=
  List.pairwise_lt_range.filter _

end Method

/-- A stack map has an entry for every frame that a branch or a handler leads to, in order, and read
back one after the other they are those frames. -/
theorem stackMap_restores (hierarchy : TypeHierarchy) {owner : BinaryName} {method : Method}
    (code : method.flags.hasNoCode = false) (callless : method.HasNoCall)
    {analysis : Analysis VerificationType}
    (analyzed : analyze (VerificationType.verifier hierarchy) owner method = .ok analysis) :
    ∃ entry entries, analysis.initialFrame = some entry ∧
      stackMap method analysis = .ok entries ∧
      (entries.map StackMapEntry.index).Pairwise (· < ·) ∧
      (∀ index, index ∈ entries.map StackMapEntry.index ↔
        (∃ frame, analysis.frame? index = some frame) ∧ method.IsTarget index) ∧
      ∀ previous encoded, (previous, encoded) ∈ StackMapEntry.chain entry.compressedLocals entries →
        ∃ frame, analysis.frame? encoded.index = some frame ∧
          encoded.frame.Encodes previous method.maxLocals frame := by
  obtain ⟨flow, entry, start, final, count, prepared, -, -, started⟩ := run_of_result code analyzed
  obtain ⟨table, -, -, tabled, -⟩ := Method.flow_eq_ok.mp prepared.resolved
  have initial : analysis.initialFrame = some entry := by rw [started]
  refine ⟨entry, _, initial, by rw [stackMap, tabled, initial]; rfl, ?_, fun index => ?_,
    fun previous encoded member => ?_⟩
  · rw [stackMapEntries_indices]
    exact (method.pairwise_targets table).filter _
  · rw [stackMapEntries_indices, List.mem_filter, method.mem_targets tabled, and_comm,
      Option.isSome_iff_exists]
  · obtain ⟨frame, found, form⟩ := mem_chain member
    have whole (slot : Nat) : frame.WholeAt (VerificationType.verifier hierarchy) slot ∧
        frame.locals.length = method.maxLocals :=
      wholeAt_of_callless ⟨hierarchy, .inr .simple⟩ callless analyzed found
    have restored := expandLocals_compressedLocals fun slot => (whole slot).1
    rw [(whole 0).2] at restored
    rw [form]
    exact ⟨frame, found, StackMapFrame.encodes_relativeTo previous restored⟩

/-- Fills two locals, the first one with a long value, and then loops. -/
def fillingLoop : Method where
  flags := .static
  name := ⟨"fill".toList, by decide⟩
  descriptor := ⟨[], none⟩
  nodes := [.instruction (.shortConstant .long0), .instruction (.store .long 0),
    .instruction (.shortConstant .int0), .instruction (.store .int 2), .label ⟨0⟩,
    .branch (.goto ⟨0⟩)]
  handlers := []
  maxStack := 2
  maxLocals := 4

/-- Its stack map appends both, and expanding them puts the second slot and the last local back. -/
theorem fillingLoop_restored : ∃ analysis entries, fillingLoop.HasNoCall ∧
    analyze (VerificationType.verifier ClassGraph.empty.hierarchy) .object fillingLoop =
      .ok analysis ∧
    stackMap fillingLoop analysis = .ok entries ∧ entries = [⟨4, .append [.long, .integer]⟩] ∧
    (∀ index, index ∈ entries.map StackMapEntry.index ↔
      (∃ frame, analysis.frame? index = some frame) ∧ fillingLoop.IsTarget index) ∧
    ∃ frame, analysis.frame? 4 = some frame ∧
      (StackMapFrame.append [.long, .integer]).Encodes [] 4 frame := by
  have listed : (analyze (VerificationType.verifier ClassGraph.empty.hierarchy) .object
      fillingLoop).map (fun analysis => (analysis.initialFrame.map Frame.compressedLocals,
        (stackMap fillingLoop analysis).toOption)) =
      .ok (some [], some [⟨4, .append [.long, .integer]⟩]) := by cbv
  obtain ⟨analysis, analyzed, known⟩ := map_eq_ok.mp listed
  have callless : fillingLoop.HasNoCall := by
    simp [Method.HasNoCall, fillingLoop, Node.branch, Node.instruction]
  obtain ⟨entry, entries, initial, mapped, -, indices, restored⟩ :=
    stackMap_restores ClassGraph.empty.hierarchy (by decide) callless analyzed
  rw [initial, mapped] at known
  obtain ⟨first, rfl⟩ : entry.compressedLocals = [] ∧
      entries = [⟨4, .append [.long, .integer]⟩] := by
    simpa [Except.toOption] using known
  exact ⟨analysis, _, callless, analyzed, mapped, rfl, indices,
    restored [] ⟨4, .append [.long, .integer]⟩ (by simp [first, StackMapEntry.chain])⟩

end MethodFlow
