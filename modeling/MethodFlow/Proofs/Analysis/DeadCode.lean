import MethodFlow.Domain.ValueKind
import MethodFlow.Proofs.Analysis.Lockstep
import MethodFlow.Proofs.Code.Labelling

namespace MethodFlow

open Relation (ReflTransGen)

/-- Two methods that may differ in their names and in nodes that control cannot reach in the first one.
Labels stand in the same places, each in one, and so do those that are used in either. -/
structure Method.SameLiveCode (method other : Method) : Prop where
  flags : other.flags = method.flags
  descriptor : other.descriptor = method.descriptor
  maxStack : other.maxStack = method.maxStack
  maxLocals : other.maxLocals = method.maxLocals
  handlers : other.handlers = method.handlers
  length : other.nodes.length = method.nodes.length
  labels : ∀ label index, other.Places label index ↔ method.Places label index
  once : ∀ label first second, method.Places label first → method.Places label second →
    first = second
  targets : ∀ node ∈ method.nodes ++ other.nodes, ∀ label ∈ node.targets,
    ∃ target, method.Places label target
  ranges : ∀ handler ∈ method.handlers, ∃ first past target, method.Places handler.first first ∧
    method.Places handler.past past ∧ method.Places handler.handler target
  live : ∀ index, ReflTransGen method.Edge 0 index → other.nodes[index]? = method.nodes[index]?

section Labels

variable {table table' : LabelTable}

/-- What becomes of labels depends only on where they stand. -/
theorem Node.action_congr (same : table'.resolve = table.resolve) (node : Node) :
    node.action table' = node.action table := by
  rcases node with label | line | (i | b)
  case operation.branch => simp only [Node.action, same]
  all_goals rfl

theorem resolveHandlers_congr (same : table'.resolve = table.resolve)
    (handlers : List ExceptionHandler) :
    resolveHandlers table' handlers = resolveHandlers table handlers := by
  induction handlers with
  | nil => rfl
  | cons handler rest ih => simp only [resolveHandlers, resolveHandler, same, ih]

/-- Where labels are placed and nodes have actions, only handlers can keep a method from having a
control flow. -/
theorem Method.flow_eq {method : Method} {actions : List Action}
    (tabled : method.labelTable = .ok table)
    (resolved : List.Forall₂ (fun node action => node.action table = .ok action) method.nodes
      actions) :
    method.flow = (resolveHandlers table method.handlers).map fun handlers =>
      actions.mapIdx fun index action => ⟨action, handlersAt handlers index⟩ := by
  have acted : resolveActions table 0 method.nodes = .ok actions := resolveActions_eq_ok.mpr resolved
  simp only [Method.flow, tabled, acted, bind, Except.bind, pure, Except.pure]
  cases resolveHandlers table method.handlers <;> rfl

end Labels

/-- The control flow of both methods is not found for the same reason, or is the same wherever control
can come to. -/
theorem Method.SameLiveCode.flow {method other : Method} (same : method.SameLiveCode other) :
    (∃ located, method.flow = .error located ∧ other.flow = .error located) ∨
      ∃ flow flow', method.flow = .ok flow ∧ other.flow = .ok flow' ∧ flow'.length = flow.length ∧
        ∀ index, ReflTransGen method.Edge 0 index → flow'[index]? = flow[index]? := by
  have once' (label : Label) (first second : Nat) (placed : other.Places label first)
      (placed' : other.Places label second) : first = second :=
    same.once label first second ((same.labels _ _).mp placed) ((same.labels _ _).mp placed')
  obtain ⟨table, tabled⟩ := Method.labelTable_ok same.once
  obtain ⟨table', tabled'⟩ := Method.labelTable_ok once'
  have resolve : table'.resolve = table.resolve := by
    have found (label : Label) : table'.find? label = table.find? label := by
      refine Option.ext fun index => ?_
      rw [Method.find?_labelTable tabled, Method.find?_labelTable tabled', same.labels]
    funext label
    rw [LabelTable.resolve, LabelTable.resolve, found]
  obtain ⟨actions, resolved⟩ := Method.actions_ok tabled fun node member =>
    same.targets node (List.mem_append_left _ member)
  obtain ⟨actions', resolved'⟩ := Method.actions_ok tabled' fun node member label used => by
    obtain ⟨target, placed⟩ := same.targets node (List.mem_append_right _ member) label used
    exact ⟨target, (same.labels _ _).mpr placed⟩
  have lengths : actions'.length = actions.length :=
    resolved'.length_eq.symm.trans (same.length.trans resolved.length_eq)
  have acted (index : Nat) (live : ReflTransGen method.Edge 0 index) :
      actions'[index]? = actions[index]? := by
    by_cases inside : index < actions.length
    · have inside' : index < actions'.length := lengths ▸ inside
      have stands : index < method.nodes.length := resolved.length_eq ▸ inside
      have stands' : index < other.nodes.length := same.length ▸ stands
      have node := same.live index live
      rw [List.getElem?_eq_getElem stands', List.getElem?_eq_getElem stands,
        Option.some.injEq] at node
      have own := resolved.get stands inside
      have own' := resolved'.get stands' inside'
      simp only [List.get_eq_getElem, node, Node.action_congr resolve] at own own'
      rw [List.getElem?_eq_getElem inside', List.getElem?_eq_getElem inside,
        Except.ok.inj (own'.symm.trans own)]
    · rw [List.getElem?_eq_none (Nat.le_of_not_lt inside),
        List.getElem?_eq_none (lengths ▸ Nat.le_of_not_lt inside)]
  rw [Method.flow_eq tabled resolved, Method.flow_eq tabled' resolved', same.handlers,
    resolveHandlers_congr resolve]
  cases resolveHandlers table method.handlers with
  | error located => exact .inl ⟨located, rfl, rfl⟩
  | ok handlers =>
    refine .inr ⟨_, _, rfl, rfl, by simpa using lengths, fun index live => ?_⟩
    rw [List.getElem?_mapIdx, List.getElem?_mapIdx, acted index live]

section Marking

variable {flow flow' : Flow} {subroutine : Subroutine} {marks : Marks} {calls : List Nat}
  {rest stack : List (Nat × Option Nat)} {index maxLocals : Nat} {previous : Option Nat}

theorem markFrom_marked {own : Subroutine} (marked : marks[index]? = some (some own)) :
    markFrom flow subroutine marks calls ((index, previous) :: rest) =
      markFrom flow subroutine marks calls rest := by
  rw [markFrom]
  split
  · rfl
  · rename_i blank _
    cases blank.symm.trans marked
  · rename_i unmarked _
    exact absurd marked (unmarked own)

theorem markFrom_blank {point : Point} (blank : marks[index]? = some none)
    (pointed : flow[index]? = some point) :
    markFrom flow subroutine marks calls ((index, previous) :: rest) =
      markFrom flow subroutine (marks.set index (some subroutine))
        (if point.action.isCall then calls ++ [index] else calls)
        ((point.onward index).reverse.map (fun next => (next, some index)) ++ rest) := by
  rw [markFrom]
  split
  · rename_i marked
    cases blank.symm.trans marked
  · rename_i pointed'
    cases pointed.symm.trans pointed'
    rfl
  · rename_i absent
    exact absurd pointed (absent point blank)

theorem markFrom_outside (unmarked : ∀ own, marks[index]? ≠ some (some own))
    (absent : ∀ point, marks[index]? = some none → flow[index]? ≠ some point) :
    markFrom flow subroutine marks calls ((index, previous) :: rest) =
      .error (Fault.fallOffEnd.at (previous.getD index)) := by
  rw [markFrom]
  split
  · rename_i marked
    exact absurd marked (unmarked _)
  · rename_i blank pointed
    exact absurd pointed (absent _ blank)
  · rfl

section Live

variable {live : Nat → Prop} (agree : ∀ index, live index → flow'[index]? = flow[index]?)
  (onward : ∀ index point next, live index → flow[index]? = some point →
    next ∈ point.onward index → live next)

include agree onward

/-- A walk goes the same way in both codes where they agree on all that it comes to. -/
theorem markFrom_congr (stacked : ∀ entry ∈ stack, live entry.1) :
    markFrom flow' subroutine marks calls stack = markFrom flow subroutine marks calls stack := by
  fun_induction markFrom flow subroutine marks calls stack with
  | case1 marks calls => rw [markFrom]
  | case2 marks calls index previous rest own marked ih =>
    rw [markFrom_marked marked]
    exact ih fun entry member => stacked entry (List.mem_cons_of_mem _ member)
  | case3 marks calls index previous rest point blank pointed ih =>
    have here : live index := stacked _ List.mem_cons_self
    rw [markFrom_blank blank ((agree index here).trans pointed)]
    refine ih fun entry member => ?_
    rcases List.mem_append.mp member with next | later
    · obtain ⟨target, leads, rfl⟩ := List.mem_map.mp next
      exact onward index point target here pointed (List.mem_reverse.mp leads)
    · exact stacked entry (List.mem_cons_of_mem _ later)
  | case4 marks calls index previous rest unmarked absent =>
    refine markFrom_outside unmarked fun point blank => ?_
    rw [agree index (stacked _ List.mem_cons_self)]
    exact absent point blank

theorem subroutines_congr (uncalled : ∀ index, flow.called? index = none) (first : live 0)
    (lengths : flow'.length = flow.length) :
    flow'.subroutines maxLocals = flow.subroutines maxLocals := by
  have walks : ∀ entry ∈ [(0, (none : Option Nat))], live entry.1 :=
    List.forall_mem_singleton.mpr first
  rw [Flow.subroutines, Flow.subroutines, lengths, markFrom_congr agree onward walks]
  cases walked : markFrom flow (.fresh none maxLocals none) (List.replicate flow.length none) []
      [(0, none)] with
  | error located => rfl
  | ok outcome =>
    obtain ⟨marks, calls⟩ := outcome
    cases markFrom_uncalled uncalled walked
    simp only [bind, Except.bind, markCalls]

end Live

end Marking

theorem Flow.edge_of_onward {flow : Flow} (uncalled : ∀ index, flow.called? index = none)
    {index next : Nat} {point : Point} (pointed : flow[index]? = some point)
    (leads : next ∈ point.onward index) : flow.Edge index next := by
  rcases Point.mem_onward.mp leads with successor | ⟨handler, member⟩ | ⟨calls, -⟩
  · exact .onward pointed successor
  · exact .caught pointed member
  · cases (Point.isCall_of_uncalled uncalled pointed).symm.trans calls

section Analysis

variable {V : Type} [AbstractValue V] {domain : Domain V} {owner : BinaryName}
  {method other : Method}

omit [AbstractValue V] in
theorem Method.SameLiveCode.initialFrame_eq (same : method.SameLiveCode other) (maxLocals : Nat)
    (maxStack : Option Nat) : initialFrame domain owner other maxLocals maxStack =
      initialFrame domain owner method maxLocals maxStack := by
  have entry : other.entryValues domain owner = method.entryValues domain owner := by
    rw [Method.entryValues, Method.entryValues, Method.isStatic, Method.isStatic, same.flags,
      same.descriptor]
  rw [MethodFlow.initialFrame_eq, MethodFlow.initialFrame_eq, entry, same.descriptor]

theorem Domain.carriesFine_id (domain : Domain V) :
    domain.CarriesFine (fun _ => False) (fun _ => True) id where
  merge _ _ := by
    rw [Prod.map_id]
    exact .same _
  keeps _ _ _ := trivial

theorem Point.carriedFine_id {point : Point} (plain : point.action.isCall = false) (index : Nat)
    (frame : Frame V) :
    point.CarriedFine (fun _ => False) (fun _ => True) id domain index frame where
  effect := .same _
  caught _ _ _ := .same _
  plain := plain
  after _ := trivial
  thrown _ _ := trivial

variable {flow flow' : Flow} {entry : Frame V} {start start' : AnalysisState V} {maxLocals : Nat}
  {maxStack : Option Nat}

/-- The loops over both codes find the same if they agree wherever control can come to. -/
theorem Prepared.result_dead (uncalled : ∀ index, flow.called? index = none)
    (prepared : Prepared domain owner method maxLocals maxStack flow entry start)
    (prepared' : Prepared domain owner other maxLocals maxStack flow' entry start')
    (code : method.flags.hasNoCode = false) (code' : other.flags.hasNoCode = false)
    (lengths : flow'.length = flow.length)
    (marking : flow'.subroutines maxLocals = flow.subroutines maxLocals)
    (agree : ∀ index, ReflTransGen flow.Edge 0 index → flow'[index]? = flow[index]?) :
    (analyzeWithin domain owner other maxLocals maxStack).result =
      (analyzeWithin domain owner method maxLocals maxStack).result := by
  have unmarked {marks : Marks} (marked : flow.subroutines maxLocals = .ok marks) :
      ∀ index : Nat, (marks[index]?).join = none := subroutines_uncalled uncalled marked
  have step := prepared.inStep domain.carriesFine_id prepared' lengths unmarked
    (fun marked => unmarked (marking ▸ marked)) trivial
  have alike : EndsAlike (fun _ => False) (AnalysisState.InStep (fun _ => True) id)
      (start.solve domain flow maxLocals (domain.steps flow maxLocals maxStack))
      (start'.solve domain flow' maxLocals (domain.steps flow maxLocals maxStack)) := by
    refine step.solve domain.carriesFine_id (fun {_ state index frame} run found _ => ?_) _
    have framed : state.Framed index := by
      rw [AnalysisState.Framed, found]
      rfl
    have reached := run.reached uncalled (prepared.reached uncalled)
    refine ⟨agree index (reached.sound index framed), fun pointed => ?_⟩
    exact Point.carriedFine_id (Point.isCall_of_uncalled uncalled pointed) index frame
  rw [prepared.result code, prepared'.result code', Domain.steps, Domain.steps, lengths]
  generalize start.solve domain flow _ _ = outcome at alike ⊢
  generalize start'.solve domain flow' _ _ = outcome' at alike ⊢
  cases alike with
  | ok step => simp only [step.frames, step.processed, Option.map_id_fun, List.map_id_fun, id]
  | error same => exact congrArg Except.error same
  | letGo let_go =>
    obtain ⟨_, _, ⟨⟩⟩ := let_go

theorem analyzeWithin_dead (same : method.SameLiveCode other) (callless : method.HasNoCall)
    (domain : Domain V) (owner : BinaryName) (maxLocals : Nat) (maxStack : Option Nat) :
    (analyzeWithin domain owner other maxLocals maxStack).result =
      (analyzeWithin domain owner method maxLocals maxStack).result := by
  cases code : method.flags.hasNoCode with
  | true => simp only [analyzeWithin, same.flags, code, if_true]
  | false =>
    have code' : other.flags.hasNoCode = false := same.flags ▸ code
    rcases same.flow with ⟨located, failed, failed'⟩ | ⟨flow, flow', flowed, flowed', lengths, agree⟩
    · rw [result_of_code code, result_of_code code']
      simp [settle, failed, failed', Except.mapError, bind, Except.bind]
    · obtain ⟨table, resolved⟩ := Method.resolved_of_flow flowed
      have uncalled := resolved.uncalled callless
      have edges : method.Edge = flow.Edge := by
        funext index target
        exact propext (resolved.edge_iff callless).symm
      rw [edges] at agree
      have marking : flow'.subroutines maxLocals = flow.subroutines maxLocals :=
        subroutines_congr agree (fun index point next live pointed leads => live.tail
          (Flow.edge_of_onward uncalled pointed leads)) uncalled .refl lengths
      cases marked : flow.subroutines maxLocals with
      | error located =>
        rw [result_of_code code, result_of_code code']
        simp [settle, flowed, flowed', marking, marked, Except.mapError, bind, Except.bind]
      | ok marks =>
        cases entered : initialFrame domain owner method maxLocals maxStack with
        | error located =>
          rw [result_of_code code, result_of_code code']
          simp [settle, flowed, flowed', marking, marked, same.initialFrame_eq, entered,
            Except.mapError, bind, Except.bind]
        | ok entry =>
          obtain ⟨start, -, prepared⟩ := Prepared.of_entered flowed marked entered
          obtain ⟨start', -, prepared'⟩ := Prepared.of_entered flowed' (marking.trans marked)
            ((same.initialFrame_eq _ _).trans entered)
          exact prepared.result_dead uncalled prepared' code code' lengths marking agree

/-- Code that control cannot reach does not change the result of an analysis, neither the frames nor
the fault and where it is. -/
theorem analyze_dead (same : method.SameLiveCode other) (callless : method.HasNoCall) :
    analyze domain owner other = analyze domain owner method :=
  calc analyze domain owner other
    _ = (analyzeWithin domain owner other method.maxLocals (some method.maxStack)).result := by
      rw [← same.maxLocals, ← same.maxStack]
      rfl
    _ = analyze domain owner method := analyzeWithin_dead same callless domain owner _ _

end Analysis

/-- Returns on zero and on any other number, with a node between the two that control does not reach,
and a handler for the load. -/
def skippedNode (skipped : Node) : Method where
  flags := .static
  name := ⟨"pass".toList, by decide⟩
  descriptor := ⟨[.base .int], none⟩
  nodes := [.label ⟨0⟩, .instruction (.load .int 0), .label ⟨1⟩, .branch (.ifZero .eq ⟨2⟩),
    .branch .voidReturn, skipped, .label ⟨2⟩, .branch .voidReturn, .label ⟨3⟩,
    .instruction (.shuffle .pop), .branch (.goto ⟨2⟩)]
  handlers := [⟨⟨0⟩, ⟨1⟩, ⟨3⟩, none⟩]
  maxStack := 1
  maxLocals := 1

/-- The skipped node pops from an empty stack, or leaves a subroutine where there is none. -/
theorem skippedNode_sameLiveCode : (skippedNode (.instruction (.shuffle .pop))).SameLiveCode
    (skippedNode (.branch (.ret 7))) := by
  have labelled (method : Method) (resolves : method.flow.isOk = true) : method.Labelled := by
    obtain ⟨flow, flowed⟩ := isOk_iff.mp resolves
    exact Method.labelled_of_flow flowed
  have first := labelled (skippedNode (.instruction (.shuffle .pop))) (by cbv)
  have second := labelled (skippedNode (.branch (.ret 7))) (by cbv)
  have node (index : Nat) (other : index ≠ 5) : (skippedNode (.branch (.ret 7))).nodes[index]? =
      (skippedNode (.instruction (.shuffle .pop))).nodes[index]? := by
    have replaced : (skippedNode (.branch (.ret 7))).nodes =
        (skippedNode (.instruction (.shuffle .pop))).nodes.set 5 (.branch (.ret 7)) := rfl
    rw [replaced, List.getElem?_set_ne (Ne.symm other)]
  have labels (label : Label) (index : Nat) :
      (skippedNode (.branch (.ret 7))).Places label index ↔
        (skippedNode (.instruction (.shuffle .pop))).Places label index := by
    by_cases skipped : index = 5
    · subst skipped
      simp [Method.Places, skippedNode, Node.instruction, Node.branch]
    · rw [Method.Places, node index skipped, Method.Places]
  refine ⟨rfl, rfl, rfl, rfl, rfl, rfl, labels, first.once, ?_, ?_, fun index path => node index ?_⟩
  · intro node member label used
    rcases List.mem_append.mp member with own | other
    · exact first.targets node own label used
    · obtain ⟨target, placed⟩ := second.targets node other label used
      exact ⟨target, (labels label target).mp placed⟩
  · intro handler member
    obtain ⟨start, past, target, placed, placed', placed'', -⟩ := first.handlers handler member
    exact ⟨start, past, target, placed, placed', placed''⟩
  · -- control comes to no label there, and the node before it returns
    induction path with
    | refl => decide
    | tail _ edge _ =>
      rintro rfl
      cases edge with
      | onward leads =>
        cases leads with
        | next found falls =>
          cases found
          cases falls
        | jump _ _ placed => cases placed
      | caught _ _ placed => cases placed

theorem skippedNode_dead : (skippedNode (.instruction (.shuffle .pop))).SameLiveCode
      (skippedNode (.branch (.ret 7))) ∧
    (skippedNode (.instruction (.shuffle .pop))).HasNoCall ∧
    (analyze ValueKind.verifier .object (skippedNode (.instruction (.shuffle .pop)))).map
      Analysis.unreachable = .ok [5] ∧
    analyze ValueKind.verifier .object (skippedNode (.branch (.ret 7))) =
      analyze ValueKind.verifier .object (skippedNode (.instruction (.shuffle .pop))) := by
  have callless : (skippedNode (.instruction (.shuffle .pop))).HasNoCall := by
    simp [Method.HasNoCall, skippedNode, Node.branch, Node.instruction]
  exact ⟨skippedNode_sameLiveCode, callless, by cbv, analyze_dead skippedNode_sameLiveCode callless⟩

end MethodFlow
