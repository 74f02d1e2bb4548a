import Mathlib.Data.List.Forall2
import MethodFlow.Analysis.Flow
import MethodFlow.Proofs.Frame.Operations

namespace MethodFlow

theorem LabelTable.find?_concat {table : LabelTable} {label placed : Label} {index position : Nat}
    (fresh : table.find? placed = none) :
    LabelTable.find? (table ++ [(placed, index)]) label = some position ↔
      table.find? label = some position ∨ (label = placed ∧ position = index) := by
  unfold find? at fresh ⊢
  rw [List.lookup_append]
  by_cases same : label = placed
  · subst same
    simp [fresh, eq_comm]
  · have different : (label == placed) = false := by simpa using same
    simp [same, List.lookup_cons, different]

namespace Method

/-- Does a label stand at an index of the code? -/
def Places (method : Method) (label : Label) (index : Nat) : Prop :=
  method.nodes[index]? = some (.label label)

/-- The labels that are found among nodes are those that stand there. -/
theorem placeLabels_spec {nodes : List Node} {index : Nat} {table placed : LabelTable}
    (tabled : placeLabels table index nodes = .ok placed) (label : Label) (position : Nat) :
    placed.find? label = some position ↔ table.find? label = some position ∨
      (index ≤ position ∧ nodes[position - index]? = some (.label label)) := by
  induction nodes generalizing index table with
  | nil =>
    cases tabled
    simp
  | cons node rest ih =>
    have shifted : (index ≤ position ∧ (node :: rest)[position - index]? = some (.label label)) ↔
        (position = index ∧ node = .label label) ∨
          (index + 1 ≤ position ∧ rest[position - (index + 1)]? = some (.label label)) := by
      by_cases own : position = index
      · subst own
        have past : ¬position + 1 ≤ position := by omega
        simp only [past, false_and, or_false, true_and, Nat.le_refl, Nat.sub_self,
          List.getElem?_cons_zero, Option.some.injEq]
      · by_cases later : index + 1 ≤ position
        · obtain ⟨distance, rfl⟩ := Nat.exists_eq_add_of_le later
          have before : index ≤ index + 1 + distance := by omega
          have after : index + 1 + distance - index = distance + 1 := by omega
          simp [own, later, before, after]
        · simp [own, later, show ¬index ≤ position by omega]
    rw [shifted]
    cases node with
    | label own =>
      simp only [placeLabels, Node.label?] at tabled
      split at tabled
      · cases tabled
      · rename_i fresh
        have named : (position = index ∧ Node.label own = .label label) ↔
            (label = own ∧ position = index) := by
          rw [Node.label.injEq, and_comm, eq_comm]
        rw [ih tabled, LabelTable.find?_concat fresh, or_assoc, named]
    | line | operation =>
      rw [ih tabled]
      simp

end Method

theorem Method.find?_labelTable {method : Method} {table : LabelTable}
    (tabled : method.labelTable = .ok table) {label : Label} {index : Nat} :
    table.find? label = some index ↔ method.Places label index := by
  rw [Method.placeLabels_spec tabled]
  simp [LabelTable.find?, Method.Places]

theorem LabelTable.resolve_eq_ok {table : LabelTable} {label : Label} {index : Nat} :
    table.resolve label = .ok index ↔ table.find? label = some index := by
  unfold resolve
  split <;> simp_all

theorem locate_eq_ok {α : Type} {index : Nat} {outcome : Except Fault α} {value : α} :
    locate index outcome = .ok value ↔ outcome = .ok value := by
  cases outcome <;> simp [locate]

theorem resolveActions_eq_ok {table : LabelTable} {index : Nat} {nodes : List Node}
    {actions : List Action} :
    resolveActions table index nodes = .ok actions ↔
      List.Forall₂ (fun node action => node.action table = .ok action) nodes actions := by
  induction nodes generalizing index actions with
  | nil => simp [resolveActions, eq_comm]
  | cons node rest ih =>
    simp only [resolveActions, bind_eq_ok, locate_eq_ok, pure, Except.pure, Except.ok.injEq]
    constructor
    · rintro ⟨action, resolved, others, remaining, rfl⟩
      exact .cons resolved (ih.mp remaining)
    · intro related
      cases related with
      | cons head tail => exact ⟨_, head, _, ih.mpr tail, rfl⟩

theorem mapM_eq_ok {ε α β : Type} {rename : α → Except ε β} {values : List α} {renamed : List β} :
    values.mapM rename = .ok renamed ↔
      List.Forall₂ (fun value result => rename value = .ok result) values renamed := by
  induction values generalizing renamed with
  | nil => simp [pure, Except.pure, eq_comm]
  | cons value rest ih =>
    simp only [List.mapM_cons, bind_eq_ok, pure, Except.pure, Except.ok.injEq]
    constructor
    · rintro ⟨result, first, others, remaining, rfl⟩
      exact .cons first (ih.mp remaining)
    · intro related
      cases related with
      | cons head tail => exact ⟨_, head, _, ih.mpr tail, rfl⟩

theorem lt_foldl_max {bound least : Nat} {values : List Nat} :
    bound < values.foldl max least ↔ bound < least ∨ ∃ value ∈ values, bound < value := by
  induction values generalizing least with
  | nil => simp
  | cons value values ih =>
    have either : bound < max least value ↔ bound < least ∨ bound < value := by omega
    simp only [List.foldl_cons, ih, either, List.mem_cons, exists_eq_or_imp, or_assoc]

namespace Branch

variable {L M ε : Type} {rename : L → Except ε M} {b : Branch L} {renamed : Branch M}

/-- Renaming the targets of a branch renames each of them and changes nothing else. -/
theorem mapLabels_spec (mapped : b.mapLabels rename = .ok renamed) :
    renamed.fallsThrough = b.fallsThrough ∧
      List.Forall₂ (fun target result => rename target = .ok result) b.jumpTargets
        renamed.jumpTargets := by
  cases b with
  | ifZero _ target | ifInts _ target | ifReferences _ target | ifNull _ target | goto target
  | jsr target =>
    obtain ⟨result, found, same⟩ := bind_eq_ok.mp mapped
    cases same
    exact ⟨rfl, .cons found .nil⟩
  | tableSwitch default low targets =>
    obtain ⟨result, found, same⟩ := bind_eq_ok.mp mapped
    obtain ⟨results, others, same⟩ := bind_eq_ok.mp same
    cases same
    exact ⟨rfl, .cons found (mapM_eq_ok.mp others)⟩
  | lookupSwitch default targets =>
    obtain ⟨result, found, same⟩ := bind_eq_ok.mp mapped
    obtain ⟨results, others, same⟩ := bind_eq_ok.mp same
    cases same
    refine ⟨rfl, .cons found ?_⟩
    rw [List.forall₂_map_left_iff, List.forall₂_map_right_iff]
    refine (mapM_eq_ok.mp others).imp fun entry result paired => ?_
    obtain ⟨target, renamed, same⟩ := bind_eq_ok.mp paired
    cases same
    exact renamed
  | valueReturn | voidReturn | throw | ret =>
    cases mapped
    exact ⟨rfl, .nil⟩

end Branch

/-- Can control go on from a node to the next one? -/
def Node.fallsThrough : Node → Bool
  | .label _ | .line _ | .instruction _ => true
  | .branch b => b.fallsThrough

/-- The labels that control can jump to from a node. -/
def Node.targets : Node → List Label
  | .label _ | .line _ | .instruction _ => []
  | .branch b => b.jumpTargets

/-- Control can go on from one index to another: to the next one, or to the label of a jump. -/
inductive Method.Leads (method : Method) (index : Nat) : Nat → Prop where
  | next {node : Node} (found : method.nodes[index]? = some node)
      (falls : node.fallsThrough = true) : Leads method index (index + 1)
  | jump {node : Node} {label : Label} {target : Nat} (found : method.nodes[index]? = some node)
      (jumps : label ∈ node.targets) (placed : method.Places label target) :
      Leads method index target

/-- A handler covers an index: it lies between the labels of its range. -/
def Method.Protects (method : Method) (handler : ExceptionHandler) (index : Nat) : Prop :=
  ∃ first past, method.Places handler.first first ∧ method.Places handler.past past ∧
    first ≤ index ∧ index < past

theorem resolveHandler_eq_ok {table : LabelTable} {handler : ExceptionHandler}
    {resolved : ResolvedHandler} :
    resolveHandler table handler = .ok resolved ↔
      table.find? handler.first = some resolved.first ∧
        table.find? handler.past = some resolved.past ∧
          table.find? handler.handler = some resolved.target ∧
            resolved.first ≤ resolved.past ∧ resolved.handler = handler := by
  obtain ⟨first, past, target, own⟩ := resolved
  simp only [resolveHandler, bind_eq_ok, LabelTable.resolve_eq_ok]
  constructor
  · rintro ⟨first', found, past', found', target', found'', ordered⟩
    split at ordered
    · cases ordered
    · cases ordered
      exact ⟨found, found', found'', by omega, rfl⟩
  · rintro ⟨found, found', found'', ordered, rfl⟩
    refine ⟨first, found, past, found', target, found'', ?_⟩
    rw [if_neg (Nat.not_lt_of_le ordered)]
    rfl

theorem resolveHandlers_eq_ok {table : LabelTable} {handlers : List ExceptionHandler}
    {resolved : List ResolvedHandler} :
    resolveHandlers table handlers = .ok resolved ↔
      List.Forall₂ (fun handler result => resolveHandler table handler = .ok result) handlers
        resolved := by
  induction handlers generalizing resolved with
  | nil => simp [resolveHandlers, eq_comm]
  | cons handler rest ih =>
    simp only [resolveHandlers, bind_eq_ok, locate_eq_ok, pure, Except.pure, Except.ok.injEq]
    constructor
    · rintro ⟨first, found, others, remaining, rfl⟩
      exact .cons found (ih.mp remaining)
    · intro related
      cases related with
      | cons head tail => exact ⟨_, head, _, ih.mpr tail, rfl⟩

theorem mem_handlersAt {handlers : List ResolvedHandler} {index target : Nat}
    {handler : ExceptionHandler} :
    (target, handler) ∈ handlersAt handlers index ↔ ∃ resolved ∈ handlers,
      resolved.first ≤ index ∧ index < resolved.past ∧ resolved.target = target ∧
        resolved.handler = handler := by
  simp only [handlersAt, List.mem_map, List.mem_filter, ResolvedHandler.covers,
    Bool.and_eq_true, decide_eq_true_eq, Prod.mk.injEq]
  constructor
  · rintro ⟨resolved, ⟨member, lower, upper⟩, named, own⟩
    exact ⟨resolved, member, lower, upper, named, own⟩
  · rintro ⟨resolved, member, lower, upper, named, own⟩
    exact ⟨resolved, ⟨member, lower, upper⟩, named, own⟩

structure Method.Resolved (method : Method) (table : LabelTable) (flow : Flow) : Prop where
  labels : ∀ label index, table.find? label = some index ↔ method.Places label index
  length : flow.length = method.nodes.length
  handlers : ∀ handler ∈ method.handlers, ∃ target, method.Places handler.handler target
  points : ∀ index node, method.nodes[index]? = some node → ∃ point, flow[index]? = some point ∧
    node.action table = .ok point.action ∧
    ∀ target handler, (target, handler) ∈ point.handlers ↔ handler ∈ method.handlers ∧
      method.Protects handler index ∧ method.Places handler.handler target

theorem Method.flow_eq_ok {method : Method} {flow : Flow} :
    method.flow = .ok flow ↔ ∃ table actions handlers, method.labelTable = .ok table ∧
      List.Forall₂ (fun node action => node.action table = .ok action) method.nodes actions ∧
      List.Forall₂ (fun handler result => resolveHandler table handler = .ok result)
        method.handlers handlers ∧
      flow = actions.mapIdx fun index action => ⟨action, handlersAt handlers index⟩ := by
  simp only [Method.flow, bind_eq_ok, resolveActions_eq_ok, resolveHandlers_eq_ok, pure,
    Except.pure, Except.ok.injEq]
  constructor
  · rintro ⟨table, tabled, actions, resolved, handlers, covered, rfl⟩
    exact ⟨table, actions, handlers, tabled, resolved, covered, rfl⟩
  · rintro ⟨table, actions, handlers, tabled, resolved, covered, rfl⟩
    exact ⟨table, tabled, actions, resolved, handlers, covered, rfl⟩

private theorem protects_iff {method : Method} {table : LabelTable}
    (tabled : method.labelTable = .ok table) {handlers : List ResolvedHandler}
    (covered : List.Forall₂ (fun handler result => resolveHandler table handler = .ok result)
      method.handlers handlers) {index target : Nat} {handler : ExceptionHandler} :
    (target, handler) ∈ handlersAt handlers index ↔ handler ∈ method.handlers ∧
      method.Protects handler index ∧ method.Places handler.handler target := by
  have placed {label : Label} {index : Nat} : table.find? label = some index ↔ _ :=
    Method.find?_labelTable tabled
  rw [mem_handlersAt]
  constructor
  · rintro ⟨resolved, member, lower, upper, rfl, rfl⟩
    obtain ⟨position, inside, rfl⟩ := List.mem_iff_getElem.mp member
    have inside' : position < method.handlers.length := covered.length_eq ▸ inside
    obtain ⟨first, past, own, -, same⟩ :=
      resolveHandler_eq_ok.mp (covered.get inside' inside)
    simp only [List.get_eq_getElem] at first past own same
    rw [same]
    exact ⟨List.getElem_mem inside', ⟨_, _, placed.mp first, placed.mp past, lower, upper⟩,
      placed.mp own⟩
  · rintro ⟨member, ⟨first, past, placed₁, placed₂, lower, upper⟩, placed₃⟩
    obtain ⟨position, inside', rfl⟩ := List.mem_iff_getElem.mp member
    have inside : position < handlers.length := covered.length_eq ▸ inside'
    obtain ⟨first', past', own, -, same⟩ :=
      resolveHandler_eq_ok.mp (covered.get inside' inside)
    simp only [List.get_eq_getElem] at first' past' own same
    refine ⟨handlers[position], List.getElem_mem inside, ?_, ?_, ?_, same⟩
    · cases first'.symm.trans (placed.mpr placed₁)
      exact lower
    · cases past'.symm.trans (placed.mpr placed₂)
      exact upper
    · exact Option.some.inj (own.symm.trans (placed.mpr placed₃))

/-- The points of a method are its nodes, with labels resolved to where they stand. -/
theorem Method.resolved_of_flow {method : Method} {flow : Flow} (flowed : method.flow = .ok flow) :
    ∃ table, method.Resolved table flow := by
  obtain ⟨table, actions, handlers, tabled, resolved, covered, rfl⟩ := Method.flow_eq_ok.mp flowed
  refine ⟨table, fun label index => Method.find?_labelTable tabled,
    by simpa using resolved.length_eq.symm, fun handler member => ?_, fun index node found => ?_⟩
  · obtain ⟨position, inside, rfl⟩ := List.mem_iff_getElem.mp member
    have inside' : position < handlers.length := covered.length_eq ▸ inside
    obtain ⟨-, -, target, -⟩ := resolveHandler_eq_ok.mp (covered.get inside inside')
    exact ⟨_, (Method.find?_labelTable tabled).mp target⟩
  obtain ⟨inside, rfl⟩ := List.getElem?_eq_some_iff.mp found
  have inside' : index < actions.length := resolved.length_eq ▸ inside
  refine ⟨⟨actions[index], handlersAt handlers index⟩, ?_, resolved.get inside inside',
    fun target handler => protects_iff tabled covered⟩
  rw [List.getElem?_mapIdx, List.getElem?_eq_getElem inside']
  rfl

theorem Method.Resolved.node_of_point {method : Method} {table : LabelTable} {flow : Flow}
    (resolved : method.Resolved table flow) {index : Nat} {point : Point}
    (pointed : flow[index]? = some point) :
    ∃ node, method.nodes[index]? = some node ∧ node.action table = .ok point.action ∧
      ∀ target handler, (target, handler) ∈ point.handlers ↔ handler ∈ method.handlers ∧
        method.Protects handler index ∧ method.Places handler.handler target := by
  obtain ⟨inside, -⟩ := List.getElem?_eq_some_iff.mp pointed
  have found := List.getElem?_eq_getElem (resolved.length ▸ inside)
  obtain ⟨point', pointed', actioned, handlers⟩ := resolved.points index _ found
  cases pointed.symm.trans pointed'
  exact ⟨_, found, actioned, handlers⟩

theorem Node.branch_of_action {table : LabelTable} {node : Node} {labelled : Branch Label}
    {renamed : Branch Nat} (actioned : node.action table = .ok (.branch labelled renamed)) :
    node = .branch labelled ∧ labelled.mapLabels table.resolve = .ok renamed := by
  rcases node with label | line | (i | b)
  case operation.branch =>
    obtain ⟨_, mapped, same⟩ := bind_eq_ok.mp actioned
    cases same
    exact ⟨rfl, mapped⟩
  all_goals cases actioned

theorem Node.jsr_of_action {table : LabelTable} {node : Node} {labelled : Branch Label}
    {target : Nat} (actioned : node.action table = .ok (.branch labelled (.jsr target))) :
    ∃ label, node = .branch (.jsr label) := by
  obtain ⟨rfl, mapped⟩ := Node.branch_of_action actioned
  cases labelled with
  | jsr label => exact ⟨label, rfl⟩
  | _ => simp [Branch.mapLabels, bind_eq_ok, pure, Except.pure] at mapped

theorem Node.ret_of_action {table : LabelTable} {node : Node} {labelled : Branch Label}
    {slot : Nat} (actioned : node.action table = .ok (.branch labelled (.ret slot))) :
    node = .branch (.ret slot) := by
  obtain ⟨rfl, mapped⟩ := Node.branch_of_action actioned
  cases labelled with
  | ret own =>
    cases mapped
    rfl
  | _ => simp [Branch.mapLabels, bind_eq_ok, pure, Except.pure] at mapped

/-- A point where a subroutine is left executes its `ret`. -/
theorem Method.Resolved.labelled_of_ret {method : Method} {table : LabelTable} {flow : Flow}
    (resolved : method.Resolved table flow) {index slot : Nat} {labelled : Branch Label}
    {handlers : List (Nat × ExceptionHandler)}
    (pointed : flow[index]? = some ⟨.branch labelled (.ret slot), handlers⟩) :
    labelled = .ret slot := by
  obtain ⟨node, -, actioned, -⟩ := resolved.node_of_point pointed
  obtain ⟨stands, -⟩ := Node.branch_of_action actioned
  cases stands.symm.trans (Node.ret_of_action actioned)
  rfl

theorem Method.parameterSlots_le (method : Method) : method.parameterSlots ≤ method.neededLocals :=
  Nat.le_of_not_lt fun more => Nat.lt_irrefl _ (lt_foldl_max.mpr (.inl more))

/-- The locals that a method needs reach as far as each of its nodes does. -/
theorem Method.localsEnd_le {method : Method} {node : Node} {past : Nat}
    (member : node ∈ method.nodes) (ends : node.localsEnd? = some past) :
    past ≤ method.neededLocals := by
  refine Nat.le_of_not_lt fun more => Nat.lt_irrefl _ (lt_foldl_max.mpr (.inr ⟨past, ?_, more⟩))
  exact List.mem_filterMap.mpr ⟨node, member, ends⟩

/-- A method without calls of subroutines. -/
def Method.HasNoCall (method : Method) : Prop :=
  ∀ label, .branch (.jsr label) ∉ method.nodes

/-- A method without returns from subroutines. -/
def Method.HasNoReturn (method : Method) : Prop :=
  ∀ slot, .branch (.ret slot) ∉ method.nodes

/-- Does control go on only to the successors of the action? -/
def Action.isPlain : Action → Bool
  | .branch _ (.jsr _) | .branch _ (.ret _) => false
  | _ => true

theorem Action.plain_of_ne {action : Action}
    (notCall : ∀ labelled target, action ≠ .branch labelled (.jsr target))
    (notReturn : ∀ labelled slot, action ≠ .branch labelled (.ret slot)) : action.isPlain = true := by
  unfold isPlain
  split
  · exact absurd rfl (notCall _ _)
  · exact absurd rfl (notReturn _ _)
  · rfl

theorem Node.plain_of_action {table : LabelTable} {node : Node} {action : Action}
    (actioned : node.action table = .ok action) (notCall : ∀ label, node ≠ .branch (.jsr label))
    (notReturn : ∀ slot, node ≠ .branch (.ret slot)) : action.isPlain = true := by
  apply Action.plain_of_ne
  · rintro labelled target rfl
    obtain ⟨label, called⟩ := Node.jsr_of_action actioned
    exact notCall label called
  · rintro labelled slot rfl
    exact notReturn slot (Node.ret_of_action actioned)

namespace Method.Resolved

variable {method : Method} {table : LabelTable} {flow : Flow} {index target : Nat} {node : Node}
  {action : Action}

theorem jumps_of_plain {labelled : Branch Label} {resolved : Branch Nat}
    (plain : (Action.branch labelled resolved).isPlain = true) :
    (Action.branch labelled resolved).jumps = resolved.jumpTargets := by
  cases resolved with
  | jsr | ret => cases plain
  | _ => rfl

theorem target_of_label (resolved : method.Resolved table flow) {b : Branch Label}
    {renamed : Branch Nat} (mapped : b.mapLabels table.resolve = .ok renamed) {label : Label}
    (jumps : label ∈ b.jumpTargets) :
    ∃ target ∈ renamed.jumpTargets, method.Places label target := by
  obtain ⟨position, inside, rfl⟩ := List.mem_iff_getElem.mp jumps
  have paired := (Branch.mapLabels_spec mapped).2
  have inside' : position < renamed.jumpTargets.length := paired.length_eq ▸ inside
  refine ⟨renamed.jumpTargets[position], List.getElem_mem inside', ?_⟩
  exact (resolved.labels _ _).mp (LabelTable.resolve_eq_ok.mp (paired.get inside inside'))

theorem label_of_target (resolved : method.Resolved table flow) {b : Branch Label}
    {renamed : Branch Nat} (mapped : b.mapLabels table.resolve = .ok renamed)
    (jumps : target ∈ renamed.jumpTargets) :
    ∃ label ∈ b.jumpTargets, method.Places label target := by
  obtain ⟨position, inside', rfl⟩ := List.mem_iff_getElem.mp jumps
  have paired := (Branch.mapLabels_spec mapped).2
  have inside : position < b.jumpTargets.length := paired.length_eq ▸ inside'
  refine ⟨b.jumpTargets[position], List.getElem_mem inside, ?_⟩
  exact (resolved.labels _ _).mp (LabelTable.resolve_eq_ok.mp (paired.get inside inside'))

theorem places_unique {label : Label} {other : Nat} (resolved : method.Resolved table flow)
    (placed : method.Places label target) (placed' : method.Places label other) :
    target = other := by
  rw [← resolved.labels] at placed placed'
  exact Option.some.inj (placed.symm.trans placed')

/-- Control that can go on to an index goes on to a successor, or into a subroutine. -/
theorem successor_of_leads (resolved : method.Resolved table flow)
    (found : method.nodes[index]? = some node) (actioned : node.action table = .ok action)
    (leads : method.Leads index target) :
    (∃ labelled, action = .branch labelled (.jsr target)) ∨
      (action.isPlain = true ∧ target ∈ action.successors index) := by
  rcases node with label | line | (i | b)
  case operation.branch =>
    obtain ⟨renamed, mapped, same⟩ := bind_eq_ok.mp actioned
    cases same
    have falls := (Branch.mapLabels_spec mapped).1
    cases leads with
    | next found' falls' =>
      cases found.symm.trans found'
      rw [show Node.fallsThrough _ = b.fallsThrough from rfl, ← falls] at falls'
      right
      cases renamed <;> simp_all [Action.isPlain, Action.successors, Action.fallsThrough,
        Branch.fallsThrough]
    | jump found' jumps placed =>
      cases found.symm.trans found'
      obtain ⟨target', member, placed'⟩ := resolved.target_of_label mapped jumps
      cases resolved.places_unique placed placed'
      cases plain : (Action.branch b renamed).isPlain with
      | true =>
        refine .inr ⟨rfl, List.mem_append.mpr (.inr ?_)⟩
        rw [jumps_of_plain plain]
        exact member
      | false =>
        left
        cases renamed with
        | jsr target' =>
          cases List.mem_singleton.mp member
          exact ⟨b, rfl⟩
        | ret => cases member
        | _ => cases plain
  all_goals
    cases actioned
    cases leads with
    | next => exact .inr ⟨rfl, by simp [Action.successors, Action.fallsThrough]⟩
    | jump found' jumps =>
      cases found.symm.trans found'
      cases jumps

theorem leads_of_successor (resolved : method.Resolved table flow)
    (found : method.nodes[index]? = some node) (actioned : node.action table = .ok action)
    (plain : action.isPlain = true) (successor : target ∈ action.successors index) :
    method.Leads index target := by
  rcases node with label | line | (i | b)
  case operation.branch =>
    obtain ⟨renamed, mapped, same⟩ := bind_eq_ok.mp actioned
    cases same
    rw [Action.successors, List.mem_append, jumps_of_plain plain] at successor
    rcases successor with next | jump
    · split at next
      · rename_i falls
        cases List.mem_singleton.mp next
        apply Leads.next found
        rw [show Node.fallsThrough _ = b.fallsThrough from rfl, ← (Branch.mapLabels_spec mapped).1]
        exact falls
      · cases next
    · obtain ⟨label, member, placed⟩ := resolved.label_of_target mapped jump
      exact .jump found member placed
  all_goals
    cases actioned
    simp only [Action.successors, Action.fallsThrough, Action.jumps, ↓reduceIte, List.append_nil,
      List.mem_singleton] at successor
    cases successor
    exact .next found rfl

theorem target_placed (resolved : method.Resolved table flow)
    (actioned : node.action table = .ok action) {label : Label} (jumps : label ∈ node.targets) :
    ∃ target, method.Places label target := by
  rcases node with label | line | (i | b)
  case operation.branch =>
    obtain ⟨renamed, mapped, -⟩ := bind_eq_ok.mp actioned
    obtain ⟨target, -, placed⟩ := resolved.target_of_label mapped jumps
    exact ⟨target, placed⟩
  all_goals cases jumps

end Method.Resolved

end MethodFlow
