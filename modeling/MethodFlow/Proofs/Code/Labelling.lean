import MethodFlow.Proofs.Code.Resolution

namespace MethodFlow

/-- Every label has one place, every label that is used has one, and ranges are ordered. -/
structure Method.Labelled (method : Method) : Prop where
  once : ∀ label first second, method.Places label first → method.Places label second →
    first = second
  targets : ∀ node ∈ method.nodes, ∀ label ∈ node.targets, ∃ target, method.Places label target
  handlers : ∀ handler ∈ method.handlers, ∃ first past target, method.Places handler.first first ∧
    method.Places handler.past past ∧ method.Places handler.handler target ∧ first ≤ past

theorem Method.placeLabels_ok {nodes : List Node} {index : Nat} {table : LabelTable}
    (fresh : ∀ label, .label label ∈ nodes → table.find? label = none)
    (once : nodes.Pairwise fun first second => ∀ label, first = .label label →
      second ≠ .label label) : ∃ placed, placeLabels table index nodes = .ok placed := by
  induction nodes generalizing index table with
  | nil => exact ⟨table, rfl⟩
  | cons node rest ih =>
    obtain ⟨apart, once'⟩ := List.pairwise_cons.mp once
    cases node with
    | label own =>
      have absent := fresh own List.mem_cons_self
      obtain ⟨placed, tabled⟩ : ∃ placed,
          placeLabels (table ++ [(own, index)]) (index + 1) rest = .ok placed := by
        refine ih (fun label member => ?_) once'
        rw [Option.eq_none_iff_forall_ne_some]
        intro position found
        rcases (LabelTable.find?_concat absent).mp found with earlier | ⟨rfl, -⟩
        · rw [fresh label (List.mem_cons_of_mem _ member)] at earlier
          cases earlier
        · exact apart _ member label rfl rfl
      exact ⟨placed, by simpa [placeLabels, Node.label?, absent] using tabled⟩
    | line | operation =>
      obtain ⟨placed, tabled⟩ : ∃ placed, placeLabels table (index + 1) rest = .ok placed :=
        ih (fun label member => fresh label (List.mem_cons_of_mem _ member)) once'
      exact ⟨placed, by simpa [placeLabels, Node.label?] using tabled⟩

theorem mapM_ok {ε α β : Type} {rename : α → Except ε β} {values : List α}
    (total : ∀ value ∈ values, ∃ result, rename value = .ok result) :
    ∃ renamed, values.mapM rename = .ok renamed := by
  induction values with
  | nil => exact ⟨[], rfl⟩
  | cons value rest ih =>
    rw [List.forall_mem_cons] at total
    obtain ⟨result, first⟩ := total.1
    obtain ⟨results, others⟩ := ih total.2
    exact ⟨result :: results, by simp [first, others, bind, Except.bind, pure, Except.pure]⟩

theorem Branch.mapLabels_ok {L M ε : Type} {rename : L → Except ε M} {b : Branch L}
    (total : ∀ target ∈ b.jumpTargets, ∃ result, rename target = .ok result) :
    ∃ renamed, b.mapLabels rename = .ok renamed := by
  cases b with
  | ifZero _ target | ifInts _ target | ifReferences _ target | ifNull _ target | goto target
  | jsr target =>
    obtain ⟨result, found⟩ := total target List.mem_cons_self
    exact ⟨_, bind_eq_ok.mpr ⟨result, found, rfl⟩⟩
  | tableSwitch default low targets =>
    rw [Branch.jumpTargets, List.forall_mem_cons] at total
    obtain ⟨result, found⟩ := total.1
    obtain ⟨results, others⟩ := mapM_ok total.2
    exact ⟨_, bind_eq_ok.mpr ⟨result, found, bind_eq_ok.mpr ⟨results, others, rfl⟩⟩⟩
  | lookupSwitch default targets =>
    rw [Branch.jumpTargets, List.forall_mem_cons] at total
    obtain ⟨result, found⟩ := total.1
    obtain ⟨results, others⟩ : ∃ results,
        (targets.mapM fun entry => do return (entry.1, ← rename entry.2)) = .ok results := by
      refine mapM_ok fun entry member => ?_
      obtain ⟨result, found⟩ := total.2 entry.2 (List.mem_map_of_mem member)
      exact ⟨_, bind_eq_ok.mpr ⟨result, found, rfl⟩⟩
    exact ⟨_, bind_eq_ok.mpr ⟨result, found, bind_eq_ok.mpr ⟨results, others, rfl⟩⟩⟩
  | valueReturn | voidReturn | throw | ret => exact ⟨_, rfl⟩

private theorem forall₂_of_total {α β : Type} {related : α → β → Prop} {values : List α}
    (total : ∀ value ∈ values, ∃ result, related value result) :
    ∃ results, List.Forall₂ related values results := by
  induction values with
  | nil => exact ⟨[], .nil⟩
  | cons value rest ih =>
    rw [List.forall_mem_cons] at total
    obtain ⟨result, first⟩ := total.1
    obtain ⟨results, others⟩ := ih total.2
    exact ⟨result :: results, .cons first others⟩

theorem Method.labelTable_ok {method : Method}
    (once : ∀ label first second, method.Places label first → method.Places label second →
      first = second) : ∃ table, method.labelTable = .ok table := by
  have once' : method.nodes.Pairwise fun first second => ∀ label, first = .label label →
      second ≠ .label label := by
    rw [List.pairwise_iff_getElem]
    intro first second inside inside' before label here there
    have same := once label first second
      ((List.getElem?_eq_getElem inside).trans (congrArg some here))
      ((List.getElem?_eq_getElem inside').trans (congrArg some there))
    omega
  exact Method.placeLabels_ok (fun label _ => rfl) once'

theorem Method.actions_ok {method : Method} {table : LabelTable}
    (tabled : method.labelTable = .ok table)
    (targets : ∀ node ∈ method.nodes, ∀ label ∈ node.targets, ∃ target, method.Places label target) :
    ∃ actions,
      List.Forall₂ (fun node action => node.action table = .ok action) method.nodes actions := by
  refine forall₂_of_total fun node member => ?_
  rcases node with label | line | (i | b)
  case operation.branch =>
    obtain ⟨renamed, mapped⟩ := Branch.mapLabels_ok fun label used => by
      obtain ⟨target, placed⟩ := targets _ member label used
      exact ⟨target, LabelTable.resolve_eq_ok.mpr ((Method.find?_labelTable tabled).mpr placed)⟩
    exact ⟨_, bind_eq_ok.mpr ⟨renamed, mapped, rfl⟩⟩
  all_goals exact ⟨_, rfl⟩

/-- The control flow of a method can be resolved where its labels and ranges are in order. -/
theorem Method.Labelled.flow_ok {method : Method} (labelled : method.Labelled) :
    ∃ flow, method.flow = .ok flow := by
  obtain ⟨table, tabled⟩ : ∃ table, method.labelTable = .ok table :=
    Method.labelTable_ok labelled.once
  have resolve {label : Label} {target : Nat} (placed : method.Places label target) :
      table.find? label = some target := (Method.find?_labelTable tabled).mpr placed
  obtain ⟨actions, resolved⟩ : ∃ actions,
      List.Forall₂ (fun node action => node.action table = .ok action) method.nodes actions :=
    Method.actions_ok tabled labelled.targets
  obtain ⟨handlers, covered⟩ : ∃ handlers,
      List.Forall₂ (fun handler result => resolveHandler table handler = .ok result)
        method.handlers handlers := by
    refine forall₂_of_total fun handler member => ?_
    obtain ⟨first, past, target, placed, placed', placed'', ordered⟩ :=
      labelled.handlers handler member
    exact ⟨⟨first, past, target, handler⟩, resolveHandler_eq_ok.mpr
      ⟨resolve placed, resolve placed', resolve placed'', ordered, rfl⟩⟩
  exact ⟨_, Method.flow_eq_ok.mpr ⟨table, actions, handlers, tabled, resolved, covered, rfl⟩⟩

/-- The labels and ranges of a method whose control flow was resolved are in order. -/
theorem Method.labelled_of_flow {method : Method} {flow : Flow} (flowed : method.flow = .ok flow) :
    method.Labelled := by
  obtain ⟨table, resolved⟩ := Method.resolved_of_flow flowed
  obtain ⟨_, actions, handlers, tabled, -, covered, -⟩ := Method.flow_eq_ok.mp flowed
  refine ⟨fun label first second => resolved.places_unique, fun node member label used => ?_,
    fun handler member => ?_⟩
  · obtain ⟨index, found⟩ := List.mem_iff_getElem?.mp member
    obtain ⟨point, -, actioned, -⟩ := resolved.points index node found
    exact resolved.target_placed actioned used
  · obtain ⟨position, inside, rfl⟩ := List.mem_iff_getElem.mp member
    have inside' : position < handlers.length := covered.length_eq ▸ inside
    obtain ⟨first, past, target, ordered, -⟩ :=
      resolveHandler_eq_ok.mp (covered.get inside inside')
    have placed {label : Label} {index : Nat} : _ → method.Places label index :=
      (Method.find?_labelTable tabled).mp
    exact ⟨_, _, _, placed first, placed past, placed target, ordered⟩

end MethodFlow
