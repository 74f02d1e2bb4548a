import MethodFlow.Proofs.Code.Resolution
import MethodFlow.Proofs.Failing

namespace MethodFlow

/-- A fault that speaks of labels or of the ranges between them. -/
def Fault.isOfLabels : Fault → Bool
  | .undefinedLabel _ | .duplicateLabel _ | .invalidHandlerRange => true
  | _ => false

theorem mapM_failsOnly {ε α β : Type} {allowed : ε → Prop} {rename : α → Except ε β}
    {values : List α} (renames : ∀ value ∈ values, FailsOnly allowed (rename value)) :
    FailsOnly allowed (values.mapM rename) := by
  induction values with
  | nil => exact .ok _
  | cons value rest ih =>
    rw [List.forall_mem_cons] at renames
    rw [List.mapM_cons]
    exact renames.1.andThen fun _ => (ih renames.2).andThen fun _ => .ok _

theorem Branch.mapLabels_failsOnly {L M ε : Type} {allowed : ε → Prop} {rename : L → Except ε M}
    (renames : ∀ label, FailsOnly allowed (rename label)) (b : Branch L) :
    FailsOnly allowed (b.mapLabels rename) := by
  cases b with
  | ifZero | ifInts | ifReferences | ifNull | goto | jsr =>
    exact (renames _).andThen fun _ => .ok _
  | tableSwitch default low targets =>
    exact (renames _).andThen fun _ =>
      (mapM_failsOnly fun label _ => renames label).andThen fun _ => .ok _
  | lookupSwitch default targets =>
    refine (renames _).andThen fun _ => FailsOnly.andThen ?_ fun _ => .ok _
    exact mapM_failsOnly fun entry _ => (renames entry.2).andThen fun _ => .ok _
  | valueReturn | voidReturn | throw | ret => exact .ok _

namespace LabelTable

variable {table : LabelTable}

theorem resolve_failsOnly (label : Label) :
    FailsOnly (fun fault => fault.isOfLabels = true) (table.resolve label) := by
  unfold resolve
  split
  · exact .ok _
  · exact .error rfl

end LabelTable

theorem locate_failsOnly {α : Type} {allowed : Fault → Prop} {index : Nat} {outcome : Except Fault α}
    (failsOnly : FailsOnly allowed outcome) :
    FailsOnly (fun located => allowed located.fault) (locate index outcome) := by
  cases outcome with
  | ok value => exact .ok value
  | error fault => exact .error (failsOnly.allows fault rfl)

theorem Node.action_failsOnly {table : LabelTable} (node : Node) :
    FailsOnly (fun fault => fault.isOfLabels = true) (node.action table) := by
  rcases node with label | line | (i | b)
  case operation.branch =>
    exact (b.mapLabels_failsOnly LabelTable.resolve_failsOnly).andThen fun _ => .ok _
  all_goals exact .ok _

namespace Method

theorem placeLabels_failsOnly {table : LabelTable} {index : Nat} {nodes : List Node} :
    FailsOnly (fun located => located.fault.isOfLabels = true) (placeLabels table index nodes) := by
  induction nodes generalizing table index with
  | nil => exact .ok _
  | cons node rest ih =>
    unfold placeLabels
    split
    · exact ih
    · split
      · exact .error rfl
      · exact ih

theorem flow_failsOnly (method : Method) :
    FailsOnly (fun located => located.fault.isOfLabels = true) method.flow := by
  have actions (table : LabelTable) (index : Nat) (nodes : List Node) :
      FailsOnly (fun located => located.fault.isOfLabels = true)
        (resolveActions table index nodes) := by
    induction nodes generalizing index with
    | nil => exact .ok _
    | cons node rest ih =>
      exact (locate_failsOnly node.action_failsOnly).andThen fun _ =>
        (ih (index + 1)).andThen fun _ => .ok _
  have handlers (table : LabelTable) (handlers : List ExceptionHandler) :
      FailsOnly (fun located => located.fault.isOfLabels = true)
        (resolveHandlers table handlers) := by
    induction handlers with
    | nil => exact .ok _
    | cons handler rest ih =>
      have resolving : FailsOnly (fun fault => fault.isOfLabels = true)
          (resolveHandler table handler) := by
        refine (LabelTable.resolve_failsOnly _).andThen fun first =>
          (LabelTable.resolve_failsOnly _).andThen fun past =>
            (LabelTable.resolve_failsOnly _).andThen fun target => ?_
        split
        · exact .error rfl
        · exact .ok _
      exact (locate_failsOnly resolving).andThen fun _ => ih.andThen fun _ => .ok _
  exact placeLabels_failsOnly.andThen fun table => (actions table 0 _).andThen fun _ =>
    (handlers table _).andThen fun _ => .ok _

end Method

end MethodFlow
