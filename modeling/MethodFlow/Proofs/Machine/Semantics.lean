import MethodFlow.Proofs.Analysis.Separation
import MethodFlow.Proofs.Analysis.Values

/-! A machine that runs the code of a method. It knows data by kind only, and goes wherever some data
of the kind might take it; return addresses are values that tell where a `ret` goes. -/

namespace MethodFlow

/-- A value of the machine: some data of a kind, or the index that a `ret` goes back to. -/
inductive MachineValue where
  | data (kind : ValueKind)
  | address (target : Nat)
deriving DecidableEq, Repr

namespace MachineValue

def width : MachineValue → Nat
  | data kind => kind.width
  | address _ => 1

def shown : MachineValue → String
  | data kind => kind.shown
  | address target => "@" ++ toString target

instance : AbstractValue MachineValue where
  width := width
  decEq := inferInstance
  shown := shown
  detail := shown

/-- Types as values of the machine at an index. A call there pushes the index after it. -/
def typesAt (index : Nat) : TypeValues MachineValue where
  valueOf type := data (ValueKind.types.valueOf type)
  null := data .reference
  returnAddress := address (index + 1)
  elementOf _ := .ok (data .reference)

end MachineValue

open MachineValue (typesAt)

/-- What the operations do to the values of the machine, which never meet. -/
def machine : Domain MachineValue :=
  { (typesAt 0).domain (fun first _ => .ok first) fun _ => 0 with
    produce := fun site => (typesAt site.index).produced site }

/-- Where the machine is, and what it has in locals and on the stack. -/
structure MachineState where
  index : Nat
  frame : Frame MachineValue

/-- The machine goes on from a node other than a `ret`, or throws an exception that is caught. -/
inductive Method.Proceeds (method : Method) (before : MachineState) : MachineState → Prop where
  | onward {node : Node} {after : Frame MachineValue} {target : Nat}
      (found : method.nodes[before.index]? = some node)
      (executed : node.effect machine before.index before.frame = .ok after)
      (leads : method.Leads before.index target) : Proceeds method before ⟨target, after⟩
  | caught {handler : ExceptionHandler} {after : Frame MachineValue} {target : Nat}
      (member : handler ∈ method.handlers) (protects : method.Protects handler before.index)
      (placed : method.Places handler.handler target)
      (pushed : before.frame.clearStack.push (machine.exception handler.caught) = .ok after) :
      Proceeds method before ⟨target, after⟩

/-- The machine goes to the address in the local of a `ret`. -/
structure Method.Returns (method : Method) (before after : MachineState) : Prop where
  held : ∃ slot, method.nodes[before.index]? = some (.branch (.ret slot)) ∧
    before.frame.locals[slot]? = some (.address after.index)
  unchanged : after.frame = before.frame

/-- A move of the machine. -/
inductive Method.Moves (method : Method) (before after : MachineState) : Prop where
  | proceeds (proceeds : method.Proceeds before after)
  | returns (returns : method.Returns before after)

/-- A move that respects subroutines: a `ret` goes back to a call of the only subroutine that it lies
in. -/
inductive Method.MovesWithin (method : Method) (before after : MachineState) : Prop where
  | proceeds (proceeds : method.Proceeds before after)
  | returns (returns : method.Returns before after) {call start : Nat}
      (past : after.index = call + 1) (calls : method.Calls call start)
      (alone : method.Alone (some start) before.index)

namespace TypeValues

variable {V : Type} {types : TypeValues V} {site : Site} {holds : V → Prop}

theorem holds_of_produced (typed : ∀ type, holds (types.valueOf type)) (null : holds types.null)
    (address : holds types.returnAddress) {value : V} (made : types.produced site = .ok value) :
    holds value := by
  unfold produced at made
  split at made
  · split at made
    · cases made
      exact null
    all_goals cases made
    all_goals exact typed _
  · cases made
    exact address
  · cases made

theorem holds_of_unaryResult (typed : ∀ type, holds (types.valueOf type)) {value : V}
    (made : types.unaryResult site = .ok (some value)) : holds value := by
  unfold unaryResult at made
  split at made <;> split at made
  all_goals cases made
  all_goals exact typed _

theorem holds_of_binaryResult (typed : ∀ type, holds (types.valueOf type))
    (element : ∀ {first value}, types.elementOf first = .ok value → holds value) {first value : V}
    (made : types.binaryResult site first = .ok (some value)) : holds value := by
  unfold binaryResult at made
  split at made <;> split at made
  · cases found : types.elementOf first with
    | error fault => simp [found, Except.map] at made
    | ok own =>
      rw [found] at made
      cases made
      exact element found
  all_goals cases made
  all_goals exact typed _

theorem holds_of_naryResult (typed : ∀ type, holds (types.valueOf type)) {value : V}
    (made : types.naryResult site = .ok (some value)) : holds value := by
  have result {type : Option FieldType} (some : type.map types.typed = .some value) :
      holds value := by
    obtain ⟨type, -, rfl⟩ := Option.map_eq_some_iff.mp some
    exact typed _
  unfold naryResult at made
  split at made
  · split at made
    · exact result (Except.ok.inj made)
    · exact result (Except.ok.inj made)
    · cases made
      exact typed _
    · cases made
  · cases made

end TypeValues

/-- Operations at an index keep what holds of all data and of the address after the index. -/
theorem machine_closedAt {index : Nat} {operation : Operation} {holds : MachineValue → Prop}
    (data : ∀ kind, holds (.data kind)) (address : holds (.address (index + 1))) :
    machine.ClosedAt ⟨index, operation⟩ holds where
  unusable := data _
  produce made := TypeValues.holds_of_produced (fun _ => data _) (data _) address made
  copy good copied := Except.ok.inj copied ▸ good
  unary _ made := TypeValues.holds_of_unaryResult (fun _ => data _) made
  binary _ _ made := by
    refine TypeValues.holds_of_binaryResult (fun _ => data _) ?_ made
    intro first value element
    cases element
    exact data _
  nary _ made := TypeValues.holds_of_naryResult (fun _ => data _) made

end MethodFlow
