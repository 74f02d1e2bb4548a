import MethodFlow.Proofs.Frame.Execution

namespace MethodFlow

/-- What the frames of one analysis have in common. -/
structure FrameShape (V : Type) where
  maxLocals : Nat
  maxStack : Option Nat
  returnValue : Option V

namespace Frame

variable {V : Type} [AbstractValue V]

/-- A frame of a shape, with every entry of its stack in its place. -/
structure HasShape (shape : FrameShape V) (frame : Frame V) : Prop where
  locals : frame.locals.length = shape.maxLocals
  placed : frame.stack.Placed
  maxStack : frame.maxStack = shape.maxStack
  returnValue : frame.returnValue = shape.returnValue

/-- A frame of a shape whose stack is within the bound. -/
structure Fits (shape : FrameShape V) (frame : Frame V) : Prop extends HasShape shape frame where
  within : ∀ bound, shape.maxStack = some bound → frame.stackSlots ≤ bound

structure Holds (holds : V → Prop) (frame : Frame V) : Prop where
  locals : ∀ value ∈ frame.locals, holds value
  stack : ∀ value ∈ frame.stackValues, holds value

variable {shape : FrameShape V} {holds : V → Prop}

theorem HasShape.stackSlots_eq {frame : Frame V} (shaped : frame.HasShape shape) :
    frame.stackSlots = (frame.stackValues.map width).sum :=
  shaped.placed.slots_eq

theorem HasShape.ext {frame other : Frame V} (shaped : frame.HasShape shape)
    (shaped' : other.HasShape shape) (locals : frame.locals = other.locals)
    (values : frame.stackValues = other.stackValues) : frame = other := by
  obtain ⟨ownLocals, stack, maxStack, returnValue⟩ := frame
  obtain ⟨otherLocals, stack', maxStack', returnValue'⟩ := other
  have placed : stack = SlotVec.ofList stack.toList := shaped.placed
  have placed' : stack' = SlotVec.ofList stack'.toList := shaped'.placed
  have same : stack = stack' := by
    rw [placed, placed']
    exact congrArg SlotVec.ofList values
  have bounds : maxStack = maxStack' := shaped.maxStack.trans shaped'.maxStack.symm
  have results : returnValue = returnValue' := shaped.returnValue.trans shaped'.returnValue.symm
  have locals' : ownLocals = otherLocals := locals
  subst same bounds results locals'
  rfl

omit [AbstractValue V] in
theorem stackValues_pop {frame rest : Frame V} {value : V}
    (popped : frame.pop = .ok (value, rest)) :
    frame.stackValues = rest.stackValues ++ [value] := by
  obtain ⟨stack, taken, rfl⟩ := pop_eq_ok.mp popped
  exact SlotVec.toList_pop? taken

theorem stackValues_push {frame after : Frame V} {value : V}
    (pushed : frame.push value = .ok after) :
    after.stackValues = frame.stackValues ++ [value] := by
  obtain ⟨rfl, _⟩ := push_eq_ok.mp pushed
  exact SlotVec.toList_push _ _

theorem fits_invariant (shape : FrameShape V) (holds : V → Prop) :
    Invariant holds (fun frame => frame.Fits shape ∧ frame.Holds holds) where
  pop := by
    rintro frame value rest ⟨fits, fine⟩ popped
    have values := stackValues_pop popped
    obtain ⟨stack, taken, rfl⟩ := pop_eq_ok.mp popped
    have placed : stack.Placed := fits.placed.pop? taken
    refine ⟨fine.stack value (by simp [values]),
      ⟨⟨fits.locals, placed, fits.maxStack, fits.returnValue⟩, fun bound declared => ?_⟩,
      ⟨fine.locals, fun other member => fine.stack other (by simp [values, member])⟩⟩
    have bounded := fits.within bound declared
    rw [fits.stackSlots_eq, values] at bounded
    have slots : stack.slots = (stack.toList.map width).sum := placed.slots_eq
    simp only [stackValues, List.map_append, List.sum_append] at bounded
    simp only [stackSlots, slots]
    omega
  push := by
    rintro frame value after ⟨fits, fine⟩ operand pushed
    have values := stackValues_push pushed
    obtain ⟨rfl, room⟩ := push_eq_ok.mp pushed
    refine ⟨⟨⟨fits.locals, fits.placed.push value, fits.maxStack, fits.returnValue⟩,
      fun bound declared => room bound (fits.maxStack.trans declared)⟩, ⟨fine.locals, ?_⟩⟩
    intro other member
    rw [values, List.mem_append, List.mem_singleton] at member
    rcases member with below | rfl
    · exact fine.stack other below
    · exact operand
  read := by
    rintro frame slot value ⟨_, fine⟩ read
    exact fine.locals value (List.mem_of_getElem? (local?_eq_ok.mp read))
  write := by
    rintro frame slot value after ⟨fits, fine⟩ operand written
    obtain ⟨_, rfl⟩ := setLocal_eq_ok.mp written
    refine ⟨⟨⟨?_, fits.placed, fits.maxStack, fits.returnValue⟩, fits.within⟩, ⟨?_, fine.stack⟩⟩
    · simpa using fits.locals
    · intro other member
      rcases List.mem_or_eq_of_mem_set member with old | rfl
      · exact fine.locals other old
      · exact operand

theorem Fits.execute {domain : Domain V} {site : Site} {frame after : Frame V}
    (fits : frame.Fits shape) (executed : frame.execute domain site = .ok after) :
    after.Fits shape := by
  exact ((fits_invariant shape fun _ => True).execute (domain.closedAt_true site)
    ⟨fits, ⟨fun _ _ => trivial, fun _ _ => trivial⟩⟩ executed).1

theorem placed_invariant :
    Invariant (fun _ : V => True) (fun frame : Frame V => frame.stack.Placed) where
  pop := by
    intro frame value rest placed popped
    obtain ⟨stack, taken, rfl⟩ := pop_eq_ok.mp popped
    exact ⟨trivial, placed.pop? taken⟩
  push := by
    intro frame value after placed _ pushed
    obtain ⟨rfl, -⟩ := push_eq_ok.mp pushed
    exact placed.push value
  read _ _ := trivial
  write := by
    intro frame slot value after placed _ written
    obtain ⟨-, rfl⟩ := setLocal_eq_ok.mp written
    exact placed

/-- Whatever the shape and the bound, entries stay in their places. -/
theorem placed_execute {domain : Domain V} {site : Site} {frame after : Frame V}
    (placed : frame.stack.Placed) (executed : frame.execute domain site = .ok after) :
    after.stack.Placed :=
  placed_invariant.execute (domain.closedAt_true site) placed executed

theorem Fits.push {frame after : Frame V} {value : V} (fits : frame.Fits shape)
    (pushed : frame.push value = .ok after) : after.Fits shape :=
  ((fits_invariant shape fun _ => True).push
    ⟨fits, ⟨fun _ _ => trivial, fun _ _ => trivial⟩⟩ trivial pushed).1

theorem Fits.clearStack {frame : Frame V} (fits : frame.Fits shape) :
    frame.clearStack.Fits shape :=
  ⟨⟨fits.locals, SlotVec.placed_ofList [], fits.maxStack, fits.returnValue⟩,
    fun _ _ => Nat.zero_le _⟩

theorem Holds.execute {domain : Domain V} {site : Site} {frame after : Frame V}
    (fine : frame.Holds holds) (fits : frame.Fits shape) (closed : domain.ClosedAt site holds)
    (executed : frame.execute domain site = .ok after) : after.Holds holds :=
  ((fits_invariant shape holds).execute closed ⟨fits, fine⟩ executed).2

end Frame

end MethodFlow
