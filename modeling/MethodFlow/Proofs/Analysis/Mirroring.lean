import MethodFlow.Proofs.Analysis.Running
import MethodFlow.Proofs.Frame.Mirroring

namespace MethodFlow

variable {V : Type} [AbstractValue V] {lost : Fault → Prop} {change : Frame V → Frame V}
  {domain domain' : Domain V}

/-- An analysis that stopped for a fault that is let go. -/
def Stopped.Lost (lost : Fault → Prop) (stopped : Stopped) : Prop :=
  ∃ located, stopped.failure = .fault located ∧ lost located.fault

/-- Merging frames in the second domain is merging them in the first one, with the frames changed. -/
structure Domain.Carries (lost : Fault → Prop) (change : Frame V → Frame V)
    (domain domain' : Domain V) : Prop where
  merge : ∀ frame other, Mirrors lost (Prod.map change id) (frame.merge domain other)
    ((change frame).merge domain' (change other))
  back : ∀ frame caller used,
    (change frame).mergeSubroutine (change caller) used = change (frame.mergeSubroutine caller used)

theorem Domain.Carries.of_values
    (merges : ∀ old new, Mirrors lost id (domain.merge old new) (domain'.merge old new)) :
    domain.Carries lost id domain' where
  merge frame other := by
    rw [Prod.map_id]
    exact Frame.merge_mirrors merges frame other
  back _ _ _ := rfl

/-- What the point at an index makes of a frame is carried over: the frame after its action, and those
that its handlers get. -/
structure Point.Carried (lost : Fault → Prop) (change : Frame V → Frame V)
    (domain domain' : Domain V) (index : Nat) (point : Point) (frame : Frame V) : Prop where
  effect : Mirrors lost change (point.action.effect domain index frame)
    (point.action.effect domain' index (change frame))
  caught : ∀ target handler, (target, handler) ∈ point.handlers →
    Mirrors lost change (frame.clearStack.push (domain.exception handler.caught))
      ((change frame).clearStack.push (domain'.exception handler.caught))

theorem Point.Carried.of_mirrored {index : Nat}
    (mirrored : ∀ operation, domain.MirroredAt lost domain' ⟨index, operation⟩) (point : Point)
    (frame : Frame V) :
    point.Carried lost id domain domain' index frame where
  effect := by
    rcases point.action.idle_or_executes with idle | ⟨operation, executes⟩
    · rw [idle]
      exact .same _
    · rw [executes, executes]
      exact Frame.execute_mirrors (mirrored operation)
  caught target handler _ := by
    rw [Domain.exception, Domain.exception, (mirrored (.instruction .nop)).valueOf]
    exact .same _

namespace AnalysisState

variable {flow : Flow} {maxLocals : Nat} {state start final : AnalysisState V} {index : Nat}

omit [AbstractValue V] in
/-- The state with its frames changed. -/
def recast (change : Frame V → Frame V) (state : AnalysisState V) : AnalysisState V :=
  { state with frames := state.frames.map (Option.map change) }

section Recast

omit [AbstractValue V]

@[simp] theorem recast_id (state : AnalysisState V) : state.recast id = state := by
  simp [recast]

@[simp] theorem frame?_recast (index : Nat) :
    (state.recast change).frame? index = (state.frame? index).map change := by
  unfold frame? recast
  rw [List.getElem?_map]
  cases state.frames[index]? <;> rfl

@[simp] theorem subroutine?_recast (index : Nat) :
    (state.recast change).subroutine? index = state.subroutine? index := rfl

theorem enqueue_recast (index : Nat) :
    (state.recast change).enqueue index = (state.enqueue index).recast change := by
  unfold enqueue recast
  split <;> rfl

theorem next?_recast :
    (state.recast change).next? =
      state.next?.map fun (index, popped) => (index, popped.recast change) := by
  unfold next? recast
  dsimp only
  split <;> rfl

theorem recast_initial (marks : Marks) (events : List Event) :
    (initial marks events : AnalysisState V).recast change = initial marks events := by
  simp [recast, initial]

theorem check_mirrors {α : Type} {change' : α → α} {first second : Except Fault α} (index : Nat)
    (mirrors : Mirrors lost change' first second) :
    Mirrors (Stopped.Lost lost) change' (state.check index first)
      ((state.recast change).check index second) := by
  rcases mirrors with rfl | ⟨fault, rfl, let_go⟩
  · cases first with
    | error fault => exact .error _
    | ok value => exact .ok value
  · exact .letGo ⟨fault.at index, rfl, let_go⟩

end Recast

theorem executeAction_mirrors {action : Action} {frame : Frame V}
    (effect : Mirrors lost change (action.effect domain index frame)
      (action.effect domain' index (change frame))) :
    Mirrors (Stopped.Lost lost) change (state.executeAction domain index action frame)
      ((state.recast change).executeAction domain' index action (change frame)) := by
  have executed (site : Site) (mirrors : Mirrors lost change (frame.execute domain site)
      ((change frame).execute domain' site)) :
      Mirrors (Stopped.Lost lost) change (state.execute domain site frame)
        ((state.recast change).execute domain' site (change frame)) := by
    unfold AnalysisState.execute
    rcases mirrors with same | ⟨fault, failed, let_go⟩
    · rw [same]
      cases frame.execute domain site with
      | error fault => exact .error _
      | ok after => exact .ok after
    · rw [failed]
      exact .letGo ⟨_, rfl, let_go⟩
  cases action with
  | idle => exact .ok frame
  | instruction i => exact executed _ effect
  | branch labelled resolved => exact executed _ effect

section Carried

variable (carries : domain.Carries lost change domain')

include carries

theorem joinFrame_mirrors (old : Option (Frame V)) (frame : Frame V) :
    Mirrors lost (Prod.map change id) (joinFrame domain old frame)
      (joinFrame domain' (old.map change) (change frame)) := by
  cases old with
  | none => exact .ok (frame, true)
  | some old => exact carries.merge old frame

theorem merge_mirrors (index : Nat) (frame : Frame V) (record : Option Subroutine) :
    Mirrors (Stopped.Lost lost) (recast change) (state.merge domain index frame record)
      ((state.recast change).merge domain' index (change frame) record) := by
  unfold merge
  have length : (state.recast change).frames.length = state.frames.length := by simp [recast]
  rw [length, frame?_recast, subroutine?_recast]
  split
  · refine (check_mirrors index (joinFrame_mirrors carries _ frame)).bind
      fun (merged, changed) _ => .inl ?_
    cases flag : changed || (joinSubroutine (state.subroutine? index) record).2 <;>
      simp only [Prod.map, id, flag, pure, Except.pure, Except.map, Bool.false_eq_true, if_false,
        if_true, Except.ok.injEq]
    · simp [recast, List.map_set]
    · rw [← enqueue_recast]
      simp [recast, report, List.map_set]
  · exact .error _

theorem mergeAll_mirrors (frame : Frame V) (record : Option Subroutine) (targets : List Nat) :
    Mirrors (Stopped.Lost lost) (recast change) (state.mergeAll domain frame record targets)
      ((state.recast change).mergeAll domain' (change frame) record targets) := by
  induction targets generalizing state with
  | nil => exact .ok state
  | cons target rest ih => exact (merge_mirrors carries _ _ _).bind fun _ _ => ih

theorem enter_mirrors (target : Nat) (frame : Frame V) :
    Mirrors (Stopped.Lost lost) (recast change) (state.enter domain maxLocals index target frame)
      ((state.recast change).enter domain' maxLocals index target (change frame)) := by
  refine (merge_mirrors carries _ _ _).bind fun next _ => .inl ?_
  have queued (targets : List Nat) (next : AnalysisState V) :
      targets.foldl enqueue (next.recast change) = (targets.foldl enqueue next).recast change := by
    induction targets generalizing next with
    | nil => rfl
    | cons target rest ih => rw [List.foldl_cons, List.foldl_cons, enqueue_recast, ih]
  exact congrArg Except.ok (queued _ next)

theorem leaveTo_mirrors (frame : Frame V) (used : List Bool) (callers : List Nat) :
    Mirrors (Stopped.Lost lost) (recast change) (state.leaveTo domain frame used callers)
      ((state.recast change).leaveTo domain' (change frame) used callers) := by
  induction callers generalizing state with
  | nil => exact .ok state
  | cons caller rest ih =>
    unfold leaveTo
    rw [frame?_recast, subroutine?_recast]
    cases state.frame? caller with
    | none => exact ih
    | some callerFrame =>
      simp only [Option.map_some, carries.back]
      exact (merge_mirrors carries _ _ _).bind fun _ _ => ih

theorem flowOn_mirrors (action : Action) (frame : Frame V) (record : Option Subroutine) :
    Mirrors (Stopped.Lost lost) (recast change)
      (state.flowOn domain maxLocals index action frame record)
      ((state.recast change).flowOn domain' maxLocals index action (change frame) record) := by
  unfold flowOn
  split
  · exact enter_mirrors carries _ _
  · unfold leave
    split
    · exact .error _
    · rename_i returning
      cases returning.start with
      | none => exact leaveTo_mirrors carries _ _ _
      | some first => exact leaveTo_mirrors carries _ _ _
  · exact mergeAll_mirrors carries _ _ _

theorem flowToHandlers_mirrors {frame : Frame V} {record : Option Subroutine}
    {handlers : List (Nat × ExceptionHandler)}
    (caught : ∀ target handler, (target, handler) ∈ handlers →
      Mirrors lost change (frame.clearStack.push (domain.exception handler.caught))
        ((change frame).clearStack.push (domain'.exception handler.caught))) :
    Mirrors (Stopped.Lost lost) (recast change)
      (state.flowToHandlers domain index frame record handlers)
      ((state.recast change).flowToHandlers domain' index (change frame) record handlers) := by
  induction handlers generalizing state with
  | nil => exact .ok state
  | cons entry rest ih =>
    obtain ⟨target, handler⟩ := entry
    exact (check_mirrors index (caught target handler List.mem_cons_self)).bind fun _ _ =>
      (merge_mirrors carries _ _ _).bind fun _ _ =>
        ih fun target' handler' member => caught target' handler' (List.mem_cons_of_mem _ member)

theorem process_mirrors
    (visited : ∀ frame point, state.frame? index = some frame → flow[index]? = some point →
      point.Carried lost change domain domain' index frame) :
    Mirrors (Stopped.Lost lost) (recast change) (state.process domain flow maxLocals index)
      ((state.recast change).process domain' flow maxLocals index) := by
  unfold process
  rw [frame?_recast, subroutine?_recast]
  cases found : state.frame? index with
  | none => exact .ok state
  | some frame =>
    cases pointed : flow[index]? with
    | none => exact .ok state
    | some point =>
      have carried := visited frame point found pointed
      exact (executeAction_mirrors carried.effect).bind fun after _ =>
        (flowOn_mirrors carries _ after _).bind fun _ _ =>
          flowToHandlers_mirrors carries carried.caught

/-- The bounded loop is carried over where every visit is. -/
theorem solve_mirrors
    (visited : ∀ index (point : Point) frame, point.Carried lost change domain domain' index frame)
    (steps : Nat) (start : AnalysisState V) :
    Mirrors (Stopped.Lost lost) (recast change) (start.solve domain flow maxLocals steps)
      ((start.recast change).solve domain' flow maxLocals steps) := by
  induction steps generalizing start with
  | zero =>
    unfold solve
    rw [next?_recast]
    cases start.next? with
    | none => exact .ok start
    | some entry => exact .error _
  | succ steps ih =>
    unfold solve
    rw [next?_recast]
    cases start.next? with
    | none => exact .ok start
    | some entry =>
      exact (process_mirrors carries fun frame point _ _ => visited _ point frame).bind
        fun next _ => ih next

/-- A run to a state on the way to a final one is carried over where every visit on the way is. -/
theorem Run.mirrored {count further : Nat}
    (visited : ∀ {count further state popped index frame} {point : Point},
      Run domain flow maxLocals start count state → state.next? = some (index, popped) →
      Run domain flow maxLocals state further final → popped.frame? index = some frame →
      flow[index]? = some point → point.Carried lost change domain domain' index frame)
    (run : Run domain flow maxLocals start count state)
    (rest : Run domain flow maxLocals state further final) :
    Run domain' flow maxLocals (start.recast change) count (state.recast change) := by
  induction run generalizing further with
  | start => exact .start
  | step run taken processed ih =>
    have onward := Run.head taken processed rest
    refine .step (ih onward) (by rw [next?_recast, taken]; rfl) ?_
    exact (process_mirrors carries fun _ _ found pointed =>
      visited run taken onward found pointed).eq_ok processed

/-- A loop ends as it does in the other domain, unless it stops for a fault that is let go. -/
theorem Ends.mirrored {count : Nat} {outcome : Except Stopped (AnalysisState V)}
    (visited : ∀ {count state popped index frame} {point : Point},
      Run domain flow maxLocals start count state → state.next? = some (index, popped) →
      popped.frame? index = some frame → flow[index]? = some point →
      point.Carried lost change domain domain' index frame)
    (ends : Ends domain flow maxLocals start count outcome) :
    (∃ stopped, outcome = .error stopped ∧ Stopped.Lost lost stopped) ∨
      Ends domain' flow maxLocals (start.recast change) count (outcome.map (recast change)) := by
  cases ends with
  | empty run done =>
    refine .inr (.empty (run.mirrored carries (fun run taken _ => visited run taken) .start) ?_)
    rw [next?_recast, done]
    rfl
  | @stopped count state popped index stopped run taken failed =>
    have mirrors : Mirrors (Stopped.Lost lost) (recast change)
        (popped.process domain flow maxLocals index)
        ((popped.recast change).process domain' flow maxLocals index) :=
      process_mirrors carries fun _ _ => visited run taken
    rw [failed] at mirrors
    rcases mirrors with same | ⟨_, ⟨⟩, let_go⟩
    · refine .inr (.stopped (run.mirrored carries (fun run taken _ => visited run taken) .start) ?_ same)
      rw [next?_recast, taken]
      rfl
    · exact .inl ⟨stopped, rfl, let_go⟩

end Carried

/-- A loop that has not given up makes no use of more steps. -/
theorem solve_more {steps more : Nat} (enough : steps ≤ more)
    (settled : ∀ events, start.solve domain flow maxLocals steps ≠ .error ⟨.unsettled, events⟩) :
    start.solve domain flow maxLocals more = start.solve domain flow maxLocals steps := by
  rcases solve_spec domain flow maxLocals steps start with
    ⟨count, within, ends⟩ | ⟨_, _, -, -, events, stuck⟩
  · exact ends.solve (Nat.le_trans within enough)
  · exact absurd stuck (settled events)

end AnalysisState

/-- The second domain does everywhere what the first one does, in as many steps or more. -/
structure Domain.MirroredBy (lost : Fault → Prop) (domain domain' : Domain V) : Prop where
  sites : ∀ site, domain.MirroredAt lost domain' site
  merge : ∀ old new, Mirrors lost id (domain.merge old new) (domain'.merge old new)
  height : ∀ nodes, domain.height nodes ≤ domain'.height nodes

theorem stepBound_mono {nodes maxLocals maxLocals' height height' : Nat}
    {maxStack maxStack' : Option Nat} (locals : maxLocals ≤ maxLocals')
    (bounds : maxStack.getD 0 ≤ maxStack'.getD 0) (heights : height ≤ height') :
    stepBound nodes maxLocals maxStack height ≤ stepBound nodes maxLocals' maxStack' height' := by
  unfold stepBound
  refine Nat.mul_le_mul_left _ ?_
  have slots : max (maxStack.getD 0) (2 * nodes + 2) ≤ max (maxStack'.getD 0) (2 * nodes + 2) := by
    omega
  have product := Nat.mul_le_mul heights (Nat.add_le_add locals slots)
  omega

variable {owner : BinaryName} {method : Method} {maxLocals : Nat} {maxStack : Option Nat}

theorem Prepared.mirrored {maxStack' : Option Nat} {flow : Flow} {entry : Frame V}
    {start : AnalysisState V} (carries : domain.Carries lost change domain')
    (entered : initialFrame domain' owner method maxLocals maxStack' = .ok (change entry))
    (prepared : Prepared domain owner method maxLocals maxStack flow entry start) :
    Prepared domain' owner method maxLocals maxStack' flow (change entry) (start.recast change) := by
  obtain ⟨marks, marked, merged⟩ := prepared.started
  refine ⟨prepared.resolved, entered, marks, marked, ?_⟩
  let initial : AnalysisState V := .initial marks [.started owner method.name method.descriptor]
  have mirrors : Mirrors (Stopped.Lost lost) (AnalysisState.recast change)
      (initial.merge domain 0 entry none)
      ((initial.recast change).merge domain' 0 (change entry) none) :=
    AnalysisState.merge_mirrors carries 0 entry none
  rw [AnalysisState.recast_initial] at mirrors
  exact mirrors.eq_ok merged

namespace Domain.MirroredBy

variable (mirrored : domain.MirroredBy lost domain')

include mirrored

theorem visited (index : Nat) (point : Point) (frame : Frame V) :
    point.Carried lost id domain domain' index frame :=
  .of_mirrored (fun operation => mirrored.sites ⟨index, operation⟩) point frame

omit [AbstractValue V] in
theorem initialFrame_eq :
    initialFrame domain' owner method maxLocals maxStack =
      initialFrame domain owner method maxLocals maxStack := by
  have values : domain'.valueOf = domain.valueOf :=
    (mirrored.sites ⟨0, .instruction .nop⟩).valueOf
  have parameters (types : List FieldType) :
      parameterLocals domain' types = parameterLocals domain types := by
    induction types with
    | nil => rfl
    | cons type rest ih =>
      simp only [parameterLocals, ih, Domain.parameter, Domain.unusable, values]
  unfold initialFrame Domain.parameter Domain.unusable Domain.returned
  rw [values, parameters]

theorem solve {flow : Flow} (start : AnalysisState V) :
    Mirrors (fun stopped => stopped.failure = .unsettled ∨ Stopped.Lost lost stopped) id
      (start.solve domain flow maxLocals (domain.steps flow maxLocals maxStack))
      (start.solve domain' flow maxLocals (domain'.steps flow maxLocals maxStack)) := by
  have enough : domain.steps flow maxLocals maxStack ≤ domain'.steps flow maxLocals maxStack :=
    stepBound_mono (Nat.le_refl _) (Nat.le_refl _) (mirrored.height _)
  have mirrors : Mirrors (Stopped.Lost lost) (AnalysisState.recast id)
      (start.solve domain flow maxLocals (domain.steps flow maxLocals maxStack))
      ((start.recast id).solve domain' flow maxLocals (domain.steps flow maxLocals maxStack)) :=
    AnalysisState.solve_mirrors (.of_values mirrored.merge) mirrored.visited _ start
  rw [AnalysisState.recast_id] at mirrors
  rcases mirrors with same | ⟨stopped, failed, let_go⟩
  · cases solved : start.solve domain flow maxLocals (domain.steps flow maxLocals maxStack) with
    | error stopped =>
      by_cases stuck : stopped.failure = .unsettled
      · exact .letGo (.inl stuck)
      · rw [solved] at same
        rw [AnalysisState.solve_more enough, same]
        · exact .error _
        · intro events exhausted
          cases same.symm.trans exhausted
          exact stuck rfl
    | ok final =>
      rw [solved] at same
      rw [AnalysisState.solve_more enough, same]
      · exact .inl (by simp [Except.map])
      · intro events exhausted
        cases same.symm.trans exhausted
  · rw [failed]
    exact .letGo (.inr let_go)

theorem settle (events : List Event) :
    Mirrors (fun stopped => stopped.failure = .unsettled ∨ Stopped.Lost lost stopped) id
      (settle domain owner method maxLocals maxStack events)
      (settle domain' owner method maxLocals maxStack events) := by
  unfold MethodFlow.settle
  rw [mirrored.initialFrame_eq]
  refine (Mirrors.same _).andThen fun flow => (Mirrors.same _).andThen fun marks =>
    (Mirrors.same _).andThen fun entry => Mirrors.andThen ?_ fun start =>
      (mirrored.solve start).andThen fun final => .same _
  let initial : AnalysisState V := .initial marks events
  have merges : Mirrors (Stopped.Lost lost) (AnalysisState.recast id)
      (initial.merge domain 0 entry none) ((initial.recast id).merge domain' 0 entry none) :=
    AnalysisState.merge_mirrors (.of_values mirrored.merge) 0 entry none
  rw [AnalysisState.recast_id] at merges
  rcases merges with same | ⟨stopped, failed, let_go⟩
  · exact .inl (by simpa [Except.map] using same)
  · exact .inr ⟨stopped, failed, .inr let_go⟩

theorem prepared {flow : Flow} {entry : Frame V} {start : AnalysisState V}
    (prepared : Prepared domain owner method maxLocals maxStack flow entry start) :
    Prepared domain' owner method maxLocals maxStack flow entry start := by
  have entered : initialFrame domain' owner method maxLocals maxStack = .ok (id entry) :=
    mirrored.initialFrame_eq.trans prepared.entered
  have prepared' := prepared.mirrored (.of_values mirrored.merge) entered
  rwa [AnalysisState.recast_id] at prepared'

/-- A loop ends in the second domain as it does in the first one, however many steps it takes. -/
theorem ends {flow : Flow} {start : AnalysisState V} {count : Nat}
    {outcome : Except Stopped (AnalysisState V)}
    (ends : AnalysisState.Ends domain flow maxLocals start count outcome) :
    (∃ stopped, outcome = .error stopped ∧ Stopped.Lost lost stopped) ∨
      AnalysisState.Ends domain' flow maxLocals start count outcome := by
  rcases ends.mirrored (.of_values mirrored.merge) fun _ _ _ _ => mirrored.visited .. with let_go | ends'
  · exact .inl let_go
  · right
    have same : AnalysisState.recast (id : Frame V → Frame V) = id :=
      funext AnalysisState.recast_id
    rwa [same, Except.map_id, id, id] at ends'

theorem result :
    Mirrors (fun failure => failure = .unsettled ∨
        ∃ located, failure = .fault located ∧ lost located.fault) id
      (analyzeWithin domain owner method maxLocals maxStack).result
      (analyzeWithin domain' owner method maxLocals maxStack).result := by
  cases code : method.flags.hasNoCode with
  | true =>
    simp only [analyzeWithin, code, if_true]
    exact .same _
  | false =>
    rw [result_of_code code, result_of_code code]
    rcases mirrored.settle [.started owner method.name method.descriptor] with
      same | ⟨stopped, failed, let_go⟩
    · rw [same]
      cases MethodFlow.settle domain owner method maxLocals maxStack
          [.started owner method.name method.descriptor] with
      | error stopped => exact .error _
      | ok outcome => exact .ok _
    · rw [failed]
      exact .letGo let_go

end Domain.MirroredBy

end MethodFlow
