import Mathlib.Tactic.IntervalCases
import MethodFlow.Proofs.Analysis.CallSites
import MethodFlow.Proofs.Machine.Semantics

namespace MethodFlow

open Relation (ReflTransGen)

variable {V : Type} [AbstractValue V] {domain : Domain V} {owner : BinaryName} {method : Method}
  {flow : Flow} {table : LabelTable} {final : AnalysisState V}

/-- The shape of the machine's frames; its stack has no bound. -/
abbrev Method.machineShape (method : Method) : FrameShape MachineValue :=
  method.frameShape machine method.maxLocals none

/-- An address is the one after an index that has a frame. -/
def MachineValue.Known (final : AnalysisState V) : MachineValue → Prop
  | data _ => True
  | address target => ∃ call frame, target = call + 1 ∧ final.frame? call = some frame

omit [AbstractValue V] in
theorem MachineValue.known_valueOf (final : AnalysisState V) (type : Option FieldType) :
    Known final (machine.valueOf type) :=
  trivial

/-- The machine is at an index that has a frame, and all addresses are known. -/
structure MachineState.Follows (method : Method) (final : AnalysisState V) (state : MachineState) :
    Prop where
  framed : ∃ frame, final.frame? state.index = some frame
  fits : state.frame.Fits method.machineShape
  known : state.frame.Holds (MachineValue.Known final)

namespace MachineState.Follows

variable {before after : MachineState} {shape : FrameShape V}

theorem proceeds (resolved : method.Resolved table flow) (coherent : final.Coherent flow shape)
    (stable : AnalysisState.Stable domain flow shape.maxLocals final) (done : final.worklist = [])
    (follows : before.Follows method final) (proceeds : method.Proceeds before after) :
    after.Follows method final := by
  obtain ⟨frame, framed⟩ := follows.framed
  have pointed := List.getElem?_eq_getElem (coherent.inside framed)
  obtain ⟨node, stands, actioned, handlers⟩ := resolved.node_of_point pointed
  obtain ⟨left, settled⟩ := stable before.index frame _ (by simp [done]) framed pointed
  cases proceeds with
  | @onward node' next target found executed leads =>
    cases stands.symm.trans found
    obtain ⟨later, framed', -⟩ := settled.arrived resolved stands actioned leads
    rw [← effect_of_action actioned] at executed
    have closed (operation : Operation) :
        machine.ClosedAt ⟨before.index, operation⟩ (MachineValue.Known final) :=
      machine_closedAt (fun _ => trivial) ⟨before.index, frame, rfl, framed⟩
    exact ⟨⟨later, framed'⟩, AnalysisState.fits_of_effect follows.fits executed,
      holds_of_effect closed follows.fits follows.known executed⟩
  | @caught handler next target member protects placed pushed =>
    obtain ⟨caught, -, arrived⟩ :=
      settled.handlers target handler ((handlers target handler).mpr ⟨member, protects, placed⟩)
    obtain ⟨later, framed', -⟩ := arrived.frame
    have cleared : before.frame.clearStack.Holds (MachineValue.Known final) :=
      ⟨follows.known.locals, by simp [Frame.clearStack, Frame.stackValues]⟩
    obtain ⟨fits, known⟩ := (Frame.fits_invariant method.machineShape _).push
      ⟨follows.fits.clearStack, cleared⟩ (MachineValue.known_valueOf final _) pushed
    exact ⟨⟨later, framed'⟩, fits, known⟩

theorem returns (resolved : method.Resolved table flow) (coherent : final.Coherent flow shape)
    (stable : AnalysisState.Stable domain flow shape.maxLocals final) (done : final.worklist = [])
    (housed : final.Housed method) (grounded : final.Grounded flow)
    (follows : before.Follows method final) (returns : method.Returns before after)
    {call start : Nat} (past : after.index = call + 1) (calls : method.Calls call start)
    (alone : method.Alone (some start) before.index) : after.Follows method final := by
  obtain ⟨slot, found, held⟩ := returns.held
  obtain ⟨frame, framed⟩ := follows.framed
  -- the address is the one after the call, which has a frame
  obtain ⟨call', callFrame, past', called⟩ :=
    follows.known.locals _ (List.mem_of_getElem? held)
  cases Nat.succ.inj (past.symm.trans past')
  obtain ⟨own, stems⟩ := grounded before.index frame framed
  have inside : own = some start := alone own (stems.contains resolved coherent)
  obtain ⟨record, recorded, member⟩ := stems.listed resolved coherent stable done housed
    (resolved.called?_of_calls calls) called inside (inside ▸ alone)
  obtain ⟨point, pointed, actioned, -⟩ := resolved.points before.index _ found
  obtain ⟨renamed, mapped, same⟩ := bind_eq_ok.mp actioned
  cases mapped
  have returning : point.action = .branch (.ret slot) (.ret slot) := (Except.ok.inj same).symm
  have waiting (index : Nat) : index ∉ final.worklist := by simp [done]
  obtain ⟨left, settled⟩ := stable before.index frame point (waiting _) framed pointed
  obtain ⟨passed, marked, -, handed⟩ := settled.back _ slot returning
  obtain ⟨earlier, recorded', callers, -⟩ := AnalysisState.usedBy_marks marked
  cases recorded.symm.trans recorded'
  have arrived := handed call (callers ▸ member) (waiting call) callFrame called
  obtain ⟨later, framed', -⟩ := arrived.frame
  refine ⟨⟨later, past ▸ framed'⟩, ?_, ?_⟩
  · exact returns.unchanged ▸ follows.fits
  · exact returns.unchanged ▸ follows.known

end MachineState.Follows

/-- Every index that is visited by a run of the machine which respects subroutines has a frame. -/
theorem framed_of_movesWithin (provided : domain.Provided) {analysis : Analysis V}
    (code : method.flags.hasNoCode = false)
    (analyzed : analyze domain owner method = .ok analysis) {entry : Frame MachineValue}
    (entered : initialFrame machine owner method method.maxLocals none = .ok entry)
    {state : MachineState} (visits : ReflTransGen method.MovesWithin ⟨0, entry⟩ state) :
    (analysis.frame? state.index).isSome := by
  have joins : domain.Joins := provided.joins
  have narrows : domain.Narrows := provided.policy.narrows
  obtain ⟨flow, table, first, start, final, count, prepared, run, done, rfl, resolved, coherent,
    stable, gains⟩ := stable_of_result joins narrows code analyzed
  have isStart := prepared.isStart narrows
  have housed : final.Housed method :=
    run.housed resolved narrows isStart.coherent (prepared.housed resolved narrows)
  have grounded : final.Grounded flow := run.grounded narrows isStart.coherent isStart.grounded
  have follows : state.Follows method final := by
    induction visits with
    | refl =>
      obtain ⟨frame, framed, -⟩ := gains.frames 0 first ((isStart.frames 0 first).mpr ⟨rfl, rfl⟩)
      exact ⟨⟨frame, framed⟩, initialFrame_fits entered,
        initialFrame_holds (MachineValue.known_valueOf final) entered⟩
    | tail _ move ih =>
      cases move with
      | proceeds proceeds => exact ih.proceeds resolved coherent stable done proceeds
      | returns returns past calls alone =>
        exact ih.returns resolved coherent stable done housed grounded returns past calls alone
  obtain ⟨frame, framed⟩ := follows.framed
  exact Option.isSome_iff_exists.mpr ⟨frame, framed⟩

theorem twoCalls_entry : twoCalls.Places ⟨0⟩ 7 := rfl

theorem twoCalls_stays {index target : Nat} (inside : index ≤ 6)
    (stays : twoCalls.Stays index target) : target ≤ 6 := by
  have before {node : Node} (found : twoCalls.nodes[index]? = some node)
      (other : node ≠ .branch .voidReturn) : index < 6 := by
    refine Nat.lt_of_le_of_ne inside fun last => ?_
    subst last
    exact other (Option.some.inj found).symm
  cases stays with
  | onward uncalled leads =>
    cases leads with
    | next found falls => exact before found (by rintro rfl; cases falls)
    | @jump node label target found jumps placed =>
      have straight : node.targets = [] ∨ node = .branch (.jsr ⟨0⟩) := by
        interval_cases index <;> cases found <;> decide
      rcases straight with none | rfl
      · rw [none] at jumps
        cases jumps
      · exact absurd found (uncalled ⟨0⟩)
  | caught member => cases member
  | past called => exact before called nofun

theorem twoCalls_alone : twoCalls.Alone (some 7) 9 := by
  intro other contains
  cases other with
  | none =>
    have body (index : Nat) (stays : ReflTransGen twoCalls.Stays 0 index) : index ≤ 6 := by
      induction stays with
      | refl => exact Nat.zero_le 6
      | tail _ stays ih => exact twoCalls_stays ih stays
    exact absurd (body 9 contains) (by decide)
  | some start =>
    obtain ⟨⟨call, label, called, placed⟩, -⟩ := contains
    have inside : call < 10 := (List.getElem?_eq_some_iff.mp called).1
    have same : label = ⟨0⟩ := by
      interval_cases call <;> cases called <;> rfl
    subst same
    have inside' : start < 10 := (List.getElem?_eq_some_iff.mp placed).1
    interval_cases start <;> cases placed
    rfl

/-- The first call comes back with its integer. -/
theorem twoCalls_visits : ∃ analysis entry state,
    analyze ValueKind.verifier .object twoCalls = .ok analysis ∧
      initialFrame machine .object twoCalls twoCalls.maxLocals none = .ok entry ∧
      ReflTransGen twoCalls.MovesWithin ⟨0, entry⟩ state ∧ state.index = 3 ∧
      (analysis.frame? state.index).isSome := by
  obtain ⟨start, final, count, -, -, -, analyzed, -, -⟩ := twoCalls_run
  let entry : Frame MachineValue := .entry [.data .unusable, .data .unusable] none none
  let left : Frame MachineValue := .entry [.data .int, .address 3] none none
  have moves : ReflTransGen twoCalls.MovesWithin ⟨0, entry⟩ ⟨9, left⟩ := by
    refine .head (.proceeds (.onward rfl rfl (.next rfl rfl))) ?_
    refine .head (.proceeds (.onward rfl rfl (.next rfl rfl))) ?_
    refine .head (.proceeds (.onward rfl rfl (.jump rfl List.mem_cons_self twoCalls_entry))) ?_
    refine .head (.proceeds (.onward rfl rfl (.next rfl rfl))) ?_
    exact .single (.proceeds (.onward rfl rfl (.next rfl rfl)))
  have back : twoCalls.MovesWithin ⟨9, left⟩ ⟨3, left⟩ :=
    .returns ⟨⟨1, rfl, rfl⟩, rfl⟩ rfl ⟨⟨0⟩, rfl, twoCalls_entry⟩ twoCalls_alone
  have visits := moves.tail back
  exact ⟨_, entry, _, analyzed, rfl, visits, rfl,
    framed_of_movesWithin ⟨_, ClassGraph.library_wellFormed, _, .verify⟩ (by decide) analyzed rfl
      visits⟩

/-- Calls a subroutine that calls another one, which goes back with the address of the first call. -/
def leavingBoth : Method where
  flags := .static
  name := ⟨"leaving".toList, by decide⟩
  descriptor := ⟨[], none⟩
  nodes := [.branch (.jsr ⟨0⟩), .branch .voidReturn, .label ⟨0⟩, .instruction (.store .reference 0),
    .branch (.jsr ⟨1⟩), .branch .voidReturn, .label ⟨1⟩, .instruction (.store .reference 1),
    .branch (.ret 0)]
  handlers := []
  maxStack := 1
  maxLocals := 2

def leavingBothFlow : Flow :=
  [⟨.branch (.jsr ⟨0⟩) (.jsr 2), []⟩, ⟨.branch .voidReturn .voidReturn, []⟩, ⟨.idle, []⟩,
    ⟨.instruction (.store .reference 0), []⟩, ⟨.branch (.jsr ⟨1⟩) (.jsr 6), []⟩,
    ⟨.branch .voidReturn .voidReturn, []⟩, ⟨.idle, []⟩, ⟨.instruction (.store .reference 1), []⟩,
    ⟨.branch (.ret 0) (.ret 0), []⟩]

theorem leavingBoth_marks : leavingBothFlow.subroutines 2 = .ok
    (List.replicate 2 none ++ List.replicate 4 (some (.fresh (some 2) 2 (some 0))) ++
      List.replicate 3 (some (.fresh (some 6) 2 (some 4)))) := by
  let body : Option Subroutine := some (.fresh none 2 none)
  let outer : Option Subroutine := some (.fresh (some 2) 2 (some 0))
  let inner : Option Subroutine := some (.fresh (some 6) 2 (some 4))
  have walked : markFrom leavingBothFlow (.fresh none 2 none) (List.replicate 9 none) []
      [(0, none)] = .ok (List.replicate 2 body ++ List.replicate 7 none, [0]) := by cbv
  have walked' : markFrom leavingBothFlow (.fresh (some 2) 2 (some 0))
      (List.replicate 2 body ++ List.replicate 7 none) [] [(2, none)] =
      .ok (List.replicate 2 body ++ List.replicate 4 outer ++ List.replicate 3 none, [4]) := by cbv
  have walked'' : markFrom leavingBothFlow (.fresh (some 6) 2 (some 4))
      (List.replicate 2 body ++ List.replicate 4 outer ++ List.replicate 3 none) [] [(6, none)] =
      .ok (List.replicate 2 body ++ List.replicate 4 outer ++ List.replicate 3 inner, []) := by cbv
  simp only [Flow.subroutines, bind_eq_ok, Prod.exists]
  refine ⟨_, _, walked, List.replicate 2 body ++ List.replicate 4 outer ++ List.replicate 3 inner,
    ?_, rfl⟩
  rw [markCalls_enter rfl rfl walked', markCalls_enter rfl rfl walked'', markCalls]

/-- The run comes back to the index after the first call, for which the analysis finds no frame. -/
theorem leavingBoth_unframed : ∃ analysis entry state,
    analyze ValueKind.verifier .object leavingBoth = .ok analysis ∧
      initialFrame machine .object leavingBoth leavingBoth.maxLocals none = .ok entry ∧
      ReflTransGen leavingBoth.Moves ⟨0, entry⟩ state ∧ state.index = 1 ∧
      analysis.frame? state.index = none := by
  have solved : ((AnalysisState.initial
      (List.replicate 2 none ++ List.replicate 4 (some (.fresh (some 2) 2 (some 0))) ++
        List.replicate 3 (some (.fresh (some 6) 2 (some 4))))
      [.started .object leavingBoth.name leavingBoth.descriptor]).merge ValueKind.verifier 0
        (.entry [.unusable, .unusable] (some 1) none) none >>=
      AnalysisState.solve ValueKind.verifier leavingBothFlow 2
        (ValueKind.verifier.steps leavingBothFlow 2 (some 1))).map (fun final =>
          (final.frame? 1).isSome) = .ok false := by cbv
  obtain ⟨start, final, count, -, -, -, analyzed, unframed⟩ :=
    run_of_solve (by decide) (by cbv) leavingBoth_marks rfl solved
  let entry : Frame MachineValue := .entry [.data .unusable, .data .unusable] none none
  let left : Frame MachineValue := .entry [.address 1, .address 5] none none
  have outer : leavingBoth.Places ⟨0⟩ 2 := rfl
  have inner : leavingBoth.Places ⟨1⟩ 6 := rfl
  have moves : ReflTransGen leavingBoth.Moves ⟨0, entry⟩ ⟨8, left⟩ := by
    refine .head (.proceeds (.onward rfl rfl (.jump rfl List.mem_cons_self outer))) ?_
    refine .head (.proceeds (.onward rfl rfl (.next rfl rfl))) ?_
    refine .head (.proceeds (.onward rfl rfl (.next rfl rfl))) ?_
    refine .head (.proceeds (.onward rfl rfl (.jump rfl List.mem_cons_self inner))) ?_
    refine .head (.proceeds (.onward rfl rfl (.next rfl rfl))) ?_
    exact .single (.proceeds (.onward rfl rfl (.next rfl rfl)))
  have back : leavingBoth.Moves ⟨8, left⟩ ⟨1, left⟩ := .returns ⟨⟨0, rfl, rfl⟩, rfl⟩
  have absent : final.frame? 1 = none :=
    Option.isNone_iff_eq_none.mp (Option.isSome_eq_false_iff.mp unframed)
  exact ⟨_, entry, _, analyzed, rfl, moves.tail back, rfl, absent⟩

end MethodFlow
