import MethodFlow.Proofs.Analysis.FixedPoint
import MethodFlow.Proofs.Analysis.Reachability
import MethodFlow.Proofs.Frame.Locals

namespace MethodFlow

open Relation (ReflTransGen)

variable {V : Type} [AbstractValue V] {domain : Domain V} {method : Method}

namespace Method

/-- Control can come to an index of a method that has code. -/
def Reachable (method : Method) (index : Nat) : Prop :=
  method.flags.hasNoCode = false ∧ ReflTransGen method.Edge 0 index

/-- The node at an index stores to a local. -/
def Stores (method : Method) (slot index : Nat) : Prop :=
  ∃ kind, method.nodes[index]? = some (.instruction (.store kind slot))

/-- The node at an index increments a local. -/
def Increments (method : Method) (slot index : Nat) : Prop :=
  ∃ amount, method.nodes[index]? = some (.instruction (.increment slot amount))

/-- The node at an index gives a local its value. -/
def Defines (method : Method) (slot index : Nat) : Prop :=
  method.Stores slot index ∨ method.Increments slot index

/-- The node at an index may overwrite a local: it defines it, or stores to a neighbour, which a
wide value in either of the two can extend to. -/
def Disturbs (method : Method) (slot index : Nat) : Prop :=
  method.Defines slot index ∨ ∃ other, (other + 1 = slot ∨ other = slot + 1) ∧
    method.Stores other index

/-- Control comes from after a node to an index without completing a node that may overwrite a
local. A node whose exception is caught is not completed. -/
inductive Carries (method : Method) (slot source : Nat) : Nat → Prop where
  | leaves {target : Nat} (leads : method.Leads source target) : Carries method slot source target
  | onward {index target : Nat} (carries : Carries method slot source index)
      (kept : ¬method.Disturbs slot index) (leads : method.Leads index target) :
      Carries method slot source target
  | caught {index target : Nat} {handler : ExceptionHandler}
      (carries : Carries method slot source index) (member : handler ∈ method.handlers)
      (protects : method.Protects handler index) (placed : method.Places handler.handler target) :
      Carries method slot source target

end Method

/-- Nodes that do not disturb a local leave it as it is. -/
theorem Node.local_of_effect {slot index : Nat} {node : Node} {frame after : Frame V}
    (stands : method.nodes[index]? = some node) (kept : ¬method.Disturbs slot index)
    (executed : node.effect domain index frame = .ok after) :
    after.locals[slot]? = frame.locals[slot]? := by
  cases node with
  | label | line =>
    cases executed
    rfl
  | operation operation =>
    cases Frame.changesLocals_of_execute executed with
    | kept same => rw [same]
    | @stored kind other popped value rest operated taken copied stored =>
      cases operated
      have stores : method.Stores other index := ⟨kind, stands⟩
      rw [(Frame.stored_of_store stored).others slot, Frame.locals_pop taken]
      · rintro rfl
        exact kept (.inl (.inl stores))
      · exact fun next => kept (.inr ⟨other, .inr next.symm, stores⟩)
      · exact fun next => absurd (.inr ⟨other, .inl next.symm, stores⟩) kept
    | @incremented other amount before value operated read computed written =>
      cases operated
      rw [Frame.getElem?_setLocal written, if_neg]
      rintro rfl
      exact kept (.inl (.inr ⟨amount, stands⟩))

namespace FixedPoint

variable {owner : BinaryName} {analysis : Analysis V} {table : LabelTable} {flow : Flow}
  {index target : Nat} {frame : Frame V}

theorem next (fixed : FixedPoint domain owner method analysis)
    (found : analysis.frame? index = some frame) (leads : method.Leads index target) :
    ∃ node after next, method.nodes[index]? = some node ∧
      node.effect domain index frame = .ok after ∧ analysis.frame? target = some next ∧
        List.Forall₂ domain.Absorbs next.locals after.locals := by
  obtain ⟨node, after, stands, executed, -, further⟩ := fixed.onward index frame found
  obtain ⟨next, found', absorbs⟩ := further target leads
  exact ⟨node, after, next, stands, executed, found', absorbs.locals⟩

theorem handled (fixed : FixedPoint domain owner method analysis)
    (resolved : method.Resolved table flow) (found : analysis.frame? index = some frame)
    {handler : ExceptionHandler} (member : handler ∈ method.handlers)
    (protects : method.Protects handler index) (placed : method.Places handler.handler target) :
    ∃ caught, analysis.frame? target = some caught ∧
      List.Forall₂ domain.Absorbs caught.locals frame.locals := by
  obtain ⟨other, caught, placed', found', absorbs, -⟩ :=
    fixed.caught index frame handler found member protects
  obtain rfl := resolved.places_unique placed placed'
  exact ⟨caught, found', absorbs⟩

theorem framed (fixed : FixedPoint domain owner method analysis)
    (resolved : method.Resolved table flow) (path : ReflTransGen method.Edge 0 index) :
    ∃ frame, analysis.frame? index = some frame := by
  induction path with
  | refl =>
    obtain ⟨-, first, -, found, -⟩ := fixed.entry
    exact ⟨first, found⟩
  | tail _ edge ih =>
    obtain ⟨frame, found⟩ := ih
    cases edge with
    | onward leads =>
      obtain ⟨-, -, next, -, -, found', -⟩ := fixed.next found leads
      exact ⟨next, found'⟩
    | caught member protects placed =>
      obtain ⟨caught, found', -⟩ := fixed.handled resolved found member protects placed
      exact ⟨caught, found'⟩

end FixedPoint

namespace Provenance

/-- An operation is among those that may have made the value of a local. -/
def MadeBy (source slot : Nat) (locals : List Provenance) : Prop :=
  ∃ value, locals[slot]? = some value ∧ source ∈ value.origins.indices

variable {source slot : Nat}

theorem MadeBy.absorbed {uppers lowers : List Provenance} (made : MadeBy source slot lowers)
    (absorbs : List.Forall₂ Provenance.domain.Absorbs uppers lowers) :
    MadeBy source slot uppers := by
  obtain ⟨value, held, member⟩ := made
  obtain ⟨inside, rfl⟩ := List.getElem?_eq_some_iff.mp held
  have inside' : slot < uppers.length := absorbs.length_eq ▸ inside
  have absorbed := Except.ok.inj (absorbs.get inside' inside)
  refine ⟨uppers[slot], List.getElem?_eq_getElem inside', ?_⟩
  exact (merge_eq_left.mp absorbed).2 source member

/-- A node that defines a local is an origin of what it leaves there. -/
theorem madeBy_of_defines {node : Node} {frame after : Frame Provenance}
    (stands : method.nodes[source]? = some node) (defines : method.Defines slot source)
    (executed : node.effect Provenance.domain source frame = .ok after) :
    MadeBy source slot after.locals := by
  rcases defines with ⟨kind, stores⟩ | ⟨amount, increments⟩
  · cases stores.symm.trans stands
    simp only [Node.effect, Frame.execute, Frame.executeInstruction, bind_eq_ok, Prod.exists]
      at executed
    obtain ⟨popped, rest, -, value, copied, stored⟩ := executed
    cases copied
    exact ⟨_, (Frame.stored_of_store stored).own, List.mem_singleton_self source⟩
  · cases increments.symm.trans stands
    simp only [Node.effect, Frame.execute, Frame.executeInstruction, bind_eq_ok] at executed
    obtain ⟨before, -, result, computed, written⟩ := executed
    cases computed
    have held := (Frame.getElem?_setLocal written slot).trans (if_pos rfl)
    exact ⟨_, held, List.mem_singleton_self source⟩

/-- A definition is kept on the way by whatever does not disturb the local. -/
theorem madeBy_of_carries {owner : BinaryName} {analysis : Analysis Provenance} {table : LabelTable}
    {flow : Flow} (fixed : FixedPoint Provenance.domain owner method analysis)
    (resolved : method.Resolved table flow) (framed : ∃ frame, analysis.frame? source = some frame)
    (defines : method.Defines slot source) {index : Nat}
    (carries : method.Carries slot source index) :
    ∃ frame, analysis.frame? index = some frame ∧ MadeBy source slot frame.locals := by
  induction carries with
  | leaves leads =>
    obtain ⟨frame, found⟩ := framed
    obtain ⟨node, after, next, stands, executed, found', absorbs⟩ := fixed.next found leads
    exact ⟨next, found', (madeBy_of_defines stands defines executed).absorbed absorbs⟩
  | onward _ kept leads ih =>
    obtain ⟨frame, found, made⟩ := ih
    obtain ⟨node, after, next, stands, executed, found', absorbs⟩ := fixed.next found leads
    have made' : MadeBy source slot after.locals := by
      rwa [MadeBy, Node.local_of_effect stands kept executed]
    exact ⟨next, found', made'.absorbed absorbs⟩
  | caught _ member protects placed ih =>
    -- the handler gets the locals as they were before the covered node
    obtain ⟨frame, found, made⟩ := ih
    obtain ⟨caught, found', absorbs⟩ := fixed.handled resolved found member protects placed
    exact ⟨caught, found', made.absorbed absorbs⟩

end Provenance

/-- A store or an increment is an origin of the local wherever control can come to from it without
completing a node that may overwrite the local. -/
theorem origin_of_carries {owner : BinaryName} {analysis : Analysis Provenance}
    (analyzed : analyze Provenance.domain owner method = .ok analysis) {slot source index : Nat}
    (reachable : method.Reachable source) (defines : method.Defines slot source)
    (carries : method.Carries slot source index) :
    ∃ frame value, analysis.frame? index = some frame ∧ frame.locals[slot]? = some value ∧
      source ∈ value.origins.indices := by
  obtain ⟨code, path⟩ := reachable
  obtain ⟨flow, entry, start, final, count, prepared, -⟩ := run_of_result code analyzed
  obtain ⟨table, resolved⟩ := Method.resolved_of_flow prepared.resolved
  have fixed : FixedPoint Provenance.domain owner method analysis :=
    .of_joins Provenance.domain_joins Provenance.domain_narrows code analyzed
  obtain ⟨frame, found, value, held, member⟩ :=
    Provenance.madeBy_of_carries fixed resolved (fixed.framed resolved path) defines carries
  exact ⟨frame, value, found, held, member⟩

/-- Stores a long value or an integer, and counts in a range whose exceptions are dropped. -/
def twoSizes : Method where
  flags := .static
  name := ⟨"sizes".toList, by decide⟩
  descriptor := ⟨[.base .int], none⟩
  nodes := [.instruction (.load .int 0), .branch (.ifZero .eq ⟨0⟩),
    .instruction (.shortConstant .long0), .instruction (.store .long 1), .branch (.goto ⟨1⟩),
    .label ⟨0⟩, .instruction (.shortConstant .int0), .instruction (.store .int 1), .label ⟨1⟩,
    .instruction (.increment 0 1), .label ⟨2⟩, .branch .voidReturn, .label ⟨3⟩,
    .instruction (.shuffle .pop), .branch .voidReturn]
  handlers := [⟨⟨1⟩, ⟨2⟩, ⟨3⟩, none⟩]
  maxStack := 2
  maxLocals := 3

/-- The handler finds the store of the long value behind the increment that throws, though the
integer has made the local narrow. -/
theorem twoSizes_origin : ∃ analysis,
    analyze Provenance.domain .object twoSizes = .ok analysis ∧ twoSizes.Reachable 3 ∧
      twoSizes.Defines 1 3 ∧ twoSizes.Carries 1 3 12 ∧
      ∃ frame value, analysis.frame? 12 = some frame ∧ frame.locals[1]? = some value ∧
        3 ∈ value.origins.indices := by
  obtain ⟨analysis, analyzed⟩ : ∃ analysis, analyze Provenance.domain .object twoSizes =
      .ok analysis := isOk_iff.mp (by cbv)
  have reachable : twoSizes.Reachable 3 :=
    ⟨by decide, .tail (.tail (.tail .refl (.onward (.next rfl rfl))) (.onward (.next rfl rfl)))
      (.onward (.next rfl rfl))⟩
  have defines : twoSizes.Defines 1 3 := .inl ⟨.long, rfl⟩
  have left : twoSizes.Carries 1 3 4 := .leaves (.next rfl rfl)
  have joined : twoSizes.Carries 1 3 8 := by
    refine left.onward ?_ (.jump rfl List.mem_cons_self rfl)
    rintro ((⟨_, ⟨⟩⟩ | ⟨_, ⟨⟩⟩) | ⟨_, -, _, ⟨⟩⟩)
  have counting : twoSizes.Carries 1 3 9 := by
    refine joined.onward ?_ (.next rfl rfl)
    rintro ((⟨_, ⟨⟩⟩ | ⟨_, ⟨⟩⟩) | ⟨_, -, _, ⟨⟩⟩)
  have carries : twoSizes.Carries 1 3 12 :=
    counting.caught List.mem_cons_self ⟨8, 10, rfl, rfl, by decide, by decide⟩ rfl
  exact ⟨analysis, analyzed, reachable, defines, carries,
    origin_of_carries analyzed reachable defines carries⟩

end MethodFlow
