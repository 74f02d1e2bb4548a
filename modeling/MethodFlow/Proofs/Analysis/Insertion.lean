import Mathlib.Tactic.IntervalCases
import MethodFlow.Proofs.Analysis.Steadiness
import MethodFlow.Proofs.Code.Insertion

/-! Line numbers do not change what is found for a method without subroutines whose analysis is steady,
but where a range of a handler that ended before a line covers it now. A certificate of the method
turns into one of the method with the line, and the other way round. -/

namespace MethodFlow

variable {domain : Domain ValueKind} {owner : BinaryName} {method : Method}
  {frames : Nat → Option (Frame ValueKind)} {position number : Nat}

theorem Domain.OfKinds.effect_eq (kinds : domain.OfKinds) (node : Node) (index other : Nat)
    (frame : Frame ValueKind) : node.effect domain index frame = node.effect domain other frame := by
  rcases node with label | line | (i | b)
  · rfl
  · rfl
  · cases i with
    | shuffle shape =>
      have copies (items : List (Shuffled ValueKind)) :
          Frame.copyShuffled domain ⟨index, .instruction (.shuffle shape)⟩ items =
            Frame.copyShuffled domain ⟨other, .instruction (.shuffle shape)⟩ items := by
        induction items with
        | nil => rfl
        | cons item rest ih =>
          rcases kinds.eq_or_eq with rfl | rfl <;> cases item <;> simp only [Frame.copyShuffled, ih] <;> rfl
      simp only [Node.effect, Frame.execute, Frame.executeInstruction, Frame.executeShuffle, copies]
    | _ => rcases kinds.eq_or_eq with rfl | rfl <;> rfl
  · rcases kinds.eq_or_eq with rfl | rfl <;> cases b <;> rfl

namespace Method

/-- What control takes on to a position from the node before it has locals that refine those of every
handler whose range covers that node and ends at the position. -/
def EndsEvenly (domain : Domain ValueKind) (method : Method)
    (frames : Nat → Option (Frame ValueKind)) (position : Nat) : Prop :=
  ∀ index frame node after handler target caught, index + 1 = position →
    frames index = some frame → method.nodes[index]? = some node → node.fallsThrough = true →
    node.effect domain index frame = .ok after → handler ∈ method.handlers →
    method.Protects handler index → method.Places handler.past position →
    method.Places handler.handler target → frames target = some caught →
    List.Forall₂ ValueKind.Refines after.locals caught.locals

/-- The frame of a line inserted at a position: what control takes on from the node before it. -/
def lineFrame (domain : Domain ValueKind) (method : Method)
    (frames : Nat → Option (Frame ValueKind)) : Nat → Option (Frame ValueKind)
  | 0 => frames 0
  | index + 1 =>
    match frames index, method.nodes[index]? with
    | some frame, some node =>
      if node.fallsThrough then (node.effect domain index frame).toOption else none
    | _, _ => none

/-- Frames moved by the insertion of a line, with one for the line. -/
def framesWithLine (domain : Domain ValueKind) (method : Method)
    (frames : Nat → Option (Frame ValueKind)) (position index : Nat) : Option (Frame ValueKind) :=
  if index = position then method.lineFrame domain frames position
  else frames (if index < position then index else index - 1)

theorem framesWithLine_position :
    method.framesWithLine domain frames position position =
      method.lineFrame domain frames position :=
  if_pos rfl

theorem framesWithLine_shifted (index : Nat) :
    method.framesWithLine domain frames position (shifted position index) = frames index := by
  rw [framesWithLine, if_neg (shifted_ne position index), shifted]
  by_cases before : index < position
  · rw [if_pos before, if_pos before]
  · rw [if_neg before, if_neg (by omega), Nat.add_sub_cancel]

theorem lineFrame_eq_some {index : Nat} {upper : Frame ValueKind} :
    method.lineFrame domain frames (index + 1) = some upper ↔ ∃ frame node,
      frames index = some frame ∧ method.nodes[index]? = some node ∧ node.fallsThrough = true ∧
        node.effect domain index frame = .ok upper := by
  have known (outcome : Except Fault (Frame ValueKind)) :
      outcome.toOption = some upper ↔ outcome = .ok upper := by
    cases outcome <;> simp [Except.toOption]
  simp only [lineFrame]
  split
  · rename_i frame node found stands
    simp [found, stands, known]
  · rename_i missing
    simp only [reduceCtorEq, false_iff]
    rintro ⟨frame, node, found, stands, -⟩
    exact missing frame node found stands

namespace Certified

theorem lineFrame_refines (certified : method.Certified domain owner frames)
    {upper : Frame ValueKind} (known : method.lineFrame domain frames position = some upper) :
    ∃ next, frames position = some next ∧ upper.Refines next := by
  cases position with
  | zero => exact ⟨upper, known, .refl upper⟩
  | succ index =>
    obtain ⟨frame, node, found, stands, falls, executed⟩ := lineFrame_eq_some.mp known
    obtain ⟨node', after, stands', -, -, executed', onward⟩ := certified.onward index frame found
    cases stands.symm.trans stands'
    cases executed.symm.trans executed'
    exact onward (index + 1) (.next stands falls)

theorem lineFrame_fits (fits : ∀ index frame, frames index = some frame → frame.Fits method.kindShape)
    {upper : Frame ValueKind} (known : method.lineFrame domain frames position = some upper) :
    upper.Fits method.kindShape := by
  cases position with
  | zero => exact fits 0 upper known
  | succ index =>
    obtain ⟨frame, node, found, -, -, executed⟩ := lineFrame_eq_some.mp known
    exact Node.fits_of_effect (fits index frame found) executed

theorem lineFrame_caught (certified : method.Certified domain owner frames)
    (fits : ∀ index frame, frames index = some frame → frame.Fits method.kindShape)
    (inside : position ≤ method.nodes.length) (even : method.EndsEvenly domain frames position)
    {upper : Frame ValueKind} (known : method.lineFrame domain frames position = some upper)
    {handler : ExceptionHandler} {target : Nat} (member : handler ∈ method.handlers)
    (protects : (method.insertLine position number).Protects handler position)
    (placed : method.Places handler.handler target) : ∃ caught next,
      upper.clearStack.push (domain.exception handler.caught) = .ok caught ∧
        frames target = some next ∧ caught.Refines next := by
  obtain ⟨index, rfl, before, ends⟩ := (protects_inserted inside).mp protects
  rcases ends with further | ends
  · obtain ⟨next, known', refines⟩ := certified.lineFrame_refines known
    obtain ⟨caught', last, pushed, found, refines'⟩ :=
      certified.caught (index + 1) next handler target known' member further placed
    obtain ⟨caught, pushed', refines''⟩ := refines.caught (lineFrame_fits fits known).toHasShape
      (certified.shaped _ _ known') pushed
    exact ⟨caught, last, pushed', found, refines''.trans refines'⟩
  · obtain ⟨frame, node, found, stands, falls, executed⟩ := lineFrame_eq_some.mp known
    obtain ⟨caught, last, pushed, found', refines⟩ :=
      certified.caught index frame handler target found member before placed
    have locals := even index frame node upper handler target last rfl found stands falls executed
      member before ends placed found'
    have shaped := lineFrame_fits fits known
    obtain ⟨rfl, room⟩ := Frame.push_eq_ok.mp pushed
    refine ⟨_, last, Frame.push_eq_ok.mpr ⟨rfl, fun bound declared => ?_⟩, found', locals,
      refines.stack⟩
    exact room bound (((fits index frame found).maxStack.trans shaped.maxStack.symm).trans declared)

/-- A certificate of a method with a frame for the line certifies the method with the line. -/
theorem insertLine (certified : method.Certified domain owner frames) (kinds : domain.OfKinds)
    (fits : ∀ index frame, frames index = some frame → frame.Fits method.kindShape)
    (inside : position ≤ method.nodes.length) (even : method.EndsEvenly domain frames position) :
    (method.insertLine position number).Certified domain owner
      (method.framesWithLine domain frames position) where
  shaped index upper known := by
    rcases eq_or_shifted position index with rfl | ⟨earlier, rfl⟩
    · rw [framesWithLine_position] at known
      exact (lineFrame_fits fits known).toHasShape
    · rw [framesWithLine_shifted] at known
      exact certified.shaped earlier upper known
  entry := by
    obtain ⟨entry, upper, entered, known, refines⟩ := certified.entry
    refine ⟨entry, upper, entered, ?_, refines⟩
    cases position with
    | zero => exact known
    | succ position =>
      have first : shifted (position + 1) 0 = 0 := if_pos (Nat.succ_pos position)
      rw [← first, framesWithLine_shifted]
      exact known
  onward index upper known := by
    rcases eq_or_shifted position index with rfl | ⟨earlier, rfl⟩
    · rw [framesWithLine_position] at known
      refine ⟨.line number, upper, node_inserted inside, nofun, nofun, rfl, fun target leads => ?_⟩
      rw [(leads_inserted inside).mp leads, framesWithLine_shifted]
      exact certified.lineFrame_refines known
    · rw [framesWithLine_shifted] at known
      obtain ⟨node, after, stands, notReturn, usable, executed, onward⟩ :=
        certified.onward earlier upper known
      refine ⟨node, after, (node_shifted earlier).trans stands, notReturn, usable,
        (kinds.effect_eq node _ earlier upper).trans executed, fun target leads => ?_⟩
      rcases (leads_shifted inside).mp leads with
        ⟨node', stands', falls, rfl⟩ | ⟨node', label, later, stands', jumps, placed, rfl⟩
      · cases stands.symm.trans stands'
        by_cases before : earlier + 1 = position
        · subst before
          rw [shifted_before rfl, framesWithLine_position]
          exact ⟨after, lineFrame_eq_some.mpr ⟨upper, node, known, stands, falls, executed⟩, .refl after⟩
        · rw [← shifted_succ before, framesWithLine_shifted]
          exact onward (earlier + 1) (.next stands falls)
      · rw [framesWithLine_shifted]
        exact onward later (.jump stands' jumps placed)
  caught index upper handler target known member protects placed := by
    obtain ⟨later, rfl, placed'⟩ := (places_insertLine inside).mp placed
    rw [framesWithLine_shifted]
    rcases eq_or_shifted position index with rfl | ⟨earlier, rfl⟩
    · rw [framesWithLine_position] at known
      exact certified.lineFrame_caught fits inside even known member protects placed'
    · rw [framesWithLine_shifted] at known
      exact certified.caught earlier upper handler later known member
        ((protects_shifted inside).mp protects) placed'

theorem withoutLine (certified : (method.insertLine position number).Certified domain owner frames)
    (kinds : domain.OfKinds) (inside : position ≤ method.nodes.length) :
    method.Certified domain owner fun index => frames (shifted position index) := by
  have past (upper : Frame ValueKind) (known : frames position = some upper) :
      ∃ next, frames (shifted position position) = some next ∧ upper.Refines next := by
    obtain ⟨node, after, stands, -, -, executed, onward⟩ := certified.onward position upper known
    cases (node_inserted inside).symm.trans stands
    cases executed
    exact onward _ ((leads_inserted inside).mpr rfl)
  refine ⟨fun index upper known => certified.shaped _ upper known, ?_, fun index upper known => ?_,
    fun index upper handler target known member protects placed => ?_⟩
  · obtain ⟨entry, upper, entered, known, refines⟩ := certified.entry
    cases position with
    | zero =>
      obtain ⟨next, known', refines'⟩ := past upper known
      exact ⟨entry, next, entered, known', refines.trans refines'⟩
    | succ position =>
      have first : shifted (position + 1) 0 = 0 := if_pos (Nat.succ_pos position)
      exact ⟨entry, upper, entered, first ▸ known, refines⟩
  · obtain ⟨node, after, stands, notReturn, usable, executed, onward⟩ :=
      certified.onward _ upper known
    have stands := (node_shifted index).symm.trans stands
    refine ⟨node, after, stands, notReturn, usable,
      (kinds.effect_eq node index _ upper).trans executed, fun target leads => ?_⟩
    cases leads with
    | next found falls =>
      obtain ⟨next, known', refines⟩ :=
        onward _ ((leads_shifted inside).mpr (.inl ⟨_, found, falls, rfl⟩))
      by_cases before : index + 1 = position
      · subst before
        rw [shifted_before rfl] at known'
        obtain ⟨last, known'', refines'⟩ := past next known'
        exact ⟨last, known'', refines.trans refines'⟩
      · rw [← shifted_succ before] at known'
        exact ⟨next, known', refines⟩
    | jump found jumps placed =>
      exact onward _ ((leads_shifted inside).mpr (.inr ⟨_, _, target, found, jumps, placed, rfl⟩))
  · exact certified.caught _ upper handler _ known member ((protects_shifted inside).mpr protects)
      ((places_shifted inside).mpr placed)

end Certified

end Method

theorem SteadyAnalysis.of_codeless (codeless : method.flags.hasNoCode = true) :
    SteadyAnalysis domain owner method ⟨[], none, 0⟩ where
  analyzed := by simp [analyze, analyzeTraced, analyzeWithin, codeless]
  level _ _ _ _ _ _ found := nomatch found
  usable _ _ _ found := nomatch found

section Lines

variable (kinds : domain.OfKinds) (callless : method.HasNoCall)
  (inside : position ≤ method.nodes.length)

include kinds callless inside

theorem SteadyAnalysis.withoutLine {analysis' : Analysis ValueKind}
    (steady : SteadyAnalysis domain owner (method.insertLine position number) analysis') :
    ∃ analysis, SteadyAnalysis domain owner method analysis ∧
      ∀ index frame, analysis.frame? index = some frame →
        ∃ upper, analysis'.frame? (shifted position index) = some upper ∧ frame.Refines upper := by
  cases code : method.flags.hasNoCode with
  | true => exact ⟨_, .of_codeless code, fun _ _ found => nomatch found⟩
  | false =>
    have certified := steady.certified kinds ((Method.callless_insertLine inside).mpr callless) code
    exact (certified.withoutLine kinds inside).steady kinds callless
      ((Method.labelled_insertLine inside).mp (labelled_of_analyze code steady.analyzed)) code

/-- A method that is accepted steadily is so with a line, and the line changes no frame, where the
ranges of handlers end evenly. -/
theorem SteadyAnalysis.insertLine {analysis : Analysis ValueKind}
    (steady : SteadyAnalysis domain owner method analysis)
    (even : method.EndsEvenly domain analysis.frame? position) :
    ∃ analysis', SteadyAnalysis domain owner (method.insertLine position number) analysis' ∧
      ∀ index, analysis'.frame? (shifted position index) = analysis.frame? index := by
  cases code : method.flags.hasNoCode with
  | true =>
    refine ⟨_, .of_codeless code, fun index => ?_⟩
    cases steady.analyzed.symm.trans (SteadyAnalysis.of_codeless code).analyzed
    rfl
  | false =>
    have fits (index : Nat) (frame : Frame ValueKind) (found : analysis.frame? index = some frame) :
        frame.Fits method.kindShape := fits_of_analyze kinds code steady.analyzed found
    have callless' : (method.insertLine position number).HasNoCall :=
      (Method.callless_insertLine inside).mpr callless
    have labelled' : (method.insertLine position number).Labelled :=
      (Method.labelled_insertLine inside).mpr (labelled_of_analyze code steady.analyzed)
    have certified := steady.certified kinds callless code
    obtain ⟨analysis', steady', below⟩ :=
      (certified.insertLine kinds fits inside even).steady kinds callless' labelled' code
    refine ⟨analysis', steady', fun index => ?_⟩
    -- each analysis is certified by the other one's frames
    have above {frame' : Frame ValueKind}
        (found' : analysis'.frame? (shifted position index) = some frame') :
        ∃ frame, analysis.frame? index = some frame ∧ frame'.Refines frame := by
      obtain ⟨frame, found, refines⟩ := below _ frame' found'
      rw [Method.framesWithLine_shifted] at found
      exact ⟨frame, found, refines⟩
    obtain ⟨again, steady'', below'⟩ := steady'.withoutLine kinds callless inside
    cases steady.analyzed.symm.trans steady''.analyzed
    cases found : analysis.frame? index with
    | none =>
      cases found' : analysis'.frame? (shifted position index) with
      | none => rfl
      | some frame' =>
        obtain ⟨frame, known, -⟩ := above found'
        cases found.symm.trans known
    | some frame =>
      obtain ⟨frame', found', refines⟩ := below' index frame found
      obtain ⟨_, known, refines'⟩ := above found'
      cases found.symm.trans known
      have code' : (method.insertLine position number).flags.hasNoCode = false := code
      have fits' := fits_of_analyze kinds code' steady'.analyzed found'
      rw [found', refines.antisymm (fits index frame found).toHasShape fits'.toHasShape refines']

end Lines

/-- Where a line changes no frame, the ranges of handlers end evenly. -/
theorem Method.endsEvenly_of_insertLine (kinds : domain.OfKinds)
    (inside : position ≤ method.nodes.length) {analysis analysis' : Analysis ValueKind}
    (analyzed : analyze domain owner (method.insertLine position number) = .ok analysis')
    (same : ∀ index, analysis'.frame? (shifted position index) = analysis.frame? index) :
    method.EndsEvenly domain analysis.frame? position := by
  rintro index frame node after handler target caught rfl found stands falls executed member protects
    ends placed found'
  have code : (method.insertLine (index + 1) number).flags.hasNoCode = false :=
    code_of_frame analyzed ((same index).trans found)
  have fixed := FixedPoint.of_joins kinds.joins kinds.bounded.policy.narrows code analyzed
  have before : shifted (index + 1) index = index := shifted_before rfl
  obtain ⟨node', after', stands', executed', -, onward⟩ :=
    fixed.onward _ frame ((same index).trans found)
  cases ((Method.node_shifted index).trans stands).symm.trans stands'
  cases (kinds.effect_eq node index _ frame ▸ executed).symm.trans executed'
  obtain ⟨line, known, absorbs⟩ := onward (index + 1)
    ((Method.leads_shifted inside).mpr (.inl ⟨node, stands, falls, by rw [before]⟩))
  obtain ⟨_, last, placed', known', absorbs', -⟩ := fixed.caught (index + 1) line handler known member
    ((Method.protects_inserted inside).mpr ⟨index, rfl, protects, .inr ends⟩)
  obtain ⟨target', rfl, placed''⟩ := (places_insertLine inside).mp placed'
  have labelled := (labelled_insertLine inside).mp (labelled_of_analyze code analyzed)
  obtain rfl := labelled.once handler.handler target target' placed placed''
  cases known'.symm.trans ((same target).trans found')
  exact Frame.forall₂_trans (absorbs.locals.flip.imp fun _ _ => kinds.refines_of_absorbs)
    (absorbs'.flip.imp fun _ _ => kinds.refines_of_absorbs) fun _ _ _ => ValueKind.Refines.trans

theorem SteadyAnalysis.endsEvenly {analysis : Analysis ValueKind}
    (steady : SteadyAnalysis domain owner method analysis) (kinds : domain.OfKinds)
    (callless : method.HasNoCall)
    (keeps : ∀ index i, index + 1 = position → method.nodes[index]? = some (.instruction i) →
      i.keepsLocals = true) : method.EndsEvenly domain analysis.frame? position := by
  intro index frame node after handler target next before found stands _ executed member protects _
    placed found'
  have code := code_of_frame steady.analyzed found
  obtain ⟨caught, _, pushed, known, refines⟩ := (steady.certified kinds callless code).caught
    index frame handler target found member protects placed
  cases found'.symm.trans known
  have same : after.locals = caught.locals := by
    rw [(Frame.caught_of_push pushed).1]
    cases node with
    | label | line =>
      cases executed
      rfl
    | operation operation =>
      cases Frame.changesLocals_of_execute executed with
      | kept same => exact same
      | stored operated =>
        cases operated
        cases keeps index _ before stands
      | incremented operated =>
        cases operated
        cases keeps index _ before stands
  rw [same]
  exact refines.locals

/-- Line numbers are inert in methods without subroutines, as far as analyses are steady: a method is
accepted if it is with a line, and it is accepted with the line, which changes no frame, exactly if
the ranges of handlers end evenly at the position of the line. -/
theorem analyze_insertLine (kinds : domain.OfKinds) (callless : method.HasNoCall)
    (inside : position ≤ method.nodes.length) :
    (∀ analysis', SteadyAnalysis domain owner (method.insertLine position number) analysis' →
      ∃ analysis, SteadyAnalysis domain owner method analysis) ∧
    ∀ analysis, SteadyAnalysis domain owner method analysis →
      (method.EndsEvenly domain analysis.frame? position →
        ∃ analysis', SteadyAnalysis domain owner (method.insertLine position number) analysis' ∧
          ∀ index, analysis'.frame? (shifted position index) = analysis.frame? index) ∧
      ∀ analysis', analyze domain owner (method.insertLine position number) = .ok analysis' →
        (∀ index, analysis'.frame? (shifted position index) = analysis.frame? index) →
          method.EndsEvenly domain analysis.frame? position := by
  refine ⟨fun analysis' steady' => ?_, fun analysis steady => ⟨?_, fun analysis' => ?_⟩⟩
  · obtain ⟨analysis, steady, -⟩ := steady'.withoutLine kinds callless inside
    exact ⟨analysis, steady⟩
  · exact steady.insertLine kinds callless inside
  · exact Method.endsEvenly_of_insertLine kinds inside

/-- Does nothing at the end of a range whose handler loads the integer that was stored before. -/
def idleAtEnd : Method where
  flags := .static
  name := ⟨"idle".toList, by decide⟩
  descriptor := ⟨[], none⟩
  nodes := [.instruction (.shortConstant .int0), .instruction (.store .int 0), .label ⟨0⟩,
    .instruction .nop, .label ⟨1⟩, .branch .voidReturn, .label ⟨2⟩, .instruction (.shuffle .pop),
    .instruction (.load .int 0), .instruction (.shuffle .pop), .branch .voidReturn]
  handlers := [⟨⟨0⟩, ⟨1⟩, ⟨2⟩, none⟩]
  maxStack := 1
  maxLocals := 1

def idleAtEndAnalysis : Analysis ValueKind :=
  let frame (slot : ValueKind) (stack : List ValueKind) : Frame ValueKind :=
    ⟨[slot], .ofList stack, some 1, none⟩
  ⟨[frame .unusable [], frame .unusable [.int], frame .int [], frame .int [], frame .int [],
    frame .int [], frame .int [.reference], frame .int [.reference], frame .int [],
    frame .int [.int], frame .int []].map some, frame .unusable [], 11⟩

theorem idleAtEnd_steady :
    SteadyAnalysis ValueKind.verifier .object idleAtEnd idleAtEndAnalysis where
  analyzed := by cbv
  level index target frame node after next found stands executed leads found' := by
    cases leads with
    | next stands' falls =>
      cases stands.symm.trans stands'
      rcases index with _ | _ | _ | _ | _ | _ | _ | _ | _ | _ | _ | index <;> cases found <;>
        cases stands <;> cases found' <;> cases executed
      all_goals first | rfl | cases falls
    | jump stands' jumps =>
      rcases index with _ | _ | _ | _ | _ | _ | _ | _ | _ | _ | _ | index <;> cases stands'
      all_goals cases jumps
  usable index frame node found stands := by
    rintro kind slot rfl
    rcases index with _ | _ | _ | _ | _ | _ | _ | _ | _ | _ | _ | index <;> cases stands
    cases found
    intro unusable
    cases unusable

/-- Control comes to a line at the end of the range, which the handler covers from there on, and no frame
changes. -/
theorem idleAtEnd_insertLine : ∃ analysis',
    SteadyAnalysis ValueKind.verifier .object idleAtEnd idleAtEndAnalysis ∧
      idleAtEnd.EndsEvenly ValueKind.verifier idleAtEndAnalysis.frame? 4 ∧
      SteadyAnalysis ValueKind.verifier .object (idleAtEnd.insertLine 4 7) analysis' ∧
      (∃ frame, analysis'.frame? 4 = some frame ∧ frame.locals = [.int]) ∧
      ∀ index, analysis'.frame? (shifted 4 index) = idleAtEndAnalysis.frame? index := by
  have kinds : Domain.OfKinds ValueKind.verifier := ValueKind.verifier_ofKinds
  have callless : idleAtEnd.HasNoCall := by
    simp [Method.HasNoCall, idleAtEnd, Node.branch, Node.instruction]
  have even : idleAtEnd.EndsEvenly ValueKind.verifier idleAtEndAnalysis.frame? 4 := by
    refine idleAtEnd_steady.endsEvenly kinds callless fun index i before stands => ?_
    obtain rfl : index = 3 := Nat.succ.inj before
    cases stands
    rfl
  obtain ⟨analysis', steady', same⟩ :=
    ((analyze_insertLine kinds callless (by decide)).2 _ idleAtEnd_steady).1 even
  have line : (analyze ValueKind.verifier .object (idleAtEnd.insertLine 4 7)).map
      (fun analysis => (analysis.frame? 4).map Frame.locals) = .ok (some [.int]) := by cbv
  rw [steady'.analyzed] at line
  exact ⟨analysis', idleAtEnd_steady, even, steady', Option.map_eq_some_iff.mp (Except.ok.inj line),
    same⟩

/-- Stores an integer over a float at the end of a range whose handler loads the float. -/
def storeAtEnd : Method where
  flags := .static
  name := ⟨"store".toList, by decide⟩
  descriptor := ⟨[], none⟩
  nodes := [.instruction (.shortConstant .float0), .instruction (.store .float 0), .label ⟨0⟩,
    .instruction (.shortConstant .int0), .instruction (.store .int 0), .label ⟨1⟩,
    .branch .voidReturn, .label ⟨2⟩, .instruction (.shuffle .pop), .instruction (.load .float 0),
    .instruction (.shuffle .pop), .branch .voidReturn]
  handlers := [⟨⟨0⟩, ⟨1⟩, ⟨2⟩, none⟩]
  maxStack := 1
  maxLocals := 1

/-- Comes back with a double to where it has gone with a long. -/
def crossedWides : Method where
  flags := .static
  name := ⟨"widths".toList, by decide⟩
  descriptor := ⟨[.base .int], none⟩
  nodes := [.instruction (.shortConstant .long0), .instruction (.load .int 0),
    .branch (.ifZero .eq ⟨1⟩), .label ⟨0⟩, .instruction .nop, .branch .voidReturn, .label ⟨1⟩,
    .instruction (.shuffle .pop2), .instruction (.shortConstant .double0), .branch (.goto ⟨0⟩)]
  handlers := []
  maxStack := 3
  maxLocals := 1

/-- Loads a local that holds an integer or a long. -/
def blindLoad : Method where
  flags := .static
  name := ⟨"load".toList, by decide⟩
  descriptor := ⟨[.base .int], none⟩
  nodes := [.instruction (.shortConstant .int0), .instruction (.store .int 1),
    .instruction (.load .int 0), .branch (.ifZero .eq ⟨1⟩), .label ⟨0⟩, .instruction (.load .long 1),
    .instruction (.shuffle .pop), .branch .voidReturn, .label ⟨1⟩,
    .instruction (.shortConstant .long0), .instruction (.store .long 1), .branch (.goto ⟨0⟩)]
  handlers := []
  maxStack := 2
  maxLocals := 3

/-- Runs into a subroutine that it also calls. -/
def sharedReturn : Method where
  flags := .static
  name := ⟨"share".toList, by decide⟩
  descriptor := ⟨[.base .int], none⟩
  nodes := [.instruction (.load .int 0), .branch (.ifZero .eq ⟨1⟩), .label ⟨0⟩, .branch (.jsr ⟨2⟩),
    .branch .voidReturn, .label ⟨1⟩, .instruction (.load .int 0), .branch (.ifZero .eq ⟨0⟩),
    .instruction (.shortConstant .int0), .label ⟨2⟩, .instruction (.store .reference 1),
    .branch (.ret 1)]
  handlers := []
  maxStack := 1
  maxLocals := 2

/-- The control flow of `sharedReturn` with so many lines before its first label. -/
def sharedReturnFlow (lines : Nat) : Flow :=
  [⟨.instruction (.load .int 0), []⟩, ⟨.branch (.ifZero .eq ⟨1⟩) (.ifZero .eq (lines + 5)), []⟩] ++
    List.replicate (lines + 1) ⟨.idle, []⟩ ++
    [⟨.branch (.jsr ⟨2⟩) (.jsr (lines + 9)), []⟩, ⟨.branch .voidReturn .voidReturn, []⟩, ⟨.idle, []⟩,
      ⟨.instruction (.load .int 0), []⟩, ⟨.branch (.ifZero .eq ⟨0⟩) (.ifZero .eq (lines + 2)), []⟩,
      ⟨.instruction (.shortConstant .int0), []⟩, ⟨.idle, []⟩,
      ⟨.instruction (.store .reference 1), []⟩, ⟨.branch (.ret 1) (.ret 1), []⟩]

theorem sharedReturn_marks {lines : Nat} (few : lines < 2) :
    (sharedReturnFlow lines).subroutines 2 = .ok (List.replicate (lines + 12) none) := by
  let body : Option Subroutine := some (.fresh none 2 none)
  have walked : markFrom (sharedReturnFlow lines) (.fresh none 2 none)
      (List.replicate (lines + 12) none) [] [(0, none)] =
        .ok (List.replicate (lines + 12) body, [lines + 3]) := by
    interval_cases lines <;> cbv
  have walked' : markFrom (sharedReturnFlow lines) (.fresh (some (lines + 9)) 2 (some (lines + 3)))
      (List.replicate (lines + 12) body) [] [(lines + 9, none)] =
        .ok (List.replicate (lines + 12) body, []) := by
    interval_cases lines <;> cbv
  have called : (sharedReturnFlow lines).called? (lines + 3) = some (lines + 9) := by
    interval_cases lines <;> rfl
  have length : (sharedReturnFlow lines).length = lines + 12 := by
    interval_cases lines <;> rfl
  simp only [Flow.subroutines, bind_eq_ok, Prod.exists, length]
  refine ⟨_, _, walked, List.replicate (lines + 12) body, ?_, ?_⟩
  · rw [markCalls_enter called rfl walked', markCalls]
  · rw [List.map_replicate]
    rfl

/-- The analysis of `sharedReturn` and of its code with a line differ: the `ret` is only accepted once
the call has been seen. -/
theorem sharedReturn_isOk : (analyze ValueKind.domain .object sharedReturn).isOk = false ∧
    (analyze ValueKind.domain .object (sharedReturn.insertLine 2 1)).isOk = true := by
  constructor
  · refine (isOk_of_solve (by decide) (by cbv) (@sharedReturn_marks 0 (by decide)) rfl).trans ?_
    cbv
  · refine (isOk_of_solve (by decide) (by cbv) (@sharedReturn_marks 1 (by decide)) rfl).trans ?_
    cbv

/-- A line may be covered by a range that ended before it, and it may change the order in which widths
are lost on the stack or in a local, and that in which calls and returns are met. -/
theorem insertLine_matters :
    ((analyze ValueKind.verifier .object storeAtEnd).isOk = true ∧
      (analyze ValueKind.verifier .object (storeAtEnd.insertLine 5 1)).isOk = false) ∧
    ((analyze ValueKind.verifier .object crossedWides).isOk = true ∧
      (analyze ValueKind.verifier .object (crossedWides.insertLine 3 1)).isOk = false) ∧
    ((analyze ValueKind.domain .object blindLoad).isOk = true ∧
      (analyze ValueKind.domain .object (blindLoad.insertLine 4 1)).isOk = false) ∧
    (analyze ValueKind.domain .object sharedReturn).isOk = false ∧
      (analyze ValueKind.domain .object (sharedReturn.insertLine 2 1)).isOk = true :=
  ⟨⟨by cbv, by cbv⟩, ⟨by cbv, by cbv⟩, ⟨by cbv, by cbv⟩, sharedReturn_isOk⟩

end MethodFlow
