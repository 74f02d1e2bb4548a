import MethodFlow.Proofs.Listing.Mentions
import MethodFlow.Proofs.Listing.Steps

namespace MethodFlow

open MethodFlow.Text

/-- The names that a class mentions outside of the code of its methods. -/
def ClassListing.declaredNames (entry : ClassListing) : List (List Char) :=
  entry.info.names ++ entry.methods.flatMap (·.method.declaredNames)

def ClassListing.nodes (entry : ClassListing) : List Node :=
  entry.methods.flatMap (·.method.nodes)

/-- The names that a class declares, one kind after the other. -/
theorem ClassListing.solid_iff {entry : ClassListing} :
    (∀ name ∈ entry.declaredNames, Solid name) ↔
      Solid entry.info.name.chars ∧ (∀ name ∈ entry.info.superclass, Solid name.chars) ∧
        (∀ name ∈ entry.info.interfaces, Solid name.chars) ∧
        ∀ listed ∈ entry.methods, ∀ name ∈ listed.method.declaredNames, Solid name := by
  simp only [ClassListing.declaredNames, ClassInfo.names, List.forall_mem_append,
    List.forall_mem_map, List.forall_mem_cons, List.cons_append, List.forall_mem_flatMap,
    Option.mem_toList, Option.mem_def, and_assoc]

namespace Listing

def declaredNames (listing : Listing) : List (List Char) :=
  listing.classes.flatMap ClassListing.declaredNames

/-- The nodes of all methods. -/
def nodes (listing : Listing) : List Node := listing.classes.flatMap ClassListing.nodes

/-- All names in a listing. -/
def names (listing : Listing) : List (List Char) :=
  listing.declaredNames ++ listing.nodes.flatMap Node.names

namespace Progress

variable {owner : BinaryName} {progress next : Progress} {line : List Char} {method : OpenMethod}

/-- What a change of the open class keeps of all classes, if it holds of the default owner. -/
theorem forall_updateClass {kept : ClassListing → Prop} {change : ClassListing → ClassListing}
    (before : ∀ entry ∈ progress.classes, kept entry)
    (default : kept (opened owner (some .object) false))
    (changed : ∀ entry, kept entry → kept (change entry)) :
    ∀ entry ∈ (progress.updateClass owner change).classes, kept entry := by
  obtain ⟨classes, current⟩ := progress
  cases classes with
  | nil => simpa [updateClass] using changed _ default
  | cons latest earlier =>
    rw [List.forall_mem_cons] at before
    simp only [updateClass, List.forall_mem_cons]
    exact ⟨changed latest before.1, before.2⟩

/-- No name outside of the code that has been read contains a blank. -/
structure DeclaresSolid (progress : Progress) : Prop where
  classes : ∀ entry ∈ progress.classes, ∀ name ∈ entry.declaredNames, Solid name
  current : ∀ method ∈ progress.current, ∀ name ∈ method.builder.method.declaredNames, Solid name

theorem solid_object : Solid BinaryName.object.chars := by decide

theorem DeclaresSolid.withMethod (before : progress.DeclaresSolid)
    (solid : ∀ name ∈ method.builder.method.declaredNames, Solid name) :
    (progress.withMethod method).DeclaresSolid := by
  refine ⟨before.classes, ?_⟩
  intro method' found
  cases found
  exact solid

theorem DeclaresSolid.updateClass {change : ClassListing → ClassListing}
    (before : progress.DeclaresSolid) (ownerSolid : Solid owner.chars)
    (changed : ∀ entry, (∀ name ∈ ClassListing.declaredNames entry, Solid name) →
      ∀ name ∈ (change entry).declaredNames, Solid name) :
    (progress.updateClass owner change).DeclaresSolid := by
  have default : ∀ name ∈ (opened owner (some .object) false).declaredNames, Solid name := by
    simp [ClassListing.declaredNames, ClassInfo.names, opened, ownerSolid, solid_object]
  refine ⟨forall_updateClass before.classes default changed, ?_⟩
  rw [current_updateClass]
  exact before.current

/-- What a step declares is read from words, but for the default owner. -/
theorem Step.declaresSolid (step : Step owner progress line next) (ownerSolid : Solid owner.chars)
    (before : progress.DeclaresSolid) : next.DeclaresSolid := by
  have word {word : List Char} (member : word ∈ words line) : Solid word :=
    solid_of_mem_words member
  cases step with
  | blank => exact before
  | closeClass => exact before
  | @openClass keyword modifiers name isInterface outside isHeader worded =>
    have named : Solid name.chars := word (by simp [worded])
    refine ⟨?_, before.current⟩
    rw [List.forall_mem_cons]
    refine ⟨?_, before.classes⟩
    unfold opened
    split <;> simp [ClassListing.declaredNames, ClassInfo.names, named, solid_object]
  | @superclass name outside worded =>
    have named : Solid name.chars := word (by simp [worded])
    refine before.updateClass ownerSolid fun entry solid => ?_
    rw [ClassListing.solid_iff] at solid ⊢
    exact ⟨solid.1, by simpa using named, solid.2.2⟩
  | @implements name outside worded =>
    have named : Solid name.chars := word (by simp [worded])
    refine before.updateClass ownerSolid fun entry solid => ?_
    rw [ClassListing.solid_iff] at solid ⊢
    refine ⟨solid.1, solid.2.1, ?_, solid.2.2.2⟩
    rw [List.forall_mem_append]
    exact ⟨solid.2.2.1, by simpa using named⟩
  | @openMethod modifiers flags name descriptor outside worded =>
    have signed : Solid (name.chars ++ descriptor.render) := word (by simp [worded])
    rw [solid_append, descriptor.solid_render] at signed
    refine before.withMethod ?_
    simpa [Method.declaredNames, MethodBuilder.empty, Method.empty] using signed
  | limit inside worded same =>
    refine before.withMethod ?_
    rw [same]
    exact before.current _ inside
  | @handler method method' arguments handler inside worded caught added =>
    have kept := before.current _ inside
    refine before.withMethod ?_
    rw [added]
    simp only [Method.declaredNames, MethodBuilder.addHandler, List.flatMap_append,
      List.forall_mem_append] at kept ⊢
    refine ⟨kept.1, kept.2, ?_⟩
    rw [List.flatMap_singleton, ExceptionHandler.names, List.forall_mem_map]
    intro type found
    refine word ?_
    rw [worded]
    exact List.mem_cons_of_mem _ (caught type (Option.mem_toList.mp found))
  | lineNumber inside worded =>
    have kept := before.current _ inside
    exact before.withMethod kept
  | closeMethod inside worded =>
    have outside : DeclaresSolid { progress with current := none } :=
      ⟨before.classes, fun _ opened => by cases opened⟩
    refine outside.updateClass ownerSolid fun entry solid => ?_
    rw [ClassListing.solid_iff] at solid ⊢
    refine ⟨solid.1, solid.2.1, solid.2.2.1, ?_⟩
    rw [List.forall_mem_append]
    refine ⟨solid.2.2.2, ?_⟩
    rw [List.forall_mem_singleton]
    exact before.current _ inside
  | code inside plain read =>
    have kept := before.current _ inside
    refine before.withMethod ?_
    rcases OpenMethod.line_gains read with ⟨-, label, gains⟩ | ⟨labels, op, -, gains⟩
    · rw [gains]
      exact kept
    · rw [gains]
      exact kept

/-- The nodes that have been read. -/
def nodes (progress : Progress) : List Node :=
  progress.classes.flatMap ClassListing.nodes ++
    progress.current.toList.flatMap (·.builder.method.nodes)

theorem nodes_updateClass {change : ClassListing → ClassListing}
    (kept : ∀ entry, (change entry).methods = entry.methods) :
    (progress.updateClass owner change).nodes = progress.nodes := by
  obtain ⟨classes, current⟩ := progress
  cases classes with
  | nil => simp [updateClass, nodes, ClassListing.nodes, kept, opened]
  | cons latest earlier => simp [updateClass, nodes, ClassListing.nodes, kept]

theorem mem_nodes_closeMethod (inside : progress.current = some method) {node : Node} :
    node ∈ (progress.closeMethod owner method).nodes ↔ node ∈ progress.nodes := by
  have finished : method.finish.method.nodes = method.builder.method.nodes := rfl
  obtain ⟨classes, current⟩ := progress
  obtain rfl : current = some method := inside
  cases classes with
  | nil => simp [Progress.closeMethod, updateClass, nodes, ClassListing.nodes, opened, finished]
  | cons latest earlier =>
    simp only [Progress.closeMethod, updateClass, nodes, ClassListing.nodes, List.flatMap_cons,
      List.flatMap_append, List.flatMap_nil, List.append_nil, List.mem_append, Option.toList_none,
      Option.toList_some, finished]
    rw [or_right_comm]

/-- A method in progress has the nodes it had, and those that a line adds. -/
theorem mem_nodes_withMethod {method' : OpenMethod} {added : List Node}
    (inside : progress.current = some method)
    (gains : method'.builder.method.nodes = method.builder.method.nodes ++ added) {node : Node} :
    node ∈ (progress.withMethod method').nodes ↔ node ∈ progress.nodes ∨ node ∈ added := by
  simp [nodes, inside, gains, or_assoc]

/-- A directive adds no node that mentions a name. -/
theorem Step.mem_nodes_of_pointed (step : Step owner progress line next)
    (pointed : line.head? = some '.') :
    ∃ added : List Node, (∀ node ∈ added, node.names = []) ∧
      ∀ node, node ∈ next.nodes ↔ node ∈ progress.nodes ∨ node ∈ added := by
  cases step with
  | blank empty => simp [empty] at pointed
  | code inside plain read => exact absurd pointed plain
  | openClass outside => exact ⟨[], by simp, by simp [nodes, ClassListing.nodes, opened]⟩
  | superclass outside => exact ⟨[], by simp, by simp [nodes_updateClass]⟩
  | implements outside => exact ⟨[], by simp, by simp [nodes_updateClass]⟩
  | openMethod outside =>
    exact ⟨[], by simp, by simp [nodes, outside, MethodBuilder.empty, Method.empty]⟩
  | limit inside worded same =>
    exact ⟨[], by simp, fun node => mem_nodes_withMethod inside (by rw [same, List.append_nil])⟩
  | handler inside worded caught added =>
    refine ⟨[], by simp, fun node => mem_nodes_withMethod inside ?_⟩
    rw [added, List.append_nil]
    rfl
  | @lineNumber method token number inside worded =>
    exact ⟨[.line number], by simp [Node.names], fun node => mem_nodes_withMethod inside rfl⟩
  | closeMethod inside => exact ⟨[], by simp, by simp [mem_nodes_closeMethod inside]⟩
  | closeClass => exact ⟨[], by simp, by simp⟩

/-- A step adds names with blanks to the nodes just where the line loads one, and only to loads of
constants. -/
theorem Step.mem_nodes (step : Step owner progress line next)
    (solid : ∀ c ∈ line.head?, isBlank c = false) :
    ∃ added : List Node,
      ((∀ node ∈ added, ∀ name ∈ node.names, Solid name) ↔
          loadsSpread (instructionText line) = false) ∧
        (∀ node ∈ added, (∃ constant, node = .instruction (.loadConstant constant)) ∨
          ∀ name ∈ node.names, Solid name) ∧
        ∀ node, node ∈ next.nodes ↔ node ∈ progress.nodes ∨ node ∈ added := by
  have silent : loadsSpread [] = false := rfl
  have nameless {added : List Node} (none : ∀ node ∈ added, node.names = []) :
      ∀ node ∈ added, ∀ name ∈ node.names, Solid name := by
    intro node member
    simp [none node member]
  rcases step.begins solid with ⟨rfl, rfl⟩ | pointed | ⟨method, method', inside, plain, read, rfl⟩
  · exact ⟨[], by simp [instructionText, unlabelled, dropLast?, silent], by simp, by simp⟩
  · obtain ⟨added, none, members⟩ := step.mem_nodes_of_pointed pointed
    have quiet : loadsSpread (instructionText line) = false := by
      rw [instructionText, if_pos pointed, silent]
    exact ⟨added, iff_of_true (nameless none) quiet,
      fun node member => .inr (nameless none node member), members⟩
  · rw [instructionText, if_neg plain]
    rcases OpenMethod.line_gains read with ⟨empty, label, gains⟩ | ⟨labels, op, found, gains⟩
    · refine ⟨[.label label], ?_, by simp [Node.names], fun node => ?_⟩
      · simp [empty, silent, Node.names]
      · exact mem_nodes_withMethod inside (congrArg Method.nodes gains)
    · obtain ⟨exact, only⟩ := found.solid_iff
      refine ⟨labels.map .label ++ [.operation op], ?_, ?_, fun node => ?_⟩
      · rw [← exact]
        simp [or_imp, forall_and, Node.names]
      · intro node member
        rcases List.mem_append.mp member with placed | last
        · obtain ⟨label, -, rfl⟩ := List.mem_map.mp placed
          exact .inr (by simp [Node.names])
        · obtain rfl := List.mem_singleton.mp last
          rcases only with ⟨constant, rfl⟩ | named
          · exact .inl ⟨constant, rfl⟩
          · exact .inr named
      · exact mem_nodes_withMethod inside (congrArg Method.nodes gains)

variable {last : Progress} {number : Nat} {texts : List (List Char)}

theorem readLines_declaresSolid (ownerSolid : Solid owner.chars)
    (read : progress.readLines owner number texts = .ok last) (before : progress.DeclaresSolid) :
    last.DeclaresSolid := by
  induction texts generalizing progress number with
  | nil =>
    obtain ⟨-, rfl⟩ := readLines_nil_eq_ok.mp read
    exact before
  | cons text texts ih =>
    obtain ⟨next, first, further⟩ := readLines_cons_eq_ok.mp read
    exact ih further ((trimmedLine_step first).declaresSolid ownerSolid before)

/-- Only nodes that load constants mention names with blanks, and none does just if no line loads
such a name. -/
theorem readLines_nodes (read : progress.readLines owner number texts = .ok last) :
    ((∀ node ∈ last.nodes, ∀ name ∈ node.names, Solid name) ↔
        (∀ node ∈ progress.nodes, ∀ name ∈ node.names, Solid name) ∧
          ∀ text ∈ texts, hasSpreadLoad text = false) ∧
      ∀ node ∈ last.nodes, node ∈ progress.nodes ∨
        (∃ constant, node = .instruction (.loadConstant constant)) ∨
          ∀ name ∈ node.names, Solid name := by
  induction texts generalizing progress number with
  | nil =>
    obtain ⟨-, rfl⟩ := readLines_nil_eq_ok.mp read
    exact ⟨by simp, fun node member => .inl member⟩
  | cons text texts ih =>
    obtain ⟨next, first, further⟩ := readLines_cons_eq_ok.mp read
    obtain ⟨added, exact, only, members⟩ :=
      (trimmedLine_step first).mem_nodes (head?_trim (uncomment text))
    obtain ⟨solid, allowed⟩ := ih further
    constructor
    · rw [solid, List.forall_mem_cons, hasSpreadLoad, ← exact, ← and_assoc]
      simp only [members, or_imp, forall_and]
    · intro node member
      rcases allowed node member with before | rest
      · rcases (members node).mp before with old | new
        · exact .inl old
        · exact .inr (only node new)
      · exact .inr rest

end Progress

/-- In an accepted listing only loads of constants mention names with blanks. There are none exactly
if no line loads a type or method with a blank in what says which. -/
theorem parse_names {text : String} {owner : BinaryName} {listing : Listing}
    (ownerSolid : Solid owner.chars) (accepted : parse text owner = .ok listing) :
    (∀ name ∈ listing.declaredNames, Solid name) ∧
      (∀ node ∈ listing.nodes, (∃ constant, node = .instruction (.loadConstant constant)) ∨
        ∀ name ∈ node.names, Solid name) ∧
      ((∀ name ∈ listing.names, Solid name) ↔
        ∀ line ∈ lines text.toList, hasSpreadLoad line = false) := by
  obtain ⟨last, read, rfl⟩ := parse_eq_ok.mp accepted
  have declared : ∀ name ∈ declaredNames ⟨last.classes.reverse⟩, Solid name := by
    have solid := (Progress.readLines_declaresSolid ownerSolid read
      ⟨by simp [Progress.start], nofun⟩).classes
    unfold declaredNames
    rw [List.forall_mem_flatMap]
    exact fun entry member => solid entry (List.mem_reverse.mp member)
  have members : ∀ node, node ∈ nodes ⟨last.classes.reverse⟩ ↔ node ∈ last.nodes := by
    simp [nodes, Progress.nodes, Progress.current_of_readLines read]
  obtain ⟨solid, allowed⟩ := Progress.readLines_nodes read
  have fresh : ∀ node, node ∉ Progress.start.nodes := by simp [Progress.nodes, Progress.start]
  refine ⟨declared, ?_, ?_⟩
  · intro node member
    exact (allowed node ((members node).mp member)).resolve_left (fresh node)
  · have none : ∀ node ∈ Progress.start.nodes, ∀ name ∈ node.names, Solid name :=
      fun node member => absurd member (fresh node)
    rw [names, List.forall_mem_append, and_iff_right declared, List.forall_mem_flatMap]
    simp only [members]
    exact solid.trans (and_iff_right none)

/-- Names of a class, of types and of a field, and a string with a blank. -/
def naming : String :=
  ".class p/A\n.method static f(Lp/B;)V\nldc class [Lp/C;\nldc \"no name\"\nputfield p/A/g I\n" ++
    "return\n.end method\n"

theorem naming_solid :
    ∃ listing, parse naming .main = .ok listing ∧ ∀ name ∈ listing.names, Solid name := by
  obtain ⟨accepted, joined⟩ : (parse naming .main).isOk = true ∧
      ∀ line ∈ lines naming.toList, hasSpreadLoad line = false := by
    decide +kernel
  obtain ⟨listing, read⟩ := isOk_iff.mp accepted
  obtain ⟨-, -, solid⟩ := parse_names (show Solid BinaryName.main.chars by decide) read
  exact ⟨listing, read, solid.mpr joined⟩

/-- A handle with a blank before its descriptor. -/
def handling : String :=
  ".method static f()V\nldc methodhandle a/B/f ()V\nreturn\n.end method\n"

/-- The blank is taken for the end of the name of the method. -/
theorem handling_blank : Solid BinaryName.main.chars ∧
    ∃ listing, parse handling .main = .ok listing ∧
      ¬ ∀ name ∈ listing.names, Solid name := by
  have read : (parse handling .main).toOption.map names =
      some ["Main".toList, "java/lang/Object".toList, "f".toList, "a/B".toList, "f ".toList] := by
    decide +kernel
  have blank : ¬ Solid "f ".toList := by decide
  refine ⟨by decide, ?_⟩
  cases accepted : parse handling .main with
  | error failure => simp [accepted, Except.toOption] at read
  | ok listing =>
    have found : "f ".toList ∈ listing.names := by
      simp only [accepted, Except.toOption, Option.map_some, Option.some.injEq] at read
      simp [read]
    exact ⟨listing, rfl, fun solid => blank (solid _ found)⟩

end Listing

end MethodFlow
