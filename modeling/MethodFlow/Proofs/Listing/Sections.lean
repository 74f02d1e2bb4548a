import MethodFlow.Proofs.Listing.Steps

/-! The classes that methods belong to. A listing falls into sections: the lines before the first
class, and the lines of each class up to the next. A class gets the methods of its section, in order,
also those after its end; methods before the first class belong to the default owner. -/

namespace MethodFlow

open MethodFlow.Text

/-- The name and the descriptor of a method, as they are declared. -/
def MethodListing.signature (listed : MethodListing) : List Char :=
  listed.method.name.chars ++ listed.method.descriptor.render

/-- The name of a class and the signatures of its methods. -/
def ClassListing.outline (entry : ClassListing) : List Char × List (List Char) :=
  (entry.info.name.chars, entry.methods.map MethodListing.signature)

namespace Listing

def outline (listing : Listing) : List (List Char × List (List Char)) :=
  listing.classes.map ClassListing.outline

/-- The signature of each method, after the name of its class. -/
def signatures (listing : Listing) : List (List Char × List Char) :=
  listing.methods.map fun (info, listed) => (info.name.chars, listed.signature)

/-- What a line declares. -/
inductive Declaration where
  | header (name : List Char)
  | method (signature : List Char)
  | classEnd
  | other
deriving DecidableEq

/-- The method that is declared, if one is. -/
def Declaration.signatures : Declaration → List (List Char)
  | .method signature => [signature]
  | _ => []

/-- The last word of a line says which class or method it declares. -/
def declared (line : List Char) : Declaration :=
  match words line with
  | [] => .other
  | keyword :: arguments =>
    if keyword = ".class".toList ∨ keyword = ".interface".toList then
      .header (arguments.getLastD [])
    else if keyword = ".method".toList then .method (arguments.getLastD [])
    else if keyword = ".end".toList ∧ arguments = ["class".toList] then .classEnd
    else .other

/-- Only what begins with a point declares anything. -/
theorem declared_of_plain {line : List Char} (solid : ∀ c ∈ line.head?, isBlank c = false)
    (plain : line.head? ≠ some '.') : declared line = .other := by
  unfold declared
  split
  · rfl
  · rename_i keyword arguments worded
    rw [head?_of_words solid worded] at plain
    have other {directive : List Char} (pointed : directive.head? = some '.') :
        keyword ≠ directive := by
      rintro rfl
      exact plain pointed
    rw [if_neg, if_neg (other rfl), if_neg]
    · exact fun ended => other rfl ended.1
    · exact fun header => header.elim (other rfl) (other rfl)

/-- What a line declares, which may end in a comment. -/
def declaration (line : List Char) : Declaration := declared (trim (uncomment line))

/-- The methods that lines declare before the first class, and each class with those up to the
next. -/
def sections : List (List Char) → List (List Char) × List (List Char × List (List Char))
  | [] => ([], [])
  | line :: rest =>
    let (leading, classes) := sections rest
    match declaration line with
    | .header name => ([], (name, leading) :: classes)
    | declares => (declares.signatures ++ leading, classes)

/-- The methods that lines declare, each after the class that is open: the one declared last, unless
it has ended, or else the owner. -/
def openSignatures (owner : List Char) (current : Option (List Char)) :
    List (List Char) → List (List Char × List Char)
  | [] => []
  | line :: rest =>
    match declaration line with
    | .header name => openSignatures owner (some name) rest
    | .method signature => (current.getD owner, signature) :: openSignatures owner current rest
    | .classEnd => openSignatures owner none rest
    | .other => openSignatures owner current rest

/-- Is no method declared between the end of a class and the next class? -/
def endsLast : List (List Char) → Bool
  | [] => true
  | line :: rest =>
    (declaration line != .classEnd || (sections rest).1.isEmpty) && endsLast rest

theorem openSignatures_of_endsLast {owner : List Char} {texts : List (List Char)}
    (last : endsLast texts = true) (current : Option (List Char)) :
    openSignatures owner current texts =
      (sections texts).1.map (Prod.mk (current.getD owner)) ++
        (sections texts).2.flatMap fun (name, methods) => methods.map (Prod.mk name) := by
  induction texts generalizing current with
  | nil => rfl
  | cons line rest ih =>
    simp only [endsLast, Bool.and_eq_true] at last
    obtain ⟨here, later⟩ := last
    cases declares : declaration line with
    | header name => simp [openSignatures, sections, declares, ih later]
    | method signature =>
      simp [openSignatures, sections, declares, Declaration.signatures, ih later]
    | other => simp [openSignatures, sections, declares, Declaration.signatures, ih later]
    | classEnd =>
      have empty : (sections rest).1 = [] := by simpa [declares] using here
      simp [openSignatures, sections, declares, Declaration.signatures, ih later, empty]

/-- Classes, the latest first, after the latest has got further methods. Without a class the owner
gets them, and may come to be there without getting any. -/
def Gets (owner : List Char) (further : List (List Char))
    (before after : List (List Char × List (List Char))) : Prop :=
  match before with
  | [] => after = [(owner, further)] ∨ after = [] ∧ further = []
  | (name, methods) :: earlier => after = (name, methods ++ further) :: earlier

section Gets

variable {owner : List Char} {further more : List (List Char)}
  {before between after : List (List Char × List (List Char))}

theorem Gets.refl (owner : List Char) (before : List (List Char × List (List Char))) :
    Gets owner [] before before := by
  cases before with
  | nil => exact .inr ⟨rfl, rfl⟩
  | cons latest earlier => simp [Gets]

theorem Gets.trans (gets : Gets owner further before between)
    (gets' : Gets owner more between after) : Gets owner (further ++ more) before after := by
  cases before with
  | nil =>
    rcases gets with rfl | ⟨rfl, rfl⟩
    · exact .inl gets'
    · exact gets'
  | cons latest earlier =>
    subst gets
    simpa [Gets] using gets'

end Gets

namespace Progress

variable {owner : BinaryName} {progress next : Progress} {line : List Char} {method : OpenMethod}

/-- The classes as they were if the open method were closed. -/
def settled (progress : Progress) (owner : BinaryName) : List ClassListing :=
  match progress.current with
  | none => progress.classes
  | some method => (progress.closeMethod owner method).classes

def outline (progress : Progress) (owner : BinaryName) : List (List Char × List (List Char)) :=
  (progress.settled owner).map ClassListing.outline

theorem outline_outside (outside : progress.current = none) (owner : BinaryName) :
    progress.outline owner = progress.classes.map ClassListing.outline := by
  rw [outline, settled, outside]

/-- What the open class gets, the classes get, the default owner before any other. -/
theorem gets_updateClass (progress : Progress) {change : ClassListing → ClassListing}
    {further : List (List Char)} (changed : ∀ entry : ClassListing,
      (change entry).outline = (entry.outline.1, entry.outline.2 ++ further)) :
    Gets owner.chars further (progress.classes.map ClassListing.outline)
      ((progress.updateClass owner change).classes.map ClassListing.outline) := by
  obtain ⟨classes, current⟩ := progress
  cases classes with
  | nil =>
    left
    simp only [updateClass, List.map_cons, List.map_nil, changed]
    simp [ClassListing.outline, opened]
  | cons latest earlier =>
    simp only [Gets, updateClass, List.map_cons, changed]

theorem gets_updateClass_outside {change : ClassListing → ClassListing}
    {further : List (List Char)} (outside : progress.current = none)
    (changed : ∀ entry : ClassListing,
      (change entry).outline = (entry.outline.1, entry.outline.2 ++ further)) :
    Gets owner.chars further (progress.outline owner)
      ((progress.updateClass owner change).outline owner) := by
  have outside' : (progress.updateClass owner change).current = none := by
    rw [current_updateClass, outside]
  rw [outline_outside outside, outline_outside outside']
  exact gets_updateClass progress changed

/-- An open method is taken for the last one of the open class. -/
theorem gets_openMethod (outside : progress.current = none) (method : OpenMethod) :
    Gets owner.chars [method.finish.signature] (progress.outline owner)
      ((progress.withMethod method).outline owner) := by
  rw [outline_outside outside]
  refine gets_updateClass { progress with current := none } ?_
  intro entry
  simp [ClassListing.outline]

theorem outline_closeMethod (inside : progress.current = some method) :
    (progress.closeMethod owner method).outline owner = progress.outline owner := by
  have outside : (progress.closeMethod owner method).current = none := by
    rw [Progress.closeMethod, current_updateClass]
  rw [outline_outside outside, outline, settled, inside]

/-- To change the open method but not its signature changes no outline. -/
theorem outline_withMethod {method' : OpenMethod} (inside : progress.current = some method)
    (name : method'.builder.method.name = method.builder.method.name)
    (descriptor : method'.builder.method.descriptor = method.builder.method.descriptor) :
    (progress.withMethod method').outline owner = progress.outline owner := by
  have same : method'.finish.signature = method.finish.signature := by
    change method'.builder.method.name.chars ++ method'.builder.method.descriptor.render = _
    rw [name, descriptor]
    rfl
  obtain ⟨classes, current⟩ := progress
  obtain rfl : current = some method := inside
  cases classes with
  | nil => simp [outline, settled, Progress.closeMethod, updateClass, ClassListing.outline, same]
  | cons latest earlier =>
    simp [outline, settled, Progress.closeMethod, updateClass, ClassListing.outline, same]

/-- What a step does to the outline is said by what the line declares. -/
theorem Step.outline (step : Step owner progress line next)
    (solid : ∀ c ∈ line.head?, isBlank c = false) :
    (∃ name, declared line = .header name ∧
        next.outline owner = (name, []) :: progress.outline owner) ∨
      (∀ name, declared line ≠ .header name) ∧
        Gets owner.chars (declared line).signatures (progress.outline owner)
          (next.outline owner) := by
  have quiet (declares : declared line = .other ∨ declared line = .classEnd)
      (gets : Gets owner.chars [] (progress.outline owner) (next.outline owner)) :
      (∀ name, declared line ≠ .header name) ∧ Gets owner.chars (declared line).signatures
        (progress.outline owner) (next.outline owner) := by
    rcases declares with other | ended
    · rw [other]
      exact ⟨by simp, gets⟩
    · rw [ended]
      exact ⟨by simp, gets⟩
  have unchanged (same : next.outline owner = progress.outline owner) :
      Gets owner.chars [] (progress.outline owner) (next.outline owner) := by
    rw [same]
    exact .refl _ _
  cases step with
  | blank empty => exact .inr (quiet (.inl (by simp [declared, empty, words])) (unchanged rfl))
  | @openClass keyword modifiers name isInterface outside isHeader worded =>
    left
    refine ⟨name.chars, ?_, ?_⟩
    · rcases isHeader with rfl | rfl <;> simp [declared, worded]
    · rw [outline_outside outside]
      refine outline_outside ?_ owner
      exact outside
  | superclass outside worded =>
    refine .inr (quiet (.inl (by simp [declared, worded])) (gets_updateClass_outside outside ?_))
    simp [ClassListing.outline]
  | implements outside worded =>
    refine .inr (quiet (.inl (by simp [declared, worded])) (gets_updateClass_outside outside ?_))
    simp [ClassListing.outline]
  | @openMethod modifiers flags name descriptor outside worded =>
    have declares : declared line = .method (name.chars ++ descriptor.render) := by
      simp [declared, worded]
    right
    rw [declares]
    exact ⟨by simp, gets_openMethod outside _⟩
  | limit inside worded same =>
    refine .inr (quiet (.inl (by simp [declared, worded])) (unchanged ?_))
    exact outline_withMethod inside (by rw [same]) (by rw [same])
  | handler inside worded caught added =>
    refine .inr (quiet (.inl (by simp [declared, worded])) (unchanged ?_))
    exact outline_withMethod inside (by rw [added]; rfl) (by rw [added]; rfl)
  | lineNumber inside worded =>
    refine .inr (quiet (.inl (by simp [declared, worded])) (unchanged ?_))
    exact outline_withMethod inside rfl rfl
  | closeMethod inside worded =>
    refine .inr (quiet (.inl (by simp [declared, worded])) (unchanged ?_))
    exact outline_closeMethod inside
  | closeClass outside worded =>
    exact .inr (quiet (.inr (by simp [declared, worded])) (unchanged rfl))
  | code inside plain read =>
    refine .inr (quiet (.inl (declared_of_plain solid plain)) (unchanged ?_))
    rcases OpenMethod.line_gains read with ⟨-, label, gains⟩ | ⟨labels, op, -, gains⟩
    · exact outline_withMethod inside gains.name gains.descriptor
    · exact outline_withMethod inside gains.name gains.descriptor

/-- Lines add the methods before their first class to the latest class, and then their classes. -/
theorem readLines_outline {last : Progress} {number : Nat} {texts : List (List Char)}
    (read : progress.readLines owner number texts = .ok last) :
    ∃ front, Gets owner.chars (sections texts).1 (progress.outline owner) front ∧
      last.outline owner = (sections texts).2.reverse ++ front := by
  induction texts generalizing progress number with
  | nil =>
    obtain ⟨-, rfl⟩ := readLines_nil_eq_ok.mp read
    exact ⟨_, .refl _ _, rfl⟩
  | cons text texts ih =>
    obtain ⟨next, first, further⟩ := readLines_cons_eq_ok.mp read
    obtain ⟨front, gets, ends⟩ := ih further
    rcases (trimmedLine_step first).outline (head?_trim (uncomment text)) with
      ⟨name, declares, opens⟩ | ⟨noHeader, before⟩
    · have header : declaration text = .header name := declares
      rw [opens] at gets
      obtain rfl : front = (name, (sections texts).1) :: progress.outline owner := gets
      refine ⟨progress.outline owner, ?_, ?_⟩
      · simp only [sections, header]
        exact .refl _ _
      · simp [sections, header, ends]
    · have parts : sections (text :: texts) =
          ((declaration text).signatures ++ (sections texts).1, (sections texts).2) := by
        cases declares : declaration text with
        | header name => exact absurd declares (noHeader name)
        | method | classEnd | other => simp only [sections, declares]
      rw [parts]
      exact ⟨front, before.trans gets, ends⟩

end Progress

theorem signatures_eq (listing : Listing) : listing.signatures =
    listing.outline.flatMap fun (name, methods) => methods.map (Prod.mk name) := by
  simp [signatures, methods, outline, ClassListing.outline, List.map_flatMap, List.flatMap_map,
    Function.comp_def]

section Parse

variable {text : String} {owner : BinaryName} {listing : Listing}

/-- Nothing but the sections of a listing says which methods its classes have. -/
theorem outline_of_parse (accepted : parse text owner = .ok listing) :
    ∃ first, listing.outline = first ++ (sections (lines text.toList)).2 ∧
      (first = [(owner.chars, (sections (lines text.toList)).1)] ∨
        first = [] ∧ (sections (lines text.toList)).1 = []) := by
  obtain ⟨last, read, rfl⟩ := parse_eq_ok.mp accepted
  obtain ⟨front, gets, ends⟩ := Progress.readLines_outline read
  rw [Progress.outline_outside (Progress.current_of_readLines read)] at ends
  have outlined : outline ⟨last.classes.reverse⟩ =
      front.reverse ++ (sections (lines text.toList)).2 := by
    rw [outline, List.map_reverse, ends, List.reverse_append, List.reverse_reverse]
  rcases gets with rfl | ⟨rfl, none⟩
  · exact ⟨_, outlined, .inl rfl⟩
  · exact ⟨_, outlined, .inr ⟨rfl, none⟩⟩

/-- The classes of an accepted listing are those that it declares, each with the methods of its
section in order. If no method follows the end of a class there, it belongs to the class that is
open. -/
theorem parse_sections (accepted : parse text owner = .ok listing) :
    (∃ first, listing.outline = first ++ (sections (lines text.toList)).2 ∧
        (first = [(owner.chars, (sections (lines text.toList)).1)] ∨
          first = [] ∧ (sections (lines text.toList)).1 = [])) ∧
      (endsLast (lines text.toList) = true →
        listing.signatures = openSignatures owner.chars none (lines text.toList)) := by
  refine ⟨outline_of_parse accepted, ?_⟩
  intro last
  obtain ⟨first, outlined, begins⟩ := outline_of_parse accepted
  rw [openSignatures_of_endsLast last, signatures_eq, outlined, List.flatMap_append]
  rcases begins with rfl | ⟨rfl, none⟩
  · simp
  · simp [none]

end Parse

/-- A method before the classes, and classes that are ended or not. -/
def sectioned : String :=
  ".method static f()V\n.end method\n.class A\n.end class\n.interface B\n" ++
    ".method static g()V\n.end method\n"

theorem sectioned_outline : ∃ listing, parse sectioned .main = .ok listing ∧
    listing.outline = [("Main".toList, ["f()V".toList]), ("A".toList, []),
      ("B".toList, ["g()V".toList])] ∧
    listing.signatures = openSignatures BinaryName.main.chars none (lines sectioned.toList) := by
  obtain ⟨accepted, divided, endsLast⟩ : (parse sectioned .main).isOk = true ∧
      sections (lines sectioned.toList) =
        (["f()V".toList], [("A".toList, []), ("B".toList, ["g()V".toList])]) ∧
      endsLast (lines sectioned.toList) = true := by
    decide +kernel
  obtain ⟨listing, read⟩ := isOk_iff.mp accepted
  obtain ⟨⟨first, outlined, begins⟩, signatures⟩ := parse_sections read
  rw [divided] at outlined begins
  refine ⟨listing, read, ?_, signatures endsLast⟩
  rcases begins with rfl | ⟨-, none⟩
  · exact outlined
  · cases none

/-- A class that is ended before a method. -/
def ended : String := ".class A\n.end class\n.method static f()V\nreturn\n.end method\n"

/-- The method belongs to the class all the same. -/
theorem ended_signatures : ∃ listing, parse ended .main = .ok listing ∧
    listing.signatures = [("A".toList, "f()V".toList)] ∧
    openSignatures BinaryName.main.chars none (lines ended.toList) =
      [("Main".toList, "f()V".toList)] := by
  obtain ⟨read, open'⟩ : (parse ended .main).toOption.map signatures =
        some [("A".toList, "f()V".toList)] ∧
      openSignatures BinaryName.main.chars none (lines ended.toList) =
        [("Main".toList, "f()V".toList)] := by
    decide +kernel
  cases accepted : parse ended .main with
  | error failure => simp [accepted, Except.toOption] at read
  | ok listing =>
    refine ⟨listing, rfl, ?_, open'⟩
    simpa [accepted, Except.toOption] using read

end Listing

end MethodFlow
