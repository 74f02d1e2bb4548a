import MethodFlow.Listing.Reader
import MethodFlow.Proofs.Listing.Operands
import MethodFlow.Proofs.Listing.Statements
import MethodFlow.Proofs.Text.Wording

/-! What accepted lines do. Every directive is taken apart once, here; what holds of all that has
been read is then shown by cases on the steps, and of a listing by induction on its lines. -/

namespace MethodFlow.Listing

open MethodFlow.Text

theorem Directive.argument_eq_ok {directive : Directive} {argument : List Char} :
    directive.argument = .ok argument ↔ directive.arguments = [argument] := by
  unfold Directive.argument
  split
  · rename_i one
    simp [one]
  · rename_i other
    simpa using other argument

namespace Progress

variable {owner : BinaryName} {progress next : Progress} {directive : Directive}
  {line : List Char}

theorem outsideMethod_eq_ok {nothing : Unit} :
    progress.outsideMethod = .ok nothing ↔ progress.current = none := by
  unfold outsideMethod
  split
  · rename_i outside
    simp [outside]
  · rename_i inside
    simp [inside]

theorem openMethod_eq_ok {name : String} {method : OpenMethod} :
    progress.openMethod name = .ok method ↔ progress.current = some method := orFault_eq_ok

theorem current_updateClass (change : ClassListing → ClassListing) :
    (progress.updateClass owner change).current = progress.current := by
  unfold updateClass
  split <;> rfl

/-- Puts another method in the place of the open one. -/
abbrev withMethod (progress : Progress) (method : OpenMethod) : Progress :=
  { progress with current := some method }

/-- The open method is closed, and belongs to the open class. -/
def closeMethod (progress : Progress) (owner : BinaryName) (method : OpenMethod) : Progress :=
  { progress with current := none }.updateClass owner fun entry =>
    { entry with methods := entry.methods ++ [method.finish] }

/-- What an accepted line does. -/
inductive Step (owner : BinaryName) (progress : Progress) (line : List Char) : Progress → Prop
  | blank (empty : line = []) : Step owner progress line progress
  | openClass {keyword : String} {modifiers : List (List Char)} {name : BinaryName}
      {isInterface : Bool} (outside : progress.current = none)
      (isHeader : keyword = ".class" ∨ keyword = ".interface")
      (worded : words line = keyword.toList :: (modifiers ++ [name.chars])) :
      Step owner progress line { progress with
        classes := opened name (if name = .object then none else some .object) isInterface ::
          progress.classes }
  | superclass {name : BinaryName} (outside : progress.current = none)
      (worded : words line = [".super".toList, name.chars]) :
      Step owner progress line
        (progress.updateClass owner fun entry => { entry with info.superclass := some name })
  | implements {name : BinaryName} (outside : progress.current = none)
      (worded : words line = [".implements".toList, name.chars]) :
      Step owner progress line (progress.updateClass owner fun entry =>
        { entry with info.interfaces := entry.info.interfaces ++ [name] })
  | openMethod {modifiers : List (List Char)} {flags : AccessFlags} {name : UnqualifiedName}
      {descriptor : MethodDescriptor} (outside : progress.current = none)
      (worded : words line =
        ".method".toList :: (modifiers ++ [name.chars ++ descriptor.render])) :
      Step owner progress line (progress.withMethod ⟨.empty flags name descriptor, [], none, none⟩)
  | limit {method method' : OpenMethod} {what value : List Char}
      (inside : progress.current = some method)
      (worded : words line = [".limit".toList, what, value])
      (same : method'.builder = method.builder) :
      Step owner progress line (progress.withMethod method')
  | handler {method method' : OpenMethod} {arguments : List (List Char)}
      {handler : ExceptionHandler} (inside : progress.current = some method)
      (worded : words line = ".catch".toList :: arguments)
      (caught : ∀ type ∈ handler.catchType, type.chars ∈ arguments)
      (added : method'.builder.method = (method.builder.addHandler handler).method) :
      Step owner progress line (progress.withMethod method')
  | lineNumber {method : OpenMethod} {token : List Char} {number : Nat}
      (inside : progress.current = some method)
      (worded : words line = [".line".toList, token]) :
      Step owner progress line (progress.withMethod (method.push (.line number)))
  | closeMethod {method : OpenMethod} (inside : progress.current = some method)
      (worded : words line = [".end".toList, "method".toList]) :
      Step owner progress line (progress.closeMethod owner method)
  | closeClass (outside : progress.current = none)
      (worded : words line = [".end".toList, "class".toList]) : Step owner progress line progress
  | code {method method' : OpenMethod} (inside : progress.current = some method)
      (plain : line.head? ≠ some '.') (read : method.line line = .ok method') :
      Step owner progress line (progress.withMethod method')

theorem chars_of_readCatchType {token : List Char} {catchType : Option BinaryName}
    (read : readCatchType token = .ok catchType) : ∀ type ∈ catchType, type.chars = token := by
  unfold readCatchType at read
  split at read
  · cases read
    exact nofun
  · obtain ⟨name, named, rfl⟩ := map_eq_ok.mp read
    intro type same
    cases same
    exact (readBinaryName_eq_ok.mp named).symm

section Directives

variable (worded : words line = directive.name :: directive.arguments)
include worded

theorem openClass_step (isHeader : directive.name = ".class".toList ∨
      directive.name = ".interface".toList) (read : progress.openClass directive = .ok next) :
    Step owner progress line next := by
  simp only [Progress.openClass, bind_eq_ok, outsideMethod_eq_ok] at read
  obtain ⟨-, outside, read⟩ := read
  split at read
  · cases read
  · rename_i word modifiers reversed
    simp only [bind_eq_ok, readBinaryName_eq_ok] at read
    obtain ⟨name, rfl, same⟩ := read
    cases same
    have arguments := List.reverse_eq_cons_iff.mp reversed
    rw [arguments] at worded
    rcases isHeader with named | named
    · exact .openClass outside (.inl rfl) (named ▸ worded)
    · exact .openClass outside (.inr rfl) (named ▸ worded)

theorem superclass_step (named : directive.name = ".super".toList)
    (read : progress.superclass owner directive = .ok next) : Step owner progress line next := by
  simp only [Progress.superclass, bind_eq_ok, outsideMethod_eq_ok, Directive.argument_eq_ok,
    readBinaryName_eq_ok] at read
  obtain ⟨-, outside, name, ⟨_, arguments, rfl⟩, same⟩ := read
  cases same
  exact .superclass outside (by rw [worded, named, arguments])

theorem implements_step (named : directive.name = ".implements".toList)
    (read : progress.implements owner directive = .ok next) : Step owner progress line next := by
  simp only [Progress.implements, bind_eq_ok, outsideMethod_eq_ok, Directive.argument_eq_ok,
    readBinaryName_eq_ok] at read
  obtain ⟨-, outside, name, ⟨_, arguments, rfl⟩, same⟩ := read
  cases same
  exact .implements outside (by rw [worded, named, arguments])

theorem openSignature_step (named : directive.name = ".method".toList)
    (read : progress.openSignature directive = .ok next) : Step owner progress line next := by
  simp only [openSignature, bind_eq_ok, outsideMethod_eq_ok] at read
  obtain ⟨-, outside, read⟩ := read
  split at read
  · cases read
  · rename_i signature modifiers reversed
    simp only [bind_eq_ok, Prod.exists, readMethodDescriptor_eq_ok, readUnqualifiedName_eq_ok]
      at read
    obtain ⟨flags, -, _, _, split, descriptor, rfl, name, rfl, same⟩ := read
    cases same
    have arguments := List.reverse_eq_cons_iff.mp reversed
    exact .openMethod outside (by rw [worded, named, arguments, eq_of_splitMember split])

theorem limit_step (named : directive.name = ".limit".toList)
    (read : progress.limit directive = .ok next) : Step owner progress line next := by
  unfold Progress.limit at read
  split at read
  · rename_i what value arguments
    simp only [bind_eq_ok, openMethod_eq_ok] at read
    obtain ⟨method, inside, value, -, read⟩ := read
    have worded' := worded
    rw [named, arguments] at worded'
    split at read
    · cases read
      exact .limit inside worded' rfl
    split at read
    · cases read
      exact .limit inside worded' rfl
    · cases read
  · cases read

theorem addHandler_step (named : directive.name = ".catch".toList)
    (read : progress.addHandler directive = .ok next) : Step owner progress line next := by
  unfold addHandler at read
  split at read
  · rename_i type _ first _ past _ handler arguments
    dsimp only at read
    split at read
    · cases read
    simp only [bind_eq_ok, Prod.exists, openMethod_eq_ok] at read
    obtain ⟨catchType, caught, method, inside, first, opened, atFirst, past, opened', atPast,
      handler, method', atHandler, same⟩ := read
    cases same
    have worded' := worded
    rw [named, arguments] at worded'
    have added : (method'.builder.addHandler ⟨first, past, handler, catchType⟩).method =
        (method.builder.addHandler ⟨first, past, handler, catchType⟩).method := by
      simp only [MethodBuilder.addHandler, OpenMethod.method_of_label atHandler,
        OpenMethod.method_of_label atPast, OpenMethod.method_of_label atFirst]
    refine .handler inside worded' ?_ added
    intro name found
    rw [chars_of_readCatchType caught name found]
    exact List.mem_cons_self
  · cases read

theorem lineNumber_step (named : directive.name = ".line".toList)
    (read : progress.lineNumber directive = .ok next) : Step owner progress line next := by
  simp only [Progress.lineNumber, bind_eq_ok, Directive.argument_eq_ok, openMethod_eq_ok] at read
  obtain ⟨number, ⟨token, arguments, -⟩, method, inside, same⟩ := read
  cases same
  exact .lineNumber inside (by rw [worded, named, arguments])

theorem close_step (named : directive.name = ".end".toList)
    (read : progress.close owner directive = .ok next) : Step owner progress line next := by
  simp only [close, bind_eq_ok, Directive.argument_eq_ok] at read
  obtain ⟨what, arguments, read⟩ := read
  rw [named, arguments] at worded
  split at read
  · rename_i isMethod
    obtain ⟨method, inside, same⟩ := bind_eq_ok.mp read
    cases same
    exact .closeMethod (openMethod_eq_ok.mp inside) (isMethod ▸ worded)
  split at read
  · rename_i isClass
    obtain ⟨_, outside, same⟩ := bind_eq_ok.mp read
    cases same
    exact .closeClass (outsideMethod_eq_ok.mp outside) (isClass ▸ worded)
  · cases read

theorem directive_step (read : progress.directive owner directive = .ok next) :
    Step owner progress line next := by
  have named {keyword : String} (same : String.ofList directive.name = keyword) :
      directive.name = keyword.toList := by
    rw [← same, String.toList_ofList]
  unfold Progress.directive at read
  split at read
  · rename_i same
    exact openClass_step worded (.inl (named same)) read
  · rename_i same
    exact openClass_step worded (.inr (named same)) read
  · rename_i same
    exact superclass_step worded (named same) read
  · rename_i same
    exact implements_step worded (named same) read
  · rename_i same
    exact openSignature_step worded (named same) read
  · rename_i same
    exact limit_step worded (named same) read
  · rename_i same
    exact addHandler_step worded (named same) read
  · rename_i same
    exact lineNumber_step worded (named same) read
  · rename_i same
    exact close_step worded (named same) read
  · cases read

end Directives

/-- Whatever line is accepted, it takes one of the steps. -/
theorem trimmedLine_step (read : progress.trimmedLine owner line = .ok next) :
    Step owner progress line next := by
  unfold trimmedLine at read
  split at read
  · cases read
    exact .blank rfl
  · split at read
    · rename_i worded
      exact directive_step worded read
    · rename_i none
      exact absurd none (words_ne_nil (by decide) _)
  · rename_i other
    simp only [bind_eq_ok, orFault_eq_ok] at read
    obtain ⟨method, inside, method', read, same⟩ := read
    cases same
    refine .code inside ?_ read
    intro pointed
    obtain ⟨rest, rfl⟩ := List.head?_eq_some_iff.mp pointed
    exact other rest rfl

/-- A line with anything but code begins with a point. -/
theorem Step.begins (step : Step owner progress line next)
    (solid : ∀ c ∈ line.head?, isBlank c = false) :
    (line = [] ∧ next = progress) ∨ line.head? = some '.' ∨
      ∃ method method', progress.current = some method ∧ line.head? ≠ some '.' ∧
        method.line line = .ok method' ∧ next = progress.withMethod method' := by
  cases step with
  | blank empty => exact .inl ⟨empty, rfl⟩
  | code inside plain read => exact .inr (.inr ⟨_, _, inside, plain, read, rfl⟩)
  | openClass outside isHeader worded =>
    rcases isHeader with rfl | rfl <;> exact .inr (.inl (head?_of_words solid worded))
  | superclass outside worded => exact .inr (.inl (head?_of_words solid worded))
  | implements outside worded => exact .inr (.inl (head?_of_words solid worded))
  | openMethod outside worded => exact .inr (.inl (head?_of_words solid worded))
  | limit inside worded => exact .inr (.inl (head?_of_words solid worded))
  | handler inside worded => exact .inr (.inl (head?_of_words solid worded))
  | lineNumber inside worded => exact .inr (.inl (head?_of_words solid worded))
  | closeMethod inside worded => exact .inr (.inl (head?_of_words solid worded))
  | closeClass outside worded => exact .inr (.inl (head?_of_words solid worded))

theorem readLines_nil_eq_ok {number : Nat} :
    progress.readLines owner number [] = .ok next ↔ progress.current = none ∧ next = progress := by
  rw [readLines]
  cases ended : progress.outsideMethod with
  | ok nothing => simp [outsideMethod_eq_ok.mp ended, eq_comm]
  | error fault =>
    have inside : progress.current ≠ none := fun outside => by
      simp [outsideMethod, outside] at ended
    simp [inside]

theorem readLines_cons_eq_ok {number : Nat} {text : List Char} {rest : List (List Char)}
    {last : Progress} :
    progress.readLines owner number (text :: rest) = .ok last ↔
      ∃ next, progress.line owner text = .ok next ∧
        next.readLines owner (number + 1) rest = .ok last := by
  rw [readLines]
  cases progress.line owner text <;> simp

theorem current_of_readLines {number : Nat} {texts : List (List Char)} {last : Progress}
    (read : progress.readLines owner number texts = .ok last) : last.current = none := by
  induction texts generalizing progress number with
  | nil =>
    obtain ⟨outside, rfl⟩ := readLines_nil_eq_ok.mp read
    exact outside
  | cons text rest ih =>
    obtain ⟨next, -, further⟩ := readLines_cons_eq_ok.mp read
    exact ih further

end Progress

theorem parse_eq_ok {text : String} {owner : BinaryName} {listing : Listing} :
    parse text owner = .ok listing ↔
      ∃ last, Progress.start.readLines owner 1 (lines text.toList) = .ok last ∧
        listing = ⟨last.classes.reverse⟩ := by
  rw [parse, ofChars, map_eq_ok]
  simp only [eq_comm]

end MethodFlow.Listing
