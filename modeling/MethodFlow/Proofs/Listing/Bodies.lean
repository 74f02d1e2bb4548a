import MethodFlow.Proofs.Listing.Comments
import MethodFlow.Proofs.Listing.Mentions
import MethodFlow.Proofs.Listing.Steps
import MethodFlow.Proofs.Text.Joining

namespace MethodFlow.Listing

open MethodFlow.Text

/-- A word that is taken for no directive, no label and no comment. -/
structure Plain (word : List Char) : Prop where
  solid : Solid word
  ne_nil : word ≠ []
  noDirective : word.head? ≠ some '.'
  noComment : word.head? ≠ some ';'
  noLabel : dropLast? (· = ':') word = none

instance (word : List Char) : Decidable (Plain word) :=
  decidable_of_iff (Solid word ∧ word ≠ [] ∧ word.head? ≠ some '.' ∧ word.head? ≠ some ';' ∧
      dropLast? (· = ':') word = none)
    ⟨fun ⟨solid, present, directive, comment, label⟩ =>
      ⟨solid, present, directive, comment, label⟩,
    fun ⟨solid, present, directive, comment, label⟩ =>
      ⟨solid, present, directive, comment, label⟩⟩

/-- Every mnemonic is such a word. -/
theorem plain_of_form? {mnemonic : List Char} {form : Form} (named : form? mnemonic = some form) :
    Plain mnemonic := by
  have plain : ∀ entry ∈ forms, Plain entry.1.toList := by decide +kernel
  simpa using plain _ (mem_forms_of_form? named)

section Lines

variable {mnemonic operand : List Char} {form : Form} (named : form? mnemonic = some form)
include named

theorem bounded_mnemonic : Bounded mnemonic :=
  (plain_of_form? named).solid.bounded (plain_of_form? named).ne_nil

theorem Statement.ofLine_join (bounded : Bounded operand) :
    Statement.ofLine (mnemonic ++ ' ' :: operand) = ⟨mnemonic, operand, words operand⟩ := by
  have cut : cutAt isBlank (mnemonic ++ ' ' :: operand) = (mnemonic, some operand) :=
    cutAt_append (plain_of_form? named).solid isBlank_space
  simp only [Statement.ofLine, splitWord, cut, bounded.trim_eq]

/-- No mnemonic is taken for a label. -/
theorem OpenMethod.line_join (method : OpenMethod) :
    method.line (mnemonic ++ ' ' :: operand) = method.instruction (mnemonic ++ ' ' :: operand) := by
  have plain := plain_of_form? named
  have first : (mnemonic ++ ' ' :: operand).takeWhile (fun c => !isBlank c) = mnemonic := by
    rw [List.takeWhile_append_of_pos fun c member => by simp [plain.solid c member]]
    simp [isBlank_space]
  simp only [OpenMethod.line, first, plain.noLabel]

variable {owner : BinaryName} {progress : Progress} {method method' : OpenMethod} {op : Operation}

/-- Where a method is open, a line is read as the operation of its mnemonic and operand. -/
theorem Progress.line_join (bounded : Bounded operand)
    (kept : uncomment (mnemonic ++ ' ' :: operand) = mnemonic ++ ' ' :: operand)
    (inside : progress.current = some method)
    (read : Statement.operation ⟨mnemonic, operand, words operand⟩ method form =
      .ok (op, method')) :
    progress.line owner (mnemonic ++ ' ' :: operand) =
      .ok (progress.withMethod (method'.push (.operation op))) := by
  have whole : Bounded (mnemonic ++ ' ' :: operand) := (bounded_mnemonic named).join bounded
  have code : method.line (mnemonic ++ ' ' :: operand) = .ok (method'.push (.operation op)) := by
    rw [OpenMethod.line_join named]
    simp only [OpenMethod.instruction, Statement.ofLine_join named bounded, named, read]
    rfl
  have unpointed (rest : List Char) : mnemonic ++ ' ' :: operand ≠ '.' :: rest := by
    intro pointed
    have begins := congrArg List.head? pointed
    rw [List.head?_append_of_ne_nil _ (plain_of_form? named).ne_nil] at begins
    exact (plain_of_form? named).noDirective begins
  rw [Progress.line, kept, whole.trim_eq, trimmedLine, inside]
  · exact bind_eq_ok.mpr ⟨method, rfl, bind_eq_ok.mpr ⟨_, code, rfl⟩⟩
  · exact whole.ne_nil
  · exact unpointed

end Lines

namespace Progress

variable {owner : BinaryName} {progress between : Progress} {method method' : OpenMethod}

/-- What has been read after lines, if they are accepted so far. -/
def readAll (progress : Progress) (owner : BinaryName) (texts : List (List Char)) :
    Except ListingFault Progress :=
  texts.foldlM (fun progress text => progress.line owner text) progress

theorem readLines_append {texts rest : List (List Char)} {number : Nat}
    (read : progress.readAll owner texts = .ok between) :
    progress.readLines owner number (texts ++ rest) =
      between.readLines owner (number + texts.length) rest := by
  induction texts generalizing progress number with
  | nil =>
    cases read
    rfl
  | cons text texts ih =>
    obtain ⟨next, first, further⟩ := bind_eq_ok.mp read
    change progress.line owner text = .ok next at first
    rw [List.cons_append, readLines, first]
    dsimp only
    rw [ih further, List.length_cons, Nat.add_assoc, Nat.add_comm 1]

theorem line_endMethod (inside : progress.current = some method) :
    progress.line owner ".end method".toList = .ok (progress.closeMethod owner method) := by
  have trimmed : trim (uncomment ".end method".toList) = ".end method".toList := by decide
  rw [Progress.line, trimmed]
  change progress.close owner ⟨".end".toList, ["method".toList]⟩ = _
  exact bind_eq_ok.mpr ⟨_, rfl, bind_eq_ok.mpr ⟨method, openMethod_eq_ok.mpr inside, rfl⟩⟩

/-- The listing that ends with a method in the place of the open one. -/
def listing (progress : Progress) (owner : BinaryName) (method : OpenMethod) : Listing :=
  ⟨(progress.closeMethod owner method).classes.reverse⟩

/-- A text is accepted so far, and a method is open at its end. -/
structure Opens (owner : BinaryName) (text : String) (progress : Progress) (method : OpenMethod) :
    Prop where
  read : start.readAll owner (lines (text.toList ++ ['\n'])) = .ok progress
  inside : progress.current = some method

/-- Whether a text leaves a method open can be found out by reading it. -/
theorem exists_opens {owner : BinaryName} {text : String}
    (open' : ((start.readAll owner (lines (text.toList ++ ['\n']))).toOption.bind current).isSome) :
    ∃ (progress : Progress) (method : OpenMethod), progress.Opens owner text method := by
  obtain ⟨method, found⟩ := Option.isSome_iff_exists.mp open'
  obtain ⟨progress, accepted, inside⟩ := Option.bind_eq_some_iff.mp found
  refine ⟨progress, method, ?_, inside⟩
  cases read : start.readAll owner (lines (text.toList ++ ['\n'])) with
  | error fault => simp [read, Except.toOption] at accepted
  | ok other => simpa [read, Except.toOption] using accepted

end Progress

/-- A text with one more line and the end of a method after it. -/
def bodied (header line : String) : String := header ++ "\n" ++ line ++ "\n.end method\n"

section Bodied

variable {owner : BinaryName} {header line : String} {progress : Progress}
  {method method' : OpenMethod} (opens : progress.Opens owner header method)
  (unbroken : '\n' ∉ line.toList)
include opens unbroken

/-- A listing whose last line of code is read, with or without a carriage return at its end, has the
method that results. -/
theorem parse_bodied_kept
    (read : ∀ kept, (kept = line.toList ∨ line.toList = kept ++ ['\r']) →
      progress.line owner kept = .ok (progress.withMethod method')) :
    parse (bodied header line) owner = .ok (progress.listing owner method') := by
  obtain ⟨kept, same, ended⟩ := lines_line unbroken ".end method\n".toList
  have divided : lines (bodied header line).toList =
      lines (header.toList ++ ['\n']) ++ [kept, ".end method".toList] := by
    have text : (bodied header line).toList =
        header.toList ++ '\n' :: (line.toList ++ '\n' :: ".end method\n".toList) := by
      simp [bodied]
    rw [text, lines_append_line, ended]
    rfl
  have last : (progress.withMethod method').line owner ".end method".toList =
      .ok (progress.closeMethod owner method') := Progress.line_endMethod rfl
  have outside : (progress.closeMethod owner method').current = none :=
    Progress.current_updateClass _
  rw [parse_eq_ok, divided]
  refine ⟨progress.closeMethod owner method', ?_, rfl⟩
  rw [Progress.readLines_append opens.read, Progress.readLines_cons_eq_ok]
  refine ⟨_, read kept same, Progress.readLines_cons_eq_ok.mpr ⟨_, last, ?_⟩⟩
  exact Progress.readLines_nil_eq_ok.mpr ⟨outside, rfl⟩

variable (read : progress.line owner line.toList = .ok (progress.withMethod method'))
include read

theorem parse_bodied (bounded : Bounded line.toList) :
    parse (bodied header line) owner = .ok (progress.listing owner method') := by
  refine parse_bodied_kept opens unbroken fun kept same => ?_
  rcases same with rfl | returned
  · exact read
  · refine absurd ?_ bounded.getLast?_ne_return
    rw [returned, List.getLast?_concat]

/-- A comment after the line changes nothing. -/
theorem parse_bodied_comment (closed : leavesLiteralOpen line.toList = false) {comment : String}
    (unbroken' : '\n' ∉ comment.toList) :
    parse (bodied header (line ++ " ;" ++ comment)) owner = .ok (progress.listing owner method') := by
  have text : (line ++ " ;" ++ comment).toList = line.toList ++ ' ' :: ';' :: comment.toList := by
    simp
  refine parse_bodied_kept opens (by simp [unbroken, unbroken']) fun kept same => ?_
  obtain ⟨comment', rfl⟩ : ∃ comment', kept = line.toList ++ ' ' :: ';' :: comment' := by
    -- A carriage return that the line feed takes away is one of the comment.
    rw [text] at same
    rcases same with rfl | returned
    · exact ⟨_, rfl⟩
    · rcases List.eq_nil_or_concat' comment.toList with none | ⟨front, last, more⟩
      · have last := congrArg List.getLast? returned
        simp [none, List.getLast?_append] at last
      · refine ⟨front, ?_⟩
        rw [more, ← List.cons_append, ← List.cons_append, ← List.append_assoc] at returned
        exact (List.append_inj' returned rfl).1.symm
  rw [Progress.line_comment closed, read]

end Bodied

section Statements

variable {owner : BinaryName} {header mnemonic operand : String} {progress : Progress}
  {method method' : OpenMethod} {form : Form} {op : Operation}
  (opens : progress.Opens owner header method) (named : form? mnemonic.toList = some form)
include opens named

/-- A listing whose last line of code has a mnemonic and an operand after a space, without any
comment, has the method that results from reading them. -/
theorem parse_statement (bounded : Bounded operand.toList) (unbroken : '\n' ∉ operand.toList)
    (unremarked : Unremarked operand.toList)
    (read : Statement.operation ⟨mnemonic.toList, operand.toList, words operand.toList⟩ method form =
      .ok (op, method')) :
    parse (bodied header (mnemonic ++ " " ++ operand)) owner =
      .ok (progress.listing owner (method'.push (.operation op))) := by
  have plain := plain_of_form? named
  have text : (mnemonic ++ " " ++ operand).toList = mnemonic.toList ++ ' ' :: operand.toList := by
    simp
  have kept : uncomment (mnemonic.toList ++ ' ' :: operand.toList) =
      mnemonic.toList ++ ' ' :: operand.toList :=
    ((plain.solid.unremarked plain.noComment).join unremarked).uncomment_eq
  refine parse_bodied opens ?_ ?_ ?_
  · simp [text, plain.solid.newline_notMem, unbroken]
  · rw [text]
    exact Progress.line_join named bounded kept opens.inside read
  · rw [text]
    exact (bounded_mnemonic named).join bounded

theorem parse_word (solid : Solid operand.toList) (present : operand.toList ≠ [])
    (first : operand.toList.head? ≠ some ';')
    (read : Statement.operation ⟨mnemonic.toList, operand.toList, [operand.toList]⟩ method form =
      .ok (op, method')) :
    parse (bodied header (mnemonic ++ " " ++ operand)) owner =
      .ok (progress.listing owner (method'.push (.operation op))) := by
  refine parse_statement opens named (solid.bounded present) solid.newline_notMem
    (solid.unremarked first) ?_
  rw [solid.words_eq present]
  exact read

end Statements

end MethodFlow.Listing
