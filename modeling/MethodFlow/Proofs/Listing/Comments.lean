import MethodFlow.Proofs.Listing.Refusing
import MethodFlow.Proofs.Text.Commenting

/-! Comments in listings. A comment after a line changes nothing about what is read, unless the scan
for comments takes the line to end inside a string literal: quotes may also stand in names and
labels, and a literal may hold one that no backslash precedes. -/

namespace MethodFlow.Listing

open MethodFlow.Text

variable {owner : BinaryName} {index : Nat}

namespace Progress

variable {line : List Char}

theorem line_comment (closed : leavesLiteralOpen line = false) (progress : Progress)
    (comment : List Char) :
    progress.line owner (line ++ ' ' :: ';' :: comment) = progress.line owner line :=
  congrArg (progress.trimmedLine owner) (trim_uncomment_comment closed comment)

/-- Points after an open literal are no comment, and nothing that can be read. -/
theorem line_points_fails (opened : leavesLiteralOpen line = true) (progress : Progress) :
    Fails (progress.line owner (line ++ ' ' :: ';' :: ' ' :: points 4)) := by
  have kept : uncomment (line ++ ' ' :: ';' :: ' ' :: points 4) =
      line ++ ' ' :: ';' :: ' ' :: points 4 := by
    unfold leavesLiteralOpen at opened
    unfold uncomment
    cases reached : (CommentScan.code ' ').after line with
    | none => simp [reached] at opened
    | some scan =>
      rw [uncommentFrom_append reached]
      cases scan with
      | code previous => simp [reached, CommentScan.insideLiteral] at opened
      | literal | escaped => rfl
  rw [Progress.line, kept]
  refine trimmedLine_fails progress owner (points_trim ?_)
  exact List.suffix_append_of_suffix (List.suffix_append [' ', ';', ' '] (points 4))

/-- Lines that are read alike can stand for each other. -/
theorem readLines_modify {texts : List (List Char)} {change : List Char → List Char}
    (alike : ∀ line, texts[index]? = some line → ∀ progress : Progress,
      progress.line owner (change line) = progress.line owner line)
    (progress : Progress) (number : Nat) :
    progress.readLines owner number (texts.modify index change) =
      progress.readLines owner number texts := by
  induction texts generalizing index progress number with
  | nil => simp
  | cons text texts ih =>
    cases index with
    | zero => simp only [List.modify_zero_cons, readLines, alike text rfl progress]
    | succ index =>
      simp only [List.modify_succ_cons, readLines]
      cases progress.line owner text with
      | error fault => rfl
      | ok progress => exact ih alike progress (number + 1)

/-- A line that is always refused makes the lines refused. -/
theorem readLines_modify_fails {texts : List (List Char)} {change : List Char → List Char}
    (found : texts[index]? = some line)
    (refused : ∀ progress : Progress, Fails (progress.line owner (change line)))
    (progress : Progress) (number : Nat) :
    Fails (progress.readLines owner number (texts.modify index change)) := by
  induction texts generalizing index progress number with
  | nil => cases found
  | cons text texts ih =>
    cases index with
    | zero =>
      obtain rfl : text = line := Option.some.inj found
      obtain ⟨fault, failed⟩ := refused progress
      rw [List.modify_zero_cons, readLines, failed]
      exact .error _
    | succ index =>
      rw [List.modify_succ_cons, readLines]
      cases progress.line owner text with
      | error fault => exact .error _
      | ok progress => exact ih found progress (number + 1)

end Progress

/-- The text with a comment after the line of an index. -/
def commented (text : String) (index : Nat) (comment : String) : String :=
  String.ofList (appendAt (' ' :: ';' :: comment.toList) index text.toList)

variable {text : String} {line : List Char}

/-- Whatever is read, or refused, is so with a comment after a line that leaves no literal open. -/
theorem parse_commented (found : (lines text.toList)[index]? = some line)
    (closed : leavesLiteralOpen line = false) {comment : String}
    (unbroken : '\n' ∉ comment.toList) :
    parse (commented text index comment) owner = parse text owner := by
  have unbroken' : '\n' ∉ ' ' :: ';' :: comment.toList := by simpa using unbroken
  obtain ⟨kept, ending, longer⟩ :=
    lines_appendAt unbroken' (List.getElem?_eq_some_iff.mp found).1
  have begins : ∃ rest, kept = ' ' :: ';' :: rest := by
    rcases ending with rfl | returned
    · exact ⟨_, rfl⟩
    · rcases kept with _ | ⟨first, _ | ⟨second, rest⟩⟩
      · simp at returned
      · simp at returned
      · rw [List.cons_append, List.cons_append, List.cons.injEq, List.cons.injEq] at returned
        exact ⟨rest, by rw [returned.1, returned.2.1]⟩
  obtain ⟨rest, rfl⟩ := begins
  unfold parse ofChars commented
  rw [String.toList_ofList, longer, Progress.readLines_modify]
  intro line' found' progress
  obtain rfl : line = line' := Option.some.inj (found.symm.trans found')
  exact progress.line_comment closed rest

/-- After a line that leaves a literal open there are comments that no listing is read with. -/
theorem parse_commented_fails (owner : BinaryName)
    (found : (lines text.toList)[index]? = some line) (opened : leavesLiteralOpen line = true) :
    ∃ comment : String, '\n' ∉ comment.toList ∧
      Fails (parse (commented text index comment) owner) := by
  have unbroken : '\n' ∉ ' ' :: ';' :: ' ' :: points 4 := by decide
  obtain ⟨kept, rfl | returned, longer⟩ :=
    lines_appendAt unbroken (List.getElem?_eq_some_iff.mp found).1
  · refine ⟨String.ofList (' ' :: points 4), by rw [String.toList_ofList]; decide, ?_⟩
    unfold parse ofChars commented
    rw [String.toList_ofList, String.toList_ofList, longer]
    exact Fails.map (Progress.readLines_modify_fails found
      (fun progress => progress.line_points_fails opened) .start 1) _
  · have last := congrArg List.getLast? returned
    rw [List.getLast?_concat] at last
    cases last

/-- An accepted listing stays what it is whatever comment follows a line exactly if the scan for
comments does not take the line to end inside a string literal. -/
theorem parse_commented_iff {listing : Listing} (found : (lines text.toList)[index]? = some line)
    (accepted : parse text owner = .ok listing) :
    (∀ comment : String, '\n' ∉ comment.toList →
        parse (commented text index comment) owner = .ok listing) ↔
      leavesLiteralOpen line = false := by
  constructor
  · intro unchanged
    cases opened : leavesLiteralOpen line with
    | false => rfl
    | true =>
      obtain ⟨comment, unbroken, fails⟩ := parse_commented_fails owner found opened
      exact absurd (unchanged comment unbroken) (fails.ne_ok listing)
  · intro closed comment unbroken
    rw [parse_commented found closed unbroken, accepted]

/-- Quotes around a string, and one in the name of a class. -/
def quoting : String :=
  ".method static f()V\nldc \"; said\"\npop\nnew a\"b\npop\nreturn\n.end method\n"

private theorem quoting_accepted : ∃ listing, parse quoting .main = .ok listing :=
  isOk_iff.mp (by decide +kernel)

/-- Comments are fine after the string, but not all are after the class. -/
theorem quoting_comments : ∃ listing, parse quoting .main = .ok listing ∧
    (∀ comment : String, '\n' ∉ comment.toList →
      parse (commented quoting 1 comment) .main = .ok listing) ∧
    ¬ ∀ comment : String, '\n' ∉ comment.toList →
      parse (commented quoting 3 comment) .main = .ok listing := by
  obtain ⟨listing, accepted⟩ := quoting_accepted
  have string : (lines quoting.toList)[1]? = some "ldc \"; said\"".toList := by decide
  have name : (lines quoting.toList)[3]? = some "new a\"b".toList := by decide
  refine ⟨listing, accepted, (parse_commented_iff string accepted).mpr (by decide), ?_⟩
  intro unchanged
  have closed : leavesLiteralOpen "new a\"b".toList = false :=
    (parse_commented_iff name accepted).mp unchanged
  exact absurd closed (by decide)

/-- The comment after the class is read as further operands. -/
theorem quoting_comment_misread : (∃ listing, parse quoting .main = .ok listing) ∧
    parse (commented quoting 3 " made here") .main = .error ⟨4, .oneArgument "new".toList⟩ := by
  refine ⟨quoting_accepted, ?_⟩
  have refused : (match parse (commented quoting 3 " made here") .main with
      | .ok _ => none
      | .error failure => some failure) = some ⟨4, .oneArgument "new".toList⟩ := by
    decide +kernel
  cases read : parse (commented quoting 3 " made here") .main with
  | ok listing => simp [read] at refused
  | error failure => simpa [read] using refused

end MethodFlow.Listing
