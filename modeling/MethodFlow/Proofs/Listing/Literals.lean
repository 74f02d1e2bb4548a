import MethodFlow.Proofs.Listing.Bodies

/-! Strings as literals. With escapes for the five characters that need one, any string can stand
between quotes: nothing in it is taken for the end of the literal, of the line or of a word, for a
comment or for a label, and the same string is read back. -/

namespace MethodFlow.Listing

open MethodFlow.Text

/-- A character as it is written in a literal. -/
def escapedChar : Char → List Char
  | '\\' => ['\\', '\\']
  | '"' => ['\\', '"']
  | '\n' => ['\\', 'n']
  | '\t' => ['\\', 't']
  | '\r' => ['\\', 'r']
  | c => [c]

/-- A text as it is written between quotes. -/
def escape (text : List Char) : List Char := text.flatMap escapedChar

/-- A character has an escape, or it is no quote, backslash or line feed and stands for itself. -/
theorem escapedChar_cases (c : Char) :
    (∃ letter, escapedChar c = ['\\', letter] ∧ escaped? letter = some c ∧ letter ≠ '\n') ∨
      escapedChar c = [c] ∧ c ≠ '\\' ∧ c ≠ '"' ∧ c ≠ '\n' := by
  unfold escapedChar
  split
  case h_6 backslash quote feed _ _ => exact .inr ⟨rfl, backslash, quote, feed⟩
  all_goals exact .inl ⟨_, rfl, rfl, by decide⟩

theorem escape_cons (c : Char) (text : List Char) :
    escape (c :: text) = escapedChar c ++ escape text := List.flatMap_cons

/-- The scan for a comment takes nothing in it for the end of the literal. -/
theorem after_escape (text : List Char) :
    CommentScan.literal.after (escape text) = some .literal := by
  induction text with
  | nil => rfl
  | cons c text ih =>
    rw [escape_cons]
    rcases escapedChar_cases c with ⟨letter, written, -⟩ | ⟨written, backslash, quote, -⟩
    · rw [written]
      exact ih
    · rw [written]
      simpa [CommentScan.after, CommentScan.next, backslash, quote] using ih

theorem notMem_escape (text : List Char) : '\n' ∉ escape text := by
  unfold escape
  rw [List.mem_flatMap]
  rintro ⟨c, -, inside⟩
  rcases escapedChar_cases c with ⟨letter, written, -, other⟩ | ⟨written, -, -, other⟩
  · simp [written, other.symm] at inside
  · simp [written, other.symm] at inside

theorem unescape_escape (text : List Char) : unescape (escape text) = .ok text := by
  induction text with
  | nil => rfl
  | cons c text ih =>
    rw [escape_cons]
    rcases escapedChar_cases c with ⟨letter, written, stands, -⟩ | ⟨written, backslash, -⟩
    · rw [written, List.cons_append, List.singleton_append, unescape]
      simp only [stands, ih]
      rfl
    · rw [written, List.singleton_append, unescape, ih]
      · rfl
      · exact backslash

/-- A string between quotes. -/
def literal (string : String) : String := "\"" ++ String.ofList (escape string.toList) ++ "\""

theorem toList_literal (string : String) :
    (literal string).toList = '"' :: (escape string.toList ++ ['"']) := by
  simp [literal]

theorem bounded_literal (string : String) : Bounded (literal string).toList := by
  rw [toList_literal, ← List.cons_append]
  exact ⟨⟨'"', rfl, by decide⟩, ⟨'"', List.getLast?_concat, by decide⟩⟩

theorem readConstant_literal (string : String) :
    readConstant (literal string).toList = .ok (.string string.toList) := by
  have quoted : dropLast? (· = '"') (escape string.toList ++ ['"']) = some (escape string.toList) :=
    dropLast?_concat _ (by decide)
  rw [toList_literal]
  simp only [readConstant, readString, quoted, unescape_escape]
  rfl

/-- A line that loads a string. -/
def loadLiteral (string : String) : String := "ldc " ++ literal string

theorem toList_loadLiteral (string : String) :
    (loadLiteral string).toList = "ldc".toList ++ ' ' :: (literal string).toList := by
  simp [loadLiteral]

/-- After the literal the scan for a comment stands outside of it. -/
theorem after_loadLiteral (string : String) :
    (CommentScan.code ' ').after (loadLiteral string).toList = some (.code '"') := by
  rw [toList_loadLiteral, toList_literal]
  change CommentScan.literal.after (escape string.toList ++ ['"']) = _
  rw [CommentScan.after, List.foldlM_append, ← CommentScan.after, after_escape]
  rfl

variable {owner : BinaryName} {header : String} {progress : Progress} {method : OpenMethod}

theorem line_loadLiteral (inside : progress.current = some method) (string : String) :
    progress.line owner (loadLiteral string).toList =
      .ok (progress.withMethod
        (method.push (.instruction (.loadConstant (.string string.toList))))) := by
  have kept : uncomment (loadLiteral string).toList = (loadLiteral string).toList := by
    simpa [uncomment, uncommentFrom] using uncommentFrom_append (after_loadLiteral string) []
  rw [toList_loadLiteral] at kept ⊢
  refine Progress.line_join (form?_eq_constant.mpr (.inl rfl)) (bounded_literal string) kept inside ?_
  simp only [Statement.operation, readConstant_literal]
  rfl

/-- Any string, written as a literal after `ldc` as a line of a method, with or without a comment
after it, is read as the instruction that loads just this string. -/
theorem parse_literal (opens : progress.Opens owner header method) (string comment : String)
    (unbroken : '\n' ∉ comment.toList) :
    parse (bodied header ("ldc " ++ literal string)) owner =
        .ok (progress.listing owner
          (method.push (.instruction (.loadConstant (.string string.toList))))) ∧
      parse (bodied header ("ldc " ++ literal string ++ " ;" ++ comment)) owner =
        .ok (progress.listing owner
          (method.push (.instruction (.loadConstant (.string string.toList))))) := by
  have whole : '\n' ∉ (loadLiteral string).toList := by
    simp [toList_loadLiteral, toList_literal, notMem_escape]
  have bounded : Bounded (loadLiteral string).toList := by
    rw [toList_loadLiteral]
    exact (bounded_mnemonic (form?_eq_constant.mpr (.inl rfl))).join (bounded_literal string)
  have closed : leavesLiteralOpen (loadLiteral string).toList = false := by
    simp [leavesLiteralOpen, after_loadLiteral, CommentScan.insideLiteral]
  have read : progress.line owner (loadLiteral string).toList = .ok _ :=
    line_loadLiteral opens.inside string
  exact ⟨parse_bodied opens whole read bounded,
    parse_bodied_comment opens whole read closed unbroken⟩

/-- A header of a method in a class. -/
def literalHeader : String := ".class p/A\n.method static f()Ljava/lang/String;\n.limit stack 1"

/-- Quotes, backslashes, a colon, line ends, and semicolons after blanks. -/
def awkward : String := "a: ; \"b\\\n\t\r ;\\"

/-- It is read back, also before a comment that opens a literal and ends in a carriage return. -/
theorem parse_literal_hard : ∃ (progress : Progress) (method : OpenMethod),
    progress.Opens .main literalHeader method ∧ '\n' ∉ " \"; no: \\\r".toList ∧
    parse (bodied literalHeader ("ldc " ++ literal awkward)) .main =
        .ok (progress.listing .main
          (method.push (.instruction (.loadConstant (.string awkward.toList))))) ∧
      parse (bodied literalHeader ("ldc " ++ literal awkward ++ " ;" ++ " \"; no: \\\r")) .main =
        .ok (progress.listing .main
          (method.push (.instruction (.loadConstant (.string awkward.toList))))) := by
  obtain ⟨progress, method, opens⟩ :
      ∃ (progress : Progress) (method : OpenMethod), progress.Opens .main literalHeader method :=
    Progress.exists_opens (by decide +kernel)
  exact ⟨progress, method, opens, by decide, parse_literal opens _ _ (by decide)⟩

end MethodFlow.Listing
