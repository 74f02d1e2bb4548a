import MethodFlow.Text.Blank

/-! Lines and the words on them. Nothing here changes a character: each function returns runs of
its argument. -/

namespace MethodFlow.Text

/-- Lines of a text, without the line feed (or carriage return and line feed) that ends them. The
last line need not be ended. -/
def lines : List Char → List (List Char)
  | [] => []
  | '\n' :: rest => [] :: lines rest
  | '\r' :: '\n' :: rest => [] :: lines rest
  | c :: rest =>
    match lines rest with
    | [] => [[c]]
    | line :: more => (c :: line) :: more

/-- A character that ends no line, alone or with the next one, belongs to the line that it is in
front of. -/
theorem lines_cons {c : Char} {rest line : List Char} {more : List (List Char)} (other : c ≠ '\n')
    (apart : c = '\r' → rest.head? ≠ some '\n') (found : lines rest = line :: more) :
    lines (c :: rest) = (c :: line) :: more := by
  rw [lines.eq_def]
  split
  · rename_i nothing
    cases nothing
  · rename_i same
    exact absurd (List.cons.inj same).1 other
  · rename_i same
    obtain ⟨rfl, rfl⟩ := List.cons.inj same
    exact absurd rfl (apart rfl)
  · rename_i same
    obtain ⟨rfl, rfl⟩ := List.cons.inj same
    rw [found]

/-- What follows the leading blanks. -/
def trimStart (text : List Char) : List Char := text.dropWhile isBlank

/-- What precedes the trailing blanks. -/
def trimEnd (text : List Char) : List Char := (text.reverse.dropWhile isBlank).reverse

def trim (text : List Char) : List Char := trimEnd (trimStart text)

/-- Longest runs of characters that are not blank. -/
def words : List Char → List (List Char)
  | [] => []
  | c :: rest =>
    if isBlank c then words rest
    else
      match rest with
      | [] => [[c]]
      | next :: _ =>
        if isBlank next then [c] :: words rest
        else
          match words rest with
          | [] => [[c]]
          | word :: more => (c :: word) :: more

@[simp] theorem words_blank {blank : Char} (apart : isBlank blank = true) (rest : List Char) :
    words (blank :: rest) = words rest := by
  simp [words, apart]

/-- A blank ends the word of one character before it. -/
theorem words_cons_blank {c blank : Char} (solid : isBlank c = false) (apart : isBlank blank = true)
    (rest : List Char) : words (c :: blank :: rest) = [c] :: words rest := by
  simp [words, solid, apart]

/-- A character that is followed by a word belongs to it. -/
theorem words_cons_cons {c next : Char} (solid : isBlank c = false) (solid' : isBlank next = false)
    (rest : List Char) : ∃ word more,
      words (next :: rest) = word :: more ∧ words (c :: next :: rest) = (c :: word) :: more := by
  have present : ∃ word more, words (next :: rest) = word :: more := by
    apply List.exists_cons_of_ne_nil
    rw [words.eq_def]
    simp only [solid', Bool.false_eq_true, ↓reduceIte]
    repeat' split
    all_goals simp
  obtain ⟨word, more, found⟩ := present
  refine ⟨word, more, found, ?_⟩
  rw [words.eq_def]
  simp [solid, solid', found]

/-- The characters before the first that `stop` holds of, and those after it. Without such a
character there is no second part. -/
def cutAt (stop : Char → Bool) : List Char → List Char × Option (List Char)
  | [] => ([], none)
  | c :: rest =>
    if stop c then ([], some rest)
    else
      let (before, after) := cutAt stop rest
      (c :: before, after)

/-- The same cut at the last such character. -/
def cutAtLast (stop : Char → Bool) (text : List Char) : Option (List Char × List Char) :=
  match cutAt stop text.reverse with
  | (_, none) => none
  | (after, some before) => some (before.reverse, after.reverse)

/-- The maximal runs between the characters that `stop` holds of: one more than there are such
characters. -/
def splitAll (stop : Char → Bool) : List Char → List (List Char)
  | [] => [[]]
  | c :: rest =>
    if stop c then [] :: splitAll stop rest
    else
      match splitAll stop rest with
      | [] => [[c]]
      | segment :: more => (c :: segment) :: more

/-- The text without a last character that `ending` holds of. -/
def dropLast? (ending : Char → Bool) (text : List Char) : Option (List Char) :=
  match text.getLast? with
  | some c => if ending c then some text.dropLast else none
  | none => none

/-- Where a scan for a comment stands: outside of string literals, just after some character;
inside one; or inside one just after a backslash. -/
inductive CommentScan
  | code (previous : Char)
  | literal
  | escaped
deriving DecidableEq, Repr

/-- Drops a comment, which starts at a `;` that follows a blank outside of string literals. -/
def uncommentFrom : CommentScan → List Char → List Char
  | _, [] => []
  | .escaped, c :: rest => c :: uncommentFrom .literal rest
  | .literal, c :: rest =>
    c :: uncommentFrom (if c = '\\' then .escaped else if c = '"' then .code c else .literal) rest
  | .code previous, c :: rest =>
    if c = '"' then c :: uncommentFrom .literal rest
    else if c = ';' && isBlank previous then []
    else c :: uncommentFrom (.code c) rest

/-- A line without its comment. The start of the line counts as following a blank. -/
def uncomment (line : List Char) : List Char := uncommentFrom (.code ' ') line

end MethodFlow.Text
