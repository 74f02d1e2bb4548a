import MethodFlow.Proofs.Text.Wording

namespace MethodFlow.Text

namespace CommentScan

/-- Where the scan stands after a character; nowhere if the character starts a comment. -/
def next : CommentScan → Char → Option CommentScan
  | .escaped, _ => some .literal
  | .literal, c => some (if c = '\\' then .escaped else if c = '"' then .code c else .literal)
  | .code previous, c =>
    if c = '"' then some .literal
    else if c = ';' && isBlank previous then none
    else some (.code c)

/-- Where the scan stands after a text; nowhere if a comment starts in it. -/
def after (scan : CommentScan) (text : List Char) : Option CommentScan := text.foldlM next scan

def insideLiteral : CommentScan → Bool
  | .code _ => false
  | .literal | .escaped => true

end CommentScan

open CommentScan

variable {scan scan' : CommentScan} {line : List Char}

/-- Does the scan for a comment end inside a string literal? -/
def leavesLiteralOpen (line : List Char) : Bool :=
  ((CommentScan.code ' ').after line).any insideLiteral

theorem uncommentFrom_cons (scan : CommentScan) (c : Char) (rest : List Char) :
    uncommentFrom scan (c :: rest) =
      ((scan.next c).map fun scan => c :: uncommentFrom scan rest).getD [] := by
  cases scan with
  | code previous =>
    simp only [uncommentFrom, next]
    repeat' split
    all_goals rfl
  | literal | escaped => rfl

/-- What follows the start of a comment makes no difference. -/
theorem uncommentFrom_append_of_comment (dropped : scan.after line = none) (rest : List Char) :
    uncommentFrom scan (line ++ rest) = uncommentFrom scan line := by
  induction line generalizing scan with
  | nil => cases dropped
  | cons c line ih =>
    rw [List.cons_append, uncommentFrom_cons, uncommentFrom_cons]
    cases stepped : scan.next c with
    | none => rfl
    | some scan =>
      have later : scan.after line = none := by
        simpa [CommentScan.after, stepped] using dropped
      simp [ih later]

/-- Where no comment starts, all is kept, and the scan goes on from where it stands. -/
theorem uncommentFrom_append (reached : scan.after line = some scan') (rest : List Char) :
    uncommentFrom scan (line ++ rest) = line ++ uncommentFrom scan' rest := by
  induction line generalizing scan with
  | nil =>
    cases reached
    rfl
  | cons c line ih =>
    rw [List.cons_append, uncommentFrom_cons]
    cases stepped : scan.next c with
    | none => simp [CommentScan.after, stepped] at reached
    | some scan =>
      have later : scan.after line = some scan' := by
        simpa [CommentScan.after, stepped] using reached
      simp [ih later]

/-- A comment after a line whose literals are closed takes nothing but a blank with it. -/
theorem trim_uncomment_comment (closed : leavesLiteralOpen line = false) (comment : List Char) :
    trim (uncomment (line ++ ' ' :: ';' :: comment)) = trim (uncomment line) := by
  unfold uncomment
  cases reached : (CommentScan.code ' ').after line with
  | none => rw [uncommentFrom_append_of_comment reached]
  | some scan =>
    cases scan with
    | literal | escaped => simp [leavesLiteralOpen, reached, insideLiteral] at closed
    | code previous =>
      have same : uncommentFrom (.code ' ') line = line := by
        simpa [uncommentFrom] using uncommentFrom_append reached []
      have blank : uncommentFrom (.code previous) (' ' :: ';' :: comment) = [' '] := by
        simp [uncommentFrom, show isBlank ' ' = true by decide]
      rw [uncommentFrom_append reached, blank, same, trim_append_blank (by decide)]

/-- Appends to the line of an index, before what ends the line. -/
def appendAt (addition : List Char) : Nat → List Char → List Char
  | _, [] => addition
  | 0, '\n' :: rest => addition ++ '\n' :: rest
  | index + 1, '\n' :: rest => '\n' :: appendAt addition index rest
  | 0, '\r' :: '\n' :: rest => addition ++ '\r' :: '\n' :: rest
  | index + 1, '\r' :: '\n' :: rest => '\r' :: '\n' :: appendAt addition index rest
  | index, c :: rest => c :: appendAt addition index rest

theorem lines_of_unbroken (unbroken : '\n' ∉ line) (present : line ≠ []) :
    lines line = [line] := by
  induction line with
  | nil => exact absurd rfl present
  | cons c line ih =>
    rw [List.mem_cons, not_or] at unbroken
    cases line with
    | nil => simp [lines, Ne.symm unbroken.1]
    | cons next line =>
      refine lines_cons (Ne.symm unbroken.1) ?_ (ih unbroken.2 (List.cons_ne_nil _ _))
      rintro - same
      exact unbroken.2 (List.mem_cons.mpr (.inl (Option.some.inj same).symm))

theorem lines_append {ending : List Char} {more : List (List Char)} (unbroken : '\n' ∉ line)
    (ended : lines ending = [] :: more)
    (apart : line.getLast? = some '\r' → ending.head? ≠ some '\n') :
    lines (line ++ ending) = line :: more := by
  induction line with
  | nil => exact ended
  | cons c line ih =>
    rw [List.mem_cons, not_or] at unbroken
    cases line with
    | nil => exact lines_cons (Ne.symm unbroken.1) (fun same => apart (congrArg some same)) ended
    | cons next line =>
      refine lines_cons (Ne.symm unbroken.1) ?_ (ih unbroken.2 apart)
      rintro - same
      exact unbroken.2 (List.mem_cons.mpr (.inl (Option.some.inj same).symm))

theorem lines_eq_nil {text : List Char} (none : lines text = []) : text = [] := by
  rw [lines.eq_def] at none
  split at none
  · rfl
  · cases none
  · cases none
  · split at none <;> cases none

/-- A line ends at a line feed, and may lose a carriage return at its end to it. -/
theorem lines_line (unbroken : '\n' ∉ line) (rest : List Char) :
    ∃ kept, (kept = line ∨ line = kept ++ ['\r']) ∧
      lines (line ++ '\n' :: rest) = kept :: lines rest := by
  by_cases returned : line.getLast? = some '\r'
  · obtain ⟨kept, rfl⟩ := List.getLast?_eq_some_iff.mp returned
    refine ⟨kept, .inr rfl, ?_⟩
    have unbroken' : '\n' ∉ kept := fun member => unbroken (List.mem_append_left _ member)
    rw [List.append_assoc]
    exact lines_append unbroken' rfl fun _ => by simp
  · exact ⟨line, .inl rfl, lines_append unbroken rfl fun same => absurd same returned⟩

theorem lines_append_line (text rest : List Char) :
    lines (text ++ '\n' :: rest) = lines (text ++ ['\n']) ++ lines rest := by
  fun_induction lines text with
  | case1 => rfl
  | case2 text ih => simp [lines, ih]
  | case3 text ih => simp [lines, ih]
  | case4 c text other notReturn none =>
    obtain rfl := lines_eq_nil none
    by_cases returns : c = '\r'
    · subst returns
      rfl
    · have shown (rest : List Char) : lines (c :: '\n' :: rest) = [c] :: lines rest :=
        lines_cons other (fun same => absurd same returns) rfl
      simp [shown, lines]
  | case5 c text other notReturn line more found ih =>
    obtain ⟨first, tail, rfl⟩ : ∃ first tail, text = first :: tail := by
      cases text with
      | nil => cases found
      | cons first tail => exact ⟨first, tail, rfl⟩
    have apart (further : List Char) :
        c = '\r' → (first :: (tail ++ further)).head? ≠ some '\n' := by
      rintro returns ⟨⟩
      exact notReturn tail returns rfl
    obtain ⟨line', more', found'⟩ : ∃ line' more',
        lines (first :: tail ++ ['\n']) = line' :: more' := by
      refine List.exists_cons_of_ne_nil fun none => ?_
      exact absurd (lines_eq_nil none) (by simp)
    rw [found'] at ih
    simp only [List.cons_append] at ih found' ⊢
    rw [lines_cons other (apart _) ih, lines_cons other (apart _) found', List.cons_append]

private theorem appendAt_cons {c : Char} {rest : List Char} (other : c ≠ '\n')
    (apart : c = '\r' → rest.head? ≠ some '\n') (addition : List Char) (index : Nat) :
    appendAt addition index (c :: rest) = c :: appendAt addition index rest := by
  rw [appendAt.eq_def]
  split
  · rename_i nothing
    cases nothing
  · rename_i same
    exact absurd (List.cons.inj same).1 other
  · rename_i same
    exact absurd (List.cons.inj same).1 other
  · rename_i same
    obtain ⟨rfl, rfl⟩ := List.cons.inj same
    exact absurd rfl (apart rfl)
  · rename_i same
    obtain ⟨rfl, rfl⟩ := List.cons.inj same
    exact absurd rfl (apart rfl)
  · rename_i same
    obtain ⟨rfl, rfl⟩ := List.cons.inj same
    rfl

private theorem head?_appendAt {addition text : List Char} (unbroken : '\n' ∉ addition)
    (other : text.head? ≠ some '\n') (index : Nat) :
    (appendAt addition index text).head? ≠ some '\n' := by
  have unbegun : addition.head? ≠ some '\n' := fun same => unbroken (List.mem_of_mem_head? same)
  unfold appendAt
  split
  · exact unbegun
  · exact absurd rfl other
  · exact absurd rfl other
  · cases addition with
    | nil => simp
    | cons => exact unbegun
  · simp
  · exact other

/-- What is appended to a line lengthens this line alone. A carriage return at its end may become
part of what ends the line. -/
theorem lines_appendAt {addition : List Char} (unbroken : '\n' ∉ addition) {index : Nat}
    {text : List Char} (present : index < (lines text).length) :
    ∃ kept, (kept = addition ∨ addition = kept ++ ['\r']) ∧
      lines (appendAt addition index text) = (lines text).modify index (· ++ kept) := by
  fun_induction lines text generalizing index with
  | case1 => cases present
  | case2 rest ih =>
    cases index with
    | zero => exact lines_line unbroken rest
    | succ index =>
      obtain ⟨kept, same, longer⟩ := ih (Nat.lt_of_succ_lt_succ present)
      exact ⟨kept, same, congrArg ([] :: ·) longer⟩
  | case3 rest ih =>
    cases index with
    | zero => exact ⟨addition, .inl rfl, lines_append unbroken rfl (fun _ => by simp)⟩
    | succ index =>
      obtain ⟨kept, same, longer⟩ := ih (Nat.lt_of_succ_lt_succ present)
      exact ⟨kept, same, congrArg ([] :: ·) longer⟩
  | case4 c rest other notReturn none =>
    have unbroken' : '\n' ∉ c :: addition := by
      rw [List.mem_cons, not_or]
      exact ⟨Ne.symm other, unbroken⟩
    have first : index = 0 := Nat.lt_one_iff.mp present
    refine ⟨addition, .inl rfl, ?_⟩
    rw [lines_eq_nil none, first, appendAt_cons other (by simp), appendAt]
    exact lines_of_unbroken unbroken' (List.cons_ne_nil _ _)
  | case5 c rest other notReturn line more found ih =>
    have apart : c = '\r' → rest.head? ≠ some '\n' := by
      intro same begins
      obtain ⟨rest, rfl⟩ := List.head?_eq_some_iff.mp begins
      exact notReturn rest same rfl
    rw [found] at ih
    obtain ⟨kept, same, longer⟩ := ih present
    refine ⟨kept, same, ?_⟩
    rw [appendAt_cons other apart]
    have apart' : c = '\r' → (appendAt addition index rest).head? ≠ some '\n' :=
      fun same => head?_appendAt unbroken (apart same) index
    cases index with
    | zero => exact lines_cons other apart' longer
    | succ index => exact lines_cons other apart' longer

end MethodFlow.Text
