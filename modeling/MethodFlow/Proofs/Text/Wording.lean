import Mathlib.Data.List.Basic
import MethodFlow.Text.Line

namespace MethodFlow.Text

variable {text rest : List Char} {c blank : Char}

/-- What begins with a character that is not dropped is not dropped from the end of a text. -/
theorem suffix_dropWhile (drops : Char → Bool) (kept : drops c = false)
    (ends : c :: rest <:+ text) : c :: rest <:+ text.dropWhile drops := by
  obtain ⟨front, rfl⟩ := ends
  rw [List.dropWhile_append]
  split
  · simp [kept]
  · exact List.suffix_append _ _

theorem drop_takeWhile (keeps : Char → Bool) (text : List Char) :
    text.drop (text.takeWhile keeps).length = text.dropWhile keeps := by
  calc text.drop (text.takeWhile keeps).length
      = (text.takeWhile keeps ++ text.dropWhile keeps).drop (text.takeWhile keeps).length := by
        rw [List.takeWhile_append_dropWhile]
    _ = text.dropWhile keeps := List.drop_left

theorem trimEnd_eq_self (solid : isBlank c = false) (last : text.getLast? = some c) :
    trimEnd text = text := by
  obtain ⟨front, rfl⟩ := List.getLast?_eq_some_iff.mp last
  simp [trimEnd, solid]

theorem trim_append_blank (apart : isBlank blank = true) (text : List Char) :
    trim (text ++ [blank]) = trim text := by
  unfold trim trimStart
  rw [List.dropWhile_append]
  split
  · rename_i empty
    simp [List.isEmpty_iff.mp empty, apart]
  · simp [trimEnd, apart]

/-- A blank sets the words before it apart from those after it. -/
theorem words_append_blank (apart : isBlank blank = true) (text rest : List Char) :
    words (text ++ blank :: rest) = words text ++ words rest := by
  induction text with
  | nil => exact words_blank apart rest
  | cons c text ih =>
    cases solid : isBlank c with
    | true => rw [List.cons_append, words_blank solid, words_blank solid, ih]
    | false =>
      cases text with
      | nil => simp [words_cons_blank solid apart, words, solid]
      | cons next text =>
        cases solid' : isBlank next with
        | true =>
          rw [List.cons_append, words_blank solid'] at ih
          rw [List.cons_append, List.cons_append, words_cons_blank solid solid',
            words_cons_blank solid solid', ih, words_blank solid', List.cons_append]
        | false =>
          obtain ⟨word, more, found, longer⟩ := words_cons_cons solid solid' text
          obtain ⟨word', more', found', longer'⟩ :=
            words_cons_cons solid solid' (text ++ blank :: rest)
          rw [List.cons_append, found, found', List.cons_append, List.cons.injEq] at ih
          rw [List.cons_append, List.cons_append, longer, longer', ih.1, ih.2, List.cons_append]

theorem words_ne_nil (solid : isBlank c = false) (rest : List Char) : words (c :: rest) ≠ [] := by
  cases rest with
  | nil => simp [words, solid]
  | cons next rest =>
    cases solid' : isBlank next with
    | true => simp [words_cons_blank solid solid']
    | false =>
      obtain ⟨word, more, -, longer⟩ := words_cons_cons solid solid' rest
      simp [longer]

/-- A text that begins with no blank begins as its first word does. -/
theorem head?_of_words {word : List Char} {more : List (List Char)}
    (begins : ∀ c ∈ text.head?, isBlank c = false) (found : words text = word :: more) :
    text.head? = word.head? := by
  cases text with
  | nil => cases found
  | cons c rest =>
    have solid : isBlank c = false := begins c rfl
    cases rest with
    | nil =>
      obtain ⟨rfl, -⟩ : [c] = word ∧ [] = more := by simpa [words, solid] using found
      rfl
    | cons next rest =>
      cases solid' : isBlank next with
      | true =>
        rw [words_cons_blank solid solid', List.cons.injEq] at found
        rw [← found.1]
        rfl
      | false =>
        obtain ⟨first, later, -, longer⟩ := words_cons_cons solid solid' rest
        rw [longer, List.cons.injEq] at found
        rw [← found.1]
        rfl

theorem head?_trim (text : List Char) : ∀ c ∈ (trim text).head?, isBlank c = false := by
  intro c begins
  have kept : trim text <+: trimStart text := by
    have dropped := List.dropWhile_suffix isBlank (l := (trimStart text).reverse)
    rwa [← List.reverse_prefix, List.reverse_reverse] at dropped
  obtain ⟨rest, same⟩ := List.head?_eq_some_iff.mp begins
  obtain ⟨further, whole⟩ := kept
  have first := List.head?_dropWhile_not isBlank text
  have begins' : (text.dropWhile isBlank).head? = some c := by
    change (trimStart text).head? = some c
    rw [← whole, same]
    rfl
  simpa [begins'] using first

end MethodFlow.Text
