import Mathlib.Data.List.Basic
import MethodFlow.Text.Line

namespace MethodFlow.Text

variable {stop : Char → Bool} {text before after : List Char}

theorem cutAt_append {c : Char} (passed : ∀ d ∈ before, stop d = false) (stops : stop c = true) :
    cutAt stop (before ++ c :: after) = (before, some after) := by
  induction before with
  | nil => simp [cutAt, stops]
  | cons head rest ih =>
    rw [List.forall_mem_cons] at passed
    simp [cutAt, passed.1, ih passed.2]

theorem cutAt_eq_self (passed : ∀ d ∈ text, stop d = false) : cutAt stop text = (text, none) := by
  induction text with
  | nil => rfl
  | cons head rest ih =>
    rw [List.forall_mem_cons] at passed
    simp [cutAt, passed.1, ih passed.2]

theorem eq_append_of_cutAt (cut : cutAt stop text = (before, some after)) :
    (∀ d ∈ before, stop d = false) ∧ ∃ c, stop c = true ∧ text = before ++ c :: after := by
  induction text generalizing before with
  | nil => cases cut
  | cons head rest ih =>
    simp only [cutAt] at cut
    split at cut
    · rename_i stops
      cases cut
      exact ⟨by simp, head, stops, rfl⟩
    · rename_i goes
      simp only [Prod.mk.injEq] at cut
      obtain ⟨rfl, ended⟩ := cut
      obtain ⟨passed, c, stops, same⟩ := ih (Prod.ext rfl ended)
      refine ⟨?_, c, stops, congrArg (head :: ·) same⟩
      rw [List.forall_mem_cons]
      exact ⟨Bool.eq_false_iff.mpr goes, passed⟩

theorem cutAtLast_append {c : Char} (passed : ∀ d ∈ after, stop d = false) (stops : stop c = true) :
    cutAtLast stop (before ++ c :: after) = some (before, after) := by
  have reversed : cutAt stop (before ++ c :: after).reverse = (after.reverse, some before.reverse) := by
    rw [List.reverse_append, List.reverse_cons, List.append_assoc, List.singleton_append]
    exact cutAt_append (fun d member => passed d (List.mem_reverse.mp member)) stops
  simp only [cutAtLast, reversed, List.reverse_reverse]

theorem eq_append_of_cutAtLast (cut : cutAtLast stop text = some (before, after)) :
    ∃ c, stop c = true ∧ text = before ++ c :: after := by
  unfold cutAtLast at cut
  split at cut
  · cases cut
  · rename_i reversed
    cases cut
    obtain ⟨-, c, stops, same⟩ := eq_append_of_cutAt reversed
    refine ⟨c, stops, ?_⟩
    rw [← List.reverse_eq_iff.mpr same.symm]
    simp

theorem dropLast?_concat {c : Char} (text : List Char) (stops : stop c = true) :
    dropLast? stop (text ++ [c]) = some text := by
  simp [dropLast?, stops]

/-- What follows a stop is not lost by a cut, which may be further to the front. -/
theorem cutAt_suffix {c : Char} (stops : stop c = true) (text rest : List Char) :
    ∃ word after, cutAt stop (text ++ c :: rest) = (word, some after) ∧ rest <:+ after := by
  induction text with
  | nil => exact ⟨[], rest, by simp [cutAt, stops], List.suffix_rfl⟩
  | cons head text ih =>
    obtain ⟨word, after, cut, kept⟩ := ih
    rw [List.cons_append, cutAt, cut]
    split
    · exact ⟨[], _, rfl, List.suffix_append_of_suffix (List.suffix_cons c rest)⟩
    · exact ⟨head :: word, after, rfl, kept⟩

/-- Characters that are no stops are kept in the segments of a text. -/
theorem mem_splitAll {c : Char} (stop : Char → Bool) (member : c ∈ text) (kept : stop c = false) :
    ∃ segment ∈ splitAll stop text, c ∈ segment := by
  induction text with
  | nil => cases member
  | cons head rest ih =>
    simp only [splitAll]
    split
    · rename_i stops
      rcases List.mem_cons.mp member with rfl | later
      · simp [stops] at kept
      · obtain ⟨segment, present, inside⟩ := ih later
        exact ⟨segment, List.mem_cons_of_mem _ present, inside⟩
    · rcases List.mem_cons.mp member with rfl | later
      · split
        · exact ⟨[c], by simp, by simp⟩
        · exact ⟨_, List.mem_cons_self, List.mem_cons_self⟩
      · obtain ⟨segment, present, inside⟩ := ih later
        split
        · rename_i none
          simp [none] at present
        · rename_i first more segments
          rw [segments, List.mem_cons] at present
          rcases present with rfl | present
          · exact ⟨_, List.mem_cons_self, List.mem_cons_of_mem _ inside⟩
          · exact ⟨segment, List.mem_cons_of_mem _ present, inside⟩

end MethodFlow.Text
