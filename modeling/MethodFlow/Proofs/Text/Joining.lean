import Mathlib.Data.List.Chain
import MethodFlow.Proofs.Text.Solidity

namespace MethodFlow.Text

variable {text rest : List Char} {c previous : Char}

theorem isBlank_space : isBlank ' ' = true := by decide

/-- There are characters, and neither the first nor the last of them is a blank. -/
structure Bounded (text : List Char) : Prop where
  begins : ∃ c, text.head? = some c ∧ isBlank c = false
  ends : ∃ c, text.getLast? = some c ∧ isBlank c = false

theorem Solid.bounded (solid : Solid text) (present : text ≠ []) : Bounded text := by
  refine ⟨⟨text.head present, List.head?_eq_some_head present, ?_⟩,
    ⟨text.getLast present, List.getLast?_eq_some_getLast present, ?_⟩⟩
  · exact solid _ (List.head_mem present)
  · exact solid _ (List.getLast_mem present)

theorem Solid.newline_notMem (solid : Solid text) : '\n' ∉ text :=
  fun member => absurd (solid _ member) (by decide)

namespace Bounded

theorem ne_nil (bounded : Bounded text) : text ≠ [] := by
  rintro rfl
  obtain ⟨c, none, -⟩ := bounded.begins
  cases none

theorem join (bounded : Bounded text) (bounded' : Bounded rest) : Bounded (text ++ ' ' :: rest) := by
  obtain ⟨first, begins, solid⟩ := bounded.begins
  obtain ⟨last, ends, solid'⟩ := bounded'.ends
  refine ⟨⟨first, ?_, solid⟩, ⟨last, ?_, solid'⟩⟩
  · simp [begins]
  · simp [List.getLast?_append, List.getLast?_cons, ends]

theorem trimStart_eq (bounded : Bounded text) : trimStart text = text := by
  obtain ⟨c, begins, solid⟩ := bounded.begins
  obtain ⟨rest, rfl⟩ := List.head?_eq_some_iff.mp begins
  simp [trimStart, solid]

theorem trim_eq (bounded : Bounded text) : trim text = text := by
  obtain ⟨c, ends, solid⟩ := bounded.ends
  rw [trim, bounded.trimStart_eq, trimEnd_eq_self solid ends]

theorem getLast?_ne_return (bounded : Bounded text) : text.getLast? ≠ some '\r' := by
  obtain ⟨c, ends, solid⟩ := bounded.ends
  rw [ends]
  rintro ⟨⟩
  exact absurd solid (by decide)

end Bounded

theorem Solid.words_eq (solid : Solid text) (present : text ≠ []) : words text = [text] := by
  induction text with
  | nil => exact absurd rfl present
  | cons c text ih =>
    rw [solid_cons] at solid
    cases text with
    | nil => simp [words, solid.1]
    | cons next text =>
      have found := ih solid.2 (List.cons_ne_nil _ _)
      obtain ⟨word, more, found', longer⟩ :=
        words_cons_cons solid.1 (solid_cons.mp solid.2).1 text
      rw [longer]
      obtain ⟨rfl, rfl⟩ := List.cons.inj (found'.symm.trans found)
      rfl

/-- No semicolon follows a blank, nor stands at the start of a line. -/
def Unremarked (line : List Char) : Prop :=
  (' ' :: line).IsChain fun previous c => c = ';' → isBlank previous = false

/-- A word is no comment unless it begins as one. -/
theorem Solid.unremarked (solid : Solid text) (other : text.head? ≠ some ';') :
    Unremarked text := by
  have within {first : Char} {word : List Char} (solid : Solid (first :: word)) :
      (first :: word).IsChain fun previous c => c = ';' → isBlank previous = false := by
    induction word generalizing first with
    | nil => exact .singleton _
    | cons next word ih =>
      rw [solid_cons] at solid
      exact .cons_cons (fun _ => solid.1) (ih solid.2)
  cases text with
  | nil => exact .singleton _
  | cons c text => exact .cons_cons (fun same => absurd (congrArg some same) other) (within solid)

theorem Unremarked.join (unremarked : Unremarked text) (unremarked' : Unremarked rest) :
    Unremarked (text ++ ' ' :: rest) := by
  refine List.IsChain.append unremarked unremarked' ?_
  rintro last - first begins rfl
  cases begins

theorem uncommentFrom_eq_self {scan : CommentScan}
    (unremarked : (previous :: text).IsChain fun previous c => c = ';' → isBlank previous = false)
    (stands : ∀ other, scan = .code other → other = previous) : uncommentFrom scan text = text := by
  induction text generalizing previous scan with
  | nil => cases scan <;> rfl
  | cons c text ih =>
    obtain ⟨apart, later⟩ := List.isChain_cons_cons.mp unremarked
    cases scan with
    | escaped => exact congrArg (c :: ·) (ih later nofun)
    | literal =>
      refine congrArg (c :: ·) (ih later ?_)
      intro other
      split
      · exact nofun
      split
      · rintro ⟨⟩
        rfl
      · exact nofun
    | code other =>
      obtain rfl := stands other rfl
      simp only [uncommentFrom]
      split
      · exact congrArg (c :: ·) (ih later nofun)
      split
      · rename_i comments
        simp only [Bool.and_eq_true, decide_eq_true_eq] at comments
        simp [apart comments.1] at comments
      · refine congrArg (c :: ·) (ih later ?_)
        rintro _ ⟨⟩
        rfl

theorem Unremarked.uncomment_eq (unremarked : Unremarked text) : uncomment text = text :=
  uncommentFrom_eq_self unremarked fun _ same => (CommentScan.code.inj same).symm

end MethodFlow.Text
