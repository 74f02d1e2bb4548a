import MethodFlow.Proofs.Text.Wording

namespace MethodFlow.Text

/-- No character of the text is a blank. -/
def Solid (text : List Char) : Prop := ∀ c ∈ text, isBlank c = false

instance (text : List Char) : Decidable (Solid text) :=
  List.decidableBAll _ text

variable {text rest word : List Char} {c : Char}

@[simp] theorem solid_nil : Solid [] := by simp [Solid]

@[simp] theorem solid_cons : Solid (c :: rest) ↔ isBlank c = false ∧ Solid rest := by simp [Solid]

@[simp] theorem solid_append : Solid (text ++ rest) ↔ Solid text ∧ Solid rest := by
  simp [Solid, or_imp, forall_and]

@[simp] theorem solid_replicate {count : Nat} (solid : isBlank c = false) :
    Solid (List.replicate count c) := by
  intro other member
  rwa [List.eq_of_mem_replicate member]

theorem solid_of_mem_words (member : word ∈ words text) : Solid word := by
  induction text generalizing word with
  | nil => cases member
  | cons c rest ih =>
    cases solid : isBlank c with
    | true => exact ih (words_blank solid rest ▸ member)
    | false =>
      cases rest with
      | nil =>
        obtain rfl : word = [c] := by simpa [words, solid] using member
        simpa using solid
      | cons next rest =>
        cases solid' : isBlank next with
        | true =>
          rw [words_cons_blank solid solid'] at member
          rcases List.mem_cons.mp member with rfl | later
          · simpa using solid
          · exact ih (by rwa [words_blank solid'])
        | false =>
          obtain ⟨first, more, found, longer⟩ := words_cons_cons solid solid' rest
          rw [found] at ih
          rw [longer] at member
          rcases List.mem_cons.mp member with rfl | later
          · exact solid_cons.mpr ⟨solid, ih List.mem_cons_self⟩
          · exact ih (List.mem_cons_of_mem _ later)

end MethodFlow.Text
