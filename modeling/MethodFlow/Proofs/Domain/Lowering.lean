import MethodFlow.Domain.OperandCheck
import MethodFlow.Proofs.Frame.Simulation

/-! Checks of operands. A value that fits no type passes none of them. Where a value fits what the
value above it fits, it passes the checks that value passes, and a domain that makes these checks does
with it what it does with the value above. -/

namespace MethodFlow

theorem TypeValues.binaryResult_eq {V : Type} {types : TypeValues V} {site : Site}
    (plain : site.operation ≠ .instruction (.arrayLoad .reference)) (first second : V) :
    types.binaryResult site first = types.binaryResult site second := by
  obtain ⟨index, i | b⟩ := site
  · cases i with
    | arrayLoad kind =>
      cases kind with
      | reference => exact absurd rfl plain
      | _ => rfl
    | _ => rfl
  · rfl

namespace CheckedValues

variable {V : Type} [AbstractValue V] {types : CheckedValues V} {context : Option String}

theorem expect_eq_ok {value expected : V} :
    types.expect context value expected = .ok () ↔ types.isSubtype value expected = .ok true := by
  constructor
  · intro passed
    obtain ⟨fits, answered, continued⟩ := bind_eq_ok.mp passed
    cases fits with
    | true => exact answered
    | false => cases continued
  · intro fits
    exact bind_eq_ok.mpr ⟨true, fits, rfl⟩

theorem expectReference_eq_ok {value : V} :
    types.expectReference context value = .ok () ↔ types.isReference value = true := by
  simp [expectReference]

theorem expectArray_eq_ok {value : V} :
    types.expectArray value = .ok () ↔ types.isArray value = true := by
  simp [expectArray]

theorem expectBoth_eq_ok {first second expected expected' : V} :
    types.expectBoth first second expected expected' = .ok () ↔
      types.isSubtype first expected = .ok true ∧ types.isSubtype second expected' = .ok true := by
  constructor
  · intro passed
    obtain ⟨_, one, two⟩ := bind_eq_ok.mp passed
    exact ⟨expect_eq_ok.mp one, expect_eq_ok.mp two⟩
  · rintro ⟨fits, fits'⟩
    exact bind_eq_ok.mpr ⟨(), expect_eq_ok.mpr fits, expect_eq_ok.mpr fits'⟩

omit [AbstractValue V] in
theorem typed_of_expectedArray {kind : ArrayKind} {array expected : V}
    (chosen : types.expectedArray kind array = .ok expected) :
    ∃ type, expected = types.typed type := by
  unfold expectedArray at chosen
  split at chosen
  · obtain ⟨booleans, -, chosen⟩ := bind_eq_ok.mp chosen
    split at chosen
    · cases chosen
      exact ⟨_, rfl⟩
    · cases chosen
      exact ⟨_, rfl⟩
  · cases chosen
    exact ⟨_, rfl⟩

/-- A value that passes for none of a type. -/
structure Rejects (types : CheckedValues V) (lost : V) : Prop where
  isReference : types.isReference lost = false
  isArray : types.isArray lost = false
  isReferenceArray : types.isReferenceArray lost = false
  isSubtype : ∀ type : FieldType, types.isSubtype lost (types.typed type) ≠ .ok true

namespace Rejects

variable {lost value first second third : V} {type type' : FieldType} {site : Site}

theorem expect (rejects : types.Rejects lost)
    (passed : types.expect context value (types.typed type) = .ok ()) : value ≠ lost := by
  rintro rfl
  exact rejects.isSubtype type (expect_eq_ok.mp passed)

theorem expectReference (rejects : types.Rejects lost)
    (passed : types.expectReference context value = .ok ()) : value ≠ lost := by
  rintro rfl
  cases rejects.isReference.symm.trans (expectReference_eq_ok.mp passed)

theorem expectArray (rejects : types.Rejects lost) (passed : types.expectArray value = .ok ()) :
    value ≠ lost := by
  rintro rfl
  cases rejects.isArray.symm.trans (expectArray_eq_ok.mp passed)

/-- A load has to find something usable. Shuffles move any value. -/
theorem load (rejects : types.Rejects lost) {kind : Kind} {slot : Nat}
    (operated : site.operation = .instruction (.load kind slot))
    (passed : types.checkCopy site value = .ok ()) : value ≠ lost := by
  unfold checkCopy at passed
  rw [operated] at passed
  cases kind with
  | reference => exact rejects.expectReference passed
  | _ => exact rejects.expect passed

theorem unary (rejects : types.Rejects lost) (passed : types.checkUnary site value = .ok ()) :
    value ≠ lost := by
  unfold checkUnary at passed
  split at passed <;> split at passed <;>
    first
    | exact rejects.expect passed
    | exact rejects.expectReference passed
    | exact rejects.expectArray passed
    | cases passed

theorem both (rejects : types.Rejects lost)
    (passed : types.expectBoth first second (types.typed type) (types.typed type') = .ok ()) :
    first ≠ lost ∧ second ≠ lost := by
  obtain ⟨_, one, two⟩ := bind_eq_ok.mp passed
  exact ⟨rejects.expect one, rejects.expect two⟩

theorem binary (rejects : types.Rejects lost)
    (passed : types.checkBinary site first second = .ok ()) : first ≠ lost ∧ second ≠ lost := by
  unfold checkBinary at passed
  split at passed
  · split at passed
    · obtain ⟨expected, chosen, passed⟩ := bind_eq_ok.mp passed
      obtain ⟨type, rfl⟩ := typed_of_expectedArray chosen
      exact rejects.both passed
    all_goals first
      | exact rejects.both passed
      | cases passed
  · split at passed
    · exact rejects.both passed
    · obtain ⟨_, one, two⟩ := bind_eq_ok.mp passed
      exact ⟨rejects.expectReference one, rejects.expectReference two⟩
    · cases passed

theorem ternary (rejects : types.Rejects lost)
    (passed : types.checkTernary site first second third = .ok ()) :
    first ≠ lost ∧ second ≠ lost ∧ third ≠ lost := by
  unfold checkTernary at passed
  split at passed
  · unfold checkReferenceStore at passed
    split at passed
    · rename_i array
      simp only [bind_eq_ok] at passed
      obtain ⟨_, index, _, value, -⟩ := passed
      refine ⟨?_, rejects.expect index, rejects.expectReference value⟩
      rintro rfl
      cases rejects.isReferenceArray.symm.trans array
    · cases passed
  · simp only [bind_eq_ok] at passed
    obtain ⟨expected, chosen, _, one, _, two, three⟩ := passed
    obtain ⟨type, rfl⟩ := typed_of_expectedArray chosen
    exact ⟨rejects.expect one, rejects.expect two, rejects.expect three⟩
  · cases passed

end Rejects

/-- Values below others pass for what those pass for, unless those pass for nothing. -/
structure Lowers (types : CheckedValues V) (lost : V) (related : V → V → Prop) : Prop
    extends Rejects types lost where
  unset : types.valueOf none = lost
  narrow : width lost ≠ 2
  refl : ∀ value, related value value
  width_eq : ∀ {value upper}, related value upper → upper ≠ lost → width value = width upper
  reference : ∀ {value upper}, related value upper → types.isReference upper = true →
    types.isReference value = true
  returnAddress : ∀ {value upper}, related value upper → types.isReturnAddress upper = true →
    types.isReturnAddress value = true
  array : ∀ {value upper}, related value upper → types.isArray upper = true →
    types.isArray value = true
  subtype : ∀ {value upper expected}, related value upper → upper ≠ lost →
    types.isSubtype upper expected = .ok true → types.isSubtype value expected = .ok true
  /-- No class is looked up for an array of primitive values. -/
  answers : ∀ (value : V) (element : BaseType),
    ∃ fits, types.isSubtype value (types.typed (.arrayOf (.base element))) = .ok fits
  element : ∀ {value upper element'}, related value upper →
    types.isSubtype upper (types.typed (.arrayOf (.object .object))) = .ok true →
    types.elementOf upper = .ok element' →
      ∃ element, types.elementOf value = .ok element ∧ Matches related element element'

namespace Lowers

variable {lost : V} {related : V → V → Prop} {site : Site} {value upper first second third : V}
  {first' second' third' : V} {type type' : FieldType}

theorem fits (lowers : types.Lowers lost related) (below : related value upper)
    (passed : types.isSubtype upper (types.typed type) = .ok true) :
    types.isSubtype value (types.typed type) = .ok true := by
  refine lowers.subtype below ?_ passed
  rintro rfl
  exact lowers.isSubtype type passed

theorem expect (lowers : types.Lowers lost related) (below : related value upper)
    (passed : types.expect context upper (types.typed type) = .ok ()) :
    types.expect context value (types.typed type) = .ok () := by
  rw [expect_eq_ok] at passed ⊢
  exact lowers.fits below passed

theorem expectReference (lowers : types.Lowers lost related) (below : related value upper)
    (passed : types.expectReference context upper = .ok ()) :
    types.expectReference context value = .ok () := by
  rw [expectReference_eq_ok] at passed ⊢
  exact lowers.reference below passed

theorem expectArray (lowers : types.Lowers lost related) (below : related value upper)
    (passed : types.expectArray upper = .ok ()) : types.expectArray value = .ok () := by
  rw [expectArray_eq_ok] at passed ⊢
  exact lowers.array below passed

theorem expectBoth (lowers : types.Lowers lost related) (below : related first first')
    (below' : related second second')
    (passed : types.expectBoth first' second' (types.typed type) (types.typed type') = .ok ()) :
    types.expectBoth first second (types.typed type) (types.typed type') = .ok () := by
  rw [expectBoth_eq_ok] at passed ⊢
  exact ⟨lowers.fits below passed.1, lowers.fits below' passed.2⟩

/-- Below an array of bytes may be one that passes for an array of booleans as well. -/
theorem expectedArray (lowers : types.Lowers lost related) {kind : ArrayKind} {expected : V}
    (below : related value upper) (chosen : types.expectedArray kind upper = .ok expected)
    (fits : types.isSubtype upper expected = .ok true) :
    ∃ type, types.expectedArray kind value = .ok (types.typed type) ∧
      types.isSubtype value (types.typed type) = .ok true := by
  unfold CheckedValues.expectedArray at chosen ⊢
  split at chosen
  · rename_i bytes
    rw [if_pos bytes]
    obtain ⟨booleans, asked, chosen⟩ := bind_eq_ok.mp chosen
    obtain ⟨booleans', asked'⟩ := lowers.answers value .boolean
    cases booleans' with
    | true => exact ⟨_, bind_eq_ok.mpr ⟨true, asked', rfl⟩, asked'⟩
    | false =>
      cases booleans with
      | true =>
        cases chosen
        cases asked'.symm.trans (lowers.fits below fits)
      | false =>
        cases chosen
        exact ⟨_, bind_eq_ok.mpr ⟨false, asked', rfl⟩, lowers.fits below fits⟩
  · rename_i other
    rw [if_neg other]
    cases chosen
    exact ⟨_, rfl, lowers.fits below fits⟩

theorem checkCopy (lowers : types.Lowers lost related) (below : related value upper)
    (passed : types.checkCopy site upper = .ok ()) : types.checkCopy site value = .ok () := by
  unfold CheckedValues.checkCopy at passed ⊢
  split at passed
  · split at passed
    · exact lowers.expect below passed
    · exact lowers.expect below passed
    · exact lowers.expect below passed
    · exact lowers.expect below passed
    · exact lowers.expectReference below passed
  · split at passed
    · exact lowers.expect below passed
    · exact lowers.expect below passed
    · exact lowers.expect below passed
    · exact lowers.expect below passed
    · split at passed
      · rename_i either
        refine if_pos ?_
        rcases Bool.or_eq_true_iff.mp either with reference | returnAddress
        · rw [lowers.reference below reference, Bool.true_or]
        · rw [lowers.returnAddress below returnAddress, Bool.or_true]
      · cases passed
  · rfl

theorem checkUnary (lowers : types.Lowers lost related) (below : related value upper)
    (passed : types.checkUnary site upper = .ok ()) : types.checkUnary site value = .ok () := by
  unfold CheckedValues.checkUnary at passed ⊢
  split at passed <;> split at passed <;>
    first
    | exact lowers.expect below passed
    | exact lowers.expectReference below passed
    | exact lowers.expectArray below passed
    | cases passed

theorem checkBinary (lowers : types.Lowers lost related) (below : related first first')
    (below' : related second second') (passed : types.checkBinary site first' second' = .ok ()) :
    types.checkBinary site first second = .ok () := by
  unfold CheckedValues.checkBinary at passed ⊢
  split at passed
  · split at passed
    · obtain ⟨expected, chosen, passed⟩ := bind_eq_ok.mp passed
      rw [expectBoth_eq_ok] at passed
      obtain ⟨type, chosen', fits⟩ := lowers.expectedArray below chosen passed.1
      exact bind_eq_ok.mpr
        ⟨_, chosen', expectBoth_eq_ok.mpr ⟨fits, lowers.fits below' passed.2⟩⟩
    all_goals first
      | exact lowers.expectBoth below below' passed
      | cases passed
  · split at passed
    · exact lowers.expectBoth below below' passed
    · obtain ⟨_, one, two⟩ := bind_eq_ok.mp passed
      exact bind_eq_ok.mpr
        ⟨(), lowers.expectReference below one, lowers.expectReference below' two⟩
    · cases passed

/-- What is stored into an array of references is compared with the elements of that array, which may be
fewer below. -/
theorem checkTernary (lowers : types.Lowers lost related)
    (stores : site.operation = .instruction (.arrayStore .reference) →
      types.checkReferenceStore first' second' third' = .ok () →
        types.checkReferenceStore first second third = .ok ())
    (below : related first first') (below' : related second second') (below'' : related third third')
    (passed : types.checkTernary site first' second' third' = .ok ()) :
    types.checkTernary site first second third = .ok () := by
  unfold CheckedValues.checkTernary at passed ⊢
  split at passed
  · rename_i references
    exact stores references passed
  · simp only [bind_eq_ok] at passed ⊢
    obtain ⟨expected, chosen, _, array, _, index, stored⟩ := passed
    obtain ⟨type, chosen', fits⟩ := lowers.expectedArray below chosen (expect_eq_ok.mp array)
    exact ⟨_, chosen', (), expect_eq_ok.mpr fits, (), lowers.expect below' index,
      lowers.expect below'' stored⟩
  · cases passed

variable {values uppers : List V}

theorem checkArguments (lowers : types.Lowers lost related) {index : Nat} {parameters : List FieldType}
    (below : List.Forall₂ related values uppers)
    (passed : types.checkArguments index uppers parameters = .ok ()) :
    types.checkArguments index values parameters = .ok () := by
  induction below generalizing index parameters with
  | nil => rfl
  | cons head _ ih =>
    cases parameters with
    | nil => rfl
    | cons parameter rest =>
      obtain ⟨_, one, others⟩ := bind_eq_ok.mp passed
      exact bind_eq_ok.mpr ⟨(), lowers.expect head one, ih others⟩

theorem checkDimensions (lowers : types.Lowers lost related) (below : List.Forall₂ related values uppers)
    (passed : types.checkDimensions uppers = .ok ()) : types.checkDimensions values = .ok () := by
  induction below with
  | nil => rfl
  | cons head _ ih =>
    obtain ⟨_, one, others⟩ := bind_eq_ok.mp passed
    exact bind_eq_ok.mpr ⟨(), lowers.expect head one, ih others⟩

theorem checkInvocation (lowers : types.Lowers lost related) {kind : InvokeKind} {method : MethodRef}
    (below : List.Forall₂ related values uppers)
    (passed : types.checkInvocation kind method uppers = .ok ()) :
    types.checkInvocation kind method values = .ok () := by
  unfold CheckedValues.checkInvocation at passed ⊢
  cases received : kind.hasReceiver <;> simp only [received] at passed ⊢
  · exact lowers.checkArguments below passed
  · cases below with
    | nil => exact passed
    | cons head tail =>
      obtain ⟨_, receiver, others⟩ := bind_eq_ok.mp passed
      exact bind_eq_ok.mpr ⟨(), lowers.expect head receiver, lowers.checkArguments tail others⟩

theorem checkNary (lowers : types.Lowers lost related) (below : List.Forall₂ related values uppers)
    (passed : types.checkNary site uppers = .ok ()) : types.checkNary site values = .ok () := by
  unfold CheckedValues.checkNary at passed ⊢
  split at passed
  · split at passed
    · exact lowers.checkDimensions below passed
    · exact lowers.checkInvocation below passed
    · exact lowers.checkArguments below passed
    · cases passed
  · cases passed

/-- A domain that checks operands follows itself on values below others, as far as it does where
references are stored into an array. -/
theorem follows (lowers : types.Lowers lost related) {merge : V → V → Except Fault V}
    {height : Nat → Nat} {returned : V → V → Prop}
    (same : ∀ {expected expected'}, returned expected expected' → expected = expected')
    (stores : ∀ {first second third first' second' third'},
      site.operation = .instruction (.arrayStore .reference) → related first first' →
      related second second' → related third third' →
      types.checkReferenceStore first' second' third' = .ok () →
        types.checkReferenceStore first second third = .ok ()) :
    (types.domain merge height).Follows (types.domain merge height) site related returned where
  unusable := lowers.refl _
  cut := by
    intro value upper below wide narrow
    obtain rfl : upper = lost := by
      by_contra usable
      exact narrow ((lowers.width_eq below usable).symm.trans wide)
    exact lowers.unset ▸ lowers.refl _
  cut' := by
    intro value upper below wide narrow
    obtain rfl : upper = lost := by
      by_contra usable
      exact narrow ((lowers.width_eq below usable).trans wide)
    exact absurd wide lowers.narrow
  produce produced := ⟨_, produced, lowers.refl _, rfl⟩
  copy := by
    intro value upper copied below copies
    obtain ⟨_, passed, ended⟩ := bind_eq_ok.mp copies
    cases ended
    exact ⟨value, bind_eq_ok.mpr ⟨(), lowers.checkCopy below passed, rfl⟩, below, id⟩
  load := by
    intro kind slot value upper copied operated below copies
    obtain ⟨_, passed, -⟩ := bind_eq_ok.mp copies
    exact lowers.width_eq below (lowers.load operated passed)
  unary := by
    intro value upper result below computed
    obtain ⟨_, passed, typed⟩ := bind_eq_ok.mp computed
    exact ⟨result, bind_eq_ok.mpr ⟨(), lowers.checkUnary below passed, typed⟩,
      .refl lowers.refl result⟩
  binary := by
    intro first second first' second' result matched matched' computed
    obtain ⟨_, passed, typed⟩ := bind_eq_ok.mp computed
    have passed' := lowers.checkBinary matched.related matched'.related passed
    by_cases loads : site.operation = .instruction (.arrayLoad .reference)
    · obtain ⟨index, operation⟩ := site
      cases loads
      obtain ⟨element', found, rfl⟩ := map_eq_ok.mp typed
      obtain ⟨_, ⟨⟩, both⟩ := bind_eq_ok.mp passed
      obtain ⟨element, found', matched''⟩ :=
        lowers.element matched.related (expectBoth_eq_ok.mp both).1 found
      exact ⟨some element, bind_eq_ok.mpr ⟨(), passed', map_eq_ok.mpr ⟨element, found', rfl⟩⟩,
        .some matched''⟩
    · rw [TypeValues.binaryResult_eq loads first' first] at typed
      exact ⟨result, bind_eq_ok.mpr ⟨(), passed', typed⟩, .refl lowers.refl result⟩
  ternary := by
    intro first second third first' second' third' result matched matched' matched'' computed
    obtain ⟨_, passed, typed⟩ := bind_eq_ok.mp computed
    have passed' := lowers.checkTernary
      (fun operated => stores operated matched.related matched'.related matched''.related)
      matched.related matched'.related matched''.related passed
    exact ⟨result, bind_eq_ok.mpr ⟨(), passed', typed⟩⟩
  nary := by
    intro values uppers result matched computed
    obtain ⟨_, passed, typed⟩ := bind_eq_ok.mp computed
    have below := matched.imp fun _ _ => Matches.related
    exact ⟨result, bind_eq_ok.mpr ⟨(), lowers.checkNary below passed, typed⟩,
      .refl lowers.refl result⟩
  checkReturn := by
    intro value upper expected expected' result below computed declared passed
    cases same declared
    -- what is returned was checked as an operand before
    obtain ⟨_, operand, -⟩ := bind_eq_ok.mp computed
    exact expect_eq_ok.mpr
      (lowers.subtype below (lowers.unary operand) (expect_eq_ok.mp passed))

end Lowers

end CheckedValues

end MethodFlow
