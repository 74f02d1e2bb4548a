import MethodFlow.Proofs.Domain.Checking
import MethodFlow.Proofs.Domain.Grading
import MethodFlow.Proofs.Domain.Weakening

namespace MethodFlow

variable {U V W : Type} [AbstractValue U] [AbstractValue V] [AbstractValue W]

/-- Any values may be expected of results. -/
def Unasked (_ : V) (_ : W) : Prop := True

theorem Yields.same (result : Option V) : Yields (fun seen value : V => seen = value) result result :=
  .refl (fun _ => rfl) result

omit [AbstractValue V] [AbstractValue W] in
theorem rel_unasked {first : Option V} {second : Option W} :
    Option.Rel Unasked first second ↔ first.isSome = second.isSome := by
  constructor
  · intro rel
    cases rel <;> rfl
  · intro same
    cases first <;> cases second
    · exact .none
    · cases same
    · cases same
    · exact .some trivial

namespace Frame

variable {domain : Domain V} {image : Domain W} {other : Domain U} {view : V → W}
  {related : W → U → Prop} {site : Site} {frame after : Frame V} {outline after' : Frame U}

omit [AbstractValue V] in
/-- The frame with its values seen in another domain. -/
def viewed (view : V → W) (frame : Frame V) : Frame W :=
  ⟨frame.locals.map view, .ofList (frame.stackValues.map view), frame.maxStack,
    frame.returnValue.map view⟩

omit [AbstractValue V] in
@[simp] theorem stackValues_viewed (frame : Frame V) :
    (frame.viewed view).stackValues = frame.stackValues.map view :=
  SlotVec.toList_ofList _

omit [AbstractValue V] [AbstractValue W] in
theorem eq_map_of_views {seen : List W} {values : List V}
    (views : List.Forall₂ (fun seen value => seen = view value) seen values) :
    seen = values.map view := by
  rwa [← List.forall₂_map_right_iff, List.forall₂_eq_eq_eq] at views

theorem viewed_alongside {returned : W → V → Prop}
    (widths : ∀ value, width (view value) = width value)
    (results : ∀ value, returned (view value) value) (placed : frame.stack.Placed) :
    (frame.viewed view).Alongside (fun seen value => seen = view value) returned frame := by
  refine ⟨?_, ?_, SlotVec.placed_ofList _, placed, rfl, ?_⟩
  · exact List.forall₂_map_left_iff.mpr (List.forall₂_same.mpr fun _ _ => rfl)
  · rw [stackValues_viewed]
    exact List.forall₂_map_left_iff.mpr (List.forall₂_same.mpr fun value _ => ⟨rfl, widths value⟩)
  · show Option.Rel returned (frame.returnValue.map view) frame.returnValue
    cases frame.returnValue with
    | none => exact .none
    | some value => exact .some (results value)

/-- An operation that succeeds on a frame and on one beside it leaves them beside each other, if a third
domain does exactly what the first one does and follows the second one. -/
theorem Alongside.through
    (exact : image.Follows domain site (fun seen value => seen = view value) Unasked)
    (follows : image.Follows other site related Unasked)
    (widths : ∀ value, width (view value) = width value)
    (along : frame.Alongside (fun value => related (view value)) Unasked outline)
    (executed : frame.execute domain site = .ok after)
    (executed' : outline.execute other site = .ok after') :
    after.Alongside (fun value => related (view value)) Unasked after' := by
  have seen : (frame.viewed view).Alongside (fun seen value => seen = view value) Unasked frame :=
    viewed_alongside widths (fun _ => trivial) along.placed
  have beside : (frame.viewed view).Alongside related Unasked outline := by
    refine ⟨?_, ?_, SlotVec.placed_ofList _, along.placed', along.maxStack, ?_⟩
    · exact List.forall₂_map_left_iff.mpr along.locals
    · rw [stackValues_viewed]
      exact List.forall₂_map_left_iff.mpr (along.stack.imp fun value _ matched =>
        ⟨matched.related, (widths value).trans matched.width⟩)
    · exact rel_unasked.mpr ((Option.isSome_map ..).trans (rel_unasked.mp along.returnValue))
  obtain ⟨result, ran, seen'⟩ := seen.execute exact executed
  obtain ⟨_, ran', beside'⟩ := beside.execute follows executed'
  cases ran.symm.trans ran'
  have locals := beside'.locals
  have stack := beside'.stack
  rw [eq_map_of_views seen'.locals, List.forall₂_map_left_iff] at locals
  rw [eq_map_of_views (seen'.stack.imp fun _ _ => Matches.related), List.forall₂_map_left_iff] at stack
  refine ⟨locals, stack.imp fun value _ matched => ?_, seen'.placed', beside'.placed',
    seen'.maxStack.symm.trans beside'.maxStack, ?_⟩
  · exact ⟨matched.related, (widths value).symm.trans matched.width⟩
  · exact rel_unasked.mpr
      ((rel_unasked.mp seen'.returnValue).symm.trans (rel_unasked.mp beside'.returnValue))

end Frame

namespace ValueKind

/-- Kinds without checks, but for locals that are loaded: these have to be usable. -/
def guarded : Domain ValueKind :=
  { domain with
    copy := fun site value =>
      match site.operation with
      | .instruction (.load _ _) =>
        if value = unusable then .error (CheckedValues.described none "a usable value" value)
        else .ok value
      | _ => .ok value }

end ValueKind

/-- A domain whose values have kinds, or have lost them. Merging keeps the kinds, and what succeeds on
values and on their kinds has results of these kinds. -/
structure Domain.Outlined (domain : Domain V) (related : V → ValueKind → Prop) : Prop where
  lost : ∀ value, related value .unusable
  typed : ∀ type, Matches related (domain.valueOf type) (ValueKind.domain.valueOf type)
  merged : ∀ {old new value kind}, domain.merge old new = .ok value → related old kind →
    related new kind → related value kind
  level : ∀ {old new value kind}, domain.merge old new = .ok value → Matches related old kind →
    Matches related new kind → width value = width kind
  execute : ∀ {site frame outline after after'},
    Frame.Alongside related Unasked frame outline → frame.execute domain site = .ok after →
    outline.execute ValueKind.guarded site = .ok after' → after.Alongside related Unasked after'

/-- A domain that does not check results follows one that it mirrors. -/
theorem Domain.MirroredAt.follows {domain domain' : Domain V} {lost : Fault → Prop} {site : Site}
    (mirrored : domain.MirroredAt lost domain' site)
    (unchecked : ∀ value expected, domain'.checkReturn site value expected = .ok ()) :
    domain'.Follows domain site (fun seen value => seen = value) Unasked where
  unusable := congrFun mirrored.valueOf none
  cut := by
    rintro value _ rfl wide narrow
    exact absurd wide narrow
  cut' := by
    rintro value _ rfl wide narrow
    exact absurd wide narrow
  produce produced := ⟨_, mirrored.produce.eq_ok produced, rfl, rfl⟩
  copy := by
    rintro value _ copied rfl copies
    exact ⟨copied, (mirrored.copy value).eq_ok copies, rfl, fun _ => rfl⟩
  load := by
    rintro _ _ value _ _ - rfl -
    rfl
  unary := by
    rintro value _ result rfl computed
    exact ⟨result, (mirrored.unary value).eq_ok computed, .same result⟩
  binary := by
    rintro first second _ _ result ⟨rfl, -⟩ ⟨rfl, -⟩ computed
    exact ⟨result, (mirrored.binary first second).eq_ok computed, .same result⟩
  ternary := by
    rintro first second third _ _ _ result ⟨rfl, -⟩ ⟨rfl, -⟩ ⟨rfl, -⟩ computed
    exact ⟨result, (mirrored.ternary first second third).eq_ok computed⟩
  nary := by
    intro values values' result matched computed
    have same : values = values' := by
      rw [← List.forall₂_eq_eq_eq]
      exact matched.imp fun _ _ => Matches.related
    subst same
    exact ⟨result, (mirrored.nary values).eq_ok computed, .same result⟩
  checkReturn _ _ _ _ := unchecked _ _

namespace ValueKind

theorem guarded_copy {site : Site} {value copied : ValueKind}
    (copies : guarded.copy site value = .ok copied) :
    copied = value ∧
      ∀ kind slot, site.operation = .instruction (.load kind slot) → value ≠ .unusable := by
  dsimp only [guarded] at copies
  split at copies
  · split at copies
    · cases copies
    · rename_i usable
      cases copies
      exact ⟨rfl, fun _ _ _ => usable⟩
  · rename_i other
    cases copies
    exact ⟨rfl, fun kind slot loads => absurd loads (other kind slot)⟩

/-- Kinds without checks follow those that are guarded, on values that may be less usable. -/
theorem domain_follows (site : Site) : domain.Follows guarded site Refines Unasked where
  unusable := .refl _
  cut := by
    rintro value upper (rfl | rfl) wide narrow
    · exact absurd wide narrow
    · exact .refl _
  cut' := by
    rintro value upper (rfl | rfl) wide narrow
    · exact absurd wide narrow
    · cases wide
  produce produced := ⟨_, produced, matches_refl _⟩
  copy := by
    intro value upper copied refines copies
    obtain ⟨rfl, -⟩ := guarded_copy copies
    exact ⟨value, rfl, refines, id⟩
  load := by
    intro kind slot value upper copied loads refines copies
    rw [refines.eq ((guarded_copy copies).2 kind slot loads)]
  unary _ computed := ⟨_, computed, yields_refl _⟩
  binary _ _ computed := ⟨_, computed, yields_refl _⟩
  ternary _ _ _ computed := ⟨_, computed⟩
  nary _ computed := ⟨_, computed, yields_refl _⟩
  checkReturn _ _ _ _ := rfl

end ValueKind

namespace Provenance

/-- A value takes the slots of a kind, or that kind is not usable. -/
def Sized (value : Provenance) (kind : ValueKind) : Prop := kind = .unusable ∨ value.size = kind.width

theorem width_ofType (type : FieldType) : (ValueKind.ofType type).width = type.width := by
  rcases type with base | ref
  · cases base <;> rfl
  · rfl

theorem matches_of_size {value : Provenance} {kind : ValueKind} (same : value.size = kind.width) :
    Matches Sized value kind := ⟨.inr same, same⟩

theorem yields_of_size {size index : Nat} {type : FieldType} (same : size = type.width) :
    Yields Sized (some (madeAt size index)) (some (ValueKind.types.typed type)) :=
  .some (matches_of_size (same.trans (width_ofType type).symm))

theorem produce_sized {site : Site} {kind : ValueKind}
    (produced : ValueKind.types.produced site = .ok kind) :
    producedSize site.operation = kind.width := by
  obtain ⟨index, i | b⟩ := site
  · cases i <;> cases produced <;> first | rfl | exact (width_ofType _).symm
  · cases b <;> cases produced
    rfl

theorem unary_sized {site : Site} {result : Option ValueKind}
    (computed : ValueKind.types.unaryResult site = .ok result) :
    Yields Sized (some (madeAt (unarySize site.operation) site.index)) result := by
  obtain ⟨index, i | b⟩ := site
  · cases i <;> cases computed <;> first | exact .none | exact yields_of_size rfl
  · cases b <;> cases computed <;> exact .none

theorem binary_sized {site : Site} {first : ValueKind} {result : Option ValueKind}
    (computed : ValueKind.types.binaryResult site first = .ok result) :
    Yields Sized (some (madeAt (binarySize site.operation) site.index)) result := by
  obtain ⟨index, i | b⟩ := site
  · cases i with
    | arrayLoad kind =>
      cases kind with
      | reference =>
        cases computed
        exact .some (matches_of_size rfl)
      | _ =>
        cases computed
        exact yields_of_size rfl
    | _ => cases computed <;> first | exact .none | exact yields_of_size rfl
  · cases b <;> cases computed <;> exact .none

theorem nary_sized {site : Site} {result : Option ValueKind}
    (computed : ValueKind.types.naryResult site = .ok result) :
    Yields Sized ((narySize site.operation).map fun size => madeAt size site.index) result := by
  have returned (type : Option FieldType) :
      Yields Sized ((type.map FieldType.width).map fun size => madeAt size site.index)
        (type.map ValueKind.types.typed) := by
    cases type with
    | none => exact .none
    | some type => exact yields_of_size rfl
  obtain ⟨index, i | b⟩ := site
  · cases i <;> cases computed
    · exact returned _
    · exact returned _
    · exact yields_of_size rfl
  · cases b <;> cases computed

theorem domain_follows (site : Site) : domain.Follows ValueKind.guarded site Sized Unasked where
  unusable := .inl rfl
  cut := by
    rintro value kind (lost | same) wide narrow
    · exact .inl lost
    · exact absurd (same.symm.trans wide) narrow
  cut' _ _ _ := .inl rfl
  produce produced := ⟨_, rfl, matches_of_size (produce_sized produced)⟩
  copy := by
    intro value kind copied sized copies
    obtain ⟨rfl, -⟩ := ValueKind.guarded_copy copies
    exact ⟨_, rfl, sized, id⟩
  load := by
    intro kind slot value own copied loads sized copies
    exact sized.resolve_left ((ValueKind.guarded_copy copies).2 kind slot loads)
  unary _ computed := ⟨_, rfl, unary_sized computed⟩
  binary _ _ computed := ⟨_, rfl, binary_sized computed⟩
  ternary _ _ _ _ := ⟨_, rfl⟩
  nary _ computed := ⟨_, rfl, nary_sized computed⟩
  checkReturn _ _ _ _ := rfl

end Provenance

namespace VerificationType

variable {hierarchy : TypeHierarchy}

theorem yields_kind (result : Option VerificationType) :
    Yields (fun seen type => seen = type.kind) (result.map kind) result := by
  cases result with
  | none => exact .none
  | some type => exact .some ⟨rfl, width_kind type⟩

/-- Kinds without checks follow verification types. -/
theorem kinds_follow (site : Site) :
    ValueKind.domain.Follows (verifier hierarchy) site (fun seen type => seen = type.kind) Unasked where
  unusable := rfl
  cut := by
    rintro _ type rfl wide narrow
    exact absurd ((width_kind type).symm.trans wide) narrow
  cut' := by
    rintro _ type rfl wide narrow
    exact absurd ((width_kind type).trans wide) narrow
  produce := by
    intro type produced
    have seen : ValueKind.types.produced site = (types.produced site).map kind := types_viewed.produced
    exact ⟨type.kind, seen.trans (congrArg (Except.map kind) produced), rfl, width_kind type⟩
  copy := by
    rintro _ type copied rfl copies
    obtain ⟨_, -, ended⟩ := bind_eq_ok.mp copies
    cases ended
    exact ⟨_, rfl, rfl, fun _ => width_kind type⟩
  load := by
    rintro _ _ _ type _ - rfl -
    exact width_kind type
  unary := by
    intro _ type result _ computed
    obtain ⟨_, -, computed⟩ := bind_eq_ok.mp computed
    have seen : ValueKind.types.unaryResult site = (types.unaryResult site).map (Option.map kind) :=
      types_viewed.unaryResult
    exact ⟨_, seen.trans (congrArg _ computed), yields_kind result⟩
  binary := by
    intro kind _ first second result _ _ computed
    obtain ⟨_, checked, computed⟩ := bind_eq_ok.mp computed
    by_cases loads : site.operation = .instruction (.arrayLoad .reference)
    · obtain ⟨index, operation⟩ := site
      cases loads
      obtain ⟨type, found, rfl⟩ := map_eq_ok.mp computed
      obtain ⟨_, ⟨⟩, both⟩ := bind_eq_ok.mp checked
      have fits := (CheckedValues.expectBoth_eq_ok.mp both).1
      have reference : ValueKind.reference = type.kind := (kind_of_element fits found).symm
      exact ⟨_, rfl, .some ⟨reference, reference ▸ width_kind type⟩⟩
    · have seen : ValueKind.types.binaryResult site kind =
          (types.binaryResult site first).map (Option.map VerificationType.kind) :=
        types_viewed.binaryResult loads first kind
      exact ⟨_, seen.trans (congrArg _ computed), yields_kind result⟩
  ternary := by
    intro _ _ _ first second third result _ _ _ computed
    obtain ⟨_, -, computed⟩ := bind_eq_ok.mp computed
    obtain ⟨index, i | b⟩ := site
    · cases i <;> cases computed
      exact ⟨none, rfl⟩
    · cases computed
  nary := by
    intro _ types' result _ computed
    obtain ⟨_, -, computed⟩ := bind_eq_ok.mp computed
    have seen : ValueKind.types.naryResult site = (types.naryResult site).map (Option.map kind) :=
      types_viewed.naryResult
    exact ⟨_, seen.trans (congrArg _ computed), yields_kind result⟩
  checkReturn _ _ _ _ := rfl

end VerificationType

namespace Domain

variable {domain : Domain V}

omit [AbstractValue V] in
theorem MirroredAt.refl (domain : Domain V) (site : Site) :
    domain.MirroredAt (fun _ => False) domain site :=
  ⟨rfl, .same _, fun _ => .same _, fun _ => .same _, fun _ _ => .same _, fun _ _ _ => .same _,
    fun _ => .same _, fun _ _ => .same _⟩

/-- Values that kinds without checks see exactly are those of the kinds that they are seen as. -/
theorem Outlined.of_view {view : V → ValueKind} (widths : ∀ value, width (view value) = width value)
    (typed : ∀ type, view (domain.valueOf type) = ValueKind.domain.valueOf type)
    (merges : ∀ {old new value}, domain.merge old new = .ok value →
      view value = ValueKind.merge (view old) (view new))
    (exact : ∀ site, ValueKind.domain.Follows domain site (fun seen value => seen = view value)
      Unasked) :
    domain.Outlined fun value => (view value).Refines where
  lost _ := .inr rfl
  typed type := ⟨.inl (typed type).symm, by rw [← typed, widths]⟩
  merged merged refines refines' := by
    rw [merges merged]
    exact refines.merge refines'
  level := by
    intro old new value kind merged matched matched'
    have seen {value : V} (matched : Matches (fun value => (view value).Refines) value kind) :
        Matches ValueKind.Refines (view value) kind :=
      ⟨matched.related, (widths value).trans matched.width⟩
    have merged' : ValueKind.verifier.merge (view old) (view new) = .ok (view value) :=
      congrArg Except.ok (merges merged).symm
    exact (widths value).symm.trans (ValueKind.matches_merge (seen matched) (seen matched') merged').width
  execute along executed executed' :=
    along.through (exact _) (ValueKind.domain_follows _) widths executed executed'

end Domain

theorem ValueKind.domain_outlined : domain.Outlined fun value => (id value).Refines := by
  refine .of_view (fun _ => rfl) (fun _ => rfl) ?_ fun site => ?_
  · intro old new value merged
    cases merged
    rfl
  · exact (Domain.MirroredAt.refl domain site).follows fun _ _ => rfl

theorem ValueKind.verifier_outlined : verifier.Outlined fun value => (id value).Refines := by
  refine .of_view (fun _ => rfl) (fun _ => rfl) ?_ fun site => ?_
  · intro old new value merged
    cases merged
    rfl
  · exact (verifier_mirroredAt site).follows fun _ _ => rfl

theorem VerificationType.verifier_outlined (hierarchy : TypeHierarchy) :
    (verifier hierarchy).Outlined fun value => value.kind.Refines :=
  .of_view width_kind (fun type => (types_viewed.valueOf type).symm) kind_merge kinds_follow

theorem Provenance.domain_outlined : domain.Outlined Sized where
  lost _ := .inl rfl
  typed type := by
    cases type with
    | none => exact ⟨.inl rfl, rfl⟩
    | some type => exact matches_of_size (width_ofType type).symm
  merged := by
    rintro old new _ kind ⟨⟩ (lost | same) (lost' | same')
    · exact .inl lost
    · exact .inl lost
    · exact .inl lost'
    · right
      rw [size_merge, same, same', Nat.min_self]
  level := by
    rintro old new _ kind ⟨⟩ matched matched'
    have same : old.size = kind.width := matched.width
    have same' : new.size = kind.width := matched'.width
    exact (size_merge old new).trans (by rw [same, same', Nat.min_self]; rfl)
  execute := by
    intro site frame outline after after' along executed executed'
    have exact : domain.Follows domain site (fun seen value => seen = id value) Unasked :=
      (Domain.MirroredAt.refl domain site).follows fun _ _ => rfl
    exact Frame.Alongside.through exact (domain_follows site) (fun _ => rfl) along executed executed'

/-- Values of every policy have kinds, as far as their slots go. -/
theorem Domain.Policy.outlined {domain : Domain V} (policy : domain.Policy) :
    ∃ related, domain.Outlined related := by
  obtain ⟨hierarchy, _, chosen⟩ := policy
  cases chosen with
  | basic => exact ⟨_, ValueKind.domain_outlined⟩
  | verify => exact ⟨_, ValueKind.verifier_outlined⟩
  | simple => exact ⟨_, VerificationType.verifier_outlined hierarchy⟩
  | source => exact ⟨_, Provenance.domain_outlined⟩

end MethodFlow
