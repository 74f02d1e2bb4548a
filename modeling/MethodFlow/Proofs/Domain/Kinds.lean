import MethodFlow.Domain.ValueKind
import MethodFlow.Domain.VerificationType
import MethodFlow.Proofs.Frame.Operations

namespace MethodFlow

namespace TypeValues

variable {V W : Type}

/-- The second reading of types is the first one, seen through a view of its values. -/
structure Viewed (types : TypeValues V) (types' : TypeValues W) (view : V → W) : Prop where
  valueOf : ∀ type, types'.valueOf type = view (types.valueOf type)
  null : types'.null = view types.null
  returnAddress : types'.returnAddress = view types.returnAddress

variable {types : TypeValues V} {types' : TypeValues W} {view : V → W} {site : Site}

theorem Viewed.produced (viewed : types.Viewed types' view) :
    types'.produced site = (types.produced site).map view := by
  obtain ⟨index, i | b⟩ := site
  · cases i <;> simp [TypeValues.produced, typed, viewed.valueOf, viewed.null, Except.map]
  · cases b <;> simp [TypeValues.produced, viewed.returnAddress, Except.map]

theorem Viewed.unaryResult (viewed : types.Viewed types' view) :
    types'.unaryResult site = (types.unaryResult site).map (Option.map view) := by
  obtain ⟨index, i | b⟩ := site
  · cases i <;> simp [TypeValues.unaryResult, typed, viewed.valueOf, Except.map]
  · cases b <;> simp [TypeValues.unaryResult, Except.map]

/-- Only what is loaded from an array of references depends on the operands. -/
theorem Viewed.binaryResult (viewed : types.Viewed types' view)
    (plain : site.operation ≠ .instruction (.arrayLoad .reference)) (first : V) (first' : W) :
    types'.binaryResult site first' = (types.binaryResult site first).map (Option.map view) := by
  obtain ⟨index, i | b⟩ := site
  · cases i with
    | arrayLoad kind =>
      cases kind with
      | reference => exact absurd rfl plain
      | _ => simp [TypeValues.binaryResult, typed, viewed.valueOf, Except.map]
    | _ => simp [TypeValues.binaryResult, typed, viewed.valueOf, Except.map]
  · cases b <;> simp [TypeValues.binaryResult, Except.map]

theorem Viewed.naryResult (viewed : types.Viewed types' view) :
    types'.naryResult site = (types.naryResult site).map (Option.map view) := by
  have same : types'.typed = view ∘ types.typed := funext fun _ => viewed.valueOf _
  obtain ⟨index, i | b⟩ := site
  · cases i <;> simp [TypeValues.naryResult, same, Except.map]
  · cases b <;> simp [TypeValues.naryResult, Except.map]

end TypeValues

namespace VerificationType

variable {hierarchy : TypeHierarchy}

/-- Kind of the values of a verification type. -/
def kind : VerificationType → ValueKind
  | top => .unusable
  | integer => .int
  | float => .float
  | long => .long
  | double => .double
  | null | object _ => .reference
  | returnAddress => .returnAddress

theorem width_kind (type : VerificationType) : type.kind.width = type.width := by
  cases type <;> rfl

theorem kind_ofType (type : FieldType) : (ofType type).kind = ValueKind.ofType type := by
  rcases type with base | ref
  · cases base <;> rfl
  · rfl

theorem types_viewed : types.Viewed ValueKind.types kind where
  valueOf type := by
    cases type with
    | none => rfl
    | some type => exact (kind_ofType type).symm
  null := rfl
  returnAddress := rfl

/-- References meet in a reference, and types of different kinds in none that is usable. -/
theorem kind_merge {old new value : VerificationType} (merged : merge hierarchy old new = .ok value) :
    value.kind = ValueKind.merge old.kind new.kind := by
  unfold merge at merged
  split at merged
  · rename_i same
    cases merged
    rw [same, ValueKind.merge_self]
  · rename_i different
    split at merged
    · cases merged
      rfl
    · cases merged
      rfl
    · simp only [bind_eq_ok] at merged
      obtain ⟨fits, -, merged⟩ := merged
      split at merged
      · cases merged
        rfl
      · obtain ⟨fits', -, merged⟩ := bind_eq_ok.mp merged
        split at merged
        · cases merged
          rfl
        · obtain ⟨reference, -, same⟩ := bind_eq_ok.mp merged
          cases same
          rfl
    · rename_i notNull notObject notBoth
      cases merged
      cases old <;> cases new <;> simp_all [kind, ValueKind.merge]

/-- Only arrays of references pass for an array of objects. -/
theorem kind_of_element {array element : VerificationType}
    (fits : isSubtype hierarchy array (object (.objectArray 0 .object)) = .ok true)
    (found : elementOf array = .ok element) : element.kind = .reference := by
  cases array with
  | null =>
    cases found
    rfl
  | object type =>
    rcases type with name | ⟨additional, name⟩ | ⟨_ | deeper, base⟩
    · cases found
    · have reference (type : RefType) : (ofType (.ref type)).kind = .reference := rfl
      cases found
      exact reference _
    · cases fits
    · cases found
      rfl
  | _ => cases found

end VerificationType

end MethodFlow
