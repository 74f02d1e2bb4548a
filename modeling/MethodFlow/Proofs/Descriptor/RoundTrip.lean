import MethodFlow.Descriptor.Reader
import MethodFlow.Proofs.Frame.Operations
import MethodFlow.Proofs.Text.Cutting

/-! Descriptors have one written form. Each reader takes exactly the written form of a value off the
front of a text, so that a whole text is read just where it is the written form of what is read. -/

namespace MethodFlow

/-- A reader that takes just the written form of a value off a text reads a whole text as the value
that it is the written form of. -/
theorem readWhole_eq_ok {α : Type} {reader : DescriptorReader α} {render : α → List Char}
    (reads : ∀ {text value rest}, reader text = .ok (value, rest) ↔ text = render value ++ rest)
    {text : List Char} {value : α} : readWhole reader text = .ok value ↔ render value = text := by
  have read : reader text = .ok (value, []) ↔ render value = text := by
    rw [reads, List.append_nil, eq_comm]
  rw [← read, readWhole]
  split
  · rename_i failed
    simp [failed]
  · rename_i used
    simp [used]
  · rename_i left
    simp [left]

namespace BaseType

theorem ofLetter?_eq_some {c : Char} {type : BaseType} :
    ofLetter? c = some type ↔ c = type.letter := by
  constructor
  · intro found
    have letter := List.find?_some found
    exact (of_decide_eq_true letter).symm
  · rintro rfl
    exact ofLetter?_letter type

theorem read_eq_ok {text rest : List Char} {type : BaseType} :
    BaseType.read text = .ok (type, rest) ↔ text = type.letter :: rest := by
  cases text with
  | nil => simp [BaseType.read]
  | cons c tail =>
    simp only [BaseType.read, List.cons.injEq]
    rw [← ofLetter?_eq_some]
    split
    · rename_i found
      simp [found]
    · rename_i missing
      simp [missing]

/-- Letters stand for no class, array, end of parameters or missing result. -/
theorem letter_notMem (type : BaseType) : type.letter ∉ ['L', '[', ')', 'V'] := by
  cases type <;> decide

theorem ofLetter?_eq_none {c : Char} (other : c ∈ ['L', '[', ')', 'V']) : ofLetter? c = none := by
  refine Option.eq_none_iff_forall_not_mem.mpr fun type found => ?_
  rw [Option.mem_def, ofLetter?_eq_some] at found
  exact type.letter_notMem (found ▸ other)

end BaseType

theorem notMem_of_unqualified {text : List Char} {c : Char} (valid : unqualifiedError? text = none)
    (illegal : c ∈ ['.', ';', '[', '/']) : c ∉ text := by
  intro member
  unfold unqualifiedError? at valid
  split at valid
  · cases valid
  · rename_i legal
    refine legal (List.any_eq_true.mpr ⟨c, member, ?_⟩)
    simpa [or_assoc] using illegal

namespace BinaryName

/-- No name contains a point, a bracket or the semicolon that ends it in a descriptor. -/
theorem notMem_chars (name : BinaryName) {c : Char} (illegal : c ∈ ['.', ';', '[']) :
    c ∉ name.chars := by
  intro member
  have valid := name.valid
  unfold binaryError? at valid
  split at valid
  · cases valid
  · have kept : decide (c = '/') = false := by
      simp only [List.mem_cons, List.not_mem_nil, or_false] at illegal
      rcases illegal with rfl | rfl | rfl <;> decide
    obtain ⟨segment, present, inside⟩ := Text.mem_splitAll (· = '/') member kept
    rw [Option.map_eq_none_iff, List.findSome?_eq_none_iff] at valid
    exact notMem_of_unqualified (valid segment present)
      (List.mem_append_left ['/'] illegal) inside

theorem ofChars_eq_ok {text : List Char} {name : BinaryName} :
    ofChars text = .ok name ↔ text = name.chars := by
  constructor
  · intro found
    unfold ofChars at found
    split at found
    · cases found
      rfl
    · cases found
  · rintro rfl
    exact ofChars_chars name

theorem readClassChars_eq_ok {text chars rest : List Char} :
    readClassChars text = .ok (chars, rest) ↔ ';' ∉ chars ∧ text = chars ++ ';' :: rest := by
  constructor
  · intro found
    unfold readClassChars at found
    split at found
    · rename_i cut
      cases found
      obtain ⟨passed, c, stops, same⟩ := Text.eq_append_of_cutAt cut
      obtain rfl : c = ';' := of_decide_eq_true stops
      exact ⟨fun member => by simpa using passed _ member, same⟩
    · cases found
  · rintro ⟨clear, rfl⟩
    have passed : ∀ c ∈ chars, decide (c = ';') = false := by
      intro c member
      exact decide_eq_false fun same => clear (same ▸ member)
    rw [readClassChars, Text.cutAt_append passed (by decide)]

theorem read_eq_ok {text rest : List Char} {name : BinaryName} :
    BinaryName.read text = .ok (name, rest) ↔ text = name.render ++ rest := by
  have named {tail : List Char} :
      BinaryName.read ('L' :: tail) = .ok (name, rest) ↔ tail = name.chars ++ ';' :: rest := by
    simp only [BinaryName.read, bind_eq_ok, Prod.exists, readClassChars_eq_ok]
    constructor
    · rintro ⟨chars, after, ⟨-, rfl⟩, checked⟩
      split at checked
      · rename_i found
        cases checked
        rw [ofChars_eq_ok.mp found]
      · cases checked
    · rintro rfl
      refine ⟨name.chars, rest, ⟨name.notMem_chars (by decide), rfl⟩, ?_⟩
      rw [ofChars_chars]
  by_cases begins : ∃ tail, text = 'L' :: tail
  · obtain ⟨tail, rfl⟩ := begins
    simp [named, BinaryName.render]
  · constructor
    · intro found
      unfold BinaryName.read at found
      split at found
      · exact absurd ⟨_, rfl⟩ begins
      · cases found
    · rintro rfl
      exact absurd ⟨_, rfl⟩ begins

end BinaryName

namespace RefType

/-- Brackets are counted up to what is none. -/
theorem readBrackets_replicate {c : Char} {rest : List Char} (ended : c ≠ '[') (count : Nat) :
    readBrackets (List.replicate count '[' ++ c :: rest) = (count, c :: rest) := by
  induction count with
  | zero => simp [readBrackets, ended]
  | succ count ih => simp [List.replicate_succ, readBrackets, ih]

theorem eq_of_readBrackets {text rest : List Char} {count : Nat}
    (counted : readBrackets text = (count, rest)) : text = List.replicate count '[' ++ rest := by
  induction text generalizing count with
  | nil =>
    cases counted
    rfl
  | cons c tail ih =>
    unfold readBrackets at counted
    split at counted
    · rename_i same
      cases same
      cases counted
      exact congrArg ('[' :: ·) (ih rfl)
    · cases counted
      rfl

theorem readElement_eq_ok {additional : Nat} {text rest : List Char} {type : RefType} :
    readElement additional text = .ok (type, rest) ↔
      (∃ element, type = .objectArray additional element ∧ text = element.render ++ rest) ∨
        ∃ element, type = .primitiveArray additional element ∧ text = element.letter :: rest := by
  unfold readElement
  split
  · simp only [bind_eq_ok, Prod.exists, BinaryName.read_eq_ok, Except.ok.injEq, Prod.mk.injEq]
    constructor
    · rintro ⟨element, _, written, rfl, rfl⟩
      exact .inl ⟨element, rfl, written⟩
    · rintro (⟨element, rfl, written⟩ | ⟨element, -, written⟩)
      · exact ⟨element, rest, written, rfl, rfl⟩
      · have letter : element.letter = 'L' := (List.cons.inj written).1.symm
        exact absurd (by simp [letter]) element.letter_notMem
  · rename_i notClass
    simp only [bind_eq_ok, Prod.exists, BaseType.read_eq_ok, Except.ok.injEq, Prod.mk.injEq]
    constructor
    · rintro ⟨element, _, written, rfl, rfl⟩
      exact .inr ⟨element, rfl, written⟩
    · rintro (⟨element, -, written⟩ | ⟨element, rfl, written⟩)
      · exact absurd written (notClass _)
      · exact ⟨element, rest, written, rfl, rfl⟩

private theorem read_bracket {tail rest : List Char} {type : RefType} :
    RefType.read ('[' :: tail) = .ok (type, rest) ↔ '[' :: tail = type.render ++ rest := by
  have unbracketed : RefType.read ('[' :: tail) =
      readElement (readBrackets tail).1 (readBrackets tail).2 := rfl
  rw [unbracketed]
  constructor
  · intro found
    have counted : tail = List.replicate (readBrackets tail).1 '[' ++ (readBrackets tail).2 :=
      eq_of_readBrackets rfl
    rcases readElement_eq_ok.mp found with ⟨element, rfl, written⟩ | ⟨element, rfl, written⟩ <;>
    · rw [written] at counted
      simpa [RefType.render, List.replicate_succ] using counted
  · intro written
    cases type with
    | object name => cases written
    | objectArray additional element =>
      obtain rfl : tail =
          List.replicate additional '[' ++ 'L' :: (element.chars ++ ';' :: rest) := by
        simpa [RefType.render, List.replicate_succ, BinaryName.render] using written
      rw [readBrackets_replicate (by decide)]
      exact readElement_eq_ok.mpr (.inl ⟨element, rfl, by simp [BinaryName.render]⟩)
    | primitiveArray additional element =>
      obtain rfl : tail = List.replicate additional '[' ++ element.letter :: rest := by
        simpa [RefType.render, List.replicate_succ] using written
      rw [readBrackets_replicate fun same => element.letter_notMem (by simp [same])]
      exact readElement_eq_ok.mpr (.inr ⟨element, rfl, rfl⟩)

theorem read_eq_ok {text rest : List Char} {type : RefType} :
    RefType.read text = .ok (type, rest) ↔ text = type.render ++ rest := by
  by_cases bracketed : ∃ tail, text = '[' :: tail
  · obtain ⟨tail, rfl⟩ := bracketed
    exact read_bracket
  by_cases isClass : ∃ tail, text = 'L' :: tail
  · obtain ⟨tail, rfl⟩ := isClass
    simp only [RefType.read, bind_eq_ok, Prod.exists, BinaryName.read_eq_ok, Except.ok.injEq,
      Prod.mk.injEq]
    cases type <;> simp [RefType.render, List.replicate_succ]
  · constructor
    · intro found
      unfold RefType.read at found
      split at found
      · cases found
      · exact absurd ⟨_, rfl⟩ isClass
      · exact absurd ⟨_, rfl⟩ bracketed
      · cases found
    · rintro rfl
      cases type with
      | object name => exact absurd ⟨_, rfl⟩ isClass
      | objectArray | primitiveArray => exact absurd ⟨_, rfl⟩ bracketed

/-- A reference is written as a class or as an array. -/
theorem render_eq_cons (type : RefType) :
    ∃ c tail, type.render = c :: tail ∧ (c = 'L' ∨ c = '[') := by
  cases type with
  | object name => exact ⟨'L', name.chars ++ [';'], rfl, .inl rfl⟩
  | objectArray | primitiveArray => exact ⟨'[', _, rfl, .inr rfl⟩

end RefType

namespace FieldType

theorem read_eq_ok {text rest : List Char} {type : FieldType} :
    FieldType.read text = .ok (type, rest) ↔ text = type.render ++ rest := by
  constructor
  · intro found
    unfold FieldType.read at found
    split at found
    · cases found
    split at found
    · rename_i base letter
      cases found
      rw [BaseType.ofLetter?_eq_some.mp letter]
      rfl
    split at found
    · obtain ⟨⟨own, _⟩, inner, same⟩ := bind_eq_ok.mp found
      cases same
      exact RefType.read_eq_ok.mp inner
    · cases found
  · rintro rfl
    cases type with
    | base base => simp [FieldType.read, FieldType.render, BaseType.ofLetter?_letter]
    | ref own =>
      have inner : RefType.read (own.render ++ rest) = .ok (own, rest) := RefType.read_eq_ok.mpr rfl
      obtain ⟨c, tail, rendered, begins⟩ := own.render_eq_cons
      have noLetter : BaseType.ofLetter? c = none :=
        BaseType.ofLetter?_eq_none (by rcases begins with rfl | rfl <;> decide)
      rw [rendered, List.cons_append] at inner
      simp only [FieldType.read, FieldType.render, rendered, List.cons_append, noLetter, begins,
        ↓reduceIte, inner]
      rfl

/-- No written type starts as the end of parameters or a missing result does. -/
theorem render_eq_cons (type : FieldType) :
    ∃ c tail, type.render = c :: tail ∧ c ≠ ')' ∧ c ≠ 'V' := by
  cases type with
  | base base =>
    have letter := base.letter_notMem
    simp only [List.mem_cons, not_or] at letter
    exact ⟨base.letter, [], rfl, letter.2.2.1, letter.2.2.2.1⟩
  | ref own =>
    obtain ⟨c, tail, rendered, begins⟩ := own.render_eq_cons
    exact ⟨c, tail, rendered, by rcases begins with rfl | rfl <;> decide⟩

end FieldType

namespace MethodDescriptor

theorem readParameters_of_read {c : Char} {more rest last : List Char} {type : FieldType}
    {types : List FieldType} (opened : c ≠ ')')
    (read : FieldType.read (c :: more) = .ok (type, rest))
    (further : readParameters rest = .ok (types, last)) :
    readParameters (c :: more) = .ok (type :: types, last) := by
  rw [readParameters.eq_def]
  split
  · rename_i nothing
    cases nothing
  · rename_i closed
    exact absurd (List.cons.inj closed).1 opened
  · rename_i c' more' _ same
    cases same
    split
    · rename_i cause failed
      cases read.symm.trans failed
    · rename_i type' rest' read'
      cases read.symm.trans read'
      exact bind_eq_ok.mpr ⟨_, further, rfl⟩

theorem readParameters_eq_ok {text rest : List Char} {types : List FieldType} :
    readParameters text = .ok (types, rest) ↔
      text = types.flatMap FieldType.render ++ ')' :: rest := by
  constructor
  · intro found
    fun_induction readParameters text generalizing types rest with
    | case1 => cases found
    | case2 tail =>
      cases found
      rfl
    | case3 => cases found
    | case4 c more _ type after read ih =>
      obtain ⟨⟨others, _⟩, further, same⟩ := bind_eq_ok.mp found
      cases same
      rw [FieldType.read_eq_ok.mp read, ih further, List.flatMap_cons, List.append_assoc]
  · rintro rfl
    induction types with
    | nil => simp [readParameters.eq_def]
    | cons type types ih =>
      obtain ⟨c, tail, rendered, opened, -⟩ := type.render_eq_cons
      rw [List.flatMap_cons, List.append_assoc, rendered, List.cons_append]
      refine readParameters_of_read opened (FieldType.read_eq_ok.mpr ?_) ih
      rw [rendered, List.cons_append]

theorem readReturnType_eq_ok {text rest : List Char} {returnType : Option FieldType} :
    readReturnType text = .ok (returnType, rest) ↔
      text = (match returnType with
        | none => ['V']
        | some type => type.render) ++ rest := by
  constructor
  · intro found
    unfold readReturnType at found
    split at found
    · cases found
      rfl
    · obtain ⟨⟨type, _⟩, read, same⟩ := bind_eq_ok.mp found
      cases same
      exact FieldType.read_eq_ok.mp read
  · rintro rfl
    cases returnType with
    | none => rfl
    | some type =>
      obtain ⟨c, tail, rendered, -, present⟩ := type.render_eq_cons
      have read : FieldType.read (type.render ++ rest) = .ok (type, rest) :=
        FieldType.read_eq_ok.mpr rfl
      simp only [rendered, List.cons_append] at read ⊢
      unfold readReturnType
      split
      · rename_i same
        exact absurd (List.cons.inj same).1 present
      · exact bind_eq_ok.mpr ⟨_, read, rfl⟩

theorem read_eq_ok {text rest : List Char} {descriptor : MethodDescriptor} :
    MethodDescriptor.read text = .ok (descriptor, rest) ↔ text = descriptor.render ++ rest := by
  have opened {tail : List Char} : MethodDescriptor.read ('(' :: tail) = .ok (descriptor, rest) ↔
      '(' :: tail = descriptor.render ++ rest := by
    obtain ⟨parameters, returnType⟩ := descriptor
    simp only [MethodDescriptor.read, bind_eq_ok, Prod.exists, readParameters_eq_ok,
      readReturnType_eq_ok, Except.ok.injEq, Prod.mk.injEq, MethodDescriptor.mk.injEq,
      MethodDescriptor.render, List.append_assoc, List.cons_append, List.cons.injEq, true_and]
    constructor
    · rintro ⟨_, _, written, _, _, rfl, ⟨rfl, rfl⟩, rfl⟩
      exact written
    · intro written
      exact ⟨parameters, _, written, returnType, rest, rfl, ⟨rfl, rfl⟩, rfl⟩
  by_cases parenthesis : ∃ tail, text = '(' :: tail
  · obtain ⟨tail, rfl⟩ := parenthesis
    exact opened
  · constructor
    · intro found
      unfold MethodDescriptor.read at found
      split at found
      · exact absurd ⟨_, rfl⟩ parenthesis
      · cases found
    · rintro rfl
      exact absurd ⟨_, rfl⟩ parenthesis

end MethodDescriptor

/-- A text is read as a field type, a reference type or a method descriptor just where it is the
written form of what is read: nothing that is written is misread, and nothing else is accepted. -/
theorem descriptor_roundTrip :
    (∀ text type, FieldType.parse text = .ok type ↔ type.render = text) ∧
      (∀ text type, RefType.parse text = .ok type ↔ type.render = text) ∧
      ∀ text descriptor, MethodDescriptor.parse text = .ok descriptor ↔ descriptor.render = text :=
  ⟨fun _ _ => readWhole_eq_ok FieldType.read_eq_ok, fun _ _ => readWhole_eq_ok RefType.read_eq_ok,
    fun _ _ => readWhole_eq_ok MethodDescriptor.read_eq_ok⟩

end MethodFlow
