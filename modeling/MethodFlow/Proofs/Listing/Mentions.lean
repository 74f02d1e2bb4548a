import MethodFlow.Proofs.Code.Names
import MethodFlow.Proofs.Listing.Operands
import MethodFlow.Proofs.Listing.Statements

/-! The names that instructions mention as they are read. The words of a line hold no blanks, and
neither do the names that are read from single words. Only a type or method that `ldc` loads is read
from all that follows its keyword, so that blanks further on the line end up in names. -/

namespace MethodFlow.Listing

open MethodFlow.Text

section Readers

variable {token : List Char}

theorem solid_readClass {type : RefType} (read : readClass token = .ok type) :
    (∀ name ∈ type.names, Solid name) ↔ Solid token := by
  rcases eq_of_readClass read with rfl | ⟨name, rfl, rfl⟩
  · exact type.solid_render.symm
  · simp [RefType.names]

theorem solid_readMethodDescriptor {descriptor : MethodDescriptor}
    (read : readMethodDescriptor token = .ok descriptor) :
    (∀ name ∈ descriptor.names, Solid name) ↔ Solid token := by
  obtain rfl := readMethodDescriptor_eq_ok.mp read
  exact descriptor.solid_render.symm

theorem solid_readMethodRef {inInterface : Bool} {method : MethodRef}
    (read : readMethodRef token inInterface = .ok method) :
    (∀ name ∈ method.names, Solid name) ↔ Solid token := by
  have slash : isBlank '/' = false := by decide
  rw [eq_of_readMethodRef read]
  simp [MethodRef.names, slash, method.descriptor.solid_render]

theorem solid_readFieldRef {operands : List (List Char)} {field : FieldRef}
    (read : readFieldRef operands = .ok field) :
    (∀ name ∈ field.names, Solid name) ↔ ∀ word ∈ operands, Solid word := by
  have slash : isBlank '/' = false := by decide
  rw [eq_of_readFieldRef read]
  simp [FieldRef.names, slash, field.descriptor.solid_render, and_assoc]

theorem names_of_readNumber {operand number : List Char} {constant : Constant}
    (read : readNumber operand number = .ok constant) : constant.names = [] := by
  unfold readNumber at read
  split at read
  · cases read
    rfl
  · rw [orFault_eq_ok] at read
    obtain ⟨value, -, rfl⟩ := Option.map_eq_some_iff.mp read
    rfl

theorem names_of_readDouble {constant : Constant} (read : readDouble token = .ok constant) :
    constant.names = [] := by
  unfold readDouble at read
  rw [orFault_eq_ok] at read
  obtain ⟨value, -, rfl⟩ := Option.map_eq_some_iff.mp read
  rfl

theorem names_of_readWideConstant {constant : Constant}
    (read : readWideConstant token = .ok constant) : constant.names = [] := by
  unfold readWideConstant at read
  split at read
  · obtain ⟨value, -, rfl⟩ := map_eq_ok.mp read
    rfl
  split at read
  · exact names_of_readDouble read
  split at read
  · cases read
    rfl
  · exact names_of_readDouble read

/-- The keywords of the constants that mention names. -/
def namingKeywords : List (List Char) :=
  ["class".toList, "methodtype".toList, "methodhandle".toList]

/-- Does a blank follow in what an operand says after such a keyword? -/
def spreads (operand : List Char) : Bool :=
  namingKeywords.contains (splitWord operand).1 && (splitWord operand).2.any isBlank

theorem spreads_eq_false {operand : List Char} : spreads operand = false ↔
    ((splitWord operand).1 ∈ namingKeywords → Solid (splitWord operand).2) := by
  simp [spreads, Solid]

theorem solid_readConstant {operand : List Char} {constant : Constant}
    (read : readConstant operand = .ok constant) :
    (∀ name ∈ constant.names, Solid name) ↔ spreads operand = false := by
  rw [spreads_eq_false]
  unfold readConstant at read
  split at read
  · rename_i rest
    obtain ⟨value, -, rfl⟩ := map_eq_ok.mp read
    have quoted : (splitWord ('"' :: rest)).1 ∉ namingKeywords := by
      have first : isBlank '"' = false := by decide
      have begins : ∃ word, (splitWord ('"' :: rest)).1 = '"' :: word := by
        unfold splitWord cutAt
        simp only [first, Bool.false_eq_true, ↓reduceIte]
        split
        · rename_i cut
          exact ⟨_, (Prod.mk.inj cut).1.symm⟩
        · rename_i cut
          exact ⟨_, (Prod.mk.inj cut).1.symm⟩
      obtain ⟨word, begins⟩ := begins
      simp [begins, namingKeywords]
    simp [Constant.names, quoted]
  · dsimp only at read
    generalize (splitWord operand).1 = keyword at read ⊢
    generalize (splitWord operand).2 = rest at read ⊢
    have named (isKeyword : keyword ∈ namingKeywords) :
        (keyword ∈ namingKeywords → Solid rest) ↔ Solid rest := by
      simp [isKeyword]
    split at read
    · rename_i isClass
      obtain ⟨type, found, rfl⟩ := map_eq_ok.mp read
      rw [named (by simp [namingKeywords, isClass])]
      exact solid_readClass found
    split at read
    · rename_i isType
      obtain ⟨descriptor, found, rfl⟩ := map_eq_ok.mp read
      rw [named (by simp [namingKeywords, isType])]
      exact solid_readMethodDescriptor found
    split at read
    · rename_i isHandle
      obtain ⟨method, found, rfl⟩ := map_eq_ok.mp read
      rw [named (by simp [namingKeywords, isHandle])]
      exact solid_readMethodRef found
    split at read
    · rename_i empty
      simp [names_of_readNumber read, List.isEmpty_iff.mp empty]
    · cases read

end Readers

/-- The instructions of a form mention the names in their operand and no others. -/
def Form.MentionsOperand : Form → Prop
  | .plain i => i.names = []
  | .slot make => ∀ slot, (make slot).names = []
  | .field make => ∀ field, (make field).names = field.names
  | .classOperand make => ∀ type, (make type).names = type.names
  | _ => True

theorem forms_mentionOperand : ∀ entry ∈ forms, entry.2.MentionsOperand := by
  have locals : ∀ entry ∈ localForms, entry.2.MentionsOperand := by
    unfold localForms
    intro entry member
    simp only [List.mem_flatMap] at member
    obtain ⟨⟨letter, kind⟩, -, member⟩ := member
    simp only [List.mem_append, List.mem_flatMap, List.mem_cons, List.not_mem_nil, or_false]
      at member
    rcases member with (rfl | rfl) | ⟨slot, -, rfl | rfl⟩
    · exact fun _ => rfl
    · exact fun _ => rfl
    · rfl
    · rfl
  have arrays : ∀ entry ∈ arrayForms, entry.2.MentionsOperand := by
    unfold arrayForms
    intro entry member
    simp only [List.mem_flatMap, List.mem_cons, List.not_mem_nil, or_false] at member
    obtain ⟨⟨letter, kind⟩, -, rfl | rfl⟩ := member <;> rfl
  have arithmetic : ∀ entry ∈ arithmeticForms, entry.2.MentionsOperand := by
    unfold arithmeticForms
    intro entry member
    simp only [List.mem_append, List.mem_flatMap, List.mem_cons, List.not_mem_nil, or_false]
      at member
    rcases member with ⟨⟨letter, kind⟩, -, member⟩ | ⟨⟨letter, kind⟩, -, member⟩ <;>
      rcases member with rfl | rfl | rfl | rfl | rfl | rfl <;> rfl
  unfold forms
  simp only [List.forall_mem_append]
  refine ⟨⟨⟨⟨⟨⟨⟨⟨?_, locals⟩, arrays⟩, ?_⟩, ?_⟩, arithmetic⟩, ?_⟩, ?_⟩, ?_⟩
  · simp [Form.MentionsOperand, Instruction.names]
  · simp [constantForms, Form.MentionsOperand, Instruction.names]
  · simp [shuffleForms, Form.MentionsOperand, Instruction.names]
  · simp [conversionForms, Form.MentionsOperand, Instruction.names]
  · simp [objectForms, Form.MentionsOperand, Instruction.names]
  · simp [branchForms, Form.MentionsOperand, Instruction.names]

theorem mem_forms_of_form? {mnemonic : List Char} {form : Form}
    (found : form? mnemonic = some form) : (String.ofList mnemonic, form) ∈ forms := by
  unfold form? at found
  obtain ⟨earlier, later, same, -⟩ := List.lookup_eq_some_iff.mp found
  simp [same]

/-- Does the form read a constant of one slot? -/
def Form.isConstant : Form → Bool
  | .constant => true
  | _ => false

/-- Such constants are loaded by `ldc`, and by the wide form of it. -/
theorem form?_eq_constant {mnemonic : List Char} :
    form? mnemonic = some .constant ↔ mnemonic = "ldc".toList ∨ mnemonic = "ldc_w".toList := by
  constructor
  · intro found
    have loads : ∀ entry ∈ forms,
        entry.2.isConstant = true → entry.1 = "ldc" ∨ entry.1 = "ldc_w" := by
      decide +kernel
    rcases loads _ (mem_forms_of_form? found) rfl with same | same
    · exact .inl (by rw [← same, String.toList_ofList])
    · exact .inr (by rw [← same, String.toList_ofList])
  · rintro (rfl | rfl) <;> rfl

namespace Statement

variable {statement : Statement} {method method' : OpenMethod} {form : Form} {op : Operation}

theorem oneArgument_eq_ok {argument : List Char} :
    statement.oneArgument = .ok argument ↔ statement.arguments = [argument] := by
  unfold oneArgument
  split
  · rename_i one
    simp [one]
  · rename_i other
    simpa using other argument

theorem solid_invoked {kind : InvokeKind} {target : MethodRef}
    (solid : ∀ word ∈ statement.arguments, Solid word)
    (read : statement.invoked kind = .ok target) : ∀ name ∈ target.names, Solid name := by
  unfold invoked at read
  split at read
  · rename_i one
    exact (solid_readMethodRef read).mpr (solid _ (by simp [one]))
  · rename_i two
    obtain ⟨count, -, read⟩ := bind_eq_ok.mp read
    exact (solid_readMethodRef read).mpr (solid _ (by simp [two]))
  · rename_i one
    exact (solid_readMethodRef read).mpr (solid _ (by simp [one]))
  · rename_i two
    split at read
    · exact (solid_readMethodRef read).mpr (solid _ (by simp [two]))
    · cases read
  · cases read

/-- Words without blanks make names without blanks. -/
theorem solid_operation (solid : ∀ word ∈ statement.arguments, Solid word)
    (mentions : form.MentionsOperand) (other : form.isConstant = false)
    (read : statement.operation method form = .ok (op, method')) :
    ∀ name ∈ op.names, Solid name := by
  have one {word : List Char} (found : statement.oneArgument = .ok word) : Solid word :=
    solid word (by simp [oneArgument_eq_ok.mp found])
  have none {op : Operation} (empty : op.names = []) : ∀ name ∈ op.names, Solid name := by
    simp [empty]
  cases form with
  | constant => cases other
  | plain i =>
    simp only [operation, map_eq_ok, Prod.mk.injEq] at read
    obtain ⟨_, ⟨_, -, rfl⟩, rfl, -⟩ := read
    exact none mentions
  | slot make =>
    simp only [operation, map_eq_ok, Prod.mk.injEq] at read
    obtain ⟨_, ⟨slot, -, rfl⟩, rfl, -⟩ := read
    exact none (mentions slot)
  | byteValue | shortValue | newPrimitiveArray =>
    simp only [operation, map_eq_ok, Prod.mk.injEq] at read
    obtain ⟨_, ⟨_, -, rfl⟩, rfl, -⟩ := read
    exact none rfl
  | wideConstant =>
    simp only [operation, map_eq_ok, bind_eq_ok, Prod.mk.injEq] at read
    obtain ⟨_, ⟨constant, ⟨word, -, found⟩, rfl⟩, rfl, -⟩ := read
    exact none (names_of_readWideConstant found)
  | increment =>
    simp only [operation, map_eq_ok, Prod.mk.injEq] at read
    obtain ⟨i, found, rfl, -⟩ := read
    unfold Statement.increment at found
    split at found
    · simp only [bind_eq_ok] at found
      obtain ⟨slot, -, amount, -, same⟩ := found
      cases same
      exact none rfl
    · cases found
  | field make =>
    simp only [operation, map_eq_ok, Prod.mk.injEq] at read
    obtain ⟨_, ⟨field, found, rfl⟩, rfl, -⟩ := read
    rw [Operation.names, mentions field]
    exact (solid_readFieldRef found).mpr solid
  | invoke kind =>
    simp only [operation, map_eq_ok, Prod.mk.injEq] at read
    obtain ⟨_, ⟨target, found, rfl⟩, rfl, -⟩ := read
    exact solid_invoked solid found
  | invokeDynamic =>
    simp only [operation, Statement.invokeDynamic, map_eq_ok, bind_eq_ok, Prod.exists,
      readUnqualifiedName_eq_ok, readMethodDescriptor_eq_ok, Prod.mk.injEq] at read
    obtain ⟨i, ⟨word, single, _, _, split, name, rfl, descriptor, rfl, same⟩, rfl, -⟩ := read
    cases same
    have whole := one single
    rw [eq_of_splitMember split, solid_append, descriptor.solid_render] at whole
    simpa [Operation.names, Instruction.names, DynamicRef.names] using whole
  | newObject =>
    simp only [operation, map_eq_ok, bind_eq_ok, readBinaryName_eq_ok, Prod.mk.injEq] at read
    obtain ⟨_, ⟨name, ⟨_, single, rfl⟩, rfl⟩, rfl, -⟩ := read
    simpa [Operation.names, Instruction.names] using one single
  | classOperand make =>
    simp only [operation, map_eq_ok, bind_eq_ok, Prod.mk.injEq] at read
    obtain ⟨_, ⟨type, ⟨word, single, found⟩, rfl⟩, rfl, -⟩ := read
    rw [Operation.names, mentions type]
    exact (solid_readClass found).mpr (one single)
  | newMultiArray =>
    simp only [operation, map_eq_ok, Prod.mk.injEq] at read
    obtain ⟨i, found, rfl, -⟩ := read
    unfold Statement.newMultiArray at found
    split at found
    · rename_i word count two
      simp only [bind_eq_ok] at found
      obtain ⟨type, named, dimensions, -, same⟩ := found
      cases same
      exact (solid_readClass named).mpr (solid word (by simp [two]))
    · cases found
  | plainBranch b =>
    obtain ⟨_, -, same⟩ := bind_eq_ok.mp read
    cases same
    exact none rfl
  | jump make =>
    unfold operation at read
    dsimp only at read
    split at read
    · obtain ⟨_, -, same⟩ := bind_eq_ok.mp read
      cases same
      exact none rfl
    · cases read
  | ret =>
    unfold operation at read
    dsimp only at read
    split at read
    · obtain ⟨_, -, same⟩ := bind_eq_ok.mp read
      cases same
      exact none rfl
    · cases read
  | tableSwitch | lookupSwitch =>
    simp only [operation, bind_eq_ok, Prod.exists] at read
    obtain ⟨b, _, -, same⟩ := read
    cases same
    exact none rfl

end Statement

/-- The instruction on a line, which has none if it begins with a point. -/
def instructionText (line : List Char) : List Char :=
  if line.head? = some '.' then [] else unlabelled line

/-- Does a text with an instruction load a type or method, with a blank in what says which? -/
def loadsSpread (text : List Char) : Bool :=
  let statement := Statement.ofLine text
  decide (statement.mnemonic = "ldc".toList ∨ statement.mnemonic = "ldc_w".toList) &&
    spreads statement.operand

/-- Does a line, after a label if it has one, load such a type or method? -/
def hasSpreadLoad (line : List Char) : Bool :=
  loadsSpread (instructionText (trim (uncomment line)))

/-- What is read of an instruction has a blank in a name just where the text loads one, and nothing
but loads of constants has. -/
theorem ReadsAs.solid_iff {text : List Char} {op : Operation} (read : ReadsAs text op) :
    ((∀ name ∈ op.names, Solid name) ↔ loadsSpread text = false) ∧
      ((∃ constant, op = .instruction (.loadConstant constant)) ∨
        ∀ name ∈ op.names, Solid name) := by
  obtain ⟨form, method, method', named, found⟩ := read
  by_cases isConstant : form.isConstant = true
  · obtain rfl : form = .constant := by
      cases form <;> first | rfl | cases isConstant
    simp only [Statement.operation, map_eq_ok, Prod.mk.injEq] at found
    obtain ⟨_, ⟨constant, found, rfl⟩, rfl, -⟩ := found
    have loads := form?_eq_constant.mp named
    refine ⟨(solid_readConstant found).trans ?_, .inl ⟨constant, rfl⟩⟩
    simp only [loadsSpread, decide_eq_true loads, Bool.true_and]
  · have other : form.isConstant = false := Bool.eq_false_iff.mpr isConstant
    have solid : ∀ name ∈ op.names, Solid name :=
      Statement.solid_operation (fun word => solid_of_mem_words)
        (forms_mentionOperand _ (mem_forms_of_form? named)) other found
    have noLoad : ¬ ((Statement.ofLine text).mnemonic = "ldc".toList ∨
        (Statement.ofLine text).mnemonic = "ldc_w".toList) := by
      intro loads
      cases named.symm.trans (form?_eq_constant.mpr loads)
      cases other
    have spreadsNot : loadsSpread text = false := by
      simp only [loadsSpread, decide_eq_false noLoad, Bool.false_and]
    exact ⟨iff_of_true solid spreadsNot, .inr solid⟩

end MethodFlow.Listing
