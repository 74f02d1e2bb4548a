import MethodFlow.Proofs.Listing.Bodies

namespace MethodFlow

/-- The mnemonic of an invocation. -/
def InvokeKind.mnemonic : InvokeKind → String
  | .virtual => "invokevirtual"
  | .special => "invokespecial"
  | .static => "invokestatic"
  | .interface => "invokeinterface"

namespace Listing

open MethodFlow.Text

/-- The instructions that access fields, by mnemonic. -/
def fieldAccesses : List (String × (FieldRef → Instruction)) :=
  [("getstatic", .getStatic), ("putstatic", .putStatic), ("getfield", .getField),
    ("putfield", .putField)]

theorem form?_invocation (kind : InvokeKind) :
    form? kind.mnemonic.toList = some (.invoke kind) := by
  cases kind <;> rfl

theorem form?_access {access : String × (FieldRef → Instruction)} (member : access ∈ fieldAccesses) :
    form? access.1.toList = some (.field access.2) := by
  simp only [fieldAccesses, List.mem_cons, List.not_mem_nil, or_false] at member
  rcases member with rfl | rfl | rfl | rfl <;> rfl

/-- A member with the class that it belongs to, as it is written. -/
def memberText (owner : BinaryName) (name : UnqualifiedName) : List Char :=
  owner.chars ++ '/' :: name.chars

section Readers

variable (owner : BinaryName) (name : UnqualifiedName)

/-- A name has no slash, so the last one is that between owner and name. -/
theorem readMember_memberText : readMember (memberText owner name) = .ok (owner, name) := by
  have cut : cutAtLast (· = '/') (owner.chars ++ '/' :: name.chars) =
      some (owner.chars, name.chars) := by
    refine cutAtLast_append (fun d member => decide_eq_false ?_) (by decide)
    rintro rfl
    exact notMem_of_unqualified name.valid (by decide) member
  simp only [readMember, memberText, cut]
  exact bind_eq_ok.mpr ⟨_, readBinaryName_eq_ok.mpr rfl,
    bind_eq_ok.mpr ⟨_, readUnqualifiedName_eq_ok.mpr rfl, rfl⟩⟩

variable {owner name}

theorem solid_memberText (solid : Solid owner.chars) (solid' : Solid name.chars) :
    Solid (memberText owner name) := by
  simp [memberText, solid, solid', show isBlank '/' = false by decide]

theorem memberText_ne_nil : memberText owner name ≠ [] := by simp [memberText]

theorem splitMember_append {member : List Char} (unopened : '(' ∉ member)
    (descriptor : MethodDescriptor) :
    splitMember (member ++ descriptor.render) = .ok (member, descriptor.render) := by
  have cut (rest : List Char) :
      cutAt (· = '(') (member ++ '(' :: rest) = (member, some rest) := by
    refine cutAt_append (fun d inside => decide_eq_false ?_) (by decide)
    rintro rfl
    exact unopened inside
  simp only [splitMember, MethodDescriptor.render, List.cons_append, cut]

theorem readMethodRef_memberText (unopened : '(' ∉ memberText owner name)
    (descriptor : MethodDescriptor) (inInterface : Bool) :
    readMethodRef (memberText owner name ++ descriptor.render) inInterface =
      .ok ⟨owner, name, descriptor, inInterface⟩ :=
  bind_eq_ok.mpr ⟨_, splitMember_append unopened descriptor,
    bind_eq_ok.mpr ⟨_, readMember_memberText owner name,
      bind_eq_ok.mpr ⟨_, readMethodDescriptor_eq_ok.mpr rfl, rfl⟩⟩⟩

theorem readFieldRef_memberText (type : FieldType) :
    readFieldRef [memberText owner name, type.render] = .ok ⟨owner, name, type⟩ :=
  bind_eq_ok.mpr ⟨_, readMember_memberText owner name,
    bind_eq_ok.mpr ⟨_, readFieldType_eq_ok.mpr rfl, rfl⟩⟩

/-- A single word after the mnemonic is the method, which is of an interface just if the invocation
is. -/
theorem Statement.invoked_memberText {mnemonic operand : List Char}
    (unopened : '(' ∉ memberText owner name) (kind : InvokeKind) (descriptor : MethodDescriptor) :
    Statement.invoked ⟨mnemonic, operand, [memberText owner name ++ descriptor.render]⟩ kind =
      .ok ⟨owner, name, descriptor, kind = .interface⟩ := by
  cases kind <;> exact readMethodRef_memberText unopened descriptor _

end Readers

theorem head?_memberText (owner : BinaryName) (name : UnqualifiedName) (rest : List Char) :
    (memberText owner name ++ rest).head? ≠ some ';' := by
  intro begins
  unfold memberText at begins
  cases chars : owner.chars with
  | nil => simp [chars] at begins
  | cons c more =>
    have first : c = ';' := by simpa [chars] using begins
    exact owner.notMem_chars (by decide) (first ▸ chars ▸ List.mem_cons_self)

theorem head?_render (type : FieldType) : type.render.head? ≠ some ';' := by
  cases type with
  | base base => cases base <;> decide
  | ref type =>
    obtain ⟨c, rest, written, begins⟩ := type.render_eq_cons
    rw [FieldType.render, written]
    rintro ⟨⟩
    simp at begins

section Members

variable {owner : BinaryName} {header : String} {progress : Progress} {method : OpenMethod}
  (opens : progress.Opens owner header method) {target : BinaryName} {name : UnqualifiedName}
  (solid : Solid (memberText target name))
include opens solid

theorem parse_invocation (unopened : '(' ∉ memberText target name) (kind : InvokeKind)
    {descriptor : MethodDescriptor} (named : ∀ name ∈ descriptor.names, Solid name) :
    parse (bodied header (kind.mnemonic ++ " " ++
        (toString target ++ "/" ++ toString name ++ toString descriptor))) owner =
      .ok (progress.listing owner (method.push (.instruction
        (.invoke kind ⟨target, name, descriptor, kind = .interface⟩)))) := by
  have text : (toString target ++ "/" ++ toString name ++ toString descriptor).toList =
      memberText target name ++ descriptor.render := by
    simp [toString, memberText]
  refine parse_word opens (form?_invocation kind) ?_ ?_ ?_ ?_
  · rw [text]
    exact solid_append.mpr ⟨solid, descriptor.solid_render.mpr named⟩
  · simp [text, memberText]
  · rw [text]
    exact head?_memberText target name descriptor.render
  · rw [text, Statement.operation, Statement.invoked_memberText unopened]
    rfl

theorem parse_access {access : String × (FieldRef → Instruction)} (member : access ∈ fieldAccesses)
    {type : FieldType} (named : ∀ name ∈ type.names, Solid name) :
    parse (bodied header (access.1 ++ " " ++
        (toString target ++ "/" ++ toString name ++ " " ++ toString type))) owner =
      .ok (progress.listing owner
        (method.push (.instruction (access.2 ⟨target, name, type⟩)))) := by
  have text : (toString target ++ "/" ++ toString name ++ " " ++ toString type).toList =
      memberText target name ++ ' ' :: type.render := by
    simp [toString, memberText]
  have typed : Solid type.render := type.solid_render.mpr named
  obtain ⟨c, rest, written, -⟩ := type.render_eq_cons
  have present : type.render ≠ [] := by simp [written]
  refine parse_statement opens (form?_access member) ?_ ?_ ?_ ?_
  · rw [text]
    exact (solid.bounded memberText_ne_nil).join (typed.bounded present)
  · rw [text]
    simp [solid.newline_notMem, typed.newline_notMem]
  · rw [text]
    refine (solid.unremarked ?_).join (typed.unremarked ?_)
    · simpa using head?_memberText target name []
    · exact head?_render type
  · rw [text, words_append_blank isBlank_space, solid.words_eq memberText_ne_nil,
      typed.words_eq present, Statement.operation, List.singleton_append,
      readFieldRef_memberText]
    rfl

end Members

/-- A reference to a method or a field, written after the mnemonic of an instruction that may have
it, is read as that instruction with the same owner, name and type. -/
theorem parse_memberRef {owner : BinaryName} {header : String} {progress : Progress}
    {method : OpenMethod} (opens : progress.Opens owner header method) {target : BinaryName}
    {name : UnqualifiedName} (solid : Solid target.chars) (solid' : Solid name.chars)
    (unopened : '(' ∉ target.chars) (unopened' : '(' ∉ name.chars) :
    (∀ (kind : InvokeKind) (descriptor : MethodDescriptor), (∀ name ∈ descriptor.names, Solid name) →
        parse (bodied header (kind.mnemonic ++ " " ++
            (toString target ++ "/" ++ toString name ++ toString descriptor))) owner =
          .ok (progress.listing owner (method.push (.instruction
            (.invoke kind ⟨target, name, descriptor, kind = .interface⟩))))) ∧
      ∀ access ∈ fieldAccesses, ∀ type : FieldType, (∀ name ∈ type.names, Solid name) →
        parse (bodied header (access.1 ++ " " ++
            (toString target ++ "/" ++ toString name ++ " " ++ toString type))) owner =
          .ok (progress.listing owner
            (method.push (.instruction (access.2 ⟨target, name, type⟩)))) := by
  have whole : Solid (memberText target name) := solid_memberText solid solid'
  have unopenedMember : '(' ∉ memberText target name := by simp [memberText, unopened, unopened']
  constructor
  · intro kind descriptor named
    exact parse_invocation opens whole unopenedMember kind named
  · intro access member type named
    exact parse_access opens whole member named

/-- A header whose method may access members. -/
def memberHeader : String := ".method static f()V ; members\n.limit stack 9\nStart:"

/-- A class whose name holds a quote and a colon, and its initializer. -/
def quotedClass : BinaryName := ⟨"p/a\"b:c".toList, by decide⟩

def initializer : UnqualifiedName := ⟨"<init>".toList, by decide⟩

/-- A constructor with an array of such objects, and a field of their type. -/
theorem parse_memberRef_quoted : ∃ (progress : Progress) (method : OpenMethod),
    progress.Opens .main memberHeader method ∧ Solid quotedClass.chars ∧ Solid initializer.chars ∧
    '(' ∉ quotedClass.chars ∧ '(' ∉ initializer.chars ∧
    parse (bodied memberHeader "invokeinterface p/a\"b:c/<init>([Lp/a\"b:c;J)V") .main =
      .ok (progress.listing .main (method.push (.instruction (.invoke .interface
        ⟨quotedClass, initializer, ⟨[.ref (.objectArray 0 quotedClass), .long], none⟩, true⟩)))) ∧
    parse (bodied memberHeader "putfield p/a\"b:c/<init> Lp/a\"b:c;") .main =
      .ok (progress.listing .main (method.push (.instruction (.putField
        ⟨quotedClass, initializer, .object quotedClass⟩)))) := by
  obtain ⟨progress, method, opens⟩ :
      ∃ (progress : Progress) (method : OpenMethod), progress.Opens .main memberHeader method :=
    Progress.exists_opens (by decide +kernel)
  have solid : Solid quotedClass.chars := by decide
  have solid' : Solid initializer.chars := by decide
  have unopened : '(' ∉ quotedClass.chars := by decide
  have unopened' : '(' ∉ initializer.chars := by decide
  obtain ⟨invocations, accesses⟩ := parse_memberRef opens solid solid' unopened unopened'
  refine ⟨progress, method, opens, solid, solid', unopened, unopened', ?_, ?_⟩
  · refine invocations .interface ⟨[.ref (.objectArray 0 quotedClass), .long], none⟩ ?_
    simpa [MethodDescriptor.names, FieldType.names, RefType.names, FieldType.long] using solid
  · refine accesses ("putfield", .putField) (by simp [fieldAccesses]) (.object quotedClass) ?_
    simpa [FieldType.names, RefType.names, FieldType.object] using solid

end Listing

end MethodFlow
