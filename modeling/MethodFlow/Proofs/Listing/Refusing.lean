import MethodFlow.Listing.Reader
import MethodFlow.Proofs.Failing
import MethodFlow.Proofs.Listing.Operands
import MethodFlow.Proofs.Text.Wording

/-! Points that no line of a listing has room for. No name or descriptor contains a point, no number
is one, and no directive or instruction takes words without end: a line that ends in enough points
is refused, whatever precedes them. -/

namespace MethodFlow

namespace RefType

theorem point_notMem_render (type : RefType) : '.' ∉ type.render := by
  cases type with
  | object name => simp [render, BinaryName.render, name.notMem_chars]
  | objectArray additional element => simp [render, BinaryName.render, element.notMem_chars]
  | primitiveArray additional element =>
    have other : '.' ≠ element.letter := by cases element <;> decide
    simp [render, other]

end RefType

namespace FieldType

theorem point_notMem_render (type : FieldType) : '.' ∉ type.render := by
  cases type with
  | base type =>
    have other : '.' ≠ type.letter := by cases type <;> decide
    simp [render, other]
  | ref type => exact type.point_notMem_render

end FieldType

theorem MethodDescriptor.point_notMem_render (descriptor : MethodDescriptor) :
    '.' ∉ descriptor.render := by
  obtain ⟨parameters, returnType⟩ := descriptor
  cases returnType <;> simp [render, FieldType.point_notMem_render]

namespace Listing

open MethodFlow.Text

section Operands

variable {token : List Char} (pointed : '.' ∈ token)
include pointed

theorem readBinaryName_fails : Fails (readBinaryName token) := by
  refine .of_ne_ok fun name read => ?_
  rw [readBinaryName_eq_ok.mp read] at pointed
  exact name.notMem_chars (by decide) pointed

theorem readMethodDescriptor_fails : Fails (readMethodDescriptor token) := by
  refine .of_ne_ok fun descriptor read => ?_
  rw [← readMethodDescriptor_eq_ok.mp read] at pointed
  exact descriptor.point_notMem_render pointed

theorem readClass_fails : Fails (readClass token) := by
  refine .of_ne_ok fun type read => ?_
  rcases eq_of_readClass read with rfl | ⟨name, rfl, rfl⟩
  · exact type.point_notMem_render pointed
  · exact name.notMem_chars (by decide) pointed

theorem readMember_fails : Fails (readMember token) := by
  refine .of_ne_ok fun (owner, name) read => ?_
  rw [eq_of_readMember read, List.mem_append, List.mem_cons] at pointed
  rcases pointed with inOwner | slash | inName
  · exact owner.notMem_chars (by decide) inOwner
  · cases slash
  · exact notMem_of_unqualified name.valid (by decide) inName

theorem readMethodRef_fails (inInterface : Bool) : Fails (readMethodRef token inInterface) := by
  unfold readMethodRef
  cases split : splitMember token with
  | error fault => exact .error _
  | ok parts =>
    obtain ⟨member, descriptor⟩ := parts
    change Fails (readMember member >>= _)
    rw [eq_of_splitMember split] at pointed
    rcases List.mem_append.mp pointed with inMember | inDescriptor
    · exact (readMember_fails inMember).bind _
    · exact .andThen fun _ => (readMethodDescriptor_fails inDescriptor).bind _

end Operands

theorem readUnsigned_point (limit : Nat) : Fails (readUnsigned limit ['.']) := .error _

theorem readSigned_point (bits : Nat) : Fails (readSigned bits ['.']) := .error _

/-- Points set apart by blanks, one more than the count. -/
def points : Nat → List Char
  | 0 => ['.']
  | count + 1 => '.' :: ' ' :: points count

variable {count : Nat} {text : List Char}

private theorem space : isBlank ' ' = true := by decide

theorem points_begin (count : Nat) : ∃ rest, points count = '.' :: rest := by
  cases count <;> exact ⟨_, rfl⟩

theorem points_suffix (count : Nat) : points count <:+ points (count + 1) :=
  List.suffix_append ['.', ' '] (points count)

theorem getLast?_of_points (ends : points count <:+ text) : text.getLast? = some '.' := by
  obtain ⟨front, rfl⟩ := ends
  induction count generalizing front with
  | zero => simp [points]
  | succ count ih => simpa [points] using ih (front ++ ['.', ' '])

theorem points_trimStart (ends : points count <:+ text) : points count <:+ trimStart text := by
  obtain ⟨rest, begins⟩ := points_begin count
  rw [begins] at ends ⊢
  exact suffix_dropWhile isBlank (by decide) ends

theorem points_trim (ends : points count <:+ text) : points count <:+ trim text := by
  have trimmed := points_trimStart ends
  rwa [trim, trimEnd_eq_self (by decide) (getLast?_of_points trimmed)]

/-- To cut a text at its first blank costs at most one of the points at its end. -/
theorem points_splitWord (ends : points (count + 1) <:+ text) :
    points count <:+ (splitWord text).2 := by
  obtain ⟨front, rfl⟩ := ends
  -- The blank after the first point is cut at, unless there is one further to the front.
  obtain ⟨word, after, cut, kept⟩ := cutAt_suffix space (front ++ ['.']) (points count)
  rw [List.append_assoc, List.singleton_append] at cut
  rw [points, splitWord, cut]
  exact points_trim kept

theorem words_points (count : Nat) : words (points count) = List.replicate (count + 1) ['.'] := by
  induction count with
  | zero => simp [points, words, show isBlank '.' = false by decide]
  | succ count ih =>
    rw [points, words_cons_blank (by decide) (by decide), ih, ← List.replicate_succ]

/-- The first of the points may belong to a longer word. -/
theorem points_words (ends : points count <:+ text) :
    List.replicate count ['.'] <:+ words text := by
  obtain ⟨front, rfl⟩ := ends
  cases count with
  | zero => exact List.nil_suffix
  | succ count =>
    have apart := words_append_blank space (front ++ ['.']) (points count)
    rw [List.append_assoc, List.singleton_append] at apart
    rw [points, apart, words_points]
    exact List.suffix_append _ _

theorem readString_fails {operand : List Char} (last : operand.getLast? = some '.') :
    Fails (readString operand) := by
  unfold readString
  split
  · rename_i rest
    split
    · rename_i inner closed
      unfold dropLast? at closed
      split at closed
      · rename_i c found
        obtain rfl : c = '.' := by simpa [List.getLast?_cons, found] using last
        cases closed
      · cases closed
    · exact .error _
  · exact .error _

theorem readConstant_fails {operand : List Char} (ends : points 1 <:+ operand) :
    Fails (readConstant operand) := by
  have rest : points 0 <:+ (splitWord operand).2 := points_splitWord ends
  have pointed : '.' ∈ (splitWord operand).2 := rest.subset List.mem_cons_self
  unfold readConstant
  split
  · exact (readString_fails (getLast?_of_points ends)).map _
  · dsimp only
    split
    · exact (readClass_fails pointed).map _
    split
    · exact (readMethodDescriptor_fails pointed).map _
    split
    · exact (readMethodRef_fails pointed false).map _
    split
    · rename_i empty
      rw [List.isEmpty_iff.mp empty] at pointed
      cases pointed
    · exact .error _

section Arguments

variable {arguments : List (List Char)} (ends : [['.'], ['.']] <:+ arguments)
include ends

private theorem reverse_eq_cons : ∃ leading, arguments.reverse = ['.'] :: ['.'] :: leading := by
  obtain ⟨front, rfl⟩ := ends
  exact ⟨front.reverse, by simp⟩

private theorem ne_singleton (argument : List Char) : arguments ≠ [argument] := by
  intro one
  have length := ends.length_le
  simp [one] at length

theorem readFieldRef_fails : Fails (readFieldRef arguments) := by
  unfold readFieldRef
  split
  · cases ends.eq_of_length rfl
    exact (readMember_fails (by decide)).bind _
  · exact .error _

end Arguments

namespace Statement

variable {statement : Statement} (ends : [['.'], ['.']] <:+ statement.arguments)
include ends

theorem noArguments_fails : Fails statement.noArguments := by
  unfold noArguments
  split
  · rename_i none
    simp [none] at ends
  · exact .error _

theorem oneArgument_fails : Fails statement.oneArgument := by
  unfold oneArgument
  split
  · rename_i argument one
    exact absurd one (ne_singleton ends argument)
  · exact .error _

theorem switchDefault_fails : Fails statement.switchDefault := by
  obtain ⟨leading, reversed⟩ := reverse_eq_cons ends
  unfold switchDefault
  rw [reversed]
  exact .error _

theorem invoked_fails (kind : InvokeKind) : Fails (statement.invoked kind) := by
  unfold invoked
  split
  · rename_i target one
    exact absurd one (ne_singleton ends target)
  · rename_i two
    cases (two ▸ ends).eq_of_length rfl
    exact (readUnsigned_point 255).bind _
  · rename_i target _ one
    exact absurd one (ne_singleton ends target)
  · rename_i two
    cases (two ▸ ends).eq_of_length rfl
    exact .error _
  · exact .error _

theorem increment_fails : Fails statement.increment := by
  unfold increment
  split
  · rename_i two
    cases (two ▸ ends).eq_of_length rfl
    exact .andThen fun _ => (readSigned_point 15).bind _
  · exact .error _

theorem newMultiArray_fails : Fails statement.newMultiArray := by
  unfold newMultiArray
  split
  · rename_i two
    cases (two ▸ ends).eq_of_length rfl
    exact .andThen fun _ => (readUnsigned_point 255).bind _
  · exact .error _

theorem operation_fails (operand : points 1 <:+ statement.operand) (method : OpenMethod)
    (form : Form) : Fails (statement.operation method form) := by
  have one {α : Type} (read : List Char → Except ListingFault α) :
      Fails (statement.oneArgument >>= read) := (oneArgument_fails ends).bind read
  unfold operation
  cases form with
  | plain i => exact ((noArguments_fails ends).map _).map _
  | plainBranch b => exact (noArguments_fails ends).bind _
  | constant => exact ((readConstant_fails operand).map _).map _
  | byteValue | shortValue | wideConstant | slot | newObject | newPrimitiveArray | classOperand =>
    exact ((one _).map _).map _
  | increment => exact (increment_fails ends).map _
  | field make => exact ((readFieldRef_fails ends).map _).map _
  | invoke kind => exact ((invoked_fails ends kind).map _).map _
  | invokeDynamic => exact (one _).map _
  | newMultiArray => exact (newMultiArray_fails ends).map _
  | jump make | ret =>
    dsimp only
    split
    · rename_i name one
      exact absurd one (ne_singleton ends name)
    · exact .error _
  | tableSwitch | lookupSwitch => exact ((switchDefault_fails ends).bind _).bind _

end Statement

namespace OpenMethod

variable {line : List Char}

theorem instruction_fails (ends : points 3 <:+ line) (method : OpenMethod) :
    Fails (method.instruction line) := by
  have operand : points 2 <:+ (Statement.ofLine line).operand := points_splitWord ends
  have arguments : [['.'], ['.']] <:+ (Statement.ofLine line).arguments := points_words operand
  unfold instruction
  dsimp only
  split
  · exact .error _
  · exact (Statement.operation_fails arguments ((points_suffix 1).trans operand) _ _).bind _

/-- After a label, too, points at the end make an instruction that is refused. -/
theorem line_fails (ends : points 4 <:+ line) (method : OpenMethod) : Fails (method.line line) := by
  unfold OpenMethod.line
  dsimp only
  split
  · exact instruction_fails ((points_suffix 3).trans ends) method
  · refine .andThen fun (label, labelled) => ?_
    have rest : points 3 <:+ trimStart (line.drop (line.takeWhile fun c => !isBlank c).length) := by
      rw [drop_takeWhile]
      have apart : ' ' :: points 3 <:+ line := (List.suffix_cons '.' _).trans ends
      have left := suffix_dropWhile (fun c => !isBlank c) (by decide) apart
      exact points_trimStart ((List.suffix_cons ' ' _).trans left)
    dsimp only
    split
    · rename_i empty
      rw [List.isEmpty_iff.mp empty] at rest
      cases rest.eq_of_length_le (Nat.zero_le _)
    · exact instruction_fails rest _

end OpenMethod

theorem Directive.argument_fails {line : Directive} (ends : [['.'], ['.']] <:+ line.arguments) :
    Fails line.argument := by
  unfold Directive.argument
  split
  · rename_i argument one
    exact absurd one (ne_singleton ends argument)
  · exact .error _

namespace Progress

section Directives

variable {line : Directive} (ends : [['.'], ['.']] <:+ line.arguments) (progress : Progress)
include ends

theorem openClass_fails : Fails (progress.openClass line) := by
  obtain ⟨leading, reversed⟩ := reverse_eq_cons ends
  unfold openClass
  rw [reversed]
  exact .andThen fun _ => (readBinaryName_fails (by decide)).bind _

theorem openSignature_fails : Fails (progress.openSignature line) := by
  obtain ⟨leading, reversed⟩ := reverse_eq_cons ends
  have unsigned : Fails (splitMember ['.']) := .error _
  unfold openSignature
  rw [reversed]
  exact .andThen fun _ => .andThen fun _ => unsigned.bind _

theorem limit_fails : Fails (progress.limit line) := by
  unfold limit
  split
  · rename_i two
    cases (two ▸ ends).eq_of_length rfl
    exact .andThen fun _ => (readUnsigned_point largestShort).bind _
  · exact .error _

theorem addHandler_fails : Fails (progress.addHandler line) := by
  obtain ⟨leading, reversed⟩ := reverse_eq_cons ends
  unfold addHandler
  split
  · rename_i wordUsing handler seven
    obtain rfl : wordUsing = ['.'] := by
      rw [seven] at reversed
      exact (List.cons.inj (List.cons.inj reversed).2).1
    dsimp only
    split
    · exact .error _
    · rename_i form
      exact absurd (.inr (.inr (by decide))) form
  · exact .error _

theorem directive_fails (owner : BinaryName) : Fails (progress.directive owner line) := by
  have argument : Fails line.argument := line.argument_fails ends
  unfold directive
  split
  · exact openClass_fails ends progress
  · exact openClass_fails ends progress
  · exact .andThen fun _ => (argument.bind _).bind _
  · exact .andThen fun _ => (argument.bind _).bind _
  · exact openSignature_fails ends progress
  · exact limit_fails ends progress
  · exact addHandler_fails ends progress
  · exact (argument.bind _).bind _
  · exact argument.bind _
  · exact .error _

end Directives

/-- Enough points at the end of a line are refused, be it a directive, a label or an instruction. -/
theorem trimmedLine_fails (progress : Progress) (owner : BinaryName) {text : List Char}
    (ends : points 4 <:+ text) : Fails (progress.trimmedLine owner text) := by
  unfold trimmedLine
  split
  · cases ends.eq_of_length_le (Nat.zero_le _)
  · have pointed := points_words ((points_suffix 3).trans ends)
    split
    · rename_i name arguments found
      rw [found] at pointed
      -- The name of the directive is at most the first of the words that are points.
      have further : [['.'], ['.']] <:+ arguments := by
        rcases List.suffix_cons_iff.mp pointed with all | more
        · exact (List.cons.inj all).2 ▸ List.suffix_rfl
        · exact (List.suffix_cons ['.'] _).trans more
      exact directive_fails further progress owner
    · rename_i none
      rw [none] at pointed
      cases pointed.eq_of_length_le (Nat.zero_le _)
  · exact .andThen fun method => (method.line_fails ends).bind _

end Progress

end Listing

end MethodFlow
