import MethodFlow.Listing.Instruction
import MethodFlow.Proofs.Frame.Operations

namespace MethodFlow.Listing

open MethodFlow.Text

section Operations

variable {method method' : OpenMethod}

/-- To meet a label changes only what labels there are. -/
theorem OpenMethod.method_of_label {name : List Char} {label : Label}
    (met : method.label name = .ok (label, method')) :
    method'.builder.method = method.builder.method := by
  unfold OpenMethod.label at met
  split at met
  · cases met
  split at met <;> cases met <;> rfl

theorem OpenMethod.method_of_labelAll {names : List (List Char)} {labels : List Label}
    (met : method.labelAll names = .ok (labels, method')) :
    method'.builder.method = method.builder.method := by
  induction names generalizing method labels with
  | nil =>
    cases met
    rfl
  | cons name rest ih =>
    simp only [OpenMethod.labelAll, bind_eq_ok, Prod.exists] at met
    obtain ⟨label, between, first, further, last, later, same⟩ := met
    cases same
    rw [ih later, method_of_label first]

theorem Statement.method_of_switchPairs {pairs : List (List Char)} {targets : List (Int × Label)}
    (met : switchPairs method pairs = .ok (targets, method')) :
    method'.builder.method = method.builder.method := by
  induction pairs generalizing method targets with
  | nil =>
    cases met
    rfl
  | cons pair rest ih =>
    unfold switchPairs at met
    split at met
    · cases met
    · simp only [bind_eq_ok, Prod.exists] at met
      obtain ⟨key, -, label, between, first, further, last, later, same⟩ := met
      cases same
      rw [ih later, OpenMethod.method_of_label first]

namespace Statement

variable {statement : Statement}

theorem method_of_tableSwitch {b : Branch Label}
    (read : statement.tableSwitch method = .ok (b, method')) :
    method'.builder.method = method.builder.method := by
  simp only [Statement.tableSwitch, bind_eq_ok, Prod.exists] at read
  obtain ⟨leading, default, -, read⟩ := read
  split at read
  · cases read
  · simp only [bind_eq_ok, Prod.exists] at read
    obtain ⟨_, between, first, _, -, _, last, later, same⟩ := read
    cases same
    rw [OpenMethod.method_of_labelAll later, OpenMethod.method_of_label first]

theorem method_of_lookupSwitch {b : Branch Label}
    (read : statement.lookupSwitch method = .ok (b, method')) :
    method'.builder.method = method.builder.method := by
  simp only [Statement.lookupSwitch, bind_eq_ok, Prod.exists] at read
  obtain ⟨leading, default, -, pairs, between, met, read⟩ := read
  split at read
  · cases read
  · simp only [bind_eq_ok, Prod.exists] at read
    obtain ⟨_, _, last, same⟩ := read
    cases same
    rw [OpenMethod.method_of_label last, method_of_switchPairs met]

theorem method_of_operation {form : Form} {op : Operation}
    (read : statement.operation method form = .ok (op, method')) :
    method'.builder.method = method.builder.method := by
  unfold operation at read
  cases form with
  | jump make =>
    dsimp only at read
    split at read
    · simp only [bind_eq_ok, Prod.exists] at read
      obtain ⟨label, _, met, same⟩ := read
      cases same
      exact OpenMethod.method_of_label met
    · cases read
  | ret =>
    dsimp only at read
    split at read
    · obtain ⟨slot, -, same⟩ := bind_eq_ok.mp read
      cases same
      rfl
    · cases read
  | tableSwitch =>
    simp only [bind_eq_ok, Prod.exists] at read
    obtain ⟨b, _, met, same⟩ := read
    cases same
    exact method_of_tableSwitch met
  | lookupSwitch =>
    simp only [bind_eq_ok, Prod.exists] at read
    obtain ⟨b, _, met, same⟩ := read
    cases same
    exact method_of_lookupSwitch met
  | plainBranch b =>
    obtain ⟨_, -, same⟩ := bind_eq_ok.mp read
    cases same
    rfl
  | _ =>
    obtain ⟨i, -, same⟩ := map_eq_ok.mp read
    cases same
    rfl

end Statement

end Operations

/-- The text, which begins with a mnemonic, is read as the operation. -/
def ReadsAs (text : List Char) (op : Operation) : Prop :=
  ∃ form method method', form? (Statement.ofLine text).mnemonic = some form ∧
    (Statement.ofLine text).operation method form = .ok (op, method')

/-- A line without the label that it may begin with. -/
def unlabelled (line : List Char) : List Char :=
  let first := line.takeWhile fun c => !isBlank c
  match dropLast? (· = ':') first with
  | none => line
  | some _ => trimStart (line.drop first.length)

theorem unlabelled_of_unmarked {line : List Char}
    (unmarked : dropLast? (· = ':') (line.takeWhile fun c => !isBlank c) = none) :
    unlabelled line = line := by
  simp only [unlabelled, unmarked]

theorem unlabelled_of_marked {line name : List Char}
    (marked : dropLast? (· = ':') (line.takeWhile fun c => !isBlank c) = some name) :
    unlabelled line = trimStart (line.drop (line.takeWhile fun c => !isBlank c).length) := by
  simp only [unlabelled, marked]

namespace OpenMethod

variable {method method' : OpenMethod} {line : List Char}

/-- The method with nodes added at the end of its code. -/
def Gains (method : OpenMethod) (added : List Node) (method' : OpenMethod) : Prop :=
  method'.builder.method =
    { method.builder.method with nodes := method.builder.method.nodes ++ added }

theorem Gains.trans {between : OpenMethod} {added further : List Node}
    (gains : method.Gains added between) (gains' : between.Gains further method') :
    method.Gains (added ++ further) method' := by
  unfold Gains at gains gains' ⊢
  rw [gains', gains, List.append_assoc]

theorem Gains.name {added : List Node} (gains : method.Gains added method') :
    method'.builder.method.name = method.builder.method.name := by
  unfold Gains at gains
  rw [gains]

theorem Gains.descriptor {added : List Node} (gains : method.Gains added method') :
    method'.builder.method.descriptor = method.builder.method.descriptor := by
  unfold Gains at gains
  rw [gains]

theorem gains_push (same : method'.builder.method = method.builder.method) (node : Node) :
    method.Gains [node] (method'.push node) := by
  unfold Gains OpenMethod.push MethodBuilder.push
  rw [same]

theorem instruction_gains (read : method.instruction line = .ok method') :
    ∃ op, ReadsAs line op ∧ method.Gains [.operation op] method' := by
  unfold OpenMethod.instruction at read
  dsimp only at read
  split at read
  · cases read
  · rename_i form named
    simp only [bind_eq_ok, Prod.exists] at read
    obtain ⟨op, between, found, same⟩ := read
    cases same
    exact ⟨op, ⟨form, method, between, named, found⟩,
      gains_push (Statement.method_of_operation found) _⟩

theorem line_gains (read : method.line line = .ok method') :
    (unlabelled line = [] ∧ ∃ label, method.Gains [.label label] method') ∨
      ∃ (labels : List Label) (op : Operation), ReadsAs (unlabelled line) op ∧
        method.Gains (labels.map .label ++ [.operation op]) method' := by
  unfold OpenMethod.line at read
  dsimp only at read
  split at read
  · rename_i unmarked
    rw [unlabelled_of_unmarked unmarked]
    obtain ⟨op, found, gains⟩ := instruction_gains read
    exact .inr ⟨[], op, found, gains⟩
  · rename_i name marked
    rw [unlabelled_of_marked marked]
    simp only [bind_eq_ok, Prod.exists] at read
    obtain ⟨label, between, met, read⟩ := read
    have placed : method.Gains [.label label] (between.push (.label label)) :=
      gains_push (method_of_label met) _
    split at read
    · rename_i empty
      cases read
      exact .inl ⟨List.isEmpty_iff.mp empty, label, placed⟩
    · obtain ⟨op, found, gains⟩ := instruction_gains read
      exact .inr ⟨[label], op, found, placed.trans gains⟩

end OpenMethod

end MethodFlow.Listing
