import MethodFlow.Proofs.Code.Labelling

namespace MethodFlow

section Lists

variable {ε α β κ : Type} {rename : α → Except ε β}

theorem map_eq_error {project : α → β} {outcome : Except ε α} {fault : ε} :
    outcome.map project = .error fault ↔ outcome = .error fault := by
  cases outcome <;> simp [Except.map]

/-- A list cannot be renamed for the first of its entries that cannot. -/
theorem mapM_eq_error {values : List α} {fault : ε} :
    values.mapM rename = .error fault ↔ ∃ before value after, values = before ++ value :: after ∧
      (∀ earlier ∈ before, ∃ result, rename earlier = .ok result) ∧ rename value = .error fault := by
  induction values with
  | nil =>
    constructor
    · intro failed
      cases failed
    · rintro ⟨before, value, after, same, -⟩
      simp at same
  | cons head rest ih =>
    constructor
    · intro failed
      rw [List.mapM_cons] at failed
      cases renamed : rename head with
      | error own =>
        rw [renamed] at failed
        cases failed
        exact ⟨[], head, rest, rfl, by simp, renamed⟩
      | ok result =>
        have failed' : rest.mapM rename = .error fault := by
          cases others : rest.mapM rename with
          | error own => simpa [renamed, others, bind, Except.bind] using failed
          | ok results => simp [renamed, others, bind, Except.bind, pure, Except.pure] at failed
        obtain ⟨before, value, after, rfl, fine, failed⟩ := ih.mp failed'
        refine ⟨head :: before, value, after, rfl, ?_, failed⟩
        exact List.forall_mem_cons.mpr ⟨⟨result, renamed⟩, fine⟩
    · rintro ⟨before, value, after, same, fine, failed⟩
      cases before with
      | nil =>
        cases same
        rw [List.mapM_cons, failed]
        rfl
      | cons first before =>
        cases same
        obtain ⟨⟨result, renamed⟩, fine⟩ := List.forall_mem_cons.mp fine
        have failed' := ih.mpr ⟨before, value, after, rfl, fine, failed⟩
        rw [List.mapM_cons, renamed, failed']
        rfl

theorem map_snd_mapM (rename : α → Except ε β) (pairs : List (κ × α)) :
    (pairs.mapM fun pair : κ × α => do return (pair.1, ← rename pair.2)).map (List.map Prod.snd) =
      (pairs.map Prod.snd).mapM rename := by
  induction pairs with
  | nil => rfl
  | cons pair rest ih =>
    rw [List.mapM_cons, List.map_cons, List.mapM_cons, ← ih]
    cases rename pair.2 with
    | error fault => rfl
    | ok result =>
      cases (rest.mapM fun pair : κ × α => do return (pair.1, ← rename pair.2)) <;> rfl

theorem eq_of_map_parts {pairs others : List (κ × α)}
    (firsts : pairs.map Prod.fst = others.map Prod.fst)
    (seconds : pairs.map Prod.snd = others.map Prod.snd) : pairs = others := by
  rw [← List.zip_unzip pairs, ← List.zip_unzip others]
  simp only [List.unzip_eq_map, firsts, seconds]

end Lists

namespace Branch

variable {L M ε : Type}

/-- What is left of a branch without its targets: its other operands, and how many targets it has. -/
def unlabelled : Branch L → Branch Unit
  | ifZero comparison _ => ifZero comparison ()
  | ifInts comparison _ => ifInts comparison ()
  | ifReferences comparison _ => ifReferences comparison ()
  | ifNull comparison _ => ifNull comparison ()
  | goto _ => goto ()
  | tableSwitch _ low targets => tableSwitch () low (targets.map fun _ => ())
  | lookupSwitch _ targets => lookupSwitch () (targets.map fun target => (target.1, ()))
  | valueReturn kind => valueReturn kind
  | voidReturn => voidReturn
  | throw => throw
  | jsr _ => jsr ()
  | ret slot => ret slot

theorem fallsThrough_unlabelled (b : Branch L) : b.unlabelled.fallsThrough = b.fallsThrough := by
  cases b <;> rfl

theorem isExit_unlabelled (b : Branch L) : b.unlabelled.isExit = b.isExit := by
  cases b <;> rfl

/-- A branch is told from others by its targets and by what is left without them. -/
theorem ext_of_unlabelled {first second : Branch L} (left : first.unlabelled = second.unlabelled)
    (targets : first.jumpTargets = second.jumpTargets) : first = second := by
  cases first <;> cases second <;>
    simp_all only [unlabelled, jumpTargets, reduceCtorEq, ifZero.injEq, ifInts.injEq,
      ifReferences.injEq, ifNull.injEq, tableSwitch.injEq, lookupSwitch.injEq, valueReturn.injEq,
      ret.injEq, List.cons.injEq, and_true, true_and]
  have keys := congrArg (List.map Prod.fst) left
  simp only [List.map_map, Function.comp_def] at keys
  exact eq_of_map_parts keys targets.2

theorem jumpTargets_mapLabels (rename : L → Except ε M) (b : Branch L) :
    (b.mapLabels rename).map jumpTargets = b.jumpTargets.mapM rename := by
  cases b with
  | ifZero _ target | ifInts _ target | ifReferences _ target | ifNull _ target | goto target
  | jsr target =>
    simp only [mapLabels, jumpTargets, List.mapM_cons, List.mapM_nil]
    cases rename target <;> rfl
  | tableSwitch default low targets =>
    simp only [mapLabels, jumpTargets, List.mapM_cons]
    cases rename default with
    | error fault => rfl
    | ok result => cases targets.mapM rename <;> rfl
  | lookupSwitch default targets =>
    simp only [mapLabels, jumpTargets, List.mapM_cons, ← map_snd_mapM]
    cases rename default with
    | error fault => rfl
    | ok result =>
      cases (targets.mapM fun target : Int × L => do return (target.1, ← rename target.2)) <;> rfl
  | valueReturn | voidReturn | throw | ret => rfl

theorem unlabelled_mapLabels {rename : L → Except ε M} {b : Branch L} {renamed : Branch M}
    (mapped : b.mapLabels rename = .ok renamed) : renamed.unlabelled = b.unlabelled := by
  cases b with
  | ifZero _ target | ifInts _ target | ifReferences _ target | ifNull _ target | goto target
  | jsr target =>
    obtain ⟨result, -, same⟩ := bind_eq_ok.mp mapped
    cases same
    rfl
  | tableSwitch default low targets =>
    obtain ⟨result, -, others⟩ := bind_eq_ok.mp mapped
    obtain ⟨results, found, same⟩ := bind_eq_ok.mp others
    cases same
    simp [unlabelled, (mapM_eq_ok.mp found).length_eq]
  | lookupSwitch default targets =>
    obtain ⟨result, -, others⟩ := bind_eq_ok.mp mapped
    obtain ⟨results, found, same⟩ := bind_eq_ok.mp others
    cases same
    have keys : List.Forall₂ (fun target result => (target.1, ()) = (result.1, ())) targets
        results := by
      refine (mapM_eq_ok.mp found).imp fun target result paired => ?_
      obtain ⟨_, -, same⟩ := bind_eq_ok.mp paired
      cases same
      rfl
    have same : targets.map (fun target => (target.1, ())) =
        results.map fun result => (result.1, ()) := by
      rw [← List.forall₂_eq_eq_eq, List.forall₂_map_left_iff, List.forall₂_map_right_iff]
      exact keys
    simp only [unlabelled, same]
  | valueReturn | voidReturn | throw | ret =>
    cases mapped
    rfl

theorem mapLabels_eq_ok {rename : L → Except ε M} {b : Branch L} {renamed : Branch M} :
    b.mapLabels rename = .ok renamed ↔
      List.Forall₂ (fun target result => rename target = .ok result) b.jumpTargets
        renamed.jumpTargets ∧ renamed.unlabelled = b.unlabelled := by
  constructor
  · intro mapped
    refine ⟨mapM_eq_ok.mp ?_, unlabelled_mapLabels mapped⟩
    rw [← jumpTargets_mapLabels, mapped]
    rfl
  · rintro ⟨targets, same⟩
    obtain ⟨own, mapped, found⟩ :=
      map_eq_ok.mp ((jumpTargets_mapLabels rename b).trans (mapM_eq_ok.mpr targets))
    rw [mapped, ext_of_unlabelled ((unlabelled_mapLabels mapped).trans same.symm) found]

/-- A branch is not renamed for the first of its targets that is not. -/
theorem mapLabels_eq_error {rename : L → Except ε M} {b : Branch L} {fault : ε} :
    b.mapLabels rename = .error fault ↔ ∃ before target after,
      b.jumpTargets = before ++ target :: after ∧
        (∀ earlier ∈ before, ∃ result, rename earlier = .ok result) ∧
        rename target = .error fault := by
  rw [← mapM_eq_error, ← jumpTargets_mapLabels, map_eq_error]

/-- A branch that control neither goes on from nor jumps from leaves the method or a subroutine. -/
theorem deadEnd_iff (b : Branch L) : b.fallsThrough = false ∧ b.jumpTargets = [] ↔
    b.isExit = true ∨ ∃ slot, b = ret slot := by
  cases b <;> simp [fallsThrough, jumpTargets, isExit]

/-- A branch is renamed if and only if all of its targets are, in their order, and is the same
otherwise. If it is not renamed, that is for the first target that is not. Branches that lead nowhere
are the exits and `ret`. -/
theorem mapLabels_outcome (rename : L → Except ε M) (b : Branch L) :
    ((∃ renamed, b.mapLabels rename = .ok renamed) ↔
        ∀ target ∈ b.jumpTargets, ∃ result, rename target = .ok result) ∧
      (∀ renamed, b.mapLabels rename = .ok renamed ↔
        List.Forall₂ (fun target result => rename target = .ok result) b.jumpTargets
          renamed.jumpTargets ∧ renamed.unlabelled = b.unlabelled) ∧
      (∀ renamed, b.mapLabels rename = .ok renamed →
        renamed.fallsThrough = b.fallsThrough ∧ renamed.isExit = b.isExit) ∧
      (∀ fault, b.mapLabels rename = .error fault ↔ ∃ before target after,
        b.jumpTargets = before ++ target :: after ∧
          (∀ earlier ∈ before, ∃ result, rename earlier = .ok result) ∧
          rename target = .error fault) ∧
      (b.fallsThrough = false ∧ b.jumpTargets = [] ↔ b.isExit = true ∨ ∃ slot, b = ret slot) := by
  refine ⟨⟨?_, mapLabels_ok⟩, fun renamed => mapLabels_eq_ok, ?_, fun fault => mapLabels_eq_error,
    b.deadEnd_iff⟩
  · rintro ⟨renamed, mapped⟩ target member
    obtain ⟨targets, -⟩ := mapLabels_eq_ok.mp mapped
    obtain ⟨position, inside, rfl⟩ := List.mem_iff_getElem.mp member
    exact ⟨_, targets.get inside (targets.length_eq ▸ inside)⟩
  · intro renamed mapped
    obtain ⟨-, same⟩ := mapLabels_eq_ok.mp mapped
    constructor
    · rw [← fallsThrough_unlabelled renamed, same, fallsThrough_unlabelled]
    · rw [← isExit_unlabelled renamed, same, isExit_unlabelled]

/-- A switch to two labels that are placed, and one whose second target is the first that is not. -/
theorem mapLabels_switches : ∃ resolve : Label → Except Fault Nat,
    (tableSwitch ⟨1⟩ 3 [⟨0⟩, ⟨1⟩, ⟨0⟩]).mapLabels resolve = .ok (tableSwitch 9 3 [4, 9, 4]) ∧
      (tableSwitch 9 3 [4, 9, 4] : Branch Nat).fallsThrough =
        (tableSwitch ⟨1⟩ 3 [⟨0⟩, ⟨1⟩, ⟨0⟩] : Branch Label).fallsThrough ∧
      (lookupSwitch ⟨0⟩ [(-5, ⟨2⟩), (7, ⟨3⟩)]).mapLabels resolve =
        .error (.undefinedLabel ⟨2⟩) := by
  let table : LabelTable := [(⟨0⟩, 4), (⟨1⟩, 9)]
  have mapped : (tableSwitch ⟨1⟩ 3 [⟨0⟩, ⟨1⟩, ⟨0⟩]).mapLabels table.resolve =
      .ok (tableSwitch 9 3 [4, 9, 4]) := rfl
  refine ⟨table.resolve, mapped, ((mapLabels_outcome _ _).2.2.1 _ mapped).1, ?_⟩
  refine ((mapLabels_outcome _ _).2.2.2.1 _).mpr ⟨[⟨0⟩], ⟨2⟩, [⟨3⟩], rfl, ?_, rfl⟩
  exact List.forall_mem_singleton.mpr ⟨4, rfl⟩

end Branch

end MethodFlow
