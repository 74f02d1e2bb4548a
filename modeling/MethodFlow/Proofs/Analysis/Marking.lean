import MethodFlow.Analysis.Reach
import MethodFlow.Proofs.Analysis.Growth
import MethodFlow.Proofs.Code.Subroutines

namespace MethodFlow

variable {flow : Flow} {maxLocals : Nat}

/-- A walk only marks points with the record it is given, and only those it comes to. -/
theorem markFrom_spec {subroutine : Subroutine} {marks : Marks} {calls : List Nat}
    {stack : List (Nat × Option Nat)} {marked : Marks} {queue : List Nat} (inside : Nat → Prop)
    (onward : ∀ (index : Nat) (point : Point) (next : Nat), inside index →
      flow[index]? = some point → next ∈ point.onward index → inside next)
    (stacked : ∀ entry ∈ stack, inside entry.1)
    (walked : markFrom flow subroutine marks calls stack = .ok (marked, queue)) :
    marked.length = marks.length ∧ ∀ (index : Nat) (record : Subroutine),
      marked[index]? = some (some record) →
        marks[index]? = some (some record) ∨ (record = subroutine ∧ inside index) := by
  fun_induction markFrom flow subroutine marks calls stack with
  | case1 marks calls =>
    cases walked
    exact ⟨rfl, fun _ _ found => .inl found⟩
  | case2 marks calls index previous rest _ _ ih =>
    exact ih (fun entry member => stacked entry (List.mem_cons_of_mem _ member)) walked
  | case3 marks calls index previous rest point blank pointed ih =>
    have here : inside index := stacked _ List.mem_cons_self
    have stacked' : ∀ entry ∈ (point.onward index).reverse.map (fun next => (next, some index)) ++
        rest, inside entry.1 := by
      intro entry member
      rcases List.mem_append.mp member with next | later
      · obtain ⟨target, leads, rfl⟩ := List.mem_map.mp next
        exact onward index point target here pointed (List.mem_reverse.mp leads)
      · exact stacked entry (List.mem_cons_of_mem _ later)
    obtain ⟨length, sources⟩ := ih stacked' walked
    refine ⟨by simpa using length, ?_⟩
    intro other record found
    rcases sources other record found with earlier | same
    · rw [List.getElem?_set] at earlier
      split at earlier
      · rename_i own
        split at earlier
        · simp only [Option.some.injEq] at earlier
          exact .inr ⟨earlier.symm, own ▸ here⟩
        · cases earlier
      · exact .inl earlier
    · exact .inr same
  | case4 => cases walked

section Held

variable {held : Nat → Subroutine → Prop}

theorem markCalls_spec {marks marked : Marks} {entered queue : List Nat}
    (fresh : ∀ call target, flow.called? call = some target →
      held target (.fresh (some target) maxLocals (some call)))
    (onward : ∀ (record : Subroutine) (index : Nat) (point : Point) (next : Nat), held index record →
      flow[index]? = some point → next ∈ point.onward index → held next record)
    (before : ∀ (index : Nat) (record : Subroutine), marks[index]? = some (some record) →
      record.start = none ∨ held index record)
    (walked : markCalls flow maxLocals marks entered queue = .ok marked) :
    marked.length = marks.length ∧ ∀ (index : Nat) (record : Subroutine),
      marked[index]? = some (some record) → record.start = none ∨ held index record := by
  fun_induction markCalls flow maxLocals marks entered queue with
  | case1 =>
    cases walked
    exact ⟨rfl, before⟩
  | case2 marks entered call rest _ ih => exact ih before walked
  | case3 marks entered call rest target _ _ ih => exact ih before walked
  | case4 => cases walked
  | case5 marks entered call rest target called _ marks' queue walked' ih =>
    obtain ⟨length, sources⟩ := markFrom_spec (fun index => held index _) (onward _)
      (List.forall_mem_singleton.mpr (fresh call target called)) walked'
    have before' (index : Nat) (record : Subroutine)
        (found : marks'[index]? = some (some record)) : record.start = none ∨ held index record := by
      rcases sources index record found with earlier | ⟨rfl, inside⟩
      · exact before index record earlier
      · exact .inr inside
    obtain ⟨length', result⟩ := ih before' walked
    exact ⟨length'.trans length, result⟩

variable (held) in
/-- What holds of the record that a call enters with, and along control, holds of the record at every
point. -/
theorem subroutines_spec {marks : Marks}
    (fresh : ∀ call target, flow.called? call = some target →
      held target (.fresh (some target) maxLocals (some call)))
    (onward : ∀ (record : Subroutine) (index : Nat) (point : Point) (next : Nat), held index record →
      flow[index]? = some point → next ∈ point.onward index → held next record)
    (marked : flow.subroutines maxLocals = .ok marks) :
    marks.length = flow.length ∧ ∀ (index : Nat) (record : Subroutine),
      (marks[index]?).join = some record → held index record := by
  simp only [Flow.subroutines, bind_eq_ok, Prod.exists, pure, Except.pure, Except.ok.injEq] at marked
  obtain ⟨body, calls, walked, marked, walked', rfl⟩ := marked
  obtain ⟨length, sources⟩ := markFrom_spec (fun _ => True) (by simp) (by simp) walked
  have before (index : Nat) (record : Subroutine) (found : body[index]? = some (some record)) :
      record.start = none ∨ held index record := by
    rcases sources index record found with blank | ⟨rfl, -⟩
    · rw [List.getElem?_replicate] at blank
      split at blank <;> simp at blank
    · exact .inl rfl
  obtain ⟨length', kept⟩ := markCalls_spec fresh onward before walked'
  refine ⟨by simpa [length] using length', ?_⟩
  intro index record found
  rw [List.getElem?_map] at found
  cases mark : marked[index]? with
  | none => simp [mark] at found
  | some own =>
    cases own with
    | none => simp [mark, withoutBody] at found
    | some own =>
      obtain ⟨rfl, inside⟩ : own = record ∧ record.start.isSome := by
        simpa [mark, withoutBody, Option.filter_eq_some_iff] using found
      rcases kept index own mark with outside | holds
      · simp [outside] at inside
      · exact holds

end Held

theorem subroutines_coherent {marks : Marks} (marked : flow.subroutines maxLocals = .ok marks) :
    marks.length = flow.length ∧ ∀ (index : Nat) (record : Subroutine),
      (marks[index]?).join = some record → record.Coherent flow maxLocals :=
  subroutines_spec (fun _ record => record.Coherent flow maxLocals)
    (fun _ _ called => Subroutine.coherent_fresh called) (fun _ _ _ _ coherent _ _ => coherent) marked

theorem length_pos_of_subroutines {marks : Marks} (marked : flow.subroutines maxLocals = .ok marks) :
    0 < flow.length := by
  cases flow with
  | nil => simp [Flow.subroutines, markFrom, bind, Except.bind] at marked
  | cons point rest => exact Nat.succ_pos _

theorem subroutines_unused {marks : Marks} (marked : flow.subroutines maxLocals = .ok marks)
    {index : Nat} {record : Subroutine} (found : (marks[index]?).join = some record) :
    record.used = List.replicate maxLocals false := by
  have unused : marks.length = flow.length ∧ ∀ (index : Nat) (record : Subroutine),
      (marks[index]?).join = some record → record.used = List.replicate maxLocals false :=
    subroutines_spec (fun _ record => record.used = List.replicate maxLocals false)
      (fun _ _ _ => rfl) (fun _ _ _ _ same _ _ => same) marked
  exact unused.2 index record found

theorem markCalls_enter {marks marked : Marks} {entered rest queue : List Nat} {call target : Nat}
    (called : flow.called? call = some target) (fresh : entered.contains target = false)
    (walked : markFrom flow (.fresh (some target) maxLocals (some call)) marks rest
      [(target, none)] = .ok (marked, queue)) :
    markCalls flow maxLocals marks entered (call :: rest) =
      markCalls flow maxLocals marked (target :: entered) queue := by
  rw [markCalls, called]
  simp only [fresh, Bool.false_eq_true, ↓reduceIte]
  split
  · rename_i failed
    rw [walked] at failed
    cases failed
  · rename_i walked'
    rw [walked] at walked'
    cases walked'
    rfl

theorem markCalls_again {marks : Marks} {entered rest : List Nat} {call target : Nat}
    (called : flow.called? call = some target) (again : entered.contains target = true) :
    markCalls flow maxLocals marks entered (call :: rest) =
      markCalls flow maxLocals marks entered rest := by
  rw [markCalls, called]
  simp only [again, ↓reduceIte]

theorem markFrom_uncalled (uncalled : ∀ index, flow.called? index = none) {subroutine : Subroutine}
    {marks marked : Marks} {calls queue : List Nat} {stack : List (Nat × Option Nat)}
    (walked : markFrom flow subroutine marks calls stack = .ok (marked, queue)) : queue = calls := by
  fun_induction markFrom flow subroutine marks calls stack with
  | case1 marks calls =>
    cases walked
    rfl
  | case2 marks calls index previous rest _ _ ih => exact ih walked
  | case3 marks calls index previous rest point _ pointed ih =>
    have plain := Point.isCall_of_uncalled uncalled pointed
    simpa [plain] using ih walked
  | case4 => cases walked

theorem subroutines_uncalled (uncalled : ∀ index, flow.called? index = none)
    {marks : Marks} (marked : flow.subroutines maxLocals = .ok marks) (index : Nat) :
    (marks[index]?).join = none := by
  simp only [Flow.subroutines, bind_eq_ok, Prod.exists, pure, Except.pure, Except.ok.injEq] at marked
  obtain ⟨body, calls, walked, marked, walked', rfl⟩ := marked
  cases markFrom_uncalled uncalled walked
  obtain rfl : body = marked := by
    unfold markCalls at walked'
    exact Except.ok.inj walked'
  rw [List.getElem?_map]
  cases mark : body[index]? with
  | none => rfl
  | some own =>
    cases own with
    | none => rfl
    | some own =>
      rcases (markFrom_spec (fun _ => True) (by simp) (by simp) walked).2 index own mark with
        blank | ⟨rfl, -⟩
      · rw [List.getElem?_replicate] at blank
        split at blank <;> simp at blank
      · rfl

/-- Indices that walks lead from only to such indices. -/
structure Flow.Closed (flow : Flow) (reached : Nat → Prop) : Prop where
  inside : ∀ index, reached index → index < flow.length
  onward : ∀ index point next, reached index → flow[index]? = some point →
    next ∈ point.onward index → reached next
  called : ∀ index target, reached index → flow.called? index = some target → reached target

section Closed

variable {reached : Nat → Prop}

theorem markFrom_ok (closed : flow.Closed reached) {subroutine : Subroutine} {marks : Marks}
    {calls : List Nat} {stack : List (Nat × Option Nat)} (length : marks.length = flow.length)
    (queued : ∀ call ∈ calls, reached call) (stacked : ∀ entry ∈ stack, reached entry.1) :
    ∃ marked queue, markFrom flow subroutine marks calls stack = .ok (marked, queue) ∧
      marked.length = flow.length ∧ ∀ call ∈ queue, reached call := by
  fun_induction markFrom flow subroutine marks calls stack with
  | case1 marks calls => exact ⟨marks, calls, rfl, length, queued⟩
  | case2 marks calls index previous rest _ _ ih =>
    exact ih length queued fun entry member => stacked entry (List.mem_cons_of_mem _ member)
  | case3 marks calls index previous rest point _ pointed ih =>
    have here : reached index := stacked _ List.mem_cons_self
    apply ih (by simpa using length)
    · intro call member
      split at member
      · rcases List.mem_append.mp member with earlier | own
        · exact queued call earlier
        · cases List.mem_singleton.mp own
          exact here
      · exact queued call member
    · intro entry member
      rcases List.mem_append.mp member with next | later
      · obtain ⟨target, onward, rfl⟩ := List.mem_map.mp next
        exact closed.onward index point target here pointed (List.mem_reverse.mp onward)
      · exact stacked entry (List.mem_cons_of_mem _ later)
  | case4 marks calls index previous rest blank absent =>
    have inside := closed.inside _ (stacked _ List.mem_cons_self)
    have pointed := List.getElem?_eq_getElem inside
    obtain ⟨mark, marked⟩ : ∃ mark, marks[index]? = some mark :=
      ⟨_, List.getElem?_eq_getElem (length ▸ inside)⟩
    cases mark with
    | none => exact absurd pointed (absent _ marked)
    | some own => exact absurd marked (blank own)

theorem markCalls_ok (closed : flow.Closed reached) {marks : Marks} {entered queue : List Nat}
    (length : marks.length = flow.length) (queued : ∀ call ∈ queue, reached call) :
    ∃ marked, markCalls flow maxLocals marks entered queue = .ok marked := by
  fun_induction markCalls flow maxLocals marks entered queue with
  | case1 marks => exact ⟨marks, rfl⟩
  | case2 marks entered call rest _ ih =>
    exact ih length fun call member => queued call (List.mem_cons_of_mem _ member)
  | case3 marks entered call rest target _ _ ih =>
    exact ih length fun call member => queued call (List.mem_cons_of_mem _ member)
  | case4 marks entered call rest target called _ fault failed =>
    have here := closed.called _ _ (queued call List.mem_cons_self) called
    have single : ∀ entry ∈ [(target, (none : Option Nat))], reached entry.1 :=
      List.forall_mem_singleton.mpr here
    obtain ⟨_, _, walked, -⟩ := markFrom_ok closed length
      (fun call member => queued call (List.mem_cons_of_mem _ member)) single
    cases failed.symm.trans walked
  | case5 marks entered call rest target called _ marks' queue walked ih =>
    have here := closed.called _ _ (queued call List.mem_cons_self) called
    have single : ∀ entry ∈ [(target, (none : Option Nat))], reached entry.1 :=
      List.forall_mem_singleton.mpr here
    obtain ⟨_, _, walked', length', queued'⟩ := markFrom_ok closed length
      (fun call member => queued call (List.mem_cons_of_mem _ member)) single
    cases walked.symm.trans walked'
    exact ih length' queued'

theorem subroutines_ok (closed : flow.Closed reached) (first : reached 0) :
    ∃ marks, flow.subroutines maxLocals = .ok marks := by
  obtain ⟨body, calls, walked, length, queued⟩ : ∃ body calls,
      markFrom flow (.fresh none maxLocals none) (List.replicate flow.length none) []
        [(0, none)] = .ok (body, calls) ∧ body.length = flow.length ∧
          ∀ call ∈ calls, reached call :=
    markFrom_ok closed List.length_replicate (by simp) (List.forall_mem_singleton.mpr first)
  obtain ⟨marked, walked'⟩ : ∃ marked, markCalls flow maxLocals body [] calls = .ok marked :=
    markCalls_ok closed length queued
  exact ⟨marked.map withoutBody, by simp [Flow.subroutines, walked, walked', bind, Except.bind, pure,
    Except.pure]⟩

end Closed

end MethodFlow
