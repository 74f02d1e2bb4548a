import Mathlib.Data.List.DropRight
import MethodFlow.Analysis.StackMap

namespace MethodFlow

namespace StackMapFrame

variable {previous locals stack : List VerificationType}

/-- The locals and the stack that an entry stands for after the given locals. -/
def decode (previous : List VerificationType) :
    StackMapFrame → List VerificationType × List VerificationType
  | same => (previous, [])
  | sameLocalsOneStack value => (previous, [value])
  | chop count => (previous.take (previous.length - count), [])
  | append locals => (previous ++ locals, [])
  | full locals stack => (locals, stack)

/-- Locals are chopped or appended one to three at a time. -/
def Limited : StackMapFrame → Prop
  | chop count => 1 ≤ count ∧ count ≤ 3
  | append locals => 1 ≤ locals.length ∧ locals.length ≤ 3
  | same | sameLocalsOneStack _ | full _ _ => True

def isFull : StackMapFrame → Bool
  | full _ _ => true
  | _ => false

theorem decode_relativeTo : (relativeTo previous locals stack).decode previous = (locals, stack) := by
  unfold relativeTo
  split
  · split
    · rename_i shorter
      dsimp only
      split
      · rename_i fits
        simp only [Bool.and_eq_true, decide_eq_true_eq, List.isPrefixOf_iff_prefix] at fits
        obtain ⟨-, rest, rfl⟩ := fits
        split
        · rename_i none
          obtain rfl : rest = [] := by
            rw [List.length_append] at none
            exact List.eq_nil_of_length_eq_zero (by omega)
          simp [decode]
        · simp [decode]
      · rfl
    · split
      · rename_i fits
        simp only [Bool.and_eq_true, decide_eq_true_eq, List.isPrefixOf_iff_prefix] at fits
        obtain ⟨-, more, rfl⟩ := fits
        simp [decode]
      · rfl
  · split
    · rename_i same
      rw [same]
      rfl
    · rfl
  · rfl

theorem limited_relativeTo : (relativeTo previous locals stack).Limited := by
  unfold relativeTo
  split
  · split
    · dsimp only
      split
      · rename_i fits
        simp only [Bool.and_eq_true, decide_eq_true_eq] at fits
        split
        · trivial
        · exact ⟨by omega, by omega⟩
      · trivial
    · split
      · rename_i fits
        simp only [Bool.and_eq_true, decide_eq_true_eq] at fits
        exact ⟨by rw [List.length_drop]; omega, by rw [List.length_drop]; omega⟩
      · trivial
  · split <;> trivial
  · trivial

/-- Locals and stack are listed in full only if nothing else stands for them. -/
theorem isFull_of_relativeTo (full : (relativeTo previous locals stack).isFull = true)
    {other : StackMapFrame} (limited : other.Limited)
    (decoded : other.decode previous = (locals, stack)) : other.isFull = true := by
  cases other with
  | full => rfl
  | same =>
    cases decoded
    simp [relativeTo, isFull] at full
  | sameLocalsOneStack value =>
    cases decoded
    simp [relativeTo, isFull] at full
  | chop count =>
    cases decoded
    have shorter : (previous.take (previous.length - count)).length ≤ previous.length := by simp
    have near : previous.length - (previous.take (previous.length - count)).length < 4 := by
      rw [List.length_take]
      have := limited.2
      omega
    have starts : (previous.take (previous.length - count)).isPrefixOf previous = true :=
      List.isPrefixOf_iff_prefix.mpr (List.take_prefix _ _)
    simp only [relativeTo, if_pos shorter, near, decide_true, starts, Bool.and_self, if_true] at full
    split at full <;> cases full
  | append more =>
    cases decoded
    have longer : ¬(previous ++ more).length ≤ previous.length := by
      rw [List.length_append]
      have := limited.1
      omega
    have near : (previous ++ more).length - previous.length < 4 := by
      rw [List.length_append]
      have := limited.2
      omega
    have starts : previous.isPrefixOf (previous ++ more) = true :=
      List.isPrefixOf_iff_prefix.mpr (List.prefix_append _ _)
    simp only [relativeTo, if_neg longer, near, decide_true, starts, Bool.and_self, if_true] at full
    cases full

end StackMapFrame

/-- Values as locals hold them, with an unusable local after every wide one. -/
def expandValues : List VerificationType → List VerificationType
  | [] => []
  | value :: rest =>
    value :: if value.width = 2 then .top :: expandValues rest else expandValues rest

/-- So many locals from the values that are listed. -/
def expandLocals (maxLocals : Nat) (listed : List VerificationType) : List VerificationType :=
  expandValues listed ++ List.replicate (maxLocals - (expandValues listed).length) .top

theorem expandValues_append (first second : List VerificationType) :
    expandValues (first ++ second) = expandValues first ++ expandValues second := by
  induction first with
  | nil => rfl
  | cons value rest ih =>
    simp only [List.cons_append, expandValues, ih]
    split <;> rfl

theorem expandValues_replicate (count : Nat) :
    expandValues (List.replicate count .top) = List.replicate count .top := by
  induction count with
  | zero => rfl
  | succ count ih => simp [List.replicate_succ, expandValues, ih, VerificationType.width]

/-- Second slots are put back where every wide value has an unusable one after it. -/
theorem expandValues_compressValues (locals : List VerificationType)
    (whole : ∀ slot value, locals[slot]? = some value → value.width = 2 →
      locals[slot + 1]? = some .top) : expandValues (compressValues locals) = locals := by
  have later {value : VerificationType} {rest : List VerificationType}
      (whole : ∀ slot held, (value :: rest)[slot]? = some held → held.width = 2 →
        (value :: rest)[slot + 1]? = some .top) (slot : Nat) (held : VerificationType)
      (current : rest[slot]? = some held) (wide : held.width = 2) : rest[slot + 1]? = some .top := by
    simpa using whole (slot + 1) held (by simpa using current) wide
  fun_induction compressValues locals with
  | case1 => rfl
  | case2 value =>
    have narrow : value.width ≠ 2 := fun wide => nomatch whole 0 value rfl wide
    simp [expandValues, narrow]
  | case3 value next rest ih ih' =>
    by_cases wide : value.width = 2
    · obtain rfl : next = .top := by simpa using whole 0 value rfl wide
      rw [if_pos wide, expandValues, if_pos wide, ih (later (later whole))]
    · rw [if_neg wide, expandValues, if_neg wide, ih' (later whole)]

theorem compressValues_cons (value : VerificationType) (rest : List VerificationType) :
    compressValues (value :: rest) =
      value :: if value.width = 2 then compressValues rest.tail else compressValues rest := by
  cases rest <;> simp [compressValues]

/-- Values are listed as they were before they were expanded, also with unusable locals after them. -/
theorem compressValues_expandValues (listed : List VerificationType) (count : Nat) :
    compressValues (expandValues listed ++ List.replicate count .top) =
      listed ++ List.replicate count .top := by
  induction listed with
  | nil =>
    simp only [expandValues, List.nil_append]
    induction count with
    | zero => rfl
    | succ count ih => simp [List.replicate_succ, compressValues_cons, ih, VerificationType.width]
  | cons value rest ih =>
    rw [expandValues]
    split
    · rename_i wide
      rw [List.cons_append, List.cons_append, compressValues_cons, if_pos wide, List.tail_cons, ih]
      rfl
    · rename_i narrow
      rw [List.cons_append, compressValues_cons, if_neg narrow, ih]
      rfl

theorem dropTop_append (values : List VerificationType) :
    ∃ count, dropTop values ++ List.replicate count .top = values := by
  refine ⟨(values.rtakeWhile (· = .top)).length, ?_⟩
  have dropped : values.rtakeWhile (· = .top) =
      List.replicate (values.rtakeWhile (· = .top)).length .top :=
    List.eq_replicate_iff.mpr ⟨rfl, fun value member => by simpa using List.mem_rtakeWhile_imp member⟩
  calc dropTop values ++ List.replicate (values.rtakeWhile (· = .top)).length .top
      = values.rdropWhile (· = .top) ++ values.rtakeWhile (· = .top) := by
        rw [← dropped]
        rfl
    _ = values := List.rdropWhile_append_rtakeWhile

/-- The locals of a frame are those that a stack map lists for it, expanded. -/
theorem expandLocals_compressedLocals {frame : Frame VerificationType}
    (whole : ∀ slot value, frame.locals[slot]? = some value → value.width = 2 →
      frame.locals[slot + 1]? = some .top) :
    expandLocals frame.locals.length frame.compressedLocals = frame.locals := by
  obtain ⟨count, restored⟩ := dropTop_append (compressValues frame.locals)
  have expanded : expandValues frame.compressedLocals ++ List.replicate count .top = frame.locals :=
    calc expandValues frame.compressedLocals ++ List.replicate count .top
        = expandValues (frame.compressedLocals ++ List.replicate count .top) := by
          rw [expandValues_append, expandValues_replicate]
      _ = expandValues (compressValues frame.locals) := by rw [Frame.compressedLocals, restored]
      _ = frame.locals := expandValues_compressValues frame.locals whole
  have rest : count = frame.locals.length - (expandValues frame.compressedLocals).length := by
    have total := congrArg List.length expanded
    rw [List.length_append, List.length_replicate] at total
    omega
  rw [expandLocals, ← rest, expanded]

/-- Of the lists that expand to the locals of a frame, only the one in its stack map does not end with an
unusable value. -/
theorem eq_compressedLocals {frame : Frame VerificationType} {maxLocals : Nat}
    {listed : List VerificationType} (expanded : expandLocals maxLocals listed = frame.locals)
    (usable : listed.getLast? ≠ some .top) : listed = frame.compressedLocals := by
  have kept (count : Nat) : dropTop (listed ++ List.replicate count .top) = listed := by
    induction count with
    | zero =>
      rw [List.replicate_zero, List.append_nil]
      refine List.rdropWhile_eq_self_iff.mpr fun filled => ?_
      simpa [List.getLast?_eq_getLast_of_ne_nil filled] using usable
    | succ count ih =>
      rw [List.replicate_succ', ← List.append_assoc]
      exact (List.rdropWhile_concat_pos _ _ _ (by simp)).trans ih
  rw [Frame.compressedLocals, ← expanded, expandLocals, compressValues_expandValues, kept]

end MethodFlow
