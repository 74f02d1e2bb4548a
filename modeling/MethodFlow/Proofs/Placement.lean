import MethodFlow.Proofs.Frame.Operations

/-! What stays true of a sequence of values whatever is done to it. To the values a change does what
it does to a list, and it leaves each of them at the slot after those below it. So sequences with
different pasts are alike just if they hold the same values. -/

namespace MethodFlow.SlotVec

variable {α : Type}

/-- What can be done to a sequence. To take or to replace a value that is not there does nothing. -/
inductive Change (α : Type) where
  | push (value : α)
  | pop
  | clear
  | extend (values : List α)
  | collect (values : List α)
  | set (index : Nat) (value : α)
deriving DecidableEq, Repr

variable [HasWidth α]

def Change.apply (vec : SlotVec α) : Change α → SlotVec α
  | .push value => vec.push value
  | .pop => (vec.pop?.map Prod.snd).getD vec
  | .clear => empty
  | .extend values => vec.extend values
  | .collect values => ofList values
  | .set index value => ((vec.set? index value).map Prod.snd).getD vec

/-- What changes make of the empty sequence. -/
def after (history : List (Change α)) : SlotVec α := history.foldl Change.apply empty

/-- Values with the slots that they take from a slot on. -/
def located (start : Nat) : List α → List (Nat × α)
  | [] => []
  | value :: rest => (start, value) :: located (start + width value) rest

@[simp] theorem length_located (start : Nat) (values : List α) :
    (located start values).length = values.length := by
  induction values generalizing start with
  | nil => rfl
  | cons value rest ih => simp [located, ih]

@[simp] theorem map_snd_located (start : Nat) (values : List α) :
    (located start values).map Prod.snd = values := by
  induction values generalizing start with
  | nil => rfl
  | cons value rest ih => simp [located, ih]

end MethodFlow.SlotVec
