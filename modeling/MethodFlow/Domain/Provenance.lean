import MethodFlow.Domain.Basic

namespace MethodFlow

/-- A finite set of indices, listed in ascending order. -/
structure IndexSet where
  indices : List Nat
  ascending : indices.Pairwise (· < ·)
deriving DecidableEq

namespace IndexSet

def empty : IndexSet := ⟨[], .nil⟩

def singleton (index : Nat) : IndexSet := ⟨[index], List.pairwise_singleton _ index⟩

/-- Puts an index in its place unless it is there. -/
def insertInto (index : Nat) : List Nat → List Nat
  | [] => [index]
  | head :: rest =>
    if index < head then index :: head :: rest
    else if index = head then head :: rest
    else head :: insertInto index rest

theorem mem_insertInto {index other : Nat} {indices : List Nat} :
    other ∈ insertInto index indices ↔ other = index ∨ other ∈ indices := by
  induction indices with
  | nil => simp [insertInto]
  | cons head rest step =>
    simp only [insertInto]
    split
    · simp
    · split
      · rename_i same
        subst same
        simp
      · simp only [List.mem_cons, step]
        constructor
        · rintro (h | h | h) <;> simp [h]
        · rintro (h | h | h) <;> simp [h]

theorem pairwise_insertInto {index : Nat} {indices : List Nat}
    (ascending : indices.Pairwise (· < ·)) : (insertInto index indices).Pairwise (· < ·) := by
  induction indices with
  | nil => exact List.pairwise_singleton _ index
  | cons head rest step =>
    have ⟨below, tail⟩ := List.pairwise_cons.mp ascending
    simp only [insertInto]
    split
    · rename_i less
      refine List.pairwise_cons.mpr ⟨fun other member => ?_, ascending⟩
      rcases List.mem_cons.mp member with rfl | later
      · exact less
      · exact Nat.lt_trans less (below other later)
    · split
      · exact ascending
      · refine List.pairwise_cons.mpr ⟨fun other member => ?_, step tail⟩
        rcases mem_insertInto.mp member with rfl | later
        · omega
        · exact below other later

def insert (index : Nat) (set : IndexSet) : IndexSet :=
  ⟨insertInto index set.indices, pairwise_insertInto set.ascending⟩

def ofList (indices : List Nat) : IndexSet :=
  indices.foldl (fun set index => set.insert index) empty

def union (first second : IndexSet) : IndexSet :=
  second.indices.foldl (fun set index => set.insert index) first

/-- Is every index of the second set in the first? -/
def includes (first second : IndexSet) : Bool := second.indices.all first.indices.contains

end IndexSet

/-- A value of some slots, made by one of the operations at the given indices. Parameters, caught
exceptions and unset locals were made by none. -/
structure Provenance where
  size : Nat
  origins : IndexSet
deriving DecidableEq

namespace Provenance

def shown (value : Provenance) : String :=
  "\x7b" ++ ",".intercalate (value.origins.indices.map toString) ++ "\x7d"

def detail (value : Provenance) : String :=
  Text.shownRecord "SourceValue"
    [("size", toString value.size), ("insns", Text.shownSet value.origins.indices)]

instance : AbstractValue Provenance where
  width := size
  decEq := inferInstance
  shown := shown
  detail := detail

/-- A value that no operation made. -/
def unmade (size : Nat) : Provenance := ⟨size, .empty⟩

/-- A value made at an index. -/
def madeAt (size index : Nat) : Provenance := ⟨size, .singleton index⟩

/-- Slots of what an operation without operands pushes. -/
def producedSize : Operation → Nat
  | .instruction (.shortConstant constant) => constant.type.width
  | .instruction (.loadConstant constant) | .instruction (.loadWideConstant constant) =>
    constant.type.width
  | .instruction (.getStatic field) => field.descriptor.width
  | _ => 1

/-- Slots of what an operation with one operand pushes. -/
def unarySize : Operation → Nat
  | .instruction (.negate kind) => kind.type.width
  | .instruction (.convert conversion) => conversion.target.type.width
  | .instruction (.getField field) => field.descriptor.width
  | _ => 1

/-- Slots of what an operation with two operands pushes. -/
def binarySize : Operation → Nat
  | .instruction (.arrayLoad .long) | .instruction (.arrayLoad .double) => 2
  | .instruction (.arithmetic _ kind) => kind.type.width
  | .instruction (.shift _ kind) | .instruction (.bitwise _ kind) => kind.type.width
  | _ => 1

/-- Slots of what an operation with any number of operands pushes, if it pushes anything. -/
def narySize : Operation → Option Nat
  | .instruction (.invoke _ method) => method.descriptor.returnType.map FieldType.width
  | .instruction (.invokeDynamic call) => call.descriptor.returnType.map FieldType.width
  | _ => some 1

/-- The origins of both values, in as many slots as the narrower. -/
def merge (first second : Provenance) : Provenance :=
  if first.size = second.size && first.origins.includes second.origins then first
  else ⟨min first.size second.size, first.origins.union second.origins⟩

/-- A slot can gain every index of the code, and get narrower twice. -/
def height (nodes : Nat) : Nat := nodes + 2

/-- The domain of provenance. -/
def domain : Domain Provenance where
  valueOf type := unmade ((type.map FieldType.width).getD 1)
  produce site := .ok (madeAt (producedSize site.operation) site.index)
  copy site value := .ok (madeAt value.size site.index)
  unary site _ := .ok (some (madeAt (unarySize site.operation) site.index))
  binary site _ _ := .ok (some (madeAt (binarySize site.operation) site.index))
  ternary site _ _ _ := .ok (some (madeAt 1 site.index))
  nary site _ := .ok ((narySize site.operation).map fun size => madeAt size site.index)
  checkReturn _ _ _ := .ok ()
  merge first second := .ok (merge first second)
  height := height

end Provenance

end MethodFlow
