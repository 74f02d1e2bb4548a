import MethodFlow.Proofs.Frame.Operations

namespace MethodFlow

/-- The value that is pushed. -/
def Shuffled.value {V : Type} : Shuffled V → V
  | kept value | copied value => value

open Shuffled

section

variable {V : Type} [AbstractValue V]

/-- A form of putting a copy of `top` under two slots: the values under it and what is pushed. -/
inductive UnderTwoForm (top : V) : List V → List (Shuffled V) → Prop where
  | narrow {second third : V} (narrow₂ : width second = 1) (narrow₃ : width third = 1) :
      UnderTwoForm top [second, third] [copied top, kept third, kept second, kept top]
  | wide {second : V} (wide₂ : width second = 2) :
      UnderTwoForm top [second] [copied top, kept second, kept top]

/-- A form of a shuffle: the values it takes, the top one first, and what it pushes in order. -/
inductive ShuffleForm : Shuffle → List V → List (Shuffled V) → Prop where
  | pop {a : V} (narrow₁ : width a = 1) : ShuffleForm .pop [a] []
  | popTwo {a b : V} (narrow₁ : width a = 1) (narrow₂ : width b = 1) : ShuffleForm .pop2 [a, b] []
  | popWide {a : V} (wide : width a = 2) : ShuffleForm .pop2 [a] []
  | dup {a : V} (narrow₁ : width a = 1) : ShuffleForm .dup [a] [kept a, copied a]
  | dupX1 {a b : V} (narrow₁ : width a = 1) (narrow₂ : width b = 1) :
      ShuffleForm .dupX1 [a, b] [copied a, kept b, kept a]
  | dupX2 {a : V} {under : List V} {items : List (Shuffled V)} (narrow₁ : width a = 1)
      (form : UnderTwoForm a under items) : ShuffleForm .dupX2 (a :: under) items
  | dupTwo {a b : V} (narrow₁ : width a = 1) (narrow₂ : width b = 1) :
      ShuffleForm .dup2 [a, b] [kept b, kept a, copied b, copied a]
  | dupWide {a : V} (wide : width a = 2) : ShuffleForm .dup2 [a] [kept a, copied a]
  | dupTwoX1 {a b c : V} (narrow₁ : width a = 1) (narrow₂ : width b = 1) (narrow₃ : width c = 1) :
      ShuffleForm .dup2X1 [a, b, c] [copied b, copied a, kept c, kept b, kept a]
  | dupWideX1 {a b : V} (wide : width a = 2) (narrow₂ : width b = 1) :
      ShuffleForm .dup2X1 [a, b] [copied a, kept b, kept a]
  | dupTwoX2 {a b c d : V} (narrow₁ : width a = 1) (narrow₂ : width b = 1)
      (narrow₃ : width c = 1) (narrow₄ : width d = 1) :
      ShuffleForm .dup2X2 [a, b, c, d]
        [copied b, copied a, kept d, kept c, kept b, kept a]
  | dupTwoXWide {a b c : V} (narrow₁ : width a = 1) (narrow₂ : width b = 1) (wide : width c = 2) :
      ShuffleForm .dup2X2 [a, b, c] [copied b, copied a, kept c, kept b, kept a]
  | dupWideX2 {a : V} {under : List V} {items : List (Shuffled V)} (wide : width a = 2)
      (form : UnderTwoForm a under items) : ShuffleForm .dup2X2 (a :: under) items
  | swap {a b : V} (narrow₁ : width a = 1) (narrow₂ : width b = 1) :
      ShuffleForm .swap [a, b] [copied a, copied b]

namespace Frame

theorem shuffleUnderTwo_eq_ok {frame rest : Frame V} {top : V} {items : List (Shuffled V)} :
    frame.shuffleUnderTwo top = .ok (items, rest) ↔
      ∃ under, Takes frame under rest ∧ UnderTwoForm top under items := by
  simp only [shuffleUnderTwo, bind_eq_ok, Prod.exists]
  constructor
  · rintro ⟨second, below, popped, continued⟩
    split at continued
    · rename_i narrow₂
      obtain ⟨⟨third, last⟩, popped', pushed⟩ := bind_eq_ok.mp continued
      cases pushed
      obtain ⟨popped', narrow₃⟩ := popWidth_eq_ok.mp popped'
      exact ⟨_, .more popped (.one popped'), .narrow narrow₂ narrow₃⟩
    · rename_i wide
      cases continued
      exact ⟨_, .one popped, .wide wide⟩
    · cases continued
  · rintro ⟨under, taken, form⟩
    cases form with
    | narrow narrow₂ narrow₃ =>
      cases taken with
      | more popped further =>
        cases further with
        | more popped' further =>
          cases further
          refine ⟨_, _, popped, ?_⟩
          simp only [narrow₂]
          exact bind_eq_ok.mpr ⟨_, popWidth_eq_ok.mpr ⟨popped', narrow₃⟩, rfl⟩
    | wide wide₂ =>
      cases taken with
      | more popped further =>
        cases further
        refine ⟨_, _, popped, ?_⟩
        simp only [wide₂]
        rfl

/-- What a shuffle takes and pushes is one of the forms of its shape. -/
theorem form_of_popShuffled {frame rest : Frame V} {shape : Shuffle} {items : List (Shuffled V)}
    (popped : frame.popShuffled shape = .ok (items, rest)) :
    ∃ taken, Takes frame taken rest ∧ ShuffleForm shape taken items := by
  cases shape with
  | pop =>
    simp only [popShuffled, bind_eq_ok, popWidth_eq_ok, Prod.exists] at popped
    obtain ⟨a, _, ⟨first, narrow₁⟩, pushed⟩ := popped
    cases pushed
    exact ⟨_, .one first, .pop narrow₁⟩
  | pop2 =>
    simp only [popShuffled, bind_eq_ok, Prod.exists] at popped
    obtain ⟨a, _, first, continued⟩ := popped
    split at continued
    · rename_i narrow₁
      simp only [bind_eq_ok, popWidth_eq_ok, Prod.exists] at continued
      obtain ⟨b, _, ⟨second, narrow₂⟩, pushed⟩ := continued
      cases pushed
      exact ⟨_, .more first (.one second), .popTwo narrow₁ narrow₂⟩
    · rename_i wide
      cases continued
      exact ⟨_, .one first, .popWide wide⟩
    · cases continued
  | dup =>
    simp only [popShuffled, bind_eq_ok, popWidth_eq_ok, Prod.exists] at popped
    obtain ⟨a, _, ⟨first, narrow₁⟩, pushed⟩ := popped
    cases pushed
    exact ⟨_, .one first, .dup narrow₁⟩
  | dupX1 =>
    simp only [popShuffled, bind_eq_ok, popWidth_eq_ok, Prod.exists] at popped
    obtain ⟨a, _, ⟨first, narrow₁⟩, b, _, ⟨second, narrow₂⟩, pushed⟩ := popped
    cases pushed
    exact ⟨_, .more first (.one second), .dupX1 narrow₁ narrow₂⟩
  | dupX2 =>
    simp only [popShuffled, bind_eq_ok, popWidth_eq_ok, shuffleUnderTwo_eq_ok, Prod.exists]
      at popped
    obtain ⟨a, _, ⟨first, narrow₁⟩, under, taken, form⟩ := popped
    exact ⟨_, .more first taken, .dupX2 narrow₁ form⟩
  | dup2 =>
    simp only [popShuffled, bind_eq_ok, Prod.exists] at popped
    obtain ⟨a, _, first, continued⟩ := popped
    split at continued
    · rename_i narrow₁
      simp only [bind_eq_ok, popWidth_eq_ok, Prod.exists] at continued
      obtain ⟨b, _, ⟨second, narrow₂⟩, pushed⟩ := continued
      cases pushed
      exact ⟨_, .more first (.one second), .dupTwo narrow₁ narrow₂⟩
    · rename_i wide
      cases continued
      exact ⟨_, .one first, .dupWide wide⟩
    · cases continued
  | dup2X1 =>
    simp only [popShuffled, bind_eq_ok, Prod.exists] at popped
    obtain ⟨a, _, first, continued⟩ := popped
    split at continued
    · rename_i narrow₁
      simp only [bind_eq_ok, popWidth_eq_ok, Prod.exists] at continued
      obtain ⟨b, _, ⟨second, narrow₂⟩, c, _, ⟨third, narrow₃⟩, pushed⟩ := continued
      cases pushed
      exact ⟨_, .more first (.more second (.one third)), .dupTwoX1 narrow₁ narrow₂ narrow₃⟩
    · rename_i wide
      simp only [bind_eq_ok, popWidth_eq_ok, Prod.exists] at continued
      obtain ⟨b, _, ⟨second, narrow₂⟩, pushed⟩ := continued
      cases pushed
      exact ⟨_, .more first (.one second), .dupWideX1 wide narrow₂⟩
    · cases continued
  | dup2X2 =>
    simp only [popShuffled, bind_eq_ok, Prod.exists] at popped
    obtain ⟨a, _, first, continued⟩ := popped
    split at continued
    · rename_i narrow₁
      simp only [bind_eq_ok, popWidth_eq_ok, Prod.exists] at continued
      obtain ⟨b, _, ⟨second, narrow₂⟩, c, _, third, continued⟩ := continued
      split at continued
      · rename_i narrow₃
        simp only [bind_eq_ok, popWidth_eq_ok, Prod.exists] at continued
        obtain ⟨d, _, ⟨fourth, narrow₄⟩, pushed⟩ := continued
        cases pushed
        exact ⟨_, .more first (.more second (.more third (.one fourth))),
          .dupTwoX2 narrow₁ narrow₂ narrow₃ narrow₄⟩
      · rename_i wide
        cases continued
        exact ⟨_, .more first (.more second (.one third)), .dupTwoXWide narrow₁ narrow₂ wide⟩
      · cases continued
    · rename_i wide
      obtain ⟨under, taken, form⟩ := shuffleUnderTwo_eq_ok.mp continued
      exact ⟨_, .more first taken, .dupWideX2 wide form⟩
    · cases continued
  | swap =>
    simp only [popShuffled, bind_eq_ok, popWidth_eq_ok, Prod.exists] at popped
    obtain ⟨a, _, ⟨first, narrow₁⟩, b, _, ⟨second, narrow₂⟩, pushed⟩ := popped
    cases pushed
    exact ⟨_, .more first (.one second), .swap narrow₁ narrow₂⟩

/-- A form whose values are on the stack is the one that is carried out. -/
theorem popShuffled_of_form {frame rest : Frame V} {shape : Shuffle} {taken : List V}
    {items : List (Shuffled V)} (takes : Takes frame taken rest)
    (form : ShuffleForm shape taken items) : frame.popShuffled shape = .ok (items, rest) := by
  cases form with
  | pop narrow₁ =>
    simp only [takes_cons, takes_nil] at takes
    obtain ⟨_, first, rfl⟩ := takes
    simp [popShuffled, popWidth, first, narrow₁, bind, Except.bind, pure, Except.pure]
  | popTwo narrow₁ narrow₂ =>
    simp only [takes_cons, takes_nil] at takes
    obtain ⟨_, first, _, second, rfl⟩ := takes
    simp [popShuffled, popWidth, first, narrow₁, second, narrow₂, bind, Except.bind, pure,
      Except.pure]
  | popWide wide =>
    simp only [takes_cons, takes_nil] at takes
    obtain ⟨_, first, rfl⟩ := takes
    simp [popShuffled, first, wide, bind, Except.bind, pure, Except.pure]
  | dup narrow₁ =>
    simp only [takes_cons, takes_nil] at takes
    obtain ⟨_, first, rfl⟩ := takes
    simp [popShuffled, popWidth, first, narrow₁, bind, Except.bind, pure, Except.pure]
  | dupX1 narrow₁ narrow₂ =>
    simp only [takes_cons, takes_nil] at takes
    obtain ⟨_, first, _, second, rfl⟩ := takes
    simp [popShuffled, popWidth, first, narrow₁, second, narrow₂, bind, Except.bind, pure,
      Except.pure]
  | dupX2 narrow₁ form =>
    obtain ⟨_, first, further⟩ := takes_cons.mp takes
    have under := shuffleUnderTwo_eq_ok.mpr ⟨_, further, form⟩
    simp [popShuffled, popWidth, first, narrow₁, under, bind, Except.bind, pure, Except.pure]
  | dupTwo narrow₁ narrow₂ =>
    simp only [takes_cons, takes_nil] at takes
    obtain ⟨_, first, _, second, rfl⟩ := takes
    simp [popShuffled, popWidth, first, narrow₁, second, narrow₂, bind, Except.bind, pure,
      Except.pure]
  | dupWide wide =>
    simp only [takes_cons, takes_nil] at takes
    obtain ⟨_, first, rfl⟩ := takes
    simp [popShuffled, first, wide, bind, Except.bind, pure, Except.pure]
  | dupTwoX1 narrow₁ narrow₂ narrow₃ =>
    simp only [takes_cons, takes_nil] at takes
    obtain ⟨_, first, _, second, _, third, rfl⟩ := takes
    simp [popShuffled, popWidth, first, narrow₁, second, narrow₂, third, narrow₃, bind,
      Except.bind, pure, Except.pure]
  | dupWideX1 wide narrow₂ =>
    simp only [takes_cons, takes_nil] at takes
    obtain ⟨_, first, _, second, rfl⟩ := takes
    simp [popShuffled, popWidth, first, wide, second, narrow₂, bind, Except.bind, pure,
      Except.pure]
  | dupTwoX2 narrow₁ narrow₂ narrow₃ narrow₄ =>
    simp only [takes_cons, takes_nil] at takes
    obtain ⟨_, first, _, second, _, third, _, fourth, rfl⟩ := takes
    simp [popShuffled, popWidth, first, narrow₁, second, narrow₂, third, narrow₃, fourth, narrow₄,
      bind, Except.bind, pure, Except.pure]
  | dupTwoXWide narrow₁ narrow₂ wide =>
    simp only [takes_cons, takes_nil] at takes
    obtain ⟨_, first, _, second, _, third, rfl⟩ := takes
    simp [popShuffled, popWidth, first, narrow₁, second, narrow₂, third, wide, bind, Except.bind,
      pure, Except.pure]
  | dupWideX2 wide form =>
    obtain ⟨_, first, further⟩ := takes_cons.mp takes
    have under := shuffleUnderTwo_eq_ok.mpr ⟨_, further, form⟩
    simp [popShuffled, first, wide, under, bind, Except.bind]
  | swap narrow₁ narrow₂ =>
    simp only [takes_cons, takes_nil] at takes
    obtain ⟨_, first, _, second, rfl⟩ := takes
    simp [popShuffled, popWidth, first, narrow₁, second, narrow₂, bind, Except.bind, pure,
      Except.pure]

theorem popShuffled_eq_ok {frame rest : Frame V} {shape : Shuffle} {items : List (Shuffled V)} :
    frame.popShuffled shape = .ok (items, rest) ↔
      ∃ taken, Takes frame taken rest ∧ ShuffleForm shape taken items :=
  ⟨form_of_popShuffled, fun ⟨_, takes, form⟩ => popShuffled_of_form takes form⟩

end Frame

end

end MethodFlow
