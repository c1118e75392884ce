import Mathlib.Data.Nat.Notation
import Mathlib.Order.Basic

/-! Loops whose passes may fail to end. A loop is given a number of passes; `none` says that they
were used up, here or in a loop inside. -/
namespace Loop

/-- What one pass decides. -/
inductive Pass (σ : Type*)
  | again (s : σ)
  | leave (s : σ)

def Pass.Holds {σ : Type*} (next done : σ → Prop) : Pass σ → Prop
  | .again s => next s
  | .leave s => done s

@[simp] theorem Pass.holds_again {σ : Type*} {next done : σ → Prop} {s : σ} :
    (Pass.again s).Holds next done ↔ next s := Iff.rfl

@[simp] theorem Pass.holds_leave {σ : Type*} {next done : σ → Prop} {s : σ} :
    (Pass.leave s).Holds next done ↔ done s := Iff.rfl

def repeatPass {σ : Type*} (body : σ → Option (Pass σ)) : Nat → σ → Option σ
  | 0, _ => none
  | fuel + 1, s =>
    match body s with
    | none => none
    | some (.again next) => repeatPass body fuel next
    | some (.leave done) => some done

/-- The computation returns, and what it returns satisfies `post`. -/
def Settles {α : Type*} (result : Option α) (post : α → Prop) : Prop :=
  ∃ value, result = some value ∧ post value

/-- What the computation returns, if it does, satisfies `post`. -/
def Yields {α : Type*} (result : Option α) (post : α → Prop) : Prop :=
  ∀ value, result = some value → post value

/-- The computation returns. -/
def Ends {α : Type*} (result : Option α) : Prop := Settles result fun _ => True

section Composition

variable {α β : Type*} {result : Option α} {post : α → Prop} {final : β → Prop}

theorem settles_some {value : α} (holds : post value) : Settles (some value) post :=
  ⟨value, rfl, holds⟩

theorem yields_some {value : α} (holds : post value) : Yields (some value) post := by
  rintro _ ⟨⟩
  exact holds

theorem Settles.bind {next : α → Option β} (first : Settles result post)
    (second : ∀ value, post value → Settles (next value) final) :
    Settles (result.bind next) final := by
  obtain ⟨value, rfl, holds⟩ := first
  exact second value holds

theorem Yields.bind {next : α → Option β} (first : Yields result post)
    (second : ∀ value, post value → Yields (next value) final) :
    Yields (result.bind next) final := by
  intro last returned
  rw [Option.bind_eq_some_iff] at returned
  obtain ⟨value, here, there⟩ := returned
  exact second value (first value here) last there

theorem Yields.map {f : α → β} (first : Yields result post)
    (second : ∀ value, post value → final (f value)) : Yields (result.map f) final := by
  intro last returned
  rw [Option.map_eq_some_iff] at returned
  obtain ⟨value, here, rfl⟩ := returned
  exact second value (first value here)

theorem Settles.map {f : α → β} (first : Settles result post)
    (second : ∀ value, post value → final (f value)) : Settles (result.map f) final := by
  obtain ⟨value, rfl, holds⟩ := first
  exact ⟨f value, rfl, second value holds⟩

theorem Yields.imp {weaker : α → Prop} (yields : Yields result post)
    (weaken : ∀ value, post value → weaker value) : Yields result weaker :=
  fun value returned => weaken value (yields value returned)

theorem yields_any : Yields result fun _ => True := fun _ _ => trivial

theorem Yields.ite {condition : Prop} [Decidable condition] {first second : Option α}
    (yes : condition → Yields first post) (no : ¬condition → Yields second post) :
    Yields (if condition then first else second) post := by
  split
  · exact yes ‹_›
  · exact no ‹_›

theorem ends_some {value : α} : Ends (some value) := settles_some trivial

theorem Ends.bind {next : α → Option β} (first : Ends result)
    (second : ∀ value, Ends (next value)) : Ends (result.bind next) :=
  Settles.bind first fun value _ => second value

theorem Ends.ite {condition : Prop} [Decidable condition] {first second : Option α}
    (yes : condition → Ends first) (no : ¬condition → Ends second) :
    Ends (if condition then first else second) := by
  split
  · exact yes ‹_›
  · exact no ‹_›

theorem Ends.map {f : α → β} (first : Ends result) : Ends (result.map f) :=
  Settles.map first fun _ _ => trivial

end Composition

section Rules

variable {σ : Type*} {body : σ → Option (Pass σ)} {post : σ → Prop}

/-- A pass that keeps the invariant and lowers the measure ends the loop in time. -/
theorem repeatPass_settles (invariant : σ → Prop) (measure : σ → Nat)
    (pass : ∀ s, invariant s → Settles (body s)
      (Pass.Holds (fun next => invariant next ∧ measure next < measure s) post))
    {fuel : Nat} {s : σ} (start : invariant s) (enough : measure s < fuel) :
    Settles (repeatPass body fuel s) post := by
  induction fuel generalizing s with
  | zero => omega
  | succ fuel ih =>
    obtain ⟨outcome, ran, holds⟩ := pass s start
    rw [repeatPass, ran]
    cases outcome with
    | again next =>
      have lower : measure next < measure s := holds.2
      exact ih holds.1 (by omega)
    | leave done => exact settles_some holds

/-- A loop that returns has kept its invariant up to the pass that left it. -/
theorem repeatPass_yields (invariant post : σ → Prop)
    (pass : ∀ s, invariant s → Yields (body s) (Pass.Holds invariant post))
    {fuel : Nat} {s : σ} (start : invariant s) : Yields (repeatPass body fuel s) post := by
  induction fuel generalizing s with
  | zero =>
    intro value returned
    cases returned
  | succ fuel ih =>
    intro value returned
    rw [repeatPass] at returned
    cases ran : body s with
    | none =>
      rw [ran] at returned
      cases returned
    | some outcome =>
      have holds := pass s start outcome ran
      rw [ran] at returned
      cases outcome with
      | again next => exact ih holds value returned
      | leave done =>
        cases returned
        exact holds

/-- A loop that returns does so with more passes too. -/
theorem repeatPass_more {fuel more : Nat} {s done : σ} (returned : repeatPass body fuel s = some done)
    (le : fuel ≤ more) : repeatPass body more s = some done := by
  induction fuel generalizing more s with
  | zero => cases returned
  | succ fuel ih =>
    obtain ⟨more, rfl⟩ : ∃ others, more = others + 1 := ⟨more - 1, by omega⟩
    rw [repeatPass] at returned ⊢
    cases ran : body s with
    | none =>
      rw [ran] at returned
      cases returned
    | some outcome =>
      rw [ran] at returned
      cases outcome with
      | again next => exact ih returned (by omega)
      | leave value => exact returned

/-- A loop none of whose passes leaves it never returns. -/
theorem repeatPass_diverges
    (pass : ∀ s, Yields (body s) (Pass.Holds (fun _ => True) fun _ => False))
    (fuel : Nat) (s : σ) : repeatPass body fuel s = none := by
  rw [Option.eq_none_iff_forall_ne_some]
  intro value returned
  exact repeatPass_yields (fun _ => True) (fun _ => False) (fun s _ => pass s) trivial value
    returned

end Rules

end Loop
