import Mathlib.Data.List.Basic

/-! A machine that takes cells in and hands cells out, step by step. What it holds is accounted
for by what went in and came out. -/
namespace Conduit

variable {σ ι α : Type*} (step : σ → ι → σ)

def run (s : σ) (inputs : List ι) : σ := inputs.foldl step s

/-- The cells that `cells` assigns to the steps of a run, in order. -/
def traffic (cells : σ → ι → List α) (s : σ) : List ι → List α
  | [] => []
  | i :: rest => cells s i ++ traffic cells (step s i) rest

/-- Every step of the run meets `rule` in the state it is made in. -/
def Follows (rule : σ → ι → Prop) (s : σ) : List ι → Prop
  | [] => True
  | i :: rest => rule s i ∧ Follows rule (step s i) rest

instance decidableFollows {rule : σ → ι → Prop} [∀ s i, Decidable (rule s i)] :
    ∀ s inputs, Decidable (Follows step rule s inputs)
  | _, [] => .isTrue trivial
  | s, i :: rest =>
    have : Decidable (Follows step rule (step s i) rest) := decidableFollows (step s i) rest
    inferInstanceAs (Decidable (rule s i ∧ Follows step rule (step s i) rest))

theorem follows_true (s : σ) (inputs : List ι) : Follows step (fun _ _ => True) s inputs := by
  induction inputs generalizing s with
  | nil => trivial
  | cons i rest ih => exact ⟨trivial, ih (step s i)⟩

theorem traffic_nil (s : σ) (inputs : List ι) :
    traffic step (fun _ _ => ([] : List α)) s inputs = [] := by
  induction inputs generalizing s with
  | nil => rfl
  | cons i rest ih => exact ih (step s i)

variable {step} {rule : σ → ι → Prop} {inv : σ → Prop}

theorem run_invariant (keeps : ∀ s i, inv s → rule s i → inv (step s i)) {s : σ} (start : inv s)
    {inputs : List ι} (follows : Follows step rule s inputs) : inv (run step s inputs) := by
  induction inputs generalizing s with
  | nil => exact start
  | cons i rest ih => exact ih (keeps s i start follows.1) follows.2

/-- A property of single steps along a whole run. -/
theorem Follows.imp_of_invariant {holds : σ → ι → Prop}
    (keeps : ∀ s i, inv s → rule s i → inv (step s i)) (each : ∀ s i, inv s → rule s i → holds s i)
    {s : σ} (start : inv s) {inputs : List ι} (follows : Follows step rule s inputs) :
    Follows step holds s inputs := by
  induction inputs generalizing s with
  | nil => trivial
  | cons i rest ih =>
    exact ⟨each s i start follows.1, ih (keeps s i start follows.1) follows.2⟩

/-- A relation between the state and all the cells so far. -/
theorem run_records {cells : σ → ι → List α} {records : List α → σ → Prop}
    (keeps : ∀ past s i, records past s → rule s i → records (past ++ cells s i) (step s i))
    {past : List α} {s : σ} (start : records past s) {inputs : List ι}
    (follows : Follows step rule s inputs) :
    records (past ++ traffic step cells s inputs) (run step s inputs) := by
  induction inputs generalizing past s with
  | nil => simpa [traffic, run] using start
  | cons i rest ih =>
    have later := ih (keeps past s i start follows.1) follows.2
    rw [List.append_assoc] at later
    exact later

/-- What was held and what went in is what came out and what is held. -/
theorem run_conserves {held : σ → List α} {taken given : σ → ι → List α}
    (keeps : ∀ s i, inv s → rule s i → inv (step s i))
    (conserves : ∀ s i, inv s → rule s i →
      held s ++ taken s i = given s i ++ held (step s i))
    {s : σ} (start : inv s) {inputs : List ι} (follows : Follows step rule s inputs) :
    held s ++ traffic step taken s inputs =
      traffic step given s inputs ++ held (run step s inputs) := by
  induction inputs generalizing s with
  | nil => simp [traffic, run]
  | cons i rest ih =>
    have later := ih (keeps s i start follows.1) follows.2
    calc held s ++ (taken s i ++ traffic step taken (step s i) rest)
        = given s i ++ (held (step s i) ++ traffic step taken (step s i) rest) := by
          rw [← List.append_assoc, conserves s i start follows.1, List.append_assoc]
      _ = given s i ++ traffic step given (step s i) rest ++ held (run step (step s i) rest) := by
          rw [later, List.append_assoc]

/-- A latch that some steps set and others clear is set if a step has set it and none has cleared
it since. -/
theorem run_latch {latch : σ → Bool} {sets clears : σ → ι → Bool}
    (keeps : ∀ s i, inv s → inv (step s i))
    (latches : ∀ s i, inv s → latch (step s i) = (latch s && !clears s i || sets s i))
    {s : σ} (start : inv s) (inputs : List ι) :
    let holds := Follows step fun s i => clears s i = false
    latch (run step s inputs) = true ↔ latch s = true ∧ holds s inputs ∨
      ∃ before i after, inputs = before ++ i :: after ∧ sets (run step s before) i = true ∧
        holds (run step s (before ++ [i])) after := by
  intro holds
  induction inputs generalizing s with
  | nil =>
    constructor
    · exact fun set => .inl ⟨set, trivial⟩
    · rintro (⟨set, -⟩ | ⟨before, i, after, empty, -⟩)
      · exact set
      · exact absurd empty.symm (List.append_ne_nil_of_right_ne_nil _ (List.cons_ne_nil _ _))
  | cons i rest ih =>
    have later := ih (keeps s i start)
    rw [latches s i start, Bool.or_eq_true, Bool.and_eq_true, Bool.not_eq_true'] at later
    change latch (run step (step s i) rest) = true ↔ _
    rw [later]
    constructor
    · rintro (⟨⟨set, quiet⟩ | set, held⟩ | ⟨before, j, after, rfl, set, held⟩)
      · exact .inl ⟨set, quiet, held⟩
      · exact .inr ⟨[], i, rest, rfl, set, held⟩
      · exact .inr ⟨i :: before, j, after, rfl, set, held⟩
    · rintro (⟨set, quiet, held⟩ | ⟨before, j, after, split, set, held⟩)
      · exact .inl ⟨.inl ⟨set, quiet⟩, held⟩
      · cases before with
        | nil =>
          cases split
          exact .inl ⟨.inr set, held⟩
        | cons first before =>
          cases split
          exact .inr ⟨before, j, after, rfl, set, held⟩

end Conduit
