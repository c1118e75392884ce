import Mathlib.Data.Sum.Basic

/-! Programs that ask a world and act on its answers, in loops without a bound. The world decides
freely how it answers, and a run may be cut short between any two answers. -/
namespace Dialogue

inductive Program (ι : Type) (β : ι → Type) : Type → Type 1
  | done {α : Type} (result : α) : Program ι β α
  | ask (question : ι) : Program ι β (β question)
  | bind {α γ : Type} (first : Program ι β α) (next : α → Program ι β γ) : Program ι β γ
  /-- Pass after pass, until one leaves with a result. -/
  | loop {α γ : Type} (body : α → Program ι β (α ⊕ γ)) (start : α) : Program ι β γ

variable {ι : Type} {β : ι → Type} {σ δ α γ : Type}

namespace Program

instance : Monad (Program ι β) where
  pure := done
  bind := bind

def again (next : α) : Program ι β (α ⊕ γ) := done (.inl next)

def leave (result : γ) : Program ι β (α ⊕ γ) := done (.inr result)

/-- What the world answers to a question, and what it is like afterwards, for each decision it
can take. -/
abbrev Answers (ι : Type) (β : ι → Type) (σ δ : Type) := σ → (question : ι) → δ → σ × β question

variable (answers : Answers ι β σ δ)

/-- A run under way: the world and the decisions that are left. -/
abbrev Run (σ δ : Type) := σ × List δ

def iterate (pass : α → Run σ δ → Run σ δ × Option (α ⊕ γ)) :
    Nat → α → Run σ δ → Run σ δ × Option γ
  | 0, _, r => (r, none)
  | passes + 1, a, r =>
    match pass a r with
    | (r, none) => (r, none)
    | (r, some (.inl next)) => iterate pass passes next r
    | (r, some (.inr result)) => (r, some result)

/-- The run with at most so many passes of each loop; no result if it is cut short. -/
def run (passes : Nat) {α : Type} : Program ι β α → Run σ δ → Run σ δ × Option α
  | done result, r => (r, some result)
  | ask _, (s, []) => ((s, []), none)
  | ask question, (s, decision :: later) =>
    (((answers s question decision).1, later), some (answers s question decision).2)
  | bind first next, r =>
    match first.run passes r with
    | (r, none) => (r, none)
    | (r, some result) => (next result).run passes r
  | loop body start, r => iterate (fun a r => (body a).run passes r) passes start r

/-- The weakest condition under which every run that ends does so in `post` and every run that is
cut short is cut in `mid`. -/
def wp (mid : σ → Prop) {α : Type} : Program ι β α → (α → σ → Prop) → σ → Prop
  | done result, post => fun s => post result s
  | ask question, post => fun s =>
    mid s ∧ ∀ decision, post (answers s question decision).2 (answers s question decision).1
  | bind first next, post => first.wp mid fun result => (next result).wp mid post
  | loop body start, post => fun s => ∃ inv : _ → σ → Prop, inv start s ∧ ∀ a s, inv a s →
    mid s ∧ (body a).wp mid (fun pass s => pass.elim (fun next => inv next s) fun result => post result s) s

end Program

open Program

/-- A run's end, whether it has a result or was cut short. -/
def Meets (mid : σ → Prop) (post : α → σ → Prop) (ended : Run σ δ × Option α) : Prop :=
  match ended.2 with
  | none => mid ended.1.1
  | some result => post result ended.1.1

section Rules

variable {answers : Answers ι β σ δ} {mid : σ → Prop}

@[simp] theorem wp_done (result : α) (post : α → σ → Prop) (s : σ) :
    (done result : Program ι β α).wp answers mid post s ↔ post result s := Iff.rfl

@[simp] theorem wp_pure (result : α) (post : α → σ → Prop) (s : σ) :
    (pure result : Program ι β α).wp answers mid post s ↔ post result s := Iff.rfl

@[simp] theorem wp_again (next : α) (post : α ⊕ γ → σ → Prop) (s : σ) :
    (again next : Program ι β (α ⊕ γ)).wp answers mid post s ↔ post (.inl next) s := Iff.rfl

@[simp] theorem wp_leave (result : γ) (post : α ⊕ γ → σ → Prop) (s : σ) :
    (leave result : Program ι β (α ⊕ γ)).wp answers mid post s ↔ post (.inr result) s := Iff.rfl

@[simp] theorem wp_ask (question : ι) (post : β question → σ → Prop) (s : σ) :
    (ask question : Program ι β (β question)).wp answers mid post s ↔
      mid s ∧ ∀ decision, post (answers s question decision).2 (answers s question decision).1 :=
  Iff.rfl

@[simp] theorem wp_bind (first : Program ι β α) (next : α → Program ι β γ)
    (post : γ → σ → Prop) (s : σ) :
    (first >>= next).wp answers mid post s ↔
      first.wp answers mid (fun result => (next result).wp answers mid post) s := Iff.rfl

/-- A loop by an invariant of its passes. -/
theorem wp_loop {body : α → Program ι β (α ⊕ γ)} {start : α} {post : γ → σ → Prop} {s : σ}
    (inv : α → σ → Prop) (begun : inv start s) (safe : ∀ a s, inv a s → mid s)
    (pass : ∀ a s, inv a s → (body a).wp answers mid
      (fun pass s => pass.elim (fun next => inv next s) fun result => post result s) s) :
    (loop body start).wp answers mid post s :=
  ⟨inv, begun, fun a s holds => ⟨safe a s holds, pass a s holds⟩⟩

theorem wp_mono {p : Program ι β α} {post weaker : α → σ → Prop}
    (weakens : ∀ result s, post result s → weaker result s) {s : σ} (holds : p.wp answers mid post s) :
    p.wp answers mid weaker s := by
  induction p generalizing s with
  | done result => exact weakens _ _ holds
  | ask question => exact ⟨holds.1, fun decision => weakens _ _ (holds.2 decision)⟩
  | bind first next ihFirst ihNext =>
    exact ihFirst (fun result _ after => ihNext result weakens after) holds
  | loop body start ih =>
    obtain ⟨inv, begun, pass⟩ := holds
    refine ⟨inv, begun, fun a s here => ⟨(pass a s here).1, ?_⟩⟩
    apply ih a _ (pass a s here).2
    rintro (next | result) s after
    · exact after
    · exact weakens _ _ after

theorem iterate_meets {inv : α → σ → Prop} {post : γ → σ → Prop}
    {pass : α → Run σ δ → Run σ δ × Option (α ⊕ γ)} (safe : ∀ a s, inv a s → mid s)
    (passes : ∀ a (r : Run σ δ), inv a r.1 → Meets mid
      (fun pass s => pass.elim (fun next => inv next s) fun result => post result s) (pass a r))
    (count : Nat) {a : α} {r : Run σ δ} (begun : inv a r.1) :
    Meets mid post (iterate pass count a r) := by
  induction count generalizing a r with
  | zero => exact safe a r.1 begun
  | succ count ih =>
    have here := passes a r begun
    rw [iterate]
    revert here
    rcases pass a r with ⟨r, _ | next | result⟩
    · exact id
    · exact fun here => ih here
    · exact id

/-- What the weakest precondition says of the runs. -/
theorem run_meets {p : Program ι β α} {post : α → σ → Prop} (passes : Nat) (r : Run σ δ)
    (holds : p.wp answers mid post r.1) : Meets mid post (p.run answers passes r) := by
  induction p generalizing r with
  | done result => exact holds
  | ask question =>
    obtain ⟨s, decisions⟩ := r
    cases decisions with
    | nil => exact holds.1
    | cons decision later => exact holds.2 decision
  | bind first next ihFirst ihNext =>
    have here := ihFirst r holds
    rw [run]
    revert here
    rcases first.run answers passes r with ⟨r, _ | result⟩
    · exact id
    · exact fun here => ihNext result r here
  | loop body start ih =>
    obtain ⟨inv, begun, pass⟩ := holds
    exact iterate_meets (fun a s here => (pass a s here).1)
      (fun a r here => ih a r (pass a r.1 here).2) passes begun

/-- What the weakest precondition says of a run that ended. -/
theorem run_post {p : Program ι β α} {post : α → σ → Prop} {passes : Nat} {r : Run σ δ}
    (holds : p.wp answers mid post r.1) {result : α}
    (ended : (p.run answers passes r).2 = some result) :
    post result (p.run answers passes r).1.1 := by
  have meets := run_meets passes r holds
  rw [Meets, ended] at meets
  exact meets

/-- What it says of a run at any moment, if `post` and `mid` agree on it. -/
theorem run_always {p : Program ι β α} {passes : Nat} {r : Run σ δ}
    (holds : p.wp answers mid (fun _ => mid) r.1) : mid (p.run answers passes r).1.1 := by
  have meets := run_meets passes r holds
  rw [Meets] at meets
  split at meets <;> exact meets

end Rules

section Frames

/-- Every question that the program may ask is in `asked`. -/
def Program.Asks (asked : ι → Prop) {α : Type} : Program ι β α → Prop
  | .done _ => True
  | .ask question => asked question
  | .bind first next => first.Asks asked ∧ ∀ result, (next result).Asks asked
  | .loop body _ => ∀ a, (body a).Asks asked

variable {answers : Answers ι β σ δ} {mid inv : σ → Prop} {asked : ι → Prop}

@[simp] theorem asks_done (result : α) : (done result : Program ι β α).Asks asked := trivial

@[simp] theorem asks_pure (result : α) : (pure result : Program ι β α).Asks asked := trivial

@[simp] theorem asks_again (next : α) : (again next : Program ι β (α ⊕ γ)).Asks asked := trivial

@[simp] theorem asks_leave (result : γ) : (leave result : Program ι β (α ⊕ γ)).Asks asked := trivial

@[simp] theorem asks_ask (question : ι) :
    (ask question : Program ι β (β question)).Asks asked ↔ asked question := Iff.rfl

@[simp] theorem asks_bind (first : Program ι β α) (next : α → Program ι β γ) :
    (first >>= next).Asks asked ↔ first.Asks asked ∧ ∀ result, (next result).Asks asked := Iff.rfl

@[simp] theorem asks_loop (body : α → Program ι β (α ⊕ γ)) (start : α) :
    (loop body start).Asks asked ↔ ∀ a, (body a).Asks asked := Iff.rfl

@[simp] theorem asks_ite {condition : Prop} [Decidable condition] (p q : Program ι β α) :
    (if condition then p else q).Asks asked ↔
      (condition → p.Asks asked) ∧ (¬condition → q.Asks asked) := by
  split <;> simp_all

theorem asks_mono {wider : ι → Prop} (widens : ∀ question, asked question → wider question)
    {p : Program ι β α} (asks : p.Asks asked) : p.Asks wider := by
  induction p with
  | done result => trivial
  | ask question => exact widens question asks
  | bind first next ihFirst ihNext => exact ⟨ihFirst asks.1, fun result => ihNext result (asks.2 result)⟩
  | loop body start ih => exact fun a => ih a (asks a)

theorem asks_true (p : Program ι β α) : p.Asks fun _ => True := by
  induction p with
  | done result => trivial
  | ask question => trivial
  | bind first next ihFirst ihNext => exact ⟨ihFirst, ihNext⟩
  | loop body start ih => exact ih

/-- What the answers to its questions keep, a program keeps. -/
theorem wp_of_asks {p : Program ι β α} (asks : p.Asks asked)
    (keeps : ∀ s question decision, asked question → inv s → inv (answers s question decision).1)
    (safe : ∀ s, inv s → mid s) {s : σ} (holds : inv s) :
    p.wp answers mid (fun _ => inv) s := by
  induction p generalizing s with
  | done result => exact holds
  | ask question => exact ⟨safe s holds, fun decision => keeps s question decision asks holds⟩
  | bind first next ihFirst ihNext =>
    exact wp_mono (fun result _ after => ihNext result (asks.2 result) after) (ihFirst asks.1 holds)
  | loop body start ih =>
    refine wp_loop (fun _ => inv) holds (fun _ => safe) fun a s here => ?_
    apply wp_mono _ (ih a (asks a) here)
    rintro (next | result) s after <;> exact after

/-- Past a part that keeps an invariant. -/
theorem wp_past {first : Program ι β α} {next : α → Program ι β γ} {post : γ → σ → Prop}
    (asks : first.Asks asked)
    (keeps : ∀ s question decision, asked question → inv s → inv (answers s question decision).1)
    (safe : ∀ s, inv s → mid s) {s : σ} (holds : inv s)
    (rest : ∀ result s, inv s → (next result).wp answers mid post s) :
    (first >>= next).wp answers mid post s :=
  wp_mono rest (wp_of_asks asks keeps safe holds)

/-- A program that keeps an invariant, up to wherever it is cut short. -/
def Program.Keeps (answers : Answers ι β σ δ) (inv : σ → Prop) (p : Program ι β α) : Prop :=
  ∀ s, inv s → p.wp answers inv (fun _ => inv) s

theorem keeps_of_asks {p : Program ι β α} (asks : p.Asks asked)
    (keeps : ∀ s question decision, asked question → inv s → inv (answers s question decision).1) :
    p.Keeps answers inv :=
  fun _ holds => wp_of_asks asks keeps (fun _ => id) holds

theorem keeps_done (result : α) : (done result : Program ι β α).Keeps answers inv := fun _ => id

theorem Program.Keeps.bind {first : Program ι β α} {next : α → Program ι β γ}
    (here : first.Keeps answers inv) (there : ∀ result, (next result).Keeps answers inv) :
    (first >>= next).Keeps answers inv :=
  fun s holds => wp_mono (fun result _ after => there result _ after) (here s holds)

end Frames

end Dialogue
