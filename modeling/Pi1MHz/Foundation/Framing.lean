/-! Byte strings cut into frames whose length is announced at their front. A walk maps every
complete frame and stops at the first incomplete one; it can be interrupted at any point of
the string and resumed with what it left. -/

/-- How long the frame at the front of a string is, once enough of it has been seen. -/
structure Framing (α : Type) where
  size : List α → Option Nat
  positive : ∀ {xs n}, size xs = some n → 0 < n
  stable : ∀ {xs n} (ys : List α), size xs = some n → size (xs ++ ys) = some n

namespace Framing
variable {α : Type} (F : Framing α)

/-- The complete frame at the front, with the rest of the string. -/
def split (xs : List α) : Option (List α × List α) :=
  match F.size xs with
  | some n => if n ≤ xs.length then some (xs.take n, xs.drop n) else none
  | none => none

variable (f : List α → List α) (skip : List α → Prop)

/-- `out` is the string with some of its complete frames mapped; the frames left as they
were all satisfy `skip`. -/
inductive Patched : List α → List α → Prop
  | tail {xs} (stop : F.split xs = none) : Patched xs xs
  | mapped {xs c rest out} (found : F.split xs = some (c, rest)) (after : Patched rest out) :
      Patched xs (f c ++ out)
  | kept {xs c rest out} (found : F.split xs = some (c, rest)) (allowed : skip c)
      (after : Patched rest out) : Patched xs (c ++ out)

/-- The complete frames of a string, in the walk's order. -/
inductive Frame : List α → List α → Prop
  | here {xs c rest} (found : F.split xs = some (c, rest)) : Frame xs c
  | later {xs c rest d} (found : F.split xs = some (c, rest)) (after : Frame rest d) : Frame xs d

variable {F f skip} {xs c rest out : List α}

theorem split_eq_some : F.split xs = some (c, rest) ↔
    F.size xs = some c.length ∧ xs = c ++ rest := by
  simp only [split]
  cases size : F.size xs with
  | none => simp
  | some n =>
    simp only [Option.ite_none_right_eq_some, Option.some.injEq, Prod.mk.injEq]
    constructor
    · rintro ⟨bound, rfl, rfl⟩
      simp [Nat.min_eq_left bound]
    · rintro ⟨rfl, rfl⟩
      simp

theorem split_positive (found : F.split xs = some (c, rest)) : 0 < c.length :=
  F.positive (split_eq_some.mp found).1

theorem split_shorter (found : F.split xs = some (c, rest)) : rest.length < xs.length := by
  have positive := split_positive found
  rw [(split_eq_some.mp found).2, List.length_append]
  omega

theorem Frame.cases_split {d : List α} (frame : F.Frame xs d) (found : F.split xs = some (c, rest)) :
    d = c ∨ F.Frame rest d := by
  cases frame with
  | here other =>
    rw [found] at other
    cases other
    exact .inl rfl
  | later other after =>
    rw [found] at other
    cases other
    exact .inr after

theorem no_frame {d : List α} (stop : F.split xs = none) : ¬F.Frame xs d := by
  intro frame
  cases frame with
  | here found =>
    rw [stop] at found
    cases found
  | later found after =>
    rw [stop] at found
    cases found

theorem split_append (found : F.split xs = some (c, rest)) (ys : List α) :
    F.split (xs ++ ys) = some (c, rest ++ ys) := by
  obtain ⟨size, same⟩ := split_eq_some.mp found
  exact split_eq_some.mpr ⟨F.stable ys size, by rw [same, List.append_assoc]⟩

variable (F f)

/-- The mapped complete frames, and the string from the first incomplete one on. -/
def walk (xs : List α) : List α × List α :=
  match _found : F.split xs with
  | some (c, rest) => (f c ++ (walk rest).1, (walk rest).2)
  | none => ([], xs)
termination_by xs.length
decreasing_by all_goals exact split_shorter _found

variable {F f}

theorem walk_some (found : F.split xs = some (c, rest)) :
    F.walk f xs = (f c ++ (F.walk f rest).1, (F.walk f rest).2) := by
  rw [walk]
  split
  · rename_i c' rest' found'
    rw [found] at found'
    cases found'
    rfl
  · rename_i none
    rw [found] at none
    contradiction

theorem walk_none (stop : F.split xs = none) : F.walk f xs = ([], xs) := by
  rw [walk]
  split
  · rename_i found
    rw [stop] at found
    contradiction
  · rfl

/-- Induction along the walk. -/
@[elab_as_elim]
theorem walk_induction {P : List α → Prop} (stop : ∀ xs, F.split xs = none → P xs)
    (step : ∀ xs c rest, F.split xs = some (c, rest) → P rest → P xs) (xs : List α) : P xs := by
  induction length : xs.length using Nat.strongRecOn generalizing xs with
  | ind n ih =>
    cases found : F.split xs with
    | none => exact stop xs found
    | some pair =>
      obtain ⟨c, rest⟩ := pair
      exact step xs c rest found (ih rest.length (length ▸ split_shorter found) rest rfl)

theorem walk_stops (xs : List α) : F.split (F.walk f xs).2 = none := by
  refine walk_induction (F := F) ?_ ?_ xs
  · intro xs stop
    rw [walk_none stop]
    exact stop
  · intro xs c rest found ih
    rw [walk_some found]
    exact ih

/-- With length-preserving frames the walk keeps every position. -/
theorem walk_length (preserves : ∀ c, (f c).length = c.length) (xs : List α) :
    (F.walk f xs).1.length + (F.walk f xs).2.length = xs.length := by
  refine walk_induction (F := F) ?_ ?_ xs
  · intro xs stop
    simp [walk_none stop]
  · intro xs c rest found ih
    rw [walk_some found, (split_eq_some.mp found).2]
    simp only [List.length_append, preserves]
    omega

theorem split_nil : F.split ([] : List α) = none := by
  cases found : F.split ([] : List α) with
  | none => rfl
  | some pair =>
    obtain ⟨c, rest⟩ := pair
    have shorter := split_shorter found
    simp at shorter

theorem Patched.length (preserves : ∀ c, (f c).length = c.length)
    (patched : F.Patched f skip xs out) : out.length = xs.length := by
  induction patched with
  | tail => rfl
  | mapped found after ih =>
    rw [(split_eq_some.mp found).2]
    simp [preserves, ih]
  | kept found allowed after ih =>
    rw [(split_eq_some.mp found).2]
    simp [ih]

/-- A walk over the front of a string, continued on what it left, patches the string. -/
theorem Patched.of_walk {ys : List α} (xs : List α)
    (after : F.Patched f skip ((F.walk f xs).2 ++ ys) out) :
    F.Patched f skip (xs ++ ys) ((F.walk f xs).1 ++ out) := by
  revert after
  refine walk_induction (F := F) ?_ ?_ xs
  · intro xs stop after
    simpa [walk_none stop] using after
  · intro xs c rest found ih after
    rw [walk_some found] at after ⊢
    simp only [List.append_assoc]
    exact .mapped (split_append found ys) (ih after)

/-- When mapping a skipped frame would not have changed it, patching is the whole walk. -/
theorem Patched.eq_walk (patched : F.Patched f skip xs out)
    (harmless : ∀ c, F.Frame xs c → skip c → f c = c) :
    out = (F.walk f xs).1 ++ (F.walk f xs).2 := by
  induction patched with
  | tail stop => simp [walk_none stop]
  | mapped found after ih =>
    have same := ih (fun c frame => harmless c (.later found frame))
    rw [walk_some found, same]
    simp
  | kept found allowed after ih =>
    have same := ih (fun c frame => harmless c (.later found frame))
    rw [walk_some found, harmless _ (.here found) allowed, same]
    simp

end Framing
