import Mathlib.Data.List.Forall2
import Mathlib.Data.List.SplitBy

/-! The maximal runs of related neighbours of a list (`List.splitBy`), built up from the
front as a left fold over the list meets them. -/
namespace Runs
open List
variable {α β γ : Type} {r : α → α → Bool}

/-- An element related to the last one joins the last run. -/
theorem splitBy_concat {xs run : List α} {runs : List (List α)} {a b : α}
    (split : xs.splitBy r = runs ++ [run ++ [a]]) (related : r a b = true) :
    (xs ++ [b]).splitBy r = runs ++ [run ++ [a, b]] := by
  obtain ⟨flat, filled, chained, broken⟩ := splitBy_eq_iff.mp split
  refine splitBy_eq_iff.mpr ⟨?_, ?_, ?_, ?_⟩
  · rw [flat]
    simp
  · simp only [mem_append, not_or] at filled ⊢
    exact ⟨filled.1, by simp⟩
  · intro m member
    rcases mem_append.mp member with early | last
    · exact chained m (mem_append_left _ early)
    · have joined := chained (run ++ [a]) (by simp)
      rw [mem_singleton.mp last, show run ++ [a, b] = run ++ [a] ++ [b] by simp]
      refine isChain_append.mpr ⟨joined, isChain_singleton b, ?_⟩
      intro x isLast y isHead
      simp only [getLast?_append, getLast?_singleton, Option.some_or, Option.mem_some_iff] at isLast
      simp only [head?_cons, Option.mem_some_iff] at isHead
      rw [← isLast, ← isHead]
      exact related
  · obtain ⟨before, _, link⟩ := isChain_append.mp broken
    refine isChain_append.mpr ⟨before, isChain_singleton _, ?_⟩
    intro x isLast y isHead
    obtain ⟨nonempty, other, apart⟩ := link x isLast (run ++ [a]) (by simp)
    simp only [head?_cons, Option.mem_some_iff] at isHead
    subst isHead
    refine ⟨nonempty, by simp, ?_⟩
    cases run with
    | nil => simpa using apart
    | cons first more => simpa using apart

/-- The last run of a nonempty list ends with its last element. -/
theorem splitBy_last (xs : List α) :
    xs.splitBy r = [] ∨ ∃ runs run a, xs.splitBy r = runs ++ [run ++ [a]] ∧ xs.getLast? = some a := by
  rcases eq_nil_or_concat (xs.splitBy r) with none | ⟨runs, last, split⟩
  · exact .inl none
  · have filled : last ≠ [] := ne_nil_of_mem_splitBy (r := r) (l := xs) (by simp [split])
    obtain ⟨run, a, rfl⟩ := (eq_nil_or_concat last).resolve_left filled
    simp only [concat_eq_append] at split
    refine .inr ⟨runs, run, a, split, ?_⟩
    rw [← flatten_splitBy r xs, split]
    simp

/-- A left fold follows the runs of the elements' images: what it keeps about the runs met
so far only has to survive opening a run and extending the last one. -/
theorem foldl_splitBy (f : γ → α) {visit : β → γ → β} {Follows : List (List α) → β → Prop}
    {state : β} (xs : List γ) (start : Follows [] state)
    (opens : ∀ runs state, ∀ x ∈ xs, [] ∉ runs → Follows runs state →
      (∀ run a, runs.getLast? = some (run ++ [a]) → r a (f x) = false) →
      Follows (runs ++ [[f x]]) (visit state x))
    (grows : ∀ runs run a state, ∀ x ∈ xs, Follows (runs ++ [run ++ [a]]) state →
      r a (f x) = true → Follows (runs ++ [run ++ [a, f x]]) (visit state x)) :
    Follows ((xs.map f).splitBy r) (xs.foldl visit state) := by
  induction xs using reverseRecOn with
  | nil => exact start
  | append_singleton xs x ih =>
    have inside : ∀ y ∈ xs, y ∈ xs ++ [x] := fun y member => mem_append_left _ member
    have before := ih (fun runs state y member => opens runs state y (inside y member))
      (fun runs run a state y member => grows runs run a state y (inside y member))
    rw [foldl_append, foldl_cons, foldl_nil, map_append, map_cons, map_nil]
    rcases splitBy_last (r := r) (xs.map f) with empty | ⟨runs, run, a, split, last⟩
    · rw [splitBy_eq_nil.mp empty, nil_append]
      rw [empty] at before
      exact opens [] _ x (by simp) not_mem_nil before (by simp)
    · rw [split] at before
      cases related : r a (f x) with
      | true =>
        rw [splitBy_concat split related]
        exact grows runs run a _ x (by simp) before related
      | false =>
        have filled := nil_notMem_splitBy r (xs.map f)
        rw [splitBy_append (by simpa [last] using related), split]
        rw [split] at filled
        refine opens _ _ x (by simp) filled before ?_
        intro run' a' same
        simp only [getLast?_append, getLast?_singleton, Option.some_or, Option.some.injEq] at same
        obtain ⟨_, sameLast⟩ := append_inj' same rfl
        rw [← singleton_inj.mp sameLast]
        exact related

/-- The runs of the images are the images of the runs. -/
theorem splitBy_map (f : γ → α) (xs : List γ) :
    (xs.map f).splitBy r = (xs.splitBy fun x y => r (f x) (f y)).map (map f) := by
  have whole := flatten_splitBy (fun x y => r (f x) (f y)) xs
  have broken := isChain_getLast_head_splitBy (fun x y => r (f x) (f y)) xs
  refine splitBy_eq_iff.mpr ⟨?_, ?_, ?_, ?_⟩
  · rw [← map_flatten, whole]
  · simp
  · intro m member
    obtain ⟨run, among, rfl⟩ := mem_map.mp member
    exact (isChain_map f).mpr (isChain_of_mem_splitBy among)
  · rw [isChain_map]
    refine broken.imp ?_
    rintro run next ⟨first, second, apart⟩
    refine ⟨by simpa using first, by simpa using second, ?_⟩
    rw [getLast_map, head_map]
    exact apart

/-- Lists related element by element have related runs, when related elements are joined alike. -/
theorem forall₂_splitBy {R : α → β → Prop} {q : β → β → Bool} {xs : List α} {ys : List β}
    (alike : ∀ {x x' y y'}, R x y → R x' y' → r x x' = q y y') (related : Forall₂ R xs ys) :
    Forall₂ (Forall₂ R) (xs.splitBy r) (ys.splitBy q) := by
  -- the related pairs, of which both lists are images
  obtain ⟨pairs, rfl, rfl⟩ : ∃ pairs : List { pair : α × β // R pair.1 pair.2 },
      pairs.map (·.1.1) = xs ∧ pairs.map (·.1.2) = ys := by
    induction related with
    | nil => exact ⟨[], rfl, rfl⟩
    | @cons x y xs ys first _ ih =>
      obtain ⟨pairs, left, right⟩ := ih
      exact ⟨⟨(x, y), first⟩ :: pairs, by simp [left], by simp [right]⟩
  have joined : (fun p p' : { pair : α × β // R pair.1 pair.2 } => r p.1.1 p'.1.1) =
      fun p p' => q p.1.2 p'.1.2 := by
    funext p p'
    exact alike p.2 p'.2
  rw [splitBy_map, splitBy_map, joined, forall₂_map_left_iff, forall₂_map_right_iff]
  refine forall₂_same.mpr fun run _ => ?_
  rw [forall₂_map_left_iff, forall₂_map_right_iff]
  exact forall₂_same.mpr fun pair _ => pair.2

/-- Two lists related to a third one are related through it. -/
theorem forall₂_through {P : γ → α → Prop} {Q : γ → β → Prop} {zs : List γ} {xs : List α} {ys : List β}
    (left : Forall₂ P zs xs) (right : Forall₂ Q zs ys) :
    Forall₂ (fun x y => ∃ z, P z x ∧ Q z y) xs ys := by
  induction left generalizing ys with
  | nil =>
    cases right
    exact .nil
  | cons first _ ih =>
    cases right with
    | cons second others => exact .cons ⟨_, first, second⟩ (ih others)

end Runs
