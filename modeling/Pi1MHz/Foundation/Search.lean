import Mathlib.Data.List.Basic
import Pi1MHz.Foundation.Excerpt

/-! The first place where one list stands in another. -/
namespace Search

variable {α : Type} [DecidableEq α] {needle front back : List α}

def firstAt (needle : List α) : List α → Option Nat
  | [] => if needle = [] then some 0 else none
  | a :: rest => if needle <+: a :: rest then some 0 else (firstAt needle rest).map (· + 1)

/-- A place where the needle stands, and no earlier one does. -/
theorem firstAt_eq_some {hay : List α} {i : Nat} (found : firstAt needle hay = some i) :
    StandsAt hay i needle ∧ ∀ j < i, ¬StandsAt hay j needle := by
  induction hay generalizing i with
  | nil =>
    rw [firstAt] at found
    split at found
    · rename_i empty
      cases found
      rw [empty]
      exact ⟨List.nil_prefix, by omega⟩
    · cases found
  | cons a rest ih =>
    rw [firstAt] at found
    split at found
    · rename_i here
      cases found
      exact ⟨here, by omega⟩
    · rename_i elsewhere
      rw [Option.map_eq_some_iff] at found
      obtain ⟨k, later, rfl⟩ := found
      obtain ⟨stands, before⟩ := ih later
      refine ⟨stands, fun j bound => ?_⟩
      cases j with
      | zero => exact elsewhere
      | succ j => exact before j (by omega)

theorem firstAt_of_prefix (here : needle <+: back) : firstAt needle back = some 0 := by
  cases back with
  | nil => rw [firstAt, if_pos (List.prefix_nil.mp here)]
  | cons a rest => rw [firstAt, if_pos here]

/-- The search passes over a front in which no occurrence starts. -/
theorem firstAt_append (nothing : ∀ j < front.length, ¬StandsAt (front ++ back) j needle) :
    firstAt needle (front ++ back) = (firstAt needle back).map (· + front.length) := by
  induction front with
  | nil => simp
  | cons a front ih =>
    have elsewhere : ¬needle <+: a :: (front ++ back) := nothing 0 (by simp)
    rw [List.cons_append, firstAt, if_neg elsewhere, ih, Option.map_map]
    · rfl
    · intro j bound
      exact nothing (j + 1) (by simpa using bound)

/-- The search passes over a front without the cell that the needle starts with. -/
theorem firstAt_append_of_notMem {a : α} (absent : a ∉ front) :
    firstAt (a :: needle) (front ++ back) =
      (firstAt (a :: needle) back).map (· + front.length) := by
  apply firstAt_append
  intro j bound stands
  obtain ⟨rest, same⟩ := stands
  have first := congrArg List.head? same
  rw [List.cons_append, List.head?_cons, List.head?_drop, List.getElem?_append_left bound,
    List.getElem?_eq_getElem bound] at first
  exact absent (Option.some.inj first ▸ List.getElem_mem bound)

theorem firstAt_cons_of_not_prefix {a : α} (elsewhere : ¬needle <+: a :: back) :
    firstAt needle (a :: back) = (firstAt needle back).map (· + 1) := by
  rw [firstAt, if_neg elsewhere]

omit [DecidableEq α] in
/-- A word up to its end mark stands at the start only of the same word with the mark. -/
theorem marked_isPrefix_iff {mark : α} (absent : mark ∉ needle) (free : mark ∉ front) :
    needle ++ [mark] <+: front ++ mark :: back ↔ needle = front := by
  induction needle generalizing front with
  | nil =>
    cases front with
    | nil => simp
    | cons a front =>
      have other : mark ≠ a := fun same => free (by simp [same])
      simp [List.cons_prefix_cons, other]
  | cons b needle ih =>
    cases front with
    | nil =>
      have other : b ≠ mark := fun same => absent (by simp [same])
      simp [List.cons_prefix_cons, other]
    | cons a front =>
      rw [List.cons_append, List.cons_append, List.cons_prefix_cons, List.cons.injEq,
        ih (fun member => absent (by simp [member])) (fun member => free (by simp [member]))]

/-- Nothing is found in a part of the list that ends before the first occurrence does. -/
theorem firstAt_take_eq_none {hay : List α} {i k : Nat} (found : firstAt needle hay = some i)
    (nonempty : 0 < needle.length) (short : k < i + needle.length) :
    firstAt needle (hay.take k) = none := by
  rw [Option.eq_none_iff_forall_ne_some]
  intro j early
  obtain ⟨stands, _⟩ := firstAt_eq_some early
  have size : needle.length ≤ k - j := by
    have bound := stands.length_le
    simp only [List.length_drop, List.length_take] at bound
    omega
  have whole : StandsAt hay j needle := by
    rw [StandsAt, List.drop_take] at stands
    exact stands.trans (List.take_prefix _ _)
  have first : i ≤ j := by
    by_contra before
    exact (firstAt_eq_some found).2 j (by omega) whole
  omega

/-- Nothing is found exactly when the needle stands nowhere in the list. -/
theorem firstAt_eq_none_iff {hay : List α} : firstAt needle hay = none ↔ ¬needle <:+: hay := by
  induction hay with
  | nil => simp [firstAt]
  | cons a rest ih =>
    rw [firstAt, List.infix_cons_iff, not_or]
    split
    next here => simp [here]
    next elsewhere => simp [elsewhere, ih]

omit [DecidableEq α] in
/-- The needle does not reach across a cell that it does not have. -/
theorem infix_append_cons_iff {a : α} (absent : a ∉ needle) :
    needle <:+: front ++ a :: back ↔ needle <:+: front ∨ needle <:+: back := by
  constructor
  · rintro ⟨before, after, same⟩
    rw [List.append_assoc] at same
    rcases List.append_eq_append_iff.mp same with ⟨gap, split, rest⟩ | ⟨gap, split, rest⟩
    · -- The needle starts in the front.
      rcases List.append_eq_append_iff.mp rest with ⟨short, inner, -⟩ | ⟨short, inner, tail⟩
      · exact .inl ⟨before, short, by rw [split, inner, List.append_assoc]⟩
      · cases short with
        | nil => exact .inl ⟨before, [], by rw [split, inner, List.append_nil, List.append_nil]⟩
        | cons b short =>
          obtain ⟨rfl, -⟩ := List.cons.inj tail
          exact absurd (by rw [inner]; simp) absent
    · cases gap with
      | nil =>
        cases needle with
        | nil => exact .inl List.nil_infix
        | cons b needle =>
          obtain ⟨rfl, -⟩ := List.cons.inj rest
          exact absurd List.mem_cons_self absent
      | cons b gap =>
        obtain ⟨-, rest⟩ := List.cons.inj rest
        exact .inr ⟨gap, after, (List.append_assoc gap needle after).trans rest.symm⟩
  · rintro (inside | inside)
    · exact inside.trans (List.prefix_append front _).isInfix
    · exact inside.trans ((List.suffix_cons a back).isInfix.trans (List.suffix_append front _).isInfix)

end Search
