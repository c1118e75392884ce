/-! Cells that stand at an offset of a longer list: a decoder that reads a list by offsets
is followed over an encoding without taking the list apart. -/

/-- `cells` stand in `image` from `pos` on. -/
def StandsAt {α : Type} (image : List α) (pos : Nat) (cells : List α) : Prop :=
  cells <+: image.drop pos

namespace StandsAt
variable {α : Type} {image front back cells : List α} {pos : Nat} {a : α}

theorem after (front cells : List α) : StandsAt (front ++ cells) front.length cells := by
  simp [StandsAt]

theorem append_iff : StandsAt image pos (front ++ back) ↔
    StandsAt image pos front ∧ StandsAt image (pos + front.length) back := by
  simp only [StandsAt, ← List.drop_drop]
  constructor
  · rintro ⟨rest, same⟩
    rw [← same, List.append_assoc]
    exact ⟨List.prefix_append _ _, by simp⟩
  · rintro ⟨⟨rest, same⟩, behind⟩
    rw [← same] at behind ⊢
    rw [List.drop_left] at behind
    exact (List.prefix_append_right_inj front).mpr behind

theorem append_left (stands : StandsAt image pos (front ++ back)) : StandsAt image pos front :=
  (append_iff.mp stands).1

theorem append_right (stands : StandsAt image pos (front ++ back)) :
    StandsAt image (pos + front.length) back :=
  (append_iff.mp stands).2

theorem tail (stands : StandsAt image pos (a :: cells)) : StandsAt image (pos + 1) cells :=
  (append_iff.mp (show StandsAt image pos ([a] ++ cells) from stands)).2

theorem getD (stands : StandsAt image pos (a :: cells)) (d : α) : image.getD pos d = a := by
  obtain ⟨rest, same⟩ := stands
  have first := congrArg List.head? same
  rw [List.head?_drop, List.cons_append, List.head?_cons] at first
  rw [List.getD_eq_getElem?_getD, ← first, Option.getD_some]

theorem take_drop (stands : StandsAt image pos cells) : (image.drop pos).take cells.length = cells := by
  obtain ⟨rest, same⟩ := stands
  rw [← same, List.take_left]

end StandsAt
