import Pi1MHz.Foundation.Framing

/-! Where the complete frames of a string stand, and what mapping every one of them does to the
string. -/
namespace Framing
variable {α : Type} (F : Framing α)

/-- A complete frame of the string and the place where it stands. -/
inductive FrameAt : List α → Nat → List α → Prop
  | here {xs c rest} (found : F.split xs = some (c, rest)) : FrameAt xs 0 c
  | later {xs c rest k d} (found : F.split xs = some (c, rest)) (after : FrameAt rest k d) :
      FrameAt xs (c.length + k) d

/-- The string with its complete frames mapped. -/
def mapFrames (f : List α → List α) (xs : List α) : List α := (F.walk f xs).1 ++ (F.walk f xs).2

variable {F} {f : List α → List α} {xs c d rest : List α} {k : Nat}

theorem mapFrames_none (stop : F.split xs = none) : F.mapFrames f xs = xs := by
  rw [mapFrames, walk_none stop]
  rfl

theorem mapFrames_some (found : F.split xs = some (c, rest)) :
    F.mapFrames f xs = f c ++ F.mapFrames f rest := by
  rw [mapFrames, walk_some found, mapFrames, List.append_assoc]

section Places

theorem not_frameAt (stop : F.split xs = none) : ¬F.FrameAt xs k c := by
  intro frame
  cases frame with
  | here found =>
    rw [stop] at found
    cases found
  | later found _ =>
    rw [stop] at found
    cases found

/-- A frame is the first one, or one of the rest. -/
theorem frameAt_iff (found : F.split xs = some (c, rest)) :
    F.FrameAt xs k d ↔ k = 0 ∧ d = c ∨ ∃ j, k = c.length + j ∧ F.FrameAt rest j d := by
  constructor
  · intro frame
    cases frame with
    | here first =>
      rw [found] at first
      cases first
      exact .inl ⟨rfl, rfl⟩
    | later first after =>
      rw [found] at first
      cases first
      exact .inr ⟨_, rfl, after⟩
  · rintro (⟨rfl, rfl⟩ | ⟨j, rfl, after⟩)
    · exact .here found
    · exact .later found after

/-- The walk ends where the last frame does, or at once when there is none. -/
theorem walk_end (preserves : ∀ c, (f c).length = c.length) (xs : List α) :
    let framed := (F.walk f xs).1.length
    (framed = 0 ∧ (∀ k c, ¬F.FrameAt xs k c) ∨ ∃ k c, F.FrameAt xs k c ∧ framed = k + c.length) ∧
      ∀ k c, F.FrameAt xs k c → k + c.length ≤ framed := by
  refine walk_induction (F := F) ?_ ?_ xs
  · intro xs stop
    rw [walk_none stop]
    exact ⟨.inl ⟨rfl, fun _ _ => not_frameAt stop⟩, fun _ _ frame => absurd frame (not_frameAt stop)⟩
  · intro xs c rest found ⟨ends, inside⟩
    simp only [walk_some found, List.length_append, preserves]
    constructor
    · right
      obtain ⟨_, _⟩ | ⟨k, d, after, last⟩ := ends
      · exact ⟨0, c, .here found, by omega⟩
      · exact ⟨c.length + k, d, .later found after, by omega⟩
    · intro k d frame
      rw [frameAt_iff found] at frame
      obtain ⟨rfl, rfl⟩ | ⟨j, rfl, after⟩ := frame
      · omega
      · have bound := inside j d after
        omega

end Places

section Announced

/-- The function keeps the lengths of frames and what they announce. -/
structure Keeps (F : Framing α) (f : List α → List α) : Prop where
  length : ∀ c, (f c).length = c.length
  size : ∀ c xs ys, F.size (c ++ xs) = some c.length → F.size (f c ++ ys) = some c.length

variable (keeps : Keeps F f)
include keeps

theorem split_mapFrames (found : F.split xs = some (c, rest)) :
    F.split (F.mapFrames f xs) = some (f c, F.mapFrames f rest) := by
  obtain ⟨size, same⟩ := split_eq_some.mp found
  rw [same] at size
  rw [mapFrames_some found]
  refine split_eq_some.mpr ⟨?_, rfl⟩
  rw [keeps.length]
  exact keeps.size c rest _ size

/-- The frames of the mapped string are the mapped frames, at their places. -/
theorem frameAt_mapFrames (k : Nat) :
    F.FrameAt (F.mapFrames f xs) k d ↔ ∃ c, F.FrameAt xs k c ∧ d = f c := by
  revert k
  refine walk_induction (F := F) ?_ ?_ xs
  · intro xs stop k
    rw [mapFrames_none stop]
    constructor
    · intro frame
      exact absurd frame (not_frameAt stop)
    · rintro ⟨c, frame, _⟩
      exact absurd frame (not_frameAt stop)
  · intro xs c rest found ih k
    simp only [frameAt_iff (split_mapFrames keeps found), frameAt_iff found, ih, keeps.length]
    constructor
    · rintro (⟨first, rfl⟩ | ⟨j, place, e, after, rfl⟩)
      · exact ⟨c, .inl ⟨first, rfl⟩, rfl⟩
      · exact ⟨e, .inr ⟨j, place, after⟩, rfl⟩
    · rintro ⟨e, ⟨first, rfl⟩ | ⟨j, place, after⟩, rfl⟩
      · exact .inl ⟨first, rfl⟩
      · exact .inr ⟨j, place, e, after, rfl⟩

/-- The walk over the mapped string ends at the same place. -/
theorem walk_mapFrames_length (xs : List α) :
    (F.walk f (F.mapFrames f xs)).1.length = (F.walk f xs).1.length := by
  refine walk_induction (F := F) ?_ ?_ xs
  · intro xs stop
    rw [mapFrames_none stop]
  · intro xs c rest found ih
    rw [walk_some (split_mapFrames keeps found), walk_some found, List.length_append,
      List.length_append, ih, keeps.length]

end Announced

end Framing
