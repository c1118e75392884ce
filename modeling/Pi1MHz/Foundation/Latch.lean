import Mathlib.Data.List.Basic

/-! A one-place latch in front of a single worker. A post overwrites what the place holds, a
capture hands it to the worker. Posts are known by their number. -/

structure Latch where
  next : Nat
  posted : Option Nat
  active : Option Nat
  completed : List Nat
  replaced : List Nat
deriving DecidableEq, Repr

namespace Latch

inductive Op
  | post
  | capture
  | complete
deriving DecidableEq, Repr

def empty : Latch := ⟨0, none, none, [], []⟩

/-- A post that finds the place taken replaces what it holds. -/
def step (l : Latch) : Op → Latch
  | .post => { l with
      next := l.next + 1, posted := some l.next, replaced := l.replaced ++ l.posted.toList }
  | .capture => { l with posted := none, active := l.posted }
  | .complete => { l with active := none, completed := l.completed ++ l.active.toList }

def replay (l : Latch) (ops : List Op) : Latch := ops.foldl step l

/-- The posts that were not replaced, oldest first. -/
def held (l : Latch) : List Nat := l.completed ++ l.active.toList ++ l.posted.toList

theorem completed_sublist (l : Latch) : l.completed.Sublist l.held := by
  rw [held, List.append_assoc]
  exact List.sublist_append_left _ _

/-- Every post is held or replaced, in order, and the latest is held at the end. -/
structure Accounted (l : Latch) : Prop where
  order : l.held.Sublist (List.range l.next)
  covered : ∀ i < l.next, i ∈ l.held ∨ i ∈ l.replaced
  lost : ∀ i ∈ l.replaced, i ∉ l.held
  within : ∀ i ∈ l.replaced, i < l.next
  newest : ∀ i, l.posted = some i → i + 1 = l.next
  recent : ∀ i, i + 1 = l.next → i ∈ l.held

theorem empty_accounted : empty.Accounted := by
  refine ⟨List.Sublist.refl _, ?_, ?_, ?_, ?_, ?_⟩
  · intro i bound
    cases bound
  · intro i member
    cases member
  · intro i member
    cases member
  · intro i same
    cases same
  · intro i same
    cases same

variable {l : Latch}

theorem Accounted.lt_next (accounted : l.Accounted) {i : Nat} (member : i ∈ l.held) :
    i < l.next :=
  List.mem_range.mp (accounted.order.subset member)

/-- What a post leaves of the places. -/
theorem held_post : (l.step .post).held = l.completed ++ l.active.toList ++ [l.next] := by
  simp [step, held]

theorem Accounted.post (accounted : l.Accounted) : (l.step .post).Accounted := by
  have kept : (l.completed ++ l.active.toList).Sublist (List.range l.next) :=
    (List.sublist_append_left _ _).trans accounted.order
  have old (i : Nat) (member : i ∈ l.completed ++ l.active.toList) : i < l.next :=
    List.mem_range.mp (kept.subset member)
  have distinct : l.held.Nodup := accounted.order.nodup List.nodup_range
  refine ⟨?_, ?_, ?_, ?_, ?_, ?_⟩
  · rw [held_post]
    simp only [step, List.range_succ]
    exact kept.append (List.Sublist.refl _)
  · intro i bound
    rw [held_post]
    simp only [step, List.mem_append, List.mem_singleton] at bound ⊢
    rcases Nat.lt_succ_iff_lt_or_eq.mp bound with earlier | rfl
    · rcases accounted.covered i earlier with member | member
      · simp only [held, List.mem_append] at member
        rcases member with (member | member) | member
        · exact .inl (.inl (.inl member))
        · exact .inl (.inl (.inr member))
        · exact .inr (.inr member)
      · exact .inr (.inl member)
    · exact .inl (.inr rfl)
  · intro i member
    rw [held_post]
    simp only [step, List.mem_append] at member
    rw [List.mem_append, List.mem_singleton, not_or]
    rcases member with member | member
    · refine ⟨fun inside => accounted.lost i member ?_, ?_⟩
      · exact List.mem_append_left _ inside
      · exact Nat.ne_of_lt (accounted.within i member)
    · constructor
      · intro inside
        exact (List.nodup_append.mp distinct).2.2 i inside i member rfl
      · exact Nat.ne_of_lt (accounted.lt_next (List.mem_append_right _ member))
  · intro i member
    simp only [step, List.mem_append] at member ⊢
    rcases member with member | member
    · exact Nat.lt_succ_of_lt (accounted.within i member)
    · exact Nat.lt_succ_of_lt (accounted.lt_next (List.mem_append_right _ member))
  · intro i same
    simp only [step, Option.some.injEq] at same ⊢
    rw [same]
  · intro i same
    rw [held_post]
    simp only [step, Nat.add_right_cancel_iff] at same
    rw [same]
    exact List.mem_append_right _ (List.mem_singleton.mpr rfl)

/-- A step that only moves posts along keeps the account. -/
theorem Accounted.congr {after : Latch} (accounted : l.Accounted) (held : after.held = l.held)
    (next : after.next = l.next) (replaced : after.replaced = l.replaced)
    (posted : ∀ i, after.posted = some i → l.posted = some i) : after.Accounted := by
  refine ⟨?_, ?_, ?_, ?_, ?_, ?_⟩
  · rw [held, next]
    exact accounted.order
  · rw [held, next, replaced]
    exact accounted.covered
  · rw [held, replaced]
    exact accounted.lost
  · rw [next, replaced]
    exact accounted.within
  · intro i same
    rw [next]
    exact accounted.newest i (posted i same)
  · rw [held, next]
    exact accounted.recent

theorem Accounted.capture (accounted : l.Accounted) (free : l.active = none) :
    (l.step .capture).Accounted := by
  refine accounted.congr ?_ rfl rfl ?_
  · simp [step, held, free]
  · intro i same
    cases same

theorem Accounted.complete (accounted : l.Accounted) : (l.step .complete).Accounted := by
  refine accounted.congr ?_ rfl rfl fun i same => same
  simp [step, held]

end Latch
