import Mathlib.Logic.Function.Basic

/-! A stack that grows downwards through a page of 256 cells and wraps round in it. -/
namespace PageStack

variable {β : Type} {cells : UInt8 → β} {sp : UInt8} {values : List β}

/-- The values above the pointer, the last pushed first. -/
def Holds (cells : UInt8 → β) (sp : UInt8) : List β → Prop
  | [] => True
  | value :: rest => cells (sp + 1) = value ∧ Holds cells (sp + 1) rest

/-- One of the `depth` places above the pointer. -/
def Above (sp : UInt8) (depth : Nat) (place : UInt8) : Prop :=
  ∃ i < depth, place = sp + 1 + UInt8.ofNat i

theorem Above.top (sp : UInt8) (depth : Nat) : Above sp (depth + 1) (sp + 1) :=
  ⟨0, Nat.succ_pos _, by simp⟩

theorem Above.later {depth : Nat} {place : UInt8} (above : Above (sp + 1) depth place) :
    Above sp (depth + 1) place := by
  obtain ⟨i, small, rfl⟩ := above
  refine ⟨i + 1, Nat.succ_lt_succ small, ?_⟩
  rw [UInt8.ofNat_add, UInt8.add_comm (UInt8.ofNat i), ← UInt8.add_assoc]
  rfl

/-- The pointer's own place comes round only after 256 others. -/
theorem Above.ne {depth : Nat} {place : UInt8} (above : Above sp depth place) (room : depth < 256) :
    place ≠ sp := by
  obtain ⟨i, small, rfl⟩ := above
  intro round
  have same := congrArg UInt8.toNat round
  have pointer := sp.toNat_lt
  rw [UInt8.toNat_add, UInt8.toNat_add, UInt8.toNat_ofNat'] at same
  simp only [UInt8.toNat_one] at same
  omega

theorem Holds.frame {after : UInt8 → β} (holds : Holds cells sp values)
    (same : ∀ place, Above sp values.length place → after place = cells place) :
    Holds after sp values := by
  induction values generalizing sp with
  | nil => trivial
  | cons value rest ih =>
    obtain ⟨top, below⟩ := holds
    exact ⟨(same _ (.top sp _)).trans top, ih below fun place above => same place above.later⟩

theorem Holds.push (holds : Holds cells sp values) (room : values.length < 256) (value : β) :
    Holds (Function.update cells sp value) (sp - 1) (value :: values) := by
  rw [Holds, UInt8.sub_add_cancel]
  exact ⟨Function.update_self _ _ _,
    holds.frame fun place above => Function.update_of_ne (above.ne room) _ _⟩

end PageStack
