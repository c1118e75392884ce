import Mathlib.Data.Nat.ModEq
import Pi1MHz.Foundation.Memory

/-! A ring of cells of any type and capacity, filled at the head and emptied at the tail, as
the bounded queue that it implements. -/

/-- A ring buffer with its occupancy kept apart. -/
structure RingBuffer (α : Type) where
  buffer : Memory α
  head : Nat
  tail : Nat
  count : Nat

namespace RingBuffer
variable {α : Type} (capacity : Nat)

def push (r : RingBuffer α) (cell : α) : RingBuffer α :=
  { r with
    buffer := r.buffer.write r.head [cell]
    head := (r.head + 1) % capacity
    count := r.count + 1 }

def append (r : RingBuffer α) (cells : List α) : RingBuffer α := cells.foldl (push capacity) r

/-- Take `n` cells from the tail, oldest first. -/
def drain (r : RingBuffer α) : Nat → List α × RingBuffer α
  | 0 => ([], r)
  | n + 1 =>
    let rest := { r with tail := (r.tail + 1) % capacity, count := r.count - 1 }.drain n
    (r.buffer r.tail :: rest.1, rest.2)

/-- The queued cells, oldest first. -/
def contents (r : RingBuffer α) : List α :=
  (List.range r.count).map fun i => r.buffer ((r.tail + i) % capacity)

/-- The head stands `count` cells after the tail and has not overtaken it. -/
structure WellFormed (r : RingBuffer α) : Prop where
  tail_lt : r.tail < capacity
  head_eq : r.head = (r.tail + r.count) % capacity
  count_le : r.count ≤ capacity

variable {capacity} {r : RingBuffer α}

@[simp] theorem contents_length : (r.contents capacity).length = r.count := by
  simp [contents]

theorem contents_eq_nil : r.contents capacity = [] ↔ r.count = 0 := by
  rw [← List.length_eq_zero_iff, contents_length]

/-- Two cells of one lap have different places. -/
theorem place_ne (base : Nat) {i j : Nat} (order : i < j) (lap : j < capacity) :
    (base + i) % capacity ≠ (base + j) % capacity := by
  intro same
  have cancelled : i ≡ j [MOD capacity] := Nat.ModEq.add_left_cancel' base same
  have equal := cancelled.eq_of_lt_of_lt (by omega) lap
  omega

theorem WellFormed.push (wf : r.WellFormed capacity) (room : r.count < capacity) (cell : α) :
    (r.push capacity cell).WellFormed capacity := by
  constructor
  · exact wf.tail_lt
  · simp only [RingBuffer.push, wf.head_eq, Nat.mod_add_mod, Nat.add_assoc]
  · exact room

theorem WellFormed.contents_push (wf : r.WellFormed capacity) (room : r.count < capacity)
    (cell : α) : (r.push capacity cell).contents capacity = r.contents capacity ++ [cell] := by
  simp only [contents, RingBuffer.push, List.range_succ, List.map_append, List.map_cons, List.map_nil]
  congr 1
  · apply List.map_congr_left
    intro i member
    have bound := List.mem_range.mp member
    have apart := place_ne r.tail bound room
    rw [← wf.head_eq] at apart
    apply Memory.write_outside
    simp only [List.length_singleton]
    omega
  · rw [← wf.head_eq]
    simpa using Memory.write_inside r.buffer r.head [cell] 0 (by simp)

theorem WellFormed.append (wf : r.WellFormed capacity) (cells : List α)
    (room : r.count + cells.length ≤ capacity) :
    (r.append capacity cells).WellFormed capacity ∧
      (r.append capacity cells).contents capacity = r.contents capacity ++ cells := by
  induction cells generalizing r with
  | nil => simpa [RingBuffer.append] using wf
  | cons cell cells ih =>
    simp only [List.length_cons] at room
    have next := ih (wf.push (by omega) cell) (by simp only [RingBuffer.push]; omega)
    refine ⟨next.1, next.2.trans ?_⟩
    rw [wf.contents_push (by omega)]
    simp

theorem contents_of_pos (pos : 0 < r.count) (wf : r.WellFormed capacity) :
    r.contents capacity = r.buffer r.tail ::
      { r with tail := (r.tail + 1) % capacity, count := r.count - 1 }.contents capacity := by
  obtain ⟨n, positive⟩ : ∃ n, r.count = n + 1 := ⟨r.count - 1, by omega⟩
  simp only [contents, positive, List.range_succ_eq_map, List.map_cons, Nat.add_zero,
    Nat.mod_eq_of_lt wf.tail_lt, List.map_map, Nat.add_sub_cancel]
  congr 1
  apply List.map_congr_left
  intro i _
  simp only [Function.comp_apply, Nat.mod_add_mod]
  congr 2
  omega

theorem WellFormed.drain (wf : r.WellFormed capacity) {n : Nat} (enough : n ≤ r.count) :
    (r.drain capacity n).2.WellFormed capacity ∧
      (r.drain capacity n).1 = (r.contents capacity).take n ∧
      (r.drain capacity n).2.contents capacity = (r.contents capacity).drop n ∧
      (r.drain capacity n).2.count = r.count - n := by
  induction n generalizing r with
  | zero => simpa [RingBuffer.drain] using wf
  | succ n ih =>
    let popped : RingBuffer α := { r with tail := (r.tail + 1) % capacity, count := r.count - 1 }
    have poppedWf : popped.WellFormed capacity := by
      constructor
      · exact Nat.mod_lt _ (by have := wf.tail_lt; omega)
      · simp only [popped, wf.head_eq, Nat.mod_add_mod]
        congr 1
        omega
      · have := wf.count_le
        simp only [popped]
        omega
    obtain ⟨restWf, taken, left, count⟩ := ih poppedWf (by simp only [popped]; omega)
    rw [contents_of_pos (by omega) wf]
    refine ⟨restWf, ?_, ?_, ?_⟩
    · simp only [RingBuffer.drain, List.take_succ_cons]
      exact congrArg _ taken
    · simpa [RingBuffer.drain] using left
    · simp only [RingBuffer.drain]
      rw [count]
      simp only [popped]
      omega

end RingBuffer
