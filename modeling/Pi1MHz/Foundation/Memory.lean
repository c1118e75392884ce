/-! A flat memory of cells of any type, with block reads and writes. The allocated size is
not part of it: bounds are stated where a program relies on them. -/

/-- Cells by absolute offset. -/
abbrev Memory (α : Type) := Nat → α

namespace Memory
variable {α : Type}

/-- Store `cells` at consecutive offsets from `base`. -/
def write (memory : Memory α) (base : Nat) (cells : List α) : Memory α := fun i =>
  if base ≤ i then (cells[i - base]?).getD (memory i) else memory i

/-- The `count` cells from `base`. -/
def read (memory : Memory α) (base count : Nat) : List α :=
  (List.range count).map (fun i => memory (base + i))

@[simp] theorem read_length (memory : Memory α) (base count : Nat) :
    (memory.read base count).length = count := by
  simp [read]

@[simp] theorem read_getElem (memory : Memory α) (base count i : Nat)
    (bound : i < (memory.read base count).length) :
    (memory.read base count)[i] = memory (base + i) := by
  simp [read]

@[simp] theorem read_zero (memory : Memory α) (base : Nat) : memory.read base 0 = [] := rfl

theorem read_ext {left right : Memory α} {base other count : Nat}
    (same : ∀ i < count, left (base + i) = right (other + i)) :
    left.read base count = right.read other count := by
  apply List.ext_getElem
  · simp
  · intro i bound _
    simpa using same i (by simpa using bound)

theorem read_add (memory : Memory α) (base first second : Nat) :
    memory.read base (first + second) = memory.read base first ++ memory.read (base + first) second := by
  apply List.ext_getElem
  · simp
  · intro i bound _
    by_cases early : i < first
    · rw [List.getElem_append_left (by simpa using early)]
      simp
    · rw [List.getElem_append_right (by simpa using early)]
      simp only [read_getElem, read_length]
      congr 1
      omega

theorem read_succ (memory : Memory α) (base count : Nat) :
    memory.read base (count + 1) = memory base :: memory.read (base + 1) count := by
  simp only [read, List.range_succ_eq_map, List.map_cons, List.map_map, Nat.add_zero]
  congr 1
  apply List.map_congr_left
  intro i _
  simp only [Function.comp_apply]
  congr 1
  omega

theorem read_take (memory : Memory α) (base count k : Nat) :
    (memory.read base count).take k = memory.read base (min k count) := by
  apply List.ext_getElem
  · simp
  · intro i bound _
    simp

theorem read_drop (memory : Memory α) (base count k : Nat) :
    (memory.read base count).drop k = memory.read (base + k) (count - k) := by
  apply List.ext_getElem
  · simp
  · intro i bound _
    simp [Nat.add_assoc]

theorem write_inside (memory : Memory α) (base : Nat) (cells : List α) (i : Nat)
    (bound : i < cells.length) : memory.write base cells (base + i) = cells[i] := by
  simp [write, bound]

theorem write_outside (memory : Memory α) (base : Nat) (cells : List α) (i : Nat)
    (outside : i < base ∨ base + cells.length ≤ i) : memory.write base cells i = memory i := by
  simp only [write]
  split
  · rw [List.getElem?_eq_none (by omega), Option.getD_none]
  · rfl

theorem write_nil (memory : Memory α) (base : Nat) : memory.write base [] = memory :=
  funext fun i => memory.write_outside base [] i (by rw [List.length_nil]; omega)

theorem read_write (memory : Memory α) (base : Nat) (cells : List α) :
    (memory.write base cells).read base cells.length = cells := by
  apply List.ext_getElem
  · simp
  · intro i _ bound
    simp [write_inside _ _ _ _ bound]

theorem read_write_of_length (memory : Memory α) (base : Nat) {cells : List α} {count : Nat}
    (length : cells.length = count) : (memory.write base cells).read base count = cells := by
  subst length
  exact read_write memory base cells

/-- Part of a block just written. -/
theorem read_write_inside (memory : Memory α) (base offset count : Nat) (cells : List α)
    (inside : offset + count ≤ cells.length) :
    (memory.write base cells).read (base + offset) count = (cells.drop offset).take count := by
  have whole := memory.read_write base cells
  conv => rhs; rw [← whole]
  rw [read_drop, read_take, Nat.min_eq_left (by omega)]

/-- A block write leaves every disjoint block as it was. -/
theorem read_write_disjoint (memory : Memory α) {base other count : Nat} {cells : List α}
    (disjoint : other + count ≤ base ∨ base + cells.length ≤ other) :
    (memory.write base cells).read other count = memory.read other count := by
  apply read_ext
  intro i bound
  exact write_outside _ _ _ _ (by omega)

/-- A block written at the start of a longer block replaces exactly its front. -/
theorem read_write_front (memory : Memory α) (base count : Nat) (cells : List α) :
    (memory.write base cells).read base count =
      (cells ++ (memory.read base count).drop cells.length).take count := by
  apply List.ext_getElem
  · simp
    omega
  · intro i bound _
    simp only [read_length] at bound
    by_cases inside : i < cells.length
    · simp [inside, write_inside]
    · simp only [read_getElem, List.getElem_take]
      rw [List.getElem_append_right (by omega)]
      simp only [List.getElem_drop, read_getElem]
      rw [write_outside _ _ _ _ (by omega)]
      congr 1
      omega

/-- One more cell at the end of what the memory starts with. -/
theorem read_write_snoc (memory : Memory α) (cells : List α) (cell : α)
    (holds : memory.read 0 cells.length = cells) :
    (memory.write cells.length [cell]).read 0 (cells ++ [cell]).length = cells ++ [cell] := by
  have stored := (memory.write cells.length [cell]).read_add 0 cells.length 1
  rw [List.length_append, List.length_singleton, stored]
  congr 1
  · rw [read_write_disjoint _ (by omega), holds]
  · rw [Nat.zero_add]
    exact read_write _ _ _

/-- Two blocks stored at one offset are one block. -/
theorem write_write (memory : Memory α) (base : Nat) (first second : List α) :
    (memory.write base first).write base second =
      memory.write base (second ++ first.drop second.length) := by
  funext i
  simp only [write]
  split
  · by_cases inside : i - base < second.length
    · rw [List.getElem?_append_left inside, List.getElem?_eq_getElem inside]
      rfl
    · rw [List.getElem?_append_right (by omega), List.getElem?_eq_none (by omega),
        List.getElem?_drop, Option.getD_none]
      congr 3
      omega
  · rfl

/-- A block stored right behind another one prolongs it. -/
theorem write_append (memory : Memory α) (base : Nat) (first second : List α) :
    (memory.write base first).write (base + first.length) second =
      memory.write base (first ++ second) := by
  funext i
  simp only [write]
  by_cases below : i < base
  · rw [if_neg (by omega), if_neg (by omega), if_neg (by omega)]
  · by_cases early : i < base + first.length
    · rw [if_neg (by omega), if_pos (by omega), if_pos (by omega),
        List.getElem?_append_left (by omega)]
    · rw [if_pos (by omega), if_pos (by omega), if_pos (by omega),
        List.getElem?_append_right (by omega), List.getElem?_eq_none (by omega : first.length ≤ i - base),
        Option.getD_none, Nat.sub_sub]

section Frames

/-- The places of the block of `count` cells from `base`. -/
def Block (base count i : Nat) : Prop := base ≤ i ∧ i < base + count

/-- The two memories differ at the given places only. -/
def Within (places : Nat → Prop) (before after : Memory α) : Prop :=
  ∀ i, ¬places i → after i = before i

variable {places more : Nat → Prop} {before middle after : Memory α}

theorem Within.refl (places : Nat → Prop) (memory : Memory α) : Within places memory memory :=
  fun _ _ => rfl

theorem Within.trans (first : Within places before middle) (second : Within places middle after) :
    Within places before after :=
  fun i outside => (second i outside).trans (first i outside)

theorem Within.mono (within : Within places before after) (wider : ∀ i, places i → more i) :
    Within more before after :=
  fun i outside => within i fun inside => outside (wider i inside)

/-- A block write changes the places of its cells only. -/
theorem within_write (memory : Memory α) (base : Nat) (cells : List α) :
    Within (Block base cells.length) memory (memory.write base cells) := by
  intro i outside
  apply write_outside
  rw [Block] at outside
  omega

theorem Block.shorter {base count longer i : Nat} (short : count ≤ longer) (inside : Block base count i) :
    Block base longer i :=
  ⟨inside.1, by have := inside.2; omega⟩

end Frames

end Memory
