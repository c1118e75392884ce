import Pi1MHz.Foundation.Memory

/-! Paged layouts: a byte string laid out in runs of `run` cells, one per page of `stride`
cells, and read back by the same walk. -/
namespace Memory
variable {α : Type}

/-- Copy `source` in runs of at most `run` cells to the pages from `base` on. -/
def scatter (memory : Memory α) (base stride run : Nat) (source : List α) : Memory α :=
  if source = [] ∨ run = 0 then memory
  else scatter (memory.write base (source.take run)) (base + stride) stride run (source.drop run)
termination_by source.length
decreasing_by
  have nonempty : 0 < source.length := List.length_pos_iff.mpr (by simp_all)
  simp only [List.length_drop]
  omega

/-- The walk over pages that reads `count` cells, `run` of them from each page. -/
def gather (memory : Memory α) (base stride run count : Nat) : List α :=
  (List.range count).map fun i => memory (base + i / run * stride + i % run)

@[simp] theorem gather_length (memory : Memory α) (base stride run count : Nat) :
    (memory.gather base stride run count).length = count := by
  simp [gather]

theorem gather_getElem (memory : Memory α) (base stride run count i : Nat)
    (bound : i < (memory.gather base stride run count).length) :
    (memory.gather base stride run count)[i] = memory (base + i / run * stride + i % run) := by
  simp [gather]

theorem scatter_before (memory : Memory α) (base stride run i : Nat) (source : List α)
    (before : i < base) : memory.scatter base stride run source i = memory i := by
  induction memory, base, source using scatter.induct stride run with
  | case1 memory base source done => rw [scatter, if_pos done]
  | case2 memory base source more ih =>
    rw [scatter, if_neg more, ih (by omega)]
    exact write_outside _ _ _ _ (Or.inl before)

/-- Each source cell lands in its page and run. -/
theorem scatter_inside (memory : Memory α) (base stride run i : Nat) (source : List α)
    (positive : 0 < run) (fits : run ≤ stride) (bound : i < source.length) :
    memory.scatter base stride run source (base + i / run * stride + i % run) = source[i] := by
  induction memory, base, source using scatter.induct stride run generalizing i with
  | case1 memory base source done =>
    rcases done with empty | zero
    · simp [empty] at bound
    · omega
  | case2 memory base source more ih =>
    rw [scatter, if_neg more]
    by_cases first : i < run
    · rw [Nat.div_eq_of_lt first, Nat.mod_eq_of_lt first, Nat.zero_mul, Nat.add_zero,
        scatter_before _ _ _ _ _ _ (by omega), write_inside _ _ _ _ (by simp; omega)]
      simp
    · have later := ih (i - run) (by simp; omega)
      have quotient : i / run = (i - run) / run + 1 := by
        rw [Nat.div_eq_sub_div positive (by omega)]
      have remainder : i % run = (i - run) % run := Nat.mod_eq_sub_mod (by omega)
      have position : base + i / run * stride + i % run =
          base + stride + (i - run) / run * stride + (i - run) % run := by
        rw [quotient, remainder, Nat.add_mul, Nat.one_mul]
        omega
      rw [position, later]
      simp only [List.getElem_drop]
      congr 1
      omega

/-- Cells of a page above the run are not touched, and neither are the pages past the
last one used. -/
theorem scatter_outside (memory : Memory α) (base stride run page offset : Nat) (source : List α)
    (above : run ≤ offset ∨ source.length ≤ page * run) (fits : run ≤ stride)
    (inside : offset < stride) :
    memory.scatter base stride run source (base + page * stride + offset) =
      memory (base + page * stride + offset) := by
  induction memory, base, source using scatter.induct stride run generalizing page with
  | case1 memory base source done => rw [scatter, if_pos done]
  | case2 memory base source more ih =>
    rw [scatter, if_neg more]
    cases page with
    | zero =>
      rw [scatter_before _ _ _ _ _ _ (by omega)]
      apply write_outside
      simp only [List.length_take]
      rcases above with above | short
      · omega
      · have empty : source = [] := List.length_eq_zero_iff.mp (by omega)
        simp [empty]
    | succ page =>
      have position : base + (page + 1) * stride + offset =
          base + stride + page * stride + offset := by
        rw [Nat.add_mul]
        omega
      rw [position, ih page ?_]
      · apply write_outside
        simp only [List.length_take]
        omega
      · rcases above with above | short
        · exact Or.inl above
        · refine Or.inr ?_
          simp only [List.length_drop]
          have expand : (page + 1) * run = page * run + run := by rw [Nat.add_mul, Nat.one_mul]
          omega

theorem gather_scatter (memory : Memory α) (base stride run : Nat) (source : List α)
    (positive : 0 < run) (fits : run ≤ stride) :
    (memory.scatter base stride run source).gather base stride run source.length = source := by
  apply List.ext_getElem
  · simp
  · intro i _ bound
    rw [gather_getElem, scatter_inside _ _ _ _ _ _ positive fits bound]

/-- The walk depends only on the cells of the runs. -/
theorem gather_congr {left right : Memory α} {base stride run count : Nat} (positive : 0 < run)
    (same : ∀ page offset, offset < run → page * run + offset < count →
      left (base + page * stride + offset) = right (base + page * stride + offset)) :
    left.gather base stride run count = right.gather base stride run count := by
  apply List.map_congr_left
  intro i member
  refine same (i / run) (i % run) (Nat.mod_lt _ positive) ?_
  rw [Nat.div_add_mod']
  exact List.mem_range.mp member

/-- The same cells stored at one offset of every page named. -/
def stamp (memory : Memory α) (stride offset : Nat) (cells : List α) (pages : List Nat) : Memory α :=
  pages.foldl (fun memory page => memory.write (page * stride + offset) cells) memory

section Stamp
variable {stride offset page : Nat} {cells : List α} {pages : List Nat}

theorem stamp_other (memory : Memory α) (fits : offset + cells.length ≤ stride)
    (other : page ∉ pages) {i : Nat} (inside : i < stride) :
    memory.stamp stride offset cells pages (page * stride + i) = memory (page * stride + i) := by
  induction pages generalizing memory with
  | nil => rfl
  | cons first rest ih =>
    rw [List.mem_cons, not_or] at other
    refine (ih _ other.2).trans ?_
    apply write_outside
    rcases Nat.lt_or_gt_of_ne other.1 with before | after
    · have room := Nat.mul_le_mul_right stride (Nat.succ_le_of_lt before)
      rw [Nat.succ_mul] at room
      omega
    · have room := Nat.mul_le_mul_right stride (Nat.succ_le_of_lt after)
      rw [Nat.succ_mul] at room
      omega

theorem stamp_beside (memory : Memory α) (fits : offset + cells.length ≤ stride) {i : Nat}
    (inside : i < stride) (beside : i < offset ∨ offset + cells.length ≤ i) :
    memory.stamp stride offset cells pages (page * stride + i) = memory (page * stride + i) := by
  induction pages generalizing memory with
  | nil => rfl
  | cons first rest ih =>
    refine (ih _).trans ?_
    apply write_outside
    rcases Nat.lt_trichotomy first page with before | same | after
    · have room := Nat.mul_le_mul_right stride (Nat.succ_le_of_lt before)
      rw [Nat.succ_mul] at room
      omega
    · subst same
      omega
    · have room := Nat.mul_le_mul_right stride (Nat.succ_le_of_lt after)
      rw [Nat.succ_mul] at room
      omega

theorem stamp_read (memory : Memory α) (fits : offset + cells.length ≤ stride) (member : page ∈ pages) :
    (memory.stamp stride offset cells pages).read (page * stride + offset) cells.length = cells := by
  induction pages generalizing memory with
  | nil => exact absurd member List.not_mem_nil
  | cons first rest ih =>
    by_cases later : page ∈ rest
    · exact ih _ later
    · have here : page = first := (List.mem_cons.mp member).resolve_right later
      subst here
      have kept : (memory.stamp stride offset cells (page :: rest)).read (page * stride + offset)
          cells.length = (memory.write (page * stride + offset) cells).read (page * stride + offset)
            cells.length := by
        apply read_ext
        intro i inside
        rw [Nat.add_assoc]
        exact stamp_other _ fits later (by omega)
      rw [kept, read_write]

end Stamp

end Memory
