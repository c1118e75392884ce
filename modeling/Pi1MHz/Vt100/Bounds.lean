import Pi1MHz.Vt100.Termination

/-! The places the terminal addresses. `vt_set_margins` stores the top margin without comparing it
with the bottom one; as long as no sequence crosses the margins and no call hangs, every VDU 31
address lies on the screen. -/
namespace Pi1MHz.Vt100

open Loop

variable {fuel : Nat} {mos : Mos} {s s' : Terminal} {byte : UInt8} {g : Geometry}

section Places

/-- A place on the screen. -/
def Geometry.Inside (g : Geometry) (col row : UInt8) : Prop := col < g.columns ∧ row < g.rows

/-- All addresses written are places on the screen. -/
def Within (g : Geometry) (out : List Vdu) : Prop :=
  ∀ col row, Vdu.tab col row ∈ out → g.Inside col row

/-- Every cursor position the MOS reports is on the screen. -/
def Mos.Inside (mos : Mos) (g : Geometry) : Prop :=
  ∀ out, g.Inside (mos.cursor out).1 (mos.cursor out).2

theorem Within.nil : Within g [] := by
  intro col row member
  cases member

theorem Within.tab {out : List Vdu} {col row : UInt8} (within : Within g out)
    (inside : g.Inside col row) : Within g (out ++ [.tab col row]) := by
  intro c r member
  rcases List.mem_append.mp member with old | new
  · exact within c r old
  · cases List.mem_singleton.mp new
    exact inside

theorem Within.char {out : List Vdu} {value : UInt8} (within : Within g out) :
    Within g (out ++ [.char value]) := by
  intro c r member
  rcases List.mem_append.mp member with old | new
  · exact within c r old
  · cases List.mem_singleton.mp new

theorem Within.colours {out : List Vdu} {a b : UInt8} (within : Within g out) :
    Within g (out ++ [.colour a, .colour b]) := by
  intro c r member
  rcases List.mem_append.mp member with old | new
  · exact within c r old
  · simp at new

theorem Within.writeCell {out : List Vdu} {value col row : UInt8} (within : Within g out)
    (inside : g.Inside col row) : Within g (writeCell value col row out) := by
  have written : Within g (out ++ [.tab col row] ++ [.char value]) := (within.tab inside).char
  rw [List.append_assoc] at written
  exact written

theorem Within.copyCell {out : List Vdu} {a b c d : UInt8} (within : Within g out)
    (source : g.Inside a b) (dest : g.Inside c d) : Within g (copyCell mos a b c d out) :=
  (within.tab source).writeCell dest

theorem Geometry.zero_lt (g : Geometry) : 0 < g.columns := by
  have range := g.columns_range
  simp only [UInt8.lt_iff_toNat_lt, UInt8.le_iff_toNat_le, UInt8.reduceToNat] at *
  omega

theorem Geometry.lastColumn_lt (g : Geometry) : g.lastColumn < g.columns := by
  have range := g.columns_range
  rw [g.lastColumn_eq]
  simp only [UInt8.lt_iff_toNat_lt, UInt8.le_iff_toNat_le, UInt8.toNat_sub,
    UInt8.reduceToNat] at *
  omega

theorem Geometry.lastRow_lt (g : Geometry) : g.lastRow < g.rows :=
  (g.le_lastRow_iff _).mp (UInt8.le_refl _)

end Places

section Rows

variable {out : List Vdu}

theorem sweep_within {draw : UInt8 → List Vdu → List Vdu}
    (drawn : ∀ col out, col < g.columns → Within g out → Within g (draw col out))
    (within : Within g out) :
    Yields (repeatPass (sweepPass g.columns draw) fuel (0, out)) fun state => Within g state.2 := by
  refine repeatPass_yields (fun state : UInt8 × List Vdu => state.1 < g.columns ∧ Within g state.2)
    (fun state => Within g state.2) ?_ ⟨g.zero_lt, within⟩
  rintro ⟨col, before⟩ ⟨inside, within⟩
  simp only [sweepPass]
  refine Yields.ite (fun more => ?_) fun _ => ?_
  · exact yields_some ⟨more, drawn col before inside within⟩
  · exact yields_some (drawn col before inside within)

theorem copyRow_within {source dest : UInt8} (sourceInside : source < g.rows)
    (destInside : dest < g.rows) (within : Within g out) :
    Yields (copyRow fuel mos g.columns source dest out) (Within g) := by
  refine Yields.map (sweep_within ?_ within) fun _ kept => kept
  intro col before inside kept
  exact kept.copyCell ⟨inside, sourceInside⟩ ⟨inside, destInside⟩

theorem clearRowVariable_within {dest : UInt8} (inside : dest < g.rows)
    (within : Within g out) : Yields (clearRowVariable fuel g.columns dest out) (Within g) := by
  refine Yields.map (sweep_within ?_ within) fun _ kept => kept
  intro col before column kept
  exact kept.writeCell ⟨column, inside⟩

theorem blankRows_within {dest count : UInt8} (positive : 0 < count.toNat)
    (room : dest.toNat + count.toNat ≤ g.rows.toNat) (within : Within g out) :
    Yields (blankRows fuel g.columns dest count out) (Within g) := by
  -- The row and the number of rows that remain keep their sum.
  refine Yields.map (repeatPass_yields
    (fun state => 0 < state.2.1.toNat ∧ state.1.toNat + state.2.1.toNat ≤ g.rows.toNat ∧
      Within g state.2.2)
    (fun state => Within g state.2.2) ?_ ⟨positive, room, within⟩) fun _ kept => kept
  rintro ⟨row, remaining, before⟩ ⟨positive, room, kept⟩
  dsimp only at positive room kept
  have inside : row < g.rows := by
    rw [UInt8.lt_iff_toNat_lt]
    omega
  refine Yields.map (clearRowVariable_within inside kept) ?_
  intro cleared kept
  split
  next => exact kept
  next more =>
    have remains : (remaining - 1).toNat ≠ 0 := fun zero => more (UInt8.toNat_inj.mp zero)
    have range := g.rows_range
    have := remaining.toNat_lt
    refine ⟨Nat.pos_of_ne_zero remains, ?_, kept⟩
    simp only [UInt8.le_iff_toNat_le, UInt8.toNat_sub, UInt8.toNat_add, UInt8.reduceToNat] at *
    omega

theorem blankEditCount_within {row col count : UInt8} (inside : row < g.rows)
    (within : Within g out) :
    Yields (blankEditCount fuel g.columns row col count out) (Within g) := by
  refine Yields.map (repeatPass_yields (fun state => Within g state.2.2)
    (fun state => Within g state.2.2) ?_ within) fun _ kept => kept
  rintro ⟨col, remaining, before⟩ kept
  simp only [blankEditPass]
  refine Yields.ite (fun _ => yields_some kept) fun column => ?_
  have written : Within g (writeCell 32 col row before) :=
    kept.writeCell ⟨UInt8.not_le.mp column, inside⟩
  exact Yields.ite (fun _ => yields_some written) fun _ => yields_some written

theorem spaces_within {col row count : UInt8} (inside : g.Inside col row)
    (within : Within g out) : Yields (spaces fuel col row count out) (Within g) := by
  refine Yields.map (repeatPass_yields (fun state => Within g state.2)
    (fun state => Within g state.2) ?_ (within.tab inside)) fun _ kept => kept
  rintro ⟨count, before⟩ kept
  exact Yields.ite (fun _ => yields_some (Within.char kept)) fun _ => yields_some (Within.char kept)

end Rows

section Counts

theorem defaultOne_pos (param : UInt8) : 0 < (defaultOne param).toNat := by
  unfold defaultOne
  split
  · decide
  · exact Nat.pos_of_ne_zero fun zero => ‹¬_› (UInt8.toNat_inj.mp zero)

/-- A count is at least 1 and fits in the room there is. -/
theorem limitCount_range {room : UInt8} (positive : 0 < room.toNat) :
    0 < (limitCount s room).toNat ∧ (limitCount s room).toNat ≤ room.toNat := by
  unfold limitCount
  split
  · exact ⟨positive, Nat.le_refl _⟩
  · exact ⟨defaultOne_pos _, Nat.le_of_not_lt ‹_›⟩

/-- The cells from the cursor to the end of its row. -/
theorem prepareEditCount_range (inside : mos.Inside s.geometry) :
    0 < (prepareEditCount mos s).editCount.toNat ∧
      (prepareEditCount mos s).cursorCol.toNat + (prepareEditCount mos s).editCount.toNat ≤
        s.geometry.columns.toNat := by
  have column : (mos.cursor s.out).1.toNat < s.geometry.columns.toNat := (inside s.out).1
  have room : (s.geometry.columns - (mos.cursor s.out).1).toNat =
      s.geometry.columns.toNat - (mos.cursor s.out).1.toNat :=
    UInt8.toNat_sub_of_le _ _ (Nat.le_of_lt column)
  have range := limitCount_range (s := s)
    (show 0 < (s.geometry.columns - (mos.cursor s.out).1).toNat by omega)
  rw [room] at range
  obtain ⟨positive, fits⟩ := range
  refine ⟨positive, ?_⟩
  rw [Nat.add_comm]
  exact Nat.add_le_of_le_sub (Nat.le_of_lt column) fits

/-- The rows from `row` to the bottom margin. -/
theorem rows_to_bottom {row : UInt8} (above : row ≤ s.marginBottom)
    (bottom : s.marginBottom < s.geometry.rows) :
    (s.marginBottom - row + 1).toNat = s.marginBottom.toNat - row.toNat + 1 := by
  have range := s.geometry.rows_range
  simp only [UInt8.lt_iff_toNat_lt, UInt8.le_iff_toNat_le, UInt8.toNat_sub, UInt8.toNat_add,
    UInt8.reduceToNat] at *
  omega

/-- A count of rows that fits between `row` and the bottom margin. -/
def Fits (s : Terminal) (row count : UInt8) : Prop :=
  0 < count.toNat ∧ row.toNat + count.toNat ≤ s.marginBottom.toNat + 1

theorem limitCount_fits {row : UInt8} (above : row ≤ s.marginBottom)
    (bottom : s.marginBottom < s.geometry.rows) :
    Fits s row (limitCount s (s.marginBottom - row + 1)) := by
  have room := rows_to_bottom above bottom
  have range := limitCount_range (s := s)
    (show 0 < (s.marginBottom - row + 1).toNat by omega)
  rw [room] at range
  have order : row.toNat ≤ s.marginBottom.toNat := above
  exact ⟨range.1, by omega⟩

theorem prepareLineCount_fits {edit : Edit} (bottom : s.marginBottom < s.geometry.rows)
    (prepared : prepareLineCount mos s = some edit) :
    edit.cursorCol = (mos.cursor s.out).1 ∧ edit.cursorRow = (mos.cursor s.out).2 ∧
      Fits s edit.cursorRow edit.editCount := by
  unfold prepareLineCount at prepared
  dsimp only at prepared
  split_ifs at prepared with above below
  cases prepared
  exact ⟨rfl, rfl, limitCount_fits (UInt8.not_lt.mp below) bottom⟩

end Counts

section Edits

variable {edit : Edit} (cursor : s.geometry.Inside edit.cursorCol edit.cursorRow)
include cursor

/-- The cursor goes back to its place after an edit. -/
theorem restored_within {result : Option (List Vdu)}
    (drawn : Yields result (Within s.geometry)) :
    Yields (result.map (restoreEditCursor s edit)) fun s' => Within s.geometry s'.out :=
  drawn.map fun _ kept => kept.tab cursor

theorem shiftDown_within {limit : UInt8} (positive : limit ≠ 0)
    (fits : Fits s limit edit.editCount) (bottom : s.marginBottom < s.geometry.rows)
    (within : Within s.geometry s.out) :
    Yields (shiftDown fuel mos limit s edit) fun s' => Within s.geometry s'.out := by
  have room : s.marginBottom.toNat < s.geometry.rows.toNat := bottom
  have first : limit.toNat ≠ 0 := fun zero => positive (UInt8.toNat_inj.mp zero)
  unfold shiftDown
  dsimp only
  refine Yields.bind (repeatPass_yields
    (fun state => limit.toNat + edit.editCount.toNat ≤ state.1.toNat + 1 ∧
      state.1 < s.geometry.rows ∧ Within s.geometry state.2)
    (fun state => Within s.geometry state.2) ?_ ⟨fits.2, bottom, within⟩) ?_
  · rintro ⟨row, before⟩ ⟨order, below, kept⟩
    dsimp only at order below kept
    -- The row is not above the count, so the subtraction does not wrap.
    have source : (row - edit.editCount).toNat = row.toNat - edit.editCount.toNat :=
      UInt8.toNat_sub_of_le _ _ (by rw [UInt8.le_iff_toNat_le]; omega)
    simp only [shiftDownPass]
    refine Yields.ite (fun _ => yields_some kept) fun more => ?_
    rw [UInt8.lt_iff_toNat_lt, source] at more
    rw [UInt8.lt_iff_toNat_lt] at below
    refine Yields.map (copyRow_within ?_ below kept) ?_
    · rw [UInt8.lt_iff_toNat_lt, source]
      omega
    · intro copied kept
      have next : (row - 1).toNat = row.toNat - 1 :=
        UInt8.toNat_sub_of_le _ _ (show 1 ≤ row.toNat by omega)
      refine ⟨?_, ?_, kept⟩
      · dsimp only
        omega
      · rw [UInt8.lt_iff_toNat_lt]
        dsimp only
        omega
  · rintro ⟨row, shifted⟩ kept
    exact restored_within cursor (blankRows_within fits.1 (by have := fits.2; omega) kept)

theorem shiftUp_within {start : UInt8} (fits : Fits s start edit.editCount)
    (bottom : s.marginBottom < s.geometry.rows) (within : Within s.geometry s.out) :
    Yields (shiftUp fuel mos start s edit) fun s' => Within s.geometry s'.out := by
  have range := s.geometry.rows_range
  obtain ⟨positive, order⟩ := fits
  unfold shiftUp
  dsimp only
  refine Yields.bind (repeatPass_yields
    (fun state => state.1 ≤ s.marginBottom ∧ Within s.geometry state.2)
    (fun state => Within s.geometry state.2) ?_ ⟨?_, within⟩) ?_
  · rintro ⟨row, before⟩ ⟨above, kept⟩
    dsimp only at above kept
    simp only [shiftUpPass]
    refine Yields.ite (fun _ => yields_some kept) fun more => ?_
    have source : (row + edit.editCount).toNat = row.toNat + edit.editCount.toNat := by
      simp only [UInt8.lt_iff_toNat_lt, UInt8.le_iff_toNat_le, UInt8.toNat_add,
        UInt8.reduceToNat] at *
      omega
    rw [UInt8.lt_iff_toNat_lt, source] at more
    rw [UInt8.lt_iff_toNat_lt] at bottom
    refine Yields.map (copyRow_within ?_ ?_ kept) ?_
    · rw [UInt8.lt_iff_toNat_lt, source]
      omega
    · rw [UInt8.lt_iff_toNat_lt]
      omega
    · intro copied kept
      refine ⟨?_, kept⟩
      simp only [UInt8.le_iff_toNat_le, UInt8.toNat_add, UInt8.reduceToNat] at *
      omega
  · rw [UInt8.le_iff_toNat_le]
    dsimp only
    omega
  · rintro ⟨row, shifted⟩ kept
    refine restored_within cursor (blankRows_within positive ?_ kept)
    simp only [UInt8.lt_iff_toNat_lt, UInt8.le_iff_toNat_le, UInt8.toNat_sub, UInt8.toNat_add,
      UInt8.reduceToNat] at *
    omega

end Edits

section Functions

variable (inside : mos.Inside s.geometry) (within : Within s.geometry s.out)
include inside within

theorem eraseCharacters_within :
    Yields (eraseCharacters fuel mos s) fun s' => Within s.geometry s'.out :=
  restored_within (inside s.out) (blankEditCount_within (inside s.out).2 within)

theorem insertCharacters_within (positive : (mos.cursor s.out).1 ≠ 0) :
    Yields (insertCharacters fuel mos s) fun s' => Within s.geometry s'.out := by
  have range := prepareEditCount_range inside
  have first : (prepareEditCount mos s).cursorCol.toNat ≠ 0 :=
    fun zero => positive (UInt8.toNat_inj.mp zero)
  have last : s.geometry.columns.toNat = s.geometry.lastColumn.toNat + 1 := by
    have columns := s.geometry.columns_range
    rw [s.geometry.lastColumn_eq]
    simp only [UInt8.le_iff_toNat_le, UInt8.toNat_sub, UInt8.reduceToNat] at *
    omega
  have row : (prepareEditCount mos s).cursorRow < s.geometry.rows := (inside s.out).2
  unfold insertCharacters
  dsimp only
  generalize found : prepareEditCount mos s = edit at *
  refine Yields.bind (repeatPass_yields
    (fun state => edit.cursorCol.toNat + edit.editCount.toNat ≤ state.1.toNat + 1 ∧
      state.1 < s.geometry.columns ∧ Within s.geometry state.2)
    (fun state => Within s.geometry state.2) ?_
    ⟨by rw [← last]; exact range.2, s.geometry.lastColumn_lt, within⟩) ?_
  · rintro ⟨col, before⟩ ⟨order, column, kept⟩
    dsimp only at order column kept
    have source : (col - edit.editCount).toNat = col.toNat - edit.editCount.toNat :=
      UInt8.toNat_sub_of_le _ _ (by rw [UInt8.le_iff_toNat_le]; omega)
    simp only [ichShiftPass]
    refine Yields.ite (fun _ => yields_some kept) fun more => ?_
    rw [UInt8.lt_iff_toNat_lt, source] at more
    rw [UInt8.lt_iff_toNat_lt] at column
    have next : (col - 1).toNat = col.toNat - 1 :=
      UInt8.toNat_sub_of_le _ _ (show 1 ≤ col.toNat by omega)
    refine yields_some ⟨?_, ?_, kept.copyCell ⟨?_, row⟩ ⟨column, row⟩⟩
    · dsimp only
      omega
    · rw [UInt8.lt_iff_toNat_lt]
      dsimp only
      omega
    · rw [UInt8.lt_iff_toNat_lt, source]
      omega
  · rintro ⟨col, shifted⟩ kept
    refine restored_within ?_ (blankEditCount_within row kept)
    rw [← found]
    exact inside s.out

theorem deleteCharacters_within :
    Yields (deleteCharacters fuel mos s) fun s' => Within s.geometry s'.out := by
  have range := prepareEditCount_range inside
  have columns := s.geometry.columns_range
  have row : (prepareEditCount mos s).cursorRow < s.geometry.rows := (inside s.out).2
  unfold deleteCharacters
  dsimp only
  generalize found : prepareEditCount mos s = edit at *
  have start : edit.cursorCol < s.geometry.columns := by
    rw [UInt8.lt_iff_toNat_lt]
    omega
  refine Yields.bind (repeatPass_yields
    (fun state => state.1 < s.geometry.columns ∧ Within s.geometry state.2)
    (fun state => Within s.geometry state.2) ?_ ⟨start, within⟩) ?_
  · rintro ⟨col, before⟩ ⟨column, kept⟩
    dsimp only at column kept
    simp only [dchShiftPass]
    refine Yields.ite (fun _ => yields_some kept) fun more => ?_
    refine yields_some ⟨?_, kept.copyCell ⟨UInt8.not_le.mp more, row⟩ ⟨column, row⟩⟩
    simp only [UInt8.lt_iff_toNat_lt, UInt8.le_iff_toNat_le, UInt8.toNat_add,
      UInt8.reduceToNat] at *
    omega
  · rintro ⟨col, shifted⟩ kept
    refine restored_within ?_ (blankEditCount_within row kept)
    rw [← found]
    exact inside s.out

theorem insertLines_within (positive : ¬((mos.cursor s.out).2 = 0 ∧ s.marginTop = 0))
    (bottom : s.marginBottom < s.geometry.rows) :
    Yields (insertLines fuel mos s) fun s' => Within s.geometry s'.out := by
  unfold insertLines
  split
  next => exact yields_some within
  next edit prepared =>
    obtain ⟨col, row, fits⟩ := prepareLineCount_fits bottom prepared
    refine shiftDown_within ?_ ?_ fits bottom within
    · rw [col, row]
      exact inside s.out
    · intro zero
      exact positive (prepareLineCount_zero prepared zero)

theorem deleteLines_within (bottom : s.marginBottom < s.geometry.rows) :
    Yields (deleteLines fuel mos s) fun s' => Within s.geometry s'.out := by
  unfold deleteLines
  split
  next => exact yields_some within
  next edit prepared =>
    obtain ⟨col, row, fits⟩ := prepareLineCount_fits bottom prepared
    refine shiftUp_within ?_ fits bottom within
    rw [col, row]
    exact inside s.out

end Functions

section Erasing

theorem eraseLineRun_within {col row start count : UInt8} (cursor : s.geometry.Inside col row)
    (place : s.geometry.Inside start row) (within : Within s.geometry s.out) :
    Yields (eraseLineRun fuel s col row start count) fun s' => Within s.geometry s'.out :=
  (spaces_within place within).map fun _ kept => kept.tab cursor

theorem eraseLineBefore_within {col row : UInt8} (cursor : s.geometry.Inside col row)
    (within : Within s.geometry s.out) :
    Yields (eraseLineBefore fuel s col row) fun s' => Within s.geometry s'.out := by
  have place : s.geometry.Inside 0 row := ⟨s.geometry.zero_lt, cursor.2⟩
  exact Yields.ite (fun _ => eraseLineRun_within cursor place within)
    fun _ => eraseLineRun_within cursor place within

theorem eraseLine_within (inside : mos.Inside s.geometry) (within : Within s.geometry s.out) :
    Yields (eraseLine fuel mos s) fun s' => Within s.geometry s'.out := by
  have cursor := inside s.out
  have place : s.geometry.Inside 0 (mos.cursor s.out).2 := ⟨s.geometry.zero_lt, cursor.2⟩
  refine Yields.ite (fun _ => eraseLineBefore_within cursor within) fun _ => ?_
  refine Yields.ite (fun _ => eraseLineRun_within cursor place within) fun _ => ?_
  exact Yields.ite (fun _ => eraseLineRun_within cursor cursor within)
    fun _ => eraseLineBefore_within cursor within

theorem eraseRows_within {limit row : UInt8} {out : List Vdu} (bound : limit ≤ g.rows)
    (within : Within g out) :
    Yields (repeatPass (eraseRowsPass fuel g.columns limit) fuel (row, out))
      fun state => Within g state.2 := by
  refine repeatPass_yields (fun state : UInt8 × List Vdu => Within g state.2)
    (fun state => Within g state.2) ?_ within
  rintro ⟨row, before⟩ kept
  simp only [eraseRowsPass]
  refine Yields.ite (fun _ => yields_some kept) fun more => ?_
  have inside : row < g.rows := UInt8.lt_of_lt_of_le (UInt8.not_le.mp more) bound
  refine Yields.map (spaces_within ⟨g.zero_lt, inside⟩ kept) ?_
  intro erased kept
  split
  · exact kept
  · exact kept

theorem eraseDisplayBefore_within {col row : UInt8} (inside : mos.Inside s.geometry)
    (cursor : s.geometry.Inside col row) (within : Within s.geometry s.out) :
    Yields (eraseDisplayBefore fuel mos s col row) fun s' => Within s.geometry s'.out := by
  refine Yields.bind (eraseRows_within (UInt8.le_of_lt cursor.2) within) ?_
  rintro ⟨last, out⟩ kept
  exact eraseLine_within inside (kept.tab cursor)

theorem eraseDisplayAfter_within {col row : UInt8} (inside : mos.Inside s.geometry)
    (cursor : s.geometry.Inside col row) (within : Within s.geometry s.out) :
    Yields (eraseDisplayAfter fuel mos s col row) fun s' => Within s.geometry s'.out := by
  intro final returned
  unfold eraseDisplayAfter at returned
  rw [Option.bind_eq_some_iff] at returned
  obtain ⟨erased, first, rest⟩ := returned
  -- Erasing the line changes neither the screen's size nor what is on it outside.
  have size : erased.geometry = s.geometry := congrArg Page.geometry (eraseLine_page erased first)
  have kept : Within s.geometry erased.out :=
    eraseLine_within (s := { s with param1 := 0 }) inside within erased first
  rw [← size] at inside cursor kept ⊢
  revert final
  refine Yields.bind (eraseRows_within (UInt8.le_refl _) kept) ?_
  rintro ⟨last, out⟩ kept
  exact Yields.ite (fun _ => eraseDisplayBefore_within inside cursor kept)
    fun _ => yields_some (kept.tab cursor)

theorem eraseDisplay_within (inside : mos.Inside s.geometry) (within : Within s.geometry s.out) :
    Yields (eraseDisplay fuel mos s) fun s' => Within s.geometry s'.out := by
  have cursor := inside s.out
  have all : Within s.geometry (eraseDisplayAll s (mos.cursor s.out).1 (mos.cursor s.out).2).out :=
    within.char.tab cursor
  refine Yields.ite (fun _ => yields_some all) fun _ => ?_
  refine Yields.ite (fun _ => yields_some all) fun _ => ?_
  refine Yields.ite (fun _ => eraseDisplayBefore_within inside cursor within) fun _ => ?_
  exact Yields.ite (fun _ => yields_some all)
    fun _ => eraseDisplayAfter_within inside cursor within

end Erasing

section Moves

theorem moveBack_le {place count : UInt8} : moveBack place count ≤ place := by
  unfold moveBack
  split
  · exact UInt8.zero_le
  next order => exact UInt8.sub_le (UInt8.not_lt.mp order)

theorem moveForward_lt {place count limit last : UInt8} (inside : last < limit) :
    moveForward place count limit last < limit := by
  unfold moveForward
  split_ifs with carry below
  · exact inside
  · exact below
  · exact inside

theorem coordinate_lt {param limit last : UInt8} (inside : last < limit) :
    coordinate param limit last < limit := by
  unfold coordinate
  split
  · assumption
  · exact inside

theorem cursorPosition_within (within : Within s.geometry s.out) :
    Within s.geometry (cursorPosition s).out :=
  within.tab ⟨coordinate_lt s.geometry.lastColumn_lt, coordinate_lt s.geometry.lastRow_lt⟩

variable (inside : mos.Inside s.geometry) (within : Within s.geometry s.out)
include inside within

theorem moveCursor_within {place : UInt8 → UInt8 → UInt8 × UInt8}
    (lands : ∀ col row, s.geometry.Inside col row →
      s.geometry.Inside (place col row).1 (place col row).2) :
    Within s.geometry (moveCursor mos s place).out :=
  within.tab (lands _ _ (inside s.out))

theorem cursorUp_within : Within s.geometry (cursorUp mos s).out :=
  moveCursor_within inside within fun _ _ here =>
    ⟨here.1, UInt8.lt_of_le_of_lt moveBack_le here.2⟩

theorem cursorDown_within : Within s.geometry (cursorDown mos s).out :=
  moveCursor_within inside within fun _ _ here => ⟨here.1, moveForward_lt s.geometry.lastRow_lt⟩

theorem cursorRight_within : Within s.geometry (cursorRight mos s).out :=
  moveCursor_within inside within fun _ _ here => ⟨moveForward_lt s.geometry.lastColumn_lt, here.2⟩

theorem cursorLeft_within : Within s.geometry (cursorLeft mos s).out :=
  moveCursor_within inside within fun _ _ here =>
    ⟨UInt8.lt_of_le_of_lt moveBack_le here.1, here.2⟩

theorem cursorNextLine_within : Within s.geometry (cursorNextLine mos s).out :=
  moveCursor_within inside within fun _ _ _ =>
    ⟨s.geometry.zero_lt, moveForward_lt s.geometry.lastRow_lt⟩

theorem cursorPreviousLine_within : Within s.geometry (cursorPreviousLine mos s).out :=
  moveCursor_within inside within fun _ _ here =>
    ⟨s.geometry.zero_lt, UInt8.lt_of_le_of_lt moveBack_le here.2⟩

theorem cursorColumn_within : Within s.geometry (cursorColumn mos s).out :=
  moveCursor_within inside within fun _ _ here => ⟨coordinate_lt s.geometry.lastColumn_lt, here.2⟩

theorem cursorAbsoluteRow_within : Within s.geometry (cursorAbsoluteRow mos s).out :=
  moveCursor_within inside within fun _ _ here => ⟨here.1, coordinate_lt s.geometry.lastRow_lt⟩

theorem backspace_within : Within s.geometry (backspace mos s).out := by
  unfold backspace
  dsimp only
  split
  next => exact within
  next more =>
    refine within.tab ⟨?_, (inside s.out).2⟩
    have column : (mos.cursor s.out).1.toNat < s.geometry.columns.toNat := (inside s.out).1
    have positive : (mos.cursor s.out).1.toNat ≠ 0 := fun zero => more (UInt8.toNat_inj.mp zero)
    rw [UInt8.lt_iff_toNat_lt, UInt8.toNat_sub_of_le _ _ (Nat.pos_of_ne_zero positive)]
    exact Nat.lt_of_le_of_lt (Nat.sub_le _ _) column

theorem tab_within : Within s.geometry (tab mos s).out := by
  refine moveCursor_within inside within fun col row here => ⟨?_, here.2⟩
  dsimp only
  split
  · assumption
  · exact s.geometry.lastColumn_lt

end Moves

section Bytes

/-- The state between two bytes: margins in order, and every place on the screen. -/
structure Bounded (s : Terminal) : Prop where
  margins : s.marginTop ≤ s.marginBottom
  bottom : s.marginBottom < s.geometry.rows
  saved : s.geometry.Inside s.savedCol s.savedRow
  within : Within s.geometry s.out

theorem Bounded.of_page {turned : Page} (same : page s = turned)
    (margins : turned.marginTop ≤ turned.marginBottom)
    (bottom : turned.marginBottom < turned.geometry.rows)
    (saved : turned.geometry.Inside turned.savedCol turned.savedRow)
    (within : Within turned.geometry s.out) : Bounded s := by
  subst same
  exact ⟨margins, bottom, saved, within⟩

/-- What a byte must not do: no cursor off the screen where it is read, no call that hangs, and
no sequence that puts the top margin below the bottom one. -/
structure Orderly (mos : Mos) (s : Terminal) (byte : UInt8) : Prop where
  inside : ReadsCursor s byte → mos.Inside s.geometry
  returns : ¬Hangs mos s byte
  ordered : s.state = .csi → byte = 114 → newTop s ≤ newBottom s

theorem within_ite {condition : Prop} [Decidable condition] {first second : Terminal}
    (yes : Within g first.out) (no : Within g second.out) :
    Within g (if condition then first else second).out := by
  split
  · exact yes
  · exact no

theorem moved_ite {condition : Prop} [Decidable condition] {first second : Terminal}
    (yes : condition → Within g first.out) (no : Within g second.out) :
    Within g (if condition then first else second).out := by
  split
  · exact yes ‹_›
  · exact no

theorem ground_within (inside : byte = 8 ∨ byte = 9 → mos.Inside s.geometry)
    (within : Within s.geometry s.out) : Within s.geometry (ground mos s byte).out := by
  unfold ground
  refine within_ite within ?_
  refine within_ite within ?_
  refine within_ite within.char ?_
  refine within_ite within.char ?_
  refine moved_ite (fun back => backspace_within (inside (.inl back)) within) ?_
  refine moved_ite (fun stop => tab_within (inside (.inr stop)) within) ?_
  refine within_ite within.char ?_
  refine within_ite within.char ?_
  refine within_ite within.char ?_
  exact within_ite within.char within

theorem escape_within (bounded : Bounded s) : Within s.geometry (escape mos s byte).out := by
  have within := bounded.within
  unfold escape
  refine within_ite within ?_
  refine within_ite within ?_
  refine within_ite within ?_
  refine within_ite (within.tab bounded.saved) ?_
  refine within_ite within.char.colours ?_
  refine within_ite within.char ?_
  refine within_ite within.char.char ?_
  refine within_ite within.char ?_
  refine within_ite within ?_
  exact within_ite within within

theorem sgrOne_within {param : UInt8} (within : Within g s.out) :
    Within g (sgrOne s param).out :=
  within_ite within.colours (within_ite within.colours within)

theorem sgr_within (within : Within g s.out) : Within g (sgr s).out :=
  within_ite (sgrOne_within within) (sgrOne_within (sgrOne_within within))

theorem csiFinal_within (bounded : Bounded s) (inCsi : s.state = .csi)
    (orderly : Orderly mos s byte) :
    Yields (csiFinal fuel mos s byte) fun s' => Within s.geometry s'.out := by
  have inside {final : UInt8} (listed : final ∈ cursorFinals) (same : byte = final) :
      mos.Inside s.geometry :=
    orderly.inside (readsCursor_csi inCsi listed same)
  have within : Within s.geometry s.out := bounded.within
  have bottom : s.marginBottom < s.geometry.rows := bounded.bottom
  have free := orderly.returns
  unfold csiFinal
  refine Yields.ite (fun final => ?_) fun _ => ?_
  · exact yields_some (cursorUp_within (inside (by decide) final) within)
  refine Yields.ite (fun final => ?_) fun _ => ?_
  · exact yields_some (cursorDown_within (inside (by decide) final) within)
  refine Yields.ite (fun final => ?_) fun _ => ?_
  · exact yields_some (cursorRight_within (inside (by decide) final) within)
  refine Yields.ite (fun final => ?_) fun _ => ?_
  · exact yields_some (cursorLeft_within (inside (by decide) final) within)
  refine Yields.ite (fun final => ?_) fun _ => ?_
  · exact yields_some (cursorNextLine_within (inside (by decide) final) within)
  refine Yields.ite (fun final => ?_) fun _ => ?_
  · exact yields_some (cursorPreviousLine_within (inside (by decide) final) within)
  refine Yields.ite (fun final => ?_) fun _ => ?_
  · exact yields_some (cursorColumn_within (inside (by decide) final) within)
  refine Yields.ite (fun _ => yields_some (cursorPosition_within within)) fun _ => ?_
  refine Yields.ite (fun _ => yields_some (cursorPosition_within within)) fun _ => ?_
  refine Yields.ite (fun final => ?_) fun _ => ?_
  · exact yields_some (cursorAbsoluteRow_within (inside (by decide) final) within)
  refine Yields.ite (fun final => eraseDisplay_within (inside (by decide) final) within) fun _ => ?_
  refine Yields.ite (fun final => eraseLine_within (inside (by decide) final) within) fun _ => ?_
  refine Yields.ite (fun ich => ?_) fun _ => ?_
  · refine insertCharacters_within (inside (by decide) ich) within ?_
    exact fun zero => free ⟨inCsi, .inl ⟨ich, zero⟩⟩
  refine Yields.ite (fun il => ?_) fun _ => ?_
  · refine insertLines_within (inside (by decide) il) within ?_ bottom
    exact fun zero => free ⟨inCsi, .inr (.inl ⟨il, zero⟩)⟩
  refine Yields.ite (fun dl => ?_) fun _ => ?_
  · exact deleteLines_within (inside (by decide) dl) within bottom
  refine Yields.ite (fun dch => ?_) fun _ => ?_
  · exact deleteCharacters_within (inside (by decide) dch) within
  refine Yields.ite (fun ech => ?_) fun _ => ?_
  · exact eraseCharacters_within (inside (by decide) ech) within
  refine Yields.ite (fun su => ?_) fun _ => ?_
  · exact shiftUp_within (inside (by decide) su s.out)
      (limitCount_fits bounded.margins bottom) bottom within
  refine Yields.ite (fun sd => ?_) fun _ => ?_
  · refine shiftDown_within (inside (by decide) sd s.out) ?_
      (limitCount_fits bounded.margins bottom) bottom within
    exact fun zero => free ⟨inCsi, .inr (.inr ⟨sd, zero⟩)⟩
  refine Yields.ite (fun _ => yields_some (sgr_within within)) fun _ => ?_
  refine Yields.ite (fun _ => yields_some within) fun _ => ?_
  refine Yields.ite (fun _ => yields_some within) fun _ => ?_
  refine Yields.ite (fun _ => yields_some within) fun _ => ?_
  refine Yields.ite (fun _ => yields_some within) fun _ => ?_
  refine Yields.ite (fun _ => yields_some within) fun _ => ?_
  refine Yields.ite (fun _ => yields_some within) fun _ => ?_
  refine Yields.ite (fun _ => yields_some within) fun _ => ?_
  refine Yields.ite (fun _ => yields_some (within.tab bounded.saved)) fun _ => ?_
  exact yields_some within

theorem process_within (bounded : Bounded s) (orderly : Orderly mos s byte) :
    Yields (process fuel mos s byte) fun s' => Within s.geometry s'.out := by
  have within := bounded.within
  have inside := orderly.inside
  unfold ReadsCursor at inside
  unfold process
  split
  case h_1 mode =>
    rw [mode] at inside
    exact yields_some (ground_within inside within)
  case h_2 => exact yields_some (escape_within bounded)
  case h_3 mode =>
    unfold csi
    refine Yields.ite (fun _ => yields_some within) fun _ => ?_
    refine Yields.ite (fun _ => yields_some within) fun _ => ?_
    refine Yields.ite (fun _ => yields_some within) fun _ => ?_
    refine Yields.ite (fun _ => yields_some (within_ite within within)) fun _ => ?_
    exact csiFinal_within bounded mode orderly
  case h_4 =>
    have counted : Within s.geometry (countString s).out := within_ite within within
    exact yields_some (within_ite within (within_ite within counted))
  case h_7 =>
    have counted : Within s.geometry (countString s).out := within_ite within within
    exact yields_some (within_ite within counted)
  all_goals exact yields_some within

/-- An orderly byte keeps the state bounded. -/
theorem process_bounded (bounded : Bounded s) (orderly : Orderly mos s byte)
    (returned : process fuel mos s byte = some s') : Bounded s' := by
  have turns : Turns mos s byte (page s') := process_turns s' returned
  have within := process_within bounded orderly s' returned
  generalize turned : page s' = after at turns
  cases turns with
  | keeps => exact .of_page turned bounded.margins bounded.bottom bounded.saved within
  | margins inCsi final =>
    exact .of_page turned (orderly.ordered inCsi final) (newBottom_lt s) bounded.saved within
  | saves reads =>
    exact .of_page turned bounded.margins bounded.bottom (orderly.inside reads s.out) within

end Bytes

section Runs

/-- The states after `vt_init` and any number of orderly bytes. -/
inductive OrderlyRun (window : Window) : Terminal → Prop
  | start : OrderlyRun window (init window loaded)
  | step {s s' : Terminal} (fuel : Nat) (mos : Mos) (byte : UInt8) (before : OrderlyRun window s)
      (orderly : Orderly mos s byte) (returned : process fuel mos s byte = some s') :
      OrderlyRun window s'

theorem init_bounded (window : Window) : Bounded (init window loaded) where
  margins := UInt8.zero_le
  bottom := (readWindowGeometry window).lastRow_lt
  saved := by
    refine ⟨(readWindowGeometry window).zero_lt, ?_⟩
    exact UInt8.lt_of_le_of_lt UInt8.zero_le (readWindowGeometry window).lastRow_lt
  within := Within.nil.colours

theorem OrderlyRun.bounded {window : Window} (run : OrderlyRun window s) : Bounded s := by
  induction run with
  | start => exact init_bounded window
  | step fuel mos byte before orderly returned ih => exact process_bounded ih orderly returned

/-- In every state of an orderly run the margins are in order and on the screen, every address
written lies on the screen, and the next orderly byte is processed. -/
theorem orderly_run_stays_on_screen (window : Window) (s : Terminal) (run : OrderlyRun window s) :
    s.marginTop ≤ s.marginBottom ∧ s.marginBottom ≤ s.geometry.lastRow ∧
      (∀ col row, Vdu.tab col row ∈ s.out → col < s.geometry.columns ∧ row < s.geometry.rows) ∧
      ∀ mos byte, Orderly mos s byte → ∃ fuel s', process fuel mos s byte = some s' := by
  have bounded := run.bounded
  have small := s.geometry.row_small bounded.bottom
  refine ⟨bounded.margins, (s.geometry.le_lastRow_iff _).mpr bounded.bottom, bounded.within, ?_⟩
  intro mos byte orderly
  obtain ⟨s', returned, -⟩ := process_ends (Nat.le_refl 256) small orderly.returns
  exact ⟨256, s', returned⟩

theorem homed_inside (g : Geometry) : homed.Inside g := by
  intro out
  exact ⟨g.zero_lt, UInt8.lt_of_le_of_lt UInt8.zero_le g.lastRow_lt⟩

/-- The cursor of a screen of 40 columns and 24 rows. -/
def advance (place : UInt8 × UInt8) : Vdu → UInt8 × UInt8
  | .tab col row => if col < 40 ∧ row < 24 then (col, row) else place
  | .char value =>
    if value < 32 then place
    else if place.1 + 1 < 40 then (place.1 + 1, place.2)
    else (0, if place.2 + 1 < 24 then place.2 + 1 else place.2)
  | .colour _ => place

/-- A MOS whose cursor moves with VDU 31 and with what is printed, on an empty screen. -/
def followed : Mos := { homed with cursor := fun out => out.foldl advance (0, 0) }

/-- The text window of that screen. -/
def fullWindow : Window := ⟨0, 23, 39, 0⟩

theorem advance_inside {place : UInt8 × UInt8} (inside : place.1 < 40 ∧ place.2 < 24) (vdu : Vdu) :
    (advance place vdu).1 < 40 ∧ (advance place vdu).2 < 24 := by
  cases vdu with
  | tab col row =>
    simp only [advance]
    split
    · assumption
    · exact inside
  | char value =>
    simp only [advance]
    split_ifs with control column line
    · exact inside
    · exact ⟨column, inside.2⟩
    · exact ⟨show (0 : UInt8) < 40 by decide, line⟩
    · exact ⟨show (0 : UInt8) < 40 by decide, inside.2⟩
  | colour value => exact inside

theorem followed_inside : followed.Inside (readWindowGeometry fullWindow) := by
  intro out
  have follows : ∀ place : UInt8 × UInt8, place.1 < 40 ∧ place.2 < 24 →
      (out.foldl advance place).1 < 40 ∧ (out.foldl advance place).2 < 24 := by
    induction out with
    | nil => exact fun _ inside => inside
    | cons vdu out ih => exact fun place inside => ih _ (advance_inside inside vdu)
  exact follows (0, 0) (by decide)

/-- Bytes one after the other, each tested before it is processed. -/
def feedOrderly (s : Terminal) : List UInt8 → Option Terminal
  | [] => some s
  | byte :: bytes =>
    if Hangs followed s byte ∨ s.state = .csi ∧ byte = 114 ∧ newBottom s < newTop s then none
    else (process 256 followed s byte).bind fun s => feedOrderly s bytes

theorem process_geometry :
    Yields (process fuel mos s byte) fun s' => s'.geometry = s.geometry := by
  intro s' returned
  have turns : Turns mos s byte (page s') := process_turns s' returned
  generalize turned : page s' = after at turns
  have screen : s'.geometry = after.geometry := by rw [← turned]; rfl
  rw [screen]
  cases turns with
  | keeps => rfl
  | margins inCsi final => rfl
  | saves reads => rfl

theorem feedOrderly_run (bytes : List UInt8) (run : OrderlyRun fullWindow s)
    (screen : s.geometry = readWindowGeometry fullWindow) (fed : feedOrderly s bytes = some s') :
    OrderlyRun fullWindow s' := by
  induction bytes generalizing s with
  | nil =>
    cases fed
    exact run
  | cons byte bytes ih =>
    unfold feedOrderly at fed
    split_ifs at fed with careless
    obtain ⟨returns, ordered⟩ := not_or.mp careless
    obtain ⟨after, returned, rest⟩ := Option.bind_eq_some_iff.mp fed
    have orderly : Orderly followed s byte := {
      inside := fun _ => by
        rw [screen]
        exact followed_inside
      returns := returns
      ordered := fun inCsi final => UInt8.not_lt.mp fun crossed => ordered ⟨inCsi, final, crossed⟩ }
    exact ih (.step 256 followed byte run orderly returned)
      ((process_geometry after returned).trans screen) rest

/-- The state after CSI 5 ; 10 r, CSI 6 ; 4 H, a printed `A` and CSI M. -/
def edited : Option Terminal :=
  feedOrderly (init fullWindow loaded)
    [27, 91, 53, 59, 49, 48, 114, 27, 91, 54, 59, 52, 72, 65, 27, 91, 77]

theorem edited_state : edited.map (fun s => (s.marginTop, s.marginBottom, s.out.length,
    followed.cursor s.out)) = some (4, 9, 565, (4, 5)) := by
  decide +kernel

theorem edited_on_screen : ∃ s, edited = some s ∧ s.marginTop = 4 ∧ s.marginBottom = 9 ∧
    s.out.length = 565 ∧ s.marginBottom ≤ s.geometry.lastRow ∧
    (∀ col row, Vdu.tab col row ∈ s.out → col < s.geometry.columns ∧ row < s.geometry.rows) ∧
    ∀ byte, Orderly followed s byte → ∃ fuel s', process fuel followed s byte = some s' := by
  obtain ⟨s, fed, shown⟩ := Option.map_eq_some_iff.mp edited_state
  have run : OrderlyRun fullWindow s := feedOrderly_run _ .start rfl fed
  obtain ⟨-, bottom, places, next⟩ := orderly_run_stays_on_screen fullWindow s run
  rw [Prod.mk.injEq, Prod.mk.injEq, Prod.mk.injEq] at shown
  exact ⟨s, fed, shown.1, shown.2.1, shown.2.2.1, bottom, places, next followed⟩

/-- The state after CSI 10 ; 5 r. -/
def crossed : Terminal :=
  { introduced with
    state := .ground, param1 := 10, param2 := 5, paramSelect := 1, marginTop := 9
    marginBottom := 4 }

theorem crossed_margins : Reachable mode4 crossed ∧ homed.Inside crossed.geometry ∧
    ¬crossed.marginTop ≤ crossed.marginBottom := by
  refine ⟨?_, homed_inside _, by decide⟩
  have digit1 := introduced_reachable.step 0 homed 49 rfl
  have digit0 := digit1.step 0 homed 48 rfl
  have separator := digit0.step 0 homed 59 rfl
  have digit5 := separator.step 0 homed 53 rfl
  exact digit5.step 0 homed 114 rfl

end Runs

end Pi1MHz.Vt100
