import Pi1MHz.Vt100.Terminal

/-! When `vt_process` returns. The loops that count down compare without a sign: one whose bound
is 0 has no last pass. All others end within 256 passes. -/
namespace Pi1MHz.Vt100

open Loop

variable {fuel : Nat} {mos : Mos} {s s' : Terminal} {byte : UInt8}

section Pages

/-- The part of the state that a control function may read back later. -/
structure Page where
  geometry : Geometry
  marginTop : UInt8
  marginBottom : UInt8
  savedCol : UInt8
  savedRow : UInt8

def page (s : Terminal) : Page :=
  ⟨s.geometry, s.marginTop, s.marginBottom, s.savedCol, s.savedRow⟩

/-- The final bytes whose functions read the cursor: `A B C D E F G d J K @ L M P X S T s`. -/
def cursorFinals : List UInt8 :=
  [65, 66, 67, 68, 69, 70, 71, 100, 74, 75, 64, 76, 77, 80, 88, 83, 84, 115]

/-- The bytes at which the MOS is asked where the cursor is. -/
def ReadsCursor (s : Terminal) (byte : UInt8) : Prop :=
  match s.state with
  | .ground => byte = 8 ∨ byte = 9
  | .escape => byte = 55
  | .csi => byte ∈ cursorFinals
  | _ => False

/-- What one byte can do to the page. -/
inductive Turns (mos : Mos) (s : Terminal) (byte : UInt8) : Page → Prop
  | keeps : Turns mos s byte (page s)
  | margins (inCsi : s.state = .csi) (final : byte = 114) : Turns mos s byte
      ⟨s.geometry, newTop s, newBottom s, s.savedCol, s.savedRow⟩
  | saves (reads : ReadsCursor s byte) : Turns mos s byte
      ⟨s.geometry, s.marginTop, s.marginBottom, (mos.cursor s.out).1, (mos.cursor s.out).2⟩

theorem blanked_page {edit : Edit} {result : Option (List Vdu)} :
    Yields (result.map (restoreEditCursor s edit)) (page · = page s) :=
  yields_any.map fun _ _ => rfl

theorem insertCharacters_page : Yields (insertCharacters fuel mos s) (page · = page s) :=
  yields_any.bind fun _ _ => blanked_page

theorem deleteCharacters_page : Yields (deleteCharacters fuel mos s) (page · = page s) :=
  yields_any.bind fun _ _ => blanked_page

theorem eraseCharacters_page : Yields (eraseCharacters fuel mos s) (page · = page s) :=
  blanked_page

theorem shiftDown_page {limit : UInt8} {edit : Edit} :
    Yields (shiftDown fuel mos limit s edit) (page · = page s) :=
  yields_any.bind fun _ _ => blanked_page

theorem shiftUp_page {start : UInt8} {edit : Edit} :
    Yields (shiftUp fuel mos start s edit) (page · = page s) :=
  yields_any.bind fun _ _ => blanked_page

theorem insertLines_page : Yields (insertLines fuel mos s) (page · = page s) := by
  unfold insertLines
  split
  · exact yields_some rfl
  · exact shiftDown_page

theorem deleteLines_page : Yields (deleteLines fuel mos s) (page · = page s) := by
  unfold deleteLines
  split
  · exact yields_some rfl
  · exact shiftUp_page

theorem eraseLineRun_page {col row start count : UInt8} :
    Yields (eraseLineRun fuel s col row start count) (page · = page s) :=
  yields_any.map fun _ _ => rfl

theorem eraseLineBefore_page {col row : UInt8} :
    Yields (eraseLineBefore fuel s col row) (page · = page s) := by
  unfold eraseLineBefore
  split
  · exact eraseLineRun_page
  · exact eraseLineRun_page

theorem eraseLine_page : Yields (eraseLine fuel mos s) (page · = page s) := by
  unfold eraseLine
  dsimp only
  split_ifs
  · exact eraseLineBefore_page
  · exact eraseLineRun_page
  · exact eraseLineRun_page
  · exact eraseLineBefore_page

theorem eraseDisplayBefore_page {col row : UInt8} :
    Yields (eraseDisplayBefore fuel mos s col row) (page · = page s) :=
  yields_any.bind fun _ _ => eraseLine_page

theorem eraseDisplayAfter_page {col row : UInt8} :
    Yields (eraseDisplayAfter fuel mos s col row) (page · = page s) := by
  unfold eraseDisplayAfter
  refine eraseLine_page.bind fun erased same => ?_
  refine yields_any.bind fun rest _ => ?_
  dsimp only
  split
  · exact eraseDisplayBefore_page.imp fun _ kept => kept.trans same
  · exact yields_some same

theorem eraseDisplay_page : Yields (eraseDisplay fuel mos s) (page · = page s) := by
  unfold eraseDisplay
  dsimp only
  split_ifs
  · exact yields_some rfl
  · exact yields_some rfl
  · exact eraseDisplayBefore_page
  · exact yields_some rfl
  · exact eraseDisplayAfter_page

theorem page_ite {condition : Prop} [Decidable condition] {first second : Terminal}
    (yes : page first = page s) (no : page second = page s) :
    page (if condition then first else second) = page s := by
  split
  · exact yes
  · exact no

theorem sgrOne_page {param : UInt8} : page (sgrOne s param) = page s :=
  page_ite rfl (page_ite rfl rfl)

theorem sgr_page : page (sgr s) = page s := page_ite sgrOne_page (sgrOne_page.trans sgrOne_page)

theorem ground_page : page (ground mos s byte) = page s := by
  unfold ground
  refine page_ite rfl ?_
  refine page_ite rfl ?_
  refine page_ite rfl ?_
  refine page_ite rfl ?_
  refine page_ite (page_ite rfl rfl) ?_
  refine page_ite rfl ?_
  refine page_ite rfl ?_
  refine page_ite rfl ?_
  refine page_ite rfl ?_
  exact page_ite rfl rfl

theorem countString_page : page (countString s) = page s := page_ite rfl rfl

theorem csiDigit_page {digit : UInt8} : page (csiDigit s digit) = page s := page_ite rfl rfl

theorem Turns.of_same {turned : Terminal} (same : page turned = page s) :
    Turns mos s byte (page turned) := by
  rw [same]
  exact .keeps

theorem Turns.ite {condition : Prop} [Decidable condition] {first second : Terminal}
    (yes : condition → Turns mos s byte (page first)) (no : Turns mos s byte (page second)) :
    Turns mos s byte (page (if condition then first else second)) := by
  split
  · exact yes ‹_›
  · exact no

theorem readsCursor_escape (inEscape : s.state = .escape) (save : byte = 55) :
    ReadsCursor s byte := by
  unfold ReadsCursor
  rw [inEscape]
  exact save

theorem readsCursor_csi {final : UInt8} (inCsi : s.state = .csi) (listed : final ∈ cursorFinals)
    (same : byte = final) : ReadsCursor s byte := by
  unfold ReadsCursor
  rw [inCsi, same]
  exact listed

theorem escape_turns (inEscape : s.state = .escape) :
    Turns mos s byte (page (escape mos s byte)) := by
  unfold escape
  refine Turns.ite (fun _ => .keeps) ?_
  refine Turns.ite (fun _ => .keeps) ?_
  refine Turns.ite (fun save => .saves (readsCursor_escape inEscape save)) ?_
  apply Turns.of_same
  refine page_ite rfl ?_
  refine page_ite rfl ?_
  refine page_ite rfl ?_
  refine page_ite rfl ?_
  refine page_ite rfl ?_
  refine page_ite rfl ?_
  exact page_ite rfl rfl

theorem csiFinal_turns (inCsi : s.state = .csi) :
    Yields (csiFinal fuel mos s byte) fun s' => Turns mos s byte (page s') := by
  unfold csiFinal
  refine Yields.ite (fun _ => yields_some .keeps) fun _ => ?_
  refine Yields.ite (fun _ => yields_some .keeps) fun _ => ?_
  refine Yields.ite (fun _ => yields_some .keeps) fun _ => ?_
  refine Yields.ite (fun _ => yields_some .keeps) fun _ => ?_
  refine Yields.ite (fun _ => yields_some .keeps) fun _ => ?_
  refine Yields.ite (fun _ => yields_some .keeps) fun _ => ?_
  refine Yields.ite (fun _ => yields_some .keeps) fun _ => ?_
  refine Yields.ite (fun _ => yields_some .keeps) fun _ => ?_
  refine Yields.ite (fun _ => yields_some .keeps) fun _ => ?_
  refine Yields.ite (fun _ => yields_some .keeps) fun _ => ?_
  refine Yields.ite (fun _ => eraseDisplay_page.imp fun _ same => .of_same same) fun _ => ?_
  refine Yields.ite (fun _ => eraseLine_page.imp fun _ same => .of_same same) fun _ => ?_
  refine Yields.ite (fun _ => insertCharacters_page.imp fun _ same => .of_same same) fun _ => ?_
  refine Yields.ite (fun _ => insertLines_page.imp fun _ same => .of_same same) fun _ => ?_
  refine Yields.ite (fun _ => deleteLines_page.imp fun _ same => .of_same same) fun _ => ?_
  refine Yields.ite (fun _ => deleteCharacters_page.imp fun _ same => .of_same same) fun _ => ?_
  refine Yields.ite (fun _ => eraseCharacters_page.imp fun _ same => .of_same same) fun _ => ?_
  refine Yields.ite (fun _ => shiftUp_page.imp fun _ same => .of_same same) fun _ => ?_
  refine Yields.ite (fun _ => shiftDown_page.imp fun _ same => .of_same same) fun _ => ?_
  refine Yields.ite (fun _ => yields_some (.of_same sgr_page)) fun _ => ?_
  refine Yields.ite (fun _ => yields_some .keeps) fun _ => ?_
  refine Yields.ite (fun _ => yields_some .keeps) fun _ => ?_
  refine Yields.ite (fun final => yields_some (.margins inCsi final)) fun _ => ?_
  refine Yields.ite (fun _ => yields_some .keeps) fun _ => ?_
  refine Yields.ite (fun _ => yields_some .keeps) fun _ => ?_
  refine Yields.ite (fun _ => yields_some .keeps) fun _ => ?_
  refine Yields.ite (fun save => ?_) fun _ => ?_
  · exact yields_some (.saves (readsCursor_csi inCsi (by decide) save))
  refine Yields.ite (fun _ => yields_some .keeps) fun _ => ?_
  exact yields_some .keeps

theorem process_turns :
    Yields (process fuel mos s byte) fun s' => Turns mos s byte (page s') := by
  unfold process
  cases mode : s.state with
  | ground => exact yields_some (.of_same ground_page)
  | escape => exact yields_some (escape_turns mode)
  | csi =>
    dsimp only
    unfold csi
    refine Yields.ite (fun _ => yields_some .keeps) fun _ => ?_
    refine Yields.ite (fun _ => yields_some .keeps) fun _ => ?_
    refine Yields.ite (fun _ => yields_some .keeps) fun _ => ?_
    refine Yields.ite (fun _ => yields_some (.of_same csiDigit_page)) fun _ => ?_
    exact csiFinal_turns mode
  | osc =>
    dsimp only
    unfold osc
    split_ifs
    · exact yields_some .keeps
    · exact yields_some .keeps
    · exact yields_some (.of_same countString_page)
  | oscEscape => exact yields_some .keeps
  | charset => exact yields_some .keeps
  | string =>
    dsimp only
    unfold controlString
    split_ifs
    · exact yields_some .keeps
    · exact yields_some (.of_same countString_page)
  | stringEscape => exact yields_some .keeps

end Pages

section Counters

theorem countdown {count : UInt8} (more : count - 1 ≠ 0) :
    (count - 1 - 1).toNat < (count - 1).toNat := by
  have positive : (count - 1).toNat ≠ 0 := fun zero => more (UInt8.toNat_inj.mp zero)
  simp only [UInt8.toNat_sub, UInt8.reduceToNat] at *
  omega

/-- A place that moves down towards a bound above 0 comes nearer to it. -/
theorem falls {place count bound : UInt8} (inside : ¬place - count < bound)
    (positive : bound ≠ 0) :
    (place - 1 - count - (bound - 1)).toNat < (place - count - (bound - 1)).toNat := by
  have above : bound.toNat ≠ 0 := fun zero => positive (UInt8.toNat_inj.mp zero)
  simp only [UInt8.lt_iff_toNat_lt, UInt8.toNat_sub, UInt8.reduceToNat] at *
  omega

/-- A place that moves up towards a limit comes nearer to it. -/
theorem rises {place count limit : UInt8} (inside : ¬limit ≤ place + count) :
    (limit - (place + 1 + count)).toNat < (limit - (place + count)).toNat := by
  have next : place + 1 + count = place + count + 1 := by
    rw [UInt8.add_assoc, UInt8.add_comm 1, UInt8.add_assoc]
  rw [next]
  generalize place + count = reached at *
  have := limit.toNat_lt
  have := reached.toNat_lt
  simp only [UInt8.le_iff_toNat_le, UInt8.toNat_sub, UInt8.toNat_add, UInt8.reduceToNat] at *
  omega

theorem le_of_succ_le {bottom place : UInt8} (small : bottom < 255)
    (inside : ¬bottom < place) : ¬bottom + 1 ≤ place := by
  simp only [UInt8.lt_iff_toNat_lt, UInt8.le_iff_toNat_le, UInt8.toNat_add,
    UInt8.reduceToNat] at *
  omega

theorem lt_passes (enough : 256 ≤ fuel) (n : UInt8) : n.toNat < fuel :=
  Nat.lt_of_lt_of_le n.toNat_lt enough

end Counters

section Loops

variable (enough : 256 ≤ fuel)
include enough

theorem sweep_ends {columns : UInt8} {draw : UInt8 → List Vdu → List Vdu} {out : List Vdu} :
    Ends (repeatPass (sweepPass columns draw) fuel (0, out)) := by
  -- A column that is followed by another is not the last byte value.
  refine repeatPass_settles (fun state => state.1.toNat < 255) (fun state => 255 - state.1.toNat)
    ?_ (by simp) (Nat.lt_of_lt_of_le (by simp) enough)
  rintro ⟨col, drawn⟩ small
  simp only [sweepPass]
  split
  next more =>
    apply settles_some
    simp only [UInt8.lt_iff_toNat_lt, UInt8.toNat_add, UInt8.reduceToNat, Pass.holds_again] at *
    have := columns.toNat_lt
    omega
  next => exact settles_some trivial

theorem copyRow_ends {columns source dest : UInt8} {out : List Vdu} :
    Ends (copyRow fuel mos columns source dest out) :=
  (sweep_ends enough).map

theorem clearRowVariable_ends {columns dest : UInt8} {out : List Vdu} :
    Ends (clearRowVariable fuel columns dest out) :=
  (sweep_ends enough).map

theorem blankRows_ends {columns dest count : UInt8} {out : List Vdu} :
    Ends (blankRows fuel columns dest count out) := by
  apply Ends.map
  refine repeatPass_settles (fun _ => True) (fun state => (state.2.1 - 1).toNat) ?_ trivial
    (lt_passes enough _)
  rintro ⟨row, remaining, drawn⟩ -
  refine Settles.map (clearRowVariable_ends enough) ?_
  intro cleared _
  split
  next => exact trivial
  next more => exact ⟨trivial, countdown more⟩

theorem blankEditCount_ends {columns row col count : UInt8} {out : List Vdu} :
    Ends (blankEditCount fuel columns row col count out) := by
  apply Ends.map
  refine repeatPass_settles (fun _ => True) (fun state => (state.2.1 - 1).toNat) ?_ trivial
    (lt_passes enough _)
  rintro ⟨col, remaining, drawn⟩ -
  simp only [blankEditPass]
  split_ifs with outside last
  · exact settles_some trivial
  · exact settles_some trivial
  · exact settles_some ⟨trivial, countdown last⟩

theorem spaces_ends {col row count : UInt8} {out : List Vdu} :
    Ends (spaces fuel col row count out) := by
  apply Ends.map
  refine repeatPass_settles (fun _ => True) (fun state => (state.1 - 1).toNat) ?_ trivial
    (lt_passes enough _)
  rintro ⟨remaining, drawn⟩ -
  simp only [spacesPass]
  split_ifs with last
  · exact settles_some trivial
  · exact settles_some ⟨trivial, countdown last⟩

theorem eraseRows_ends {columns limit row : UInt8} {out : List Vdu} :
    Ends (repeatPass (eraseRowsPass fuel columns limit) fuel (row, out)) := by
  refine repeatPass_settles (fun _ => True) (fun state => (limit - (state.1 + 0)).toNat) ?_ trivial
    (lt_passes enough _)
  rintro ⟨row, drawn⟩ -
  simp only [eraseRowsPass]
  split
  next => exact settles_some trivial
  next inside =>
    refine Settles.map (spaces_ends enough) ?_
    intro erased _
    split
    next => exact trivial
    next =>
      rw [← UInt8.add_zero row] at inside
      exact ⟨trivial, rises inside⟩

end Loops

section Functions

/-- Row 0 is inside the margins only when the top margin is row 0. -/
theorem prepareLineCount_zero {edit : Edit} (prepared : prepareLineCount mos s = some edit)
    (zero : edit.cursorRow = 0) : (mos.cursor s.out).2 = 0 ∧ s.marginTop = 0 := by
  unfold prepareLineCount at prepared
  dsimp only at prepared
  split_ifs at prepared with above below
  cases prepared
  refine ⟨zero, ?_⟩
  rw [← UInt8.toNat_inj]
  have row : (mos.cursor s.out).2 = 0 := zero
  rw [row] at above
  exact Nat.eq_zero_of_not_pos above

variable (enough : 256 ≤ fuel)
include enough

theorem insertCharacters_ends (positive : (mos.cursor s.out).1 ≠ 0) :
    Ends (insertCharacters fuel mos s) := by
  unfold insertCharacters
  refine Ends.bind ?_ fun _ => (blankEditCount_ends enough).map
  refine repeatPass_settles (fun _ => True) (fun state =>
    (state.1 - (prepareEditCount mos s).editCount - ((mos.cursor s.out).1 - 1)).toNat) ?_ trivial
    (lt_passes enough _)
  rintro ⟨col, drawn⟩ -
  simp only [ichShiftPass]
  split
  next => exact settles_some trivial
  next inside => exact settles_some ⟨trivial, falls inside positive⟩

theorem deleteCharacters_ends : Ends (deleteCharacters fuel mos s) := by
  unfold deleteCharacters
  refine Ends.bind ?_ fun _ => (blankEditCount_ends enough).map
  refine repeatPass_settles (fun _ => True) (fun state =>
    (s.geometry.columns - (state.1 + (prepareEditCount mos s).editCount)).toNat) ?_ trivial
    (lt_passes enough _)
  rintro ⟨col, drawn⟩ -
  simp only [dchShiftPass]
  split
  next => exact settles_some trivial
  next inside => exact settles_some ⟨trivial, rises inside⟩

theorem shiftDown_ends {limit : UInt8} {edit : Edit} (positive : limit ≠ 0) :
    Ends (shiftDown fuel mos limit s edit) := by
  unfold shiftDown
  refine Ends.bind ?_ fun _ => (blankRows_ends enough).map
  refine repeatPass_settles (fun _ => True)
    (fun state => (state.1 - edit.editCount - (limit - 1)).toNat) ?_ trivial (lt_passes enough _)
  rintro ⟨row, drawn⟩ -
  simp only [shiftDownPass]
  split
  next => exact settles_some trivial
  next inside => exact Settles.map (copyRow_ends enough) fun _ _ => ⟨trivial, falls inside positive⟩

theorem shiftUp_ends {start : UInt8} {edit : Edit} (small : s.marginBottom < 255) :
    Ends (shiftUp fuel mos start s edit) := by
  unfold shiftUp
  refine Ends.bind ?_ fun _ => (blankRows_ends enough).map
  refine repeatPass_settles (fun _ => True)
    (fun state => (s.marginBottom + 1 - (state.1 + edit.editCount)).toNat) ?_ trivial
    (lt_passes enough _)
  rintro ⟨row, drawn⟩ -
  simp only [shiftUpPass]
  split
  next => exact settles_some trivial
  next inside =>
    exact Settles.map (copyRow_ends enough) fun _ _ => ⟨trivial, rises (le_of_succ_le small inside)⟩

theorem insertLines_ends (positive : ¬((mos.cursor s.out).2 = 0 ∧ s.marginTop = 0)) :
    Ends (insertLines fuel mos s) := by
  unfold insertLines
  split
  next => exact ends_some
  next edit prepared =>
    apply shiftDown_ends enough
    intro zero
    exact positive (prepareLineCount_zero prepared zero)

theorem deleteLines_ends (small : s.marginBottom < 255) : Ends (deleteLines fuel mos s) := by
  unfold deleteLines
  split
  · exact ends_some
  · exact shiftUp_ends enough small

theorem eraseLineBefore_ends {col row : UInt8} : Ends (eraseLineBefore fuel s col row) := by
  unfold eraseLineBefore
  split
  · exact (spaces_ends enough).map
  · exact (spaces_ends enough).map

theorem eraseLine_ends : Ends (eraseLine fuel mos s) := by
  unfold eraseLine
  dsimp only
  split_ifs
  · exact eraseLineBefore_ends enough
  · exact (spaces_ends enough).map
  · exact (spaces_ends enough).map
  · exact eraseLineBefore_ends enough

theorem eraseDisplayBefore_ends {col row : UInt8} :
    Ends (eraseDisplayBefore fuel mos s col row) :=
  (eraseRows_ends enough).bind fun _ => eraseLine_ends enough

theorem eraseDisplayAfter_ends {col row : UInt8} :
    Ends (eraseDisplayAfter fuel mos s col row) := by
  unfold eraseDisplayAfter
  refine (eraseLine_ends enough).bind fun erased => ?_
  refine (eraseRows_ends enough).bind fun rest => ?_
  exact Ends.ite (fun _ => eraseDisplayBefore_ends enough) fun _ => ends_some

theorem eraseDisplay_ends : Ends (eraseDisplay fuel mos s) := by
  unfold eraseDisplay
  dsimp only
  refine Ends.ite (fun _ => ends_some) fun _ => ?_
  refine Ends.ite (fun _ => ends_some) fun _ => ?_
  refine Ends.ite (fun _ => eraseDisplayBefore_ends enough) fun _ => ?_
  exact Ends.ite (fun _ => ends_some) fun _ => eraseDisplayAfter_ends enough

end Functions

section Hanging

/-- The calls that never return: ICH with the cursor in column 0, IL in row 0 inside the margins,
and SD with the top margin in row 0. -/
def Hangs (mos : Mos) (s : Terminal) (byte : UInt8) : Prop :=
  s.state = .csi ∧
    (byte = 64 ∧ (mos.cursor s.out).1 = 0 ∨
      byte = 76 ∧ (mos.cursor s.out).2 = 0 ∧ s.marginTop = 0 ∨
      byte = 84 ∧ s.marginTop = 0)

instance : Decidable (Hangs mos s byte) := inferInstanceAs (Decidable (_ ∧ _))

theorem csiFinal_ends (enough : 256 ≤ fuel) (small : s.marginBottom < 255)
    (inCsi : s.state = .csi) (free : ¬Hangs mos s byte) : Ends (csiFinal fuel mos s byte) := by
  unfold csiFinal
  refine Ends.ite (fun _ => ends_some) fun _ => ?_
  refine Ends.ite (fun _ => ends_some) fun _ => ?_
  refine Ends.ite (fun _ => ends_some) fun _ => ?_
  refine Ends.ite (fun _ => ends_some) fun _ => ?_
  refine Ends.ite (fun _ => ends_some) fun _ => ?_
  refine Ends.ite (fun _ => ends_some) fun _ => ?_
  refine Ends.ite (fun _ => ends_some) fun _ => ?_
  refine Ends.ite (fun _ => ends_some) fun _ => ?_
  refine Ends.ite (fun _ => ends_some) fun _ => ?_
  refine Ends.ite (fun _ => ends_some) fun _ => ?_
  refine Ends.ite (fun _ => eraseDisplay_ends enough) fun _ => ?_
  refine Ends.ite (fun _ => eraseLine_ends enough) fun _ => ?_
  refine Ends.ite (fun ich => insertCharacters_ends enough ?_) fun _ => ?_
  · exact fun zero => free ⟨inCsi, .inl ⟨ich, zero⟩⟩
  refine Ends.ite (fun il => insertLines_ends enough ?_) fun _ => ?_
  · exact fun zero => free ⟨inCsi, .inr (.inl ⟨il, zero⟩)⟩
  refine Ends.ite (fun _ => deleteLines_ends enough small) fun _ => ?_
  refine Ends.ite (fun _ => deleteCharacters_ends enough) fun _ => ?_
  refine Ends.ite (fun _ => (blankEditCount_ends enough).map) fun _ => ?_
  refine Ends.ite (fun _ => shiftUp_ends enough small) fun _ => ?_
  refine Ends.ite (fun sd => shiftDown_ends enough ?_) fun _ => ?_
  · exact fun zero => free ⟨inCsi, .inr (.inr ⟨sd, zero⟩)⟩
  -- The other control functions have no loop.
  repeat refine Ends.ite (fun _ => ends_some) fun _ => ?_
  exact ends_some

theorem process_ends (enough : 256 ≤ fuel) (small : s.marginBottom < 255)
    (free : ¬Hangs mos s byte) : Ends (process fuel mos s byte) := by
  unfold process
  split
  case h_3 mode =>
    unfold csi
    refine Ends.ite (fun _ => ends_some) fun _ => ?_
    refine Ends.ite (fun _ => ends_some) fun _ => ?_
    refine Ends.ite (fun _ => ends_some) fun _ => ?_
    refine Ends.ite (fun _ => ends_some) fun _ => ?_
    exact csiFinal_ends enough small mode free
  all_goals exact ends_some

/-- A shift down to row or column 0 never finds a place below its bound. -/
theorem shiftDown_hangs {edit : Edit} : shiftDown fuel mos 0 s edit = none := by
  unfold shiftDown
  dsimp only
  rw [repeatPass_diverges, Option.bind_none]
  rintro ⟨row, drawn⟩
  simp only [shiftDownPass]
  refine Yields.ite (fun below => absurd below UInt8.not_lt_zero) ?_
  exact fun _ => yields_any.map fun _ _ => trivial

theorem insertCharacters_hangs (zero : (mos.cursor s.out).1 = 0) :
    insertCharacters fuel mos s = none := by
  unfold insertCharacters
  dsimp only
  rw [repeatPass_diverges, Option.bind_none]
  rintro ⟨col, drawn⟩
  have first : (prepareEditCount mos s).cursorCol = 0 := zero
  simp only [ichShiftPass, first]
  exact Yields.ite (fun below => absurd below UInt8.not_lt_zero) fun _ => yields_some trivial

theorem insertLines_hangs (zero : (mos.cursor s.out).2 = 0) (top : s.marginTop = 0) :
    insertLines fuel mos s = none := by
  unfold insertLines prepareLineCount
  dsimp only
  rw [zero, top, if_neg UInt8.not_lt_zero, if_neg UInt8.not_lt_zero]
  exact shiftDown_hangs

theorem process_hangs (hangs : Hangs mos s byte) : process fuel mos s byte = none := by
  obtain ⟨inCsi, ⟨rfl, zero⟩ | ⟨rfl, zero, top⟩ | ⟨rfl, top⟩⟩ := hangs
  · unfold process
    rw [inCsi]
    exact insertCharacters_hangs zero
  · unfold process
    rw [inCsi]
    exact insertLines_hangs zero top
  · unfold process
    rw [inCsi]
    change scrollDown fuel mos { s with state := .ground } = none
    unfold scrollDown
    dsimp only
    rw [top]
    exact shiftDown_hangs

end Hanging

section Runs

variable {window : Window}

theorem Geometry.le_lastRow_iff (g : Geometry) (row : UInt8) : row ≤ g.lastRow ↔ row < g.rows := by
  have range := g.rows_range
  rw [g.lastRow_eq]
  simp only [UInt8.lt_iff_toNat_lt, UInt8.le_iff_toNat_le, UInt8.toNat_sub,
    UInt8.reduceToNat] at *
  omega

theorem newBottom_lt (s : Terminal) : newBottom s < s.geometry.rows := by
  have last := (s.geometry.le_lastRow_iff _).mp (UInt8.le_refl s.geometry.lastRow)
  unfold newBottom
  split_ifs with absent inside
  · exact last
  · exact inside
  · exact last

theorem Reachable.bottom_lt (reachable : Reachable window s) :
    s.marginBottom < s.geometry.rows := by
  induction reachable with
  | start => exact ((readWindowGeometry window).le_lastRow_iff _).mp (UInt8.le_refl _)
  | @step s s' fuel mos byte before returned ih =>
    have turns : Turns mos s byte (page s') := process_turns s' returned
    generalize turned : page s' = after at turns
    have bottom : s'.marginBottom = after.marginBottom := by rw [← turned]; rfl
    have screen : s'.geometry = after.geometry := by rw [← turned]; rfl
    rw [bottom, screen]
    cases turns with
    | keeps => exact ih
    | margins inCsi final => exact newBottom_lt s
    | saves reads => exact ih

theorem Geometry.row_small (g : Geometry) {row : UInt8} (inside : row < g.rows) : row < 255 := by
  have range := g.rows_range
  simp only [UInt8.lt_iff_toNat_lt, UInt8.le_iff_toNat_le, UInt8.reduceToNat] at *
  omega

/-- In every reachable state, a call returns exactly when it is not one of those that hang. -/
theorem process_returns_iff (window : Window) (s : Terminal) (reachable : Reachable window s)
    (mos : Mos) (byte : UInt8) :
    (∃ fuel s', process fuel mos s byte = some s') ↔ ¬Hangs mos s byte := by
  constructor
  · rintro ⟨fuel, s', returned⟩ hangs
    rw [process_hangs hangs] at returned
    cases returned
  · intro free
    have small := s.geometry.row_small reachable.bottom_lt
    obtain ⟨s', returned, -⟩ := process_ends (Nat.le_refl 256) small free
    exact ⟨256, s', returned⟩

/-- The text window of MODE 4. -/
def mode4 : Window := ⟨0, 31, 39, 0⟩

/-- A MOS that reports the cursor at home on an empty screen. -/
def homed : Mos := ⟨fun _ => (0, 0), fun _ => ⟨32, .inr (by decide)⟩⟩

/-- The state after `vt_init` and the two bytes of CSI. -/
def introduced : Terminal := enterCsi { init mode4 loaded with state := .escape }

theorem introduced_reachable : Reachable mode4 introduced :=
  .step 0 homed 91 (.step 0 homed 27 .start rfl) rfl

/-- CSI M moves 23 rows up and blanks the last one. -/
theorem deleteLines_returns : Reachable mode4 introduced ∧
    ∃ fuel s', process fuel homed introduced 77 = some s' :=
  ⟨introduced_reachable,
    (process_returns_iff mode4 introduced introduced_reachable homed 77).mpr (by decide)⟩

/-- CSI T as the first output of the remote host. -/
theorem scrollDown_never_returns :
    Reachable mode4 introduced ∧ (homed.cursor introduced.out).1 < introduced.geometry.columns ∧
      (homed.cursor introduced.out).2 < introduced.geometry.rows ∧
      ∀ fuel, process fuel homed introduced 84 = none := by
  refine ⟨introduced_reachable, by decide, by decide, ?_⟩
  intro fuel
  exact process_hangs ⟨rfl, .inr (.inr ⟨rfl, rfl⟩)⟩

end Runs

end Pi1MHz.Vt100
