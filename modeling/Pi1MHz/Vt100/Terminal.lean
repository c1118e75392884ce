import Pi1MHz.Foundation.Loop

/-! The VT100 subset of the host tools (`vt100.asm`): the parser of the byte stream and the
control functions it renders through MOS calls. All variables are bytes; additions and
subtractions wrap. A variable that every call writes before it reads it (cursor, counts, rows and
columns of the edit functions) is an argument here. Every loop is given the same number of
passes. -/
namespace Pi1MHz.Vt100

open Loop

/-- `vt_state` -/
inductive Mode
  | ground
  | escape
  | csi
  | osc
  | oscEscape
  | charset
  | string
  | stringEscape
deriving DecidableEq, Repr

/-- What is written through OSWRCH: a byte by itself, VDU 17 and VDU 31 with their parameters. -/
inductive Vdu
  | char (value : UInt8)
  | colour (value : UInt8)
  | tab (col row : UInt8)
deriving DecidableEq, Repr

/-- A character OSBYTE &87 reads back: 0 when none is recognised, never another control code. -/
structure Glyph where
  value : UInt8
  visible : value = 0 ∨ 32 ≤ value

/-- The MOS answers, each a function of what has been written: the cursor position relative to
the text window (OSBYTE &86) and the character under the cursor (OSBYTE &87). -/
structure Mos where
  cursor : List Vdu → UInt8 × UInt8
  character : List Vdu → Glyph

section Geometry

/-- The text window, from VDU variables 8 to 11. -/
structure Window where
  left : UInt8
  bottom : UInt8
  right : UInt8
  top : UInt8
deriving DecidableEq, Repr

def Window.columns (window : Window) : UInt8 :=
  if window.right < window.left then 40
  else
    let width := window.right - window.left + 1
    if width < 20 then 40 else if 81 ≤ width then 40 else width

def Window.rows (window : Window) : UInt8 :=
  if window.bottom < window.top then 24
  else
    let height := window.bottom - window.top + 1
    if height < 8 then 24 else if height < 25 then height else 24

/-- `vt_columns`, `vt_last_column`, `vt_rows` and `vt_last_row`. -/
structure Geometry where
  columns : UInt8
  lastColumn : UInt8
  rows : UInt8
  lastRow : UInt8
  columns_range : 20 ≤ columns ∧ columns ≤ 80
  rows_range : 8 ≤ rows ∧ rows ≤ 24
  lastColumn_eq : lastColumn = columns - 1
  lastRow_eq : lastRow = rows - 1

theorem Window.columns_range (window : Window) :
    20 ≤ window.columns ∧ window.columns ≤ 80 := by
  unfold Window.columns
  simp only [UInt8.lt_iff_toNat_lt, UInt8.le_iff_toNat_le]
  split
  · decide
  · split
    · decide
    · split
      · decide
      · constructor
        · exact Nat.le_of_not_lt ‹_›
        · exact Nat.le_of_lt_succ (Nat.lt_of_not_le ‹_›)

theorem Window.rows_range (window : Window) : 8 ≤ window.rows ∧ window.rows ≤ 24 := by
  unfold Window.rows
  simp only [UInt8.lt_iff_toNat_lt, UInt8.le_iff_toNat_le]
  split
  · decide
  · split
    · decide
    · split
      · constructor
        · exact Nat.le_of_not_lt ‹_›
        · exact Nat.le_of_lt_succ ‹_›
      · decide

/-- `vt_read_window_geometry` -/
def readWindowGeometry (window : Window) : Geometry where
  columns := window.columns
  lastColumn := window.columns - 1
  rows := window.rows
  lastRow := window.rows - 1
  columns_range := window.columns_range
  rows_range := window.rows_range
  lastColumn_eq := rfl
  lastRow_eq := rfl

end Geometry

/-- The variables that outlive a call, and what has been written so far. -/
structure Terminal where
  state : Mode
  param1 : UInt8
  param2 : UInt8
  paramSelect : UInt8
  privateMarker : UInt8
  intermediate : UInt8
  sequenceLength : UInt8
  savedCol : UInt8
  savedRow : UInt8
  marginTop : UInt8
  marginBottom : UInt8
  geometry : Geometry
  modeParameter : UInt8
  modePrivate : UInt8
  modeValue : UInt8
  replyPending : UInt8
  out : List Vdu

section Output

/-- One byte through OSWRCH. -/
def oswrch (s : Terminal) (value : UInt8) : Terminal := { s with out := s.out ++ [.char value] }

/-- VDU 31 with a column and a row. -/
def position (s : Terminal) (col row : UInt8) : Terminal :=
  { s with out := s.out ++ [.tab col row] }

def sgrReset (s : Terminal) : Terminal := { s with out := s.out ++ [.colour 1, .colour 128] }

def sgrInverse (s : Terminal) : Terminal := { s with out := s.out ++ [.colour 0, .colour 129] }

/-- `vt_write_cell` -/
def writeCell (value col row : UInt8) (out : List Vdu) : List Vdu :=
  out ++ [.tab col row, .char value]

/-- `vt_read_cell` followed by `vt_write_cell` of what was read. -/
def copyCell (mos : Mos) (fromCol fromRow toCol toRow : UInt8) (out : List Vdu) : List Vdu :=
  let out := out ++ [.tab fromCol fromRow]
  writeCell (mos.character out).value toCol toRow out

end Output

section Arithmetic

/-- The carry of an addition. -/
def carries (a b : UInt8) : Bool := 256 ≤ a.toNat + b.toNat

/-- `vt_times_ten`, with 255 for a result that does not fit. -/
def timesTen (a : UInt8) : UInt8 :=
  if carries a a then 255
  else if carries (a + a) (a + a) then 255
  else
    let four := a + a + (a + a)
    if carries four a then 255
    else if carries (four + a) (four + a) then 255
    else four + a + (four + a)

/-- A parameter after one more decimal digit. -/
def appendDigit (param digit : UInt8) : UInt8 :=
  if carries digit (timesTen param) then 255 else digit + timesTen param

/-- `vt_default_one` -/
def defaultOne (param : UInt8) : UInt8 := if param = 0 then 1 else param

/-- A 1-based coordinate, brought below `limit`. -/
def coordinate (param limit last : UInt8) : UInt8 :=
  if defaultOne param - 1 < limit then defaultOne param - 1 else last

def moveBack (place count : UInt8) : UInt8 := if place < count then 0 else place - count

def moveForward (place count limit last : UInt8) : UInt8 :=
  if carries place count then last else if place + count < limit then place + count else last

end Arithmetic

section Editing

variable (fuel : Nat) (mos : Mos)

/-- One column of a loop along a row, and the test for the last one. -/
def sweepPass (columns : UInt8) (draw : UInt8 → List Vdu → List Vdu) :
    UInt8 × List Vdu → Option (Pass (UInt8 × List Vdu))
  | (col, out) =>
    if col + 1 < columns then some (.again (col + 1, draw col out))
    else some (.leave (col + 1, draw col out))

def copyRow (columns sourceRow destRow : UInt8) (out : List Vdu) : Option (List Vdu) :=
  let draw := fun col => copyCell mos col sourceRow col destRow
  (repeatPass (sweepPass columns draw) fuel (0, out)).map Prod.snd

def clearRowVariable (columns destRow : UInt8) (out : List Vdu) : Option (List Vdu) :=
  let draw := fun col => writeCell 32 col destRow
  (repeatPass (sweepPass columns draw) fuel (0, out)).map Prod.snd

/-- One row of `vt_blank_rows`: the row, the rows that remain and what is written. -/
def blankRowsPass (columns : UInt8) :
    UInt8 × UInt8 × List Vdu → Option (Pass (UInt8 × UInt8 × List Vdu))
  | (row, remaining, out) => (clearRowVariable fuel columns row out).map fun out =>
    if remaining - 1 = 0 then .leave (row + 1, remaining - 1, out)
    else .again (row + 1, remaining - 1, out)

def blankRows (columns destRow count : UInt8) (out : List Vdu) : Option (List Vdu) :=
  (repeatPass (blankRowsPass fuel columns) fuel (destRow, count, out)).map (·.2.2)

/-- One cell of `vt_blank_edit_loop`: the column, the cells that remain and what is written. -/
def blankEditPass (columns row : UInt8) :
    UInt8 × UInt8 × List Vdu → Option (Pass (UInt8 × UInt8 × List Vdu))
  | (col, remaining, out) =>
    if columns ≤ col then some (.leave (col, remaining, out))
    else if remaining - 1 = 0 then
      some (.leave (col + 1, remaining - 1, writeCell 32 col row out))
    else some (.again (col + 1, remaining - 1, writeCell 32 col row out))

def blankEditCount (columns row col count : UInt8) (out : List Vdu) : Option (List Vdu) :=
  (repeatPass (blankEditPass columns row) fuel (col, count, out)).map (·.2.2)

/-- The cursor and the count an edit function works with. -/
structure Edit where
  cursorCol : UInt8
  cursorRow : UInt8
  editCount : UInt8

/-- `vt_position_saved_cursor`, after an edit drew `out`. -/
def restoreEditCursor (s : Terminal) (edit : Edit) (out : List Vdu) : Terminal :=
  { s with out := out ++ [.tab edit.cursorCol edit.cursorRow] }

/-- The count asked for, brought down to `room`. -/
def limitCount (s : Terminal) (room : UInt8) : UInt8 :=
  if room < defaultOne s.param1 then room else defaultOne s.param1

def prepareEditCount (s : Terminal) : Edit :=
  let (col, row) := mos.cursor s.out
  ⟨col, row, limitCount s (s.geometry.columns - col)⟩

/-- `vt_prepare_line_count`; `none` when the cursor is outside the margins. -/
def prepareLineCount (s : Terminal) : Option Edit :=
  let (col, row) := mos.cursor s.out
  if row < s.marginTop then none
  else if s.marginBottom < row then none
  else some ⟨col, row, limitCount s (s.marginBottom - row + 1)⟩

def prepareScrollCount (s : Terminal) : Edit :=
  let (col, row) := mos.cursor s.out
  ⟨col, row, limitCount s (s.marginBottom - s.marginTop + 1)⟩

/-- One pass of `vt_ich_shift`, at column `col`. -/
def ichShiftPass (edit : Edit) : UInt8 × List Vdu → Option (Pass (UInt8 × List Vdu))
  | (col, out) =>
    if col - edit.editCount < edit.cursorCol then some (.leave (col, out))
    else some (.again (col - 1,
      copyCell mos (col - edit.editCount) edit.cursorRow col edit.cursorRow out))

/-- CSI Ps @ -/
def insertCharacters (s : Terminal) : Option Terminal :=
  let edit := prepareEditCount mos s
  (repeatPass (ichShiftPass mos edit) fuel (s.geometry.lastColumn, s.out)).bind fun (_, out) =>
    (blankEditCount fuel s.geometry.columns edit.cursorRow edit.cursorCol edit.editCount out).map
      (restoreEditCursor s edit)

/-- One pass of `vt_dch_shift`, at column `col`. -/
def dchShiftPass (columns : UInt8) (edit : Edit) :
    UInt8 × List Vdu → Option (Pass (UInt8 × List Vdu))
  | (col, out) =>
    if columns ≤ col + edit.editCount then some (.leave (col, out))
    else some (.again (col + 1,
      copyCell mos (col + edit.editCount) edit.cursorRow col edit.cursorRow out))

/-- CSI Ps P -/
def deleteCharacters (s : Terminal) : Option Terminal :=
  let columns := s.geometry.columns
  let edit := prepareEditCount mos s
  (repeatPass (dchShiftPass mos columns edit) fuel (edit.cursorCol, s.out)).bind fun (_, out) =>
    (blankEditCount fuel columns edit.cursorRow (columns - edit.editCount) edit.editCount out).map
      (restoreEditCursor s edit)

/-- CSI Ps X -/
def eraseCharacters (s : Terminal) : Option Terminal :=
  let edit := prepareEditCount mos s
  (blankEditCount fuel s.geometry.columns edit.cursorRow edit.cursorCol edit.editCount s.out).map
    (restoreEditCursor s edit)

/-- One pass of `vt_il_shift` and of `vt_sd_shift`, at row `row`. -/
def shiftDownPass (columns count limit : UInt8) :
    UInt8 × List Vdu → Option (Pass (UInt8 × List Vdu))
  | (row, out) =>
    if row - count < limit then some (.leave (row, out))
    else (copyRow fuel mos columns (row - count) row out).map fun out => .again (row - 1, out)

/-- The rows from the bottom margin up to `limit` move down, and blank ones fill the gap. -/
def shiftDown (limit : UInt8) (s : Terminal) (edit : Edit) : Option Terminal :=
  let columns := s.geometry.columns
  (repeatPass (shiftDownPass fuel mos columns edit.editCount limit) fuel
    (s.marginBottom, s.out)).bind fun (_, out) =>
      (blankRows fuel columns limit edit.editCount out).map (restoreEditCursor s edit)

/-- One pass of `vt_dl_shift` and of `vt_su_shift`, at row `row`. -/
def shiftUpPass (columns count bottom : UInt8) :
    UInt8 × List Vdu → Option (Pass (UInt8 × List Vdu))
  | (row, out) =>
    if bottom < row + count then some (.leave (row, out))
    else (copyRow fuel mos columns (row + count) row out).map fun out => .again (row + 1, out)

/-- The rows from `start` down to the bottom margin move up, and blank ones fill the gap. -/
def shiftUp (start : UInt8) (s : Terminal) (edit : Edit) : Option Terminal :=
  let columns := s.geometry.columns
  (repeatPass (shiftUpPass fuel mos columns edit.editCount s.marginBottom) fuel
    (start, s.out)).bind fun (_, out) =>
      (blankRows fuel columns (s.marginBottom - edit.editCount + 1) edit.editCount out).map
        (restoreEditCursor s edit)

/-- CSI Ps L -/
def insertLines (s : Terminal) : Option Terminal :=
  match prepareLineCount mos s with
  | none => some s
  | some edit => shiftDown fuel mos edit.cursorRow s edit

/-- CSI Ps M -/
def deleteLines (s : Terminal) : Option Terminal :=
  match prepareLineCount mos s with
  | none => some s
  | some edit => shiftUp fuel mos edit.cursorRow s edit

/-- CSI Ps S -/
def scrollUp (s : Terminal) : Option Terminal :=
  shiftUp fuel mos s.marginTop s (prepareScrollCount mos s)

/-- CSI Ps T -/
def scrollDown (s : Terminal) : Option Terminal :=
  shiftDown fuel mos s.marginTop s (prepareScrollCount mos s)

end Editing

section Erasing

variable (fuel : Nat) (mos : Mos)

/-- One space of `vt_erase_line_spaces` and of `vt_clear_whole_row_spaces`. -/
def spacesPass : UInt8 × List Vdu → Option (Pass (UInt8 × List Vdu))
  | (count, out) =>
    if count - 1 = 0 then some (.leave (count - 1, out ++ [.char 32]))
    else some (.again (count - 1, out ++ [.char 32]))

/-- `count` spaces from a place on. -/
def spaces (col row count : UInt8) (out : List Vdu) : Option (List Vdu) :=
  (repeatPass spacesPass fuel (count, out ++ [.tab col row])).map Prod.snd

def eraseLineRun (s : Terminal) (col row start count : UInt8) : Option Terminal :=
  (spaces fuel start row count s.out).map fun out => { s with out := out ++ [.tab col row] }

def eraseLineAll (s : Terminal) (col row : UInt8) : Option Terminal :=
  eraseLineRun fuel s col row 0 s.geometry.columns

def eraseLineBefore (s : Terminal) (col row : UInt8) : Option Terminal :=
  if col + 1 ≠ 0 then eraseLineRun fuel s col row 0 (col + 1) else eraseLineAll fuel s col row

/-- CSI Ps K -/
def eraseLine (s : Terminal) : Option Terminal :=
  let (col, row) := mos.cursor s.out
  if s.param1 = 1 then eraseLineBefore fuel s col row
  else if s.param1 = 2 then eraseLineAll fuel s col row
  else if s.geometry.columns - col ≠ 0 then
    eraseLineRun fuel s col row col (s.geometry.columns - col)
  else eraseLineBefore fuel s col row

/-- One row of `vt_erase_display_before_loop` and of `vt_erase_display_after_loop`; both loops
end when the row counter wraps to 0. -/
def eraseRowsPass (columns limit : UInt8) : UInt8 × List Vdu → Option (Pass (UInt8 × List Vdu))
  | (row, out) =>
    if limit ≤ row then some (.leave (row, out))
    else (spaces fuel 0 row columns out).map fun out =>
      if row + 1 = 0 then .leave (row + 1, out) else .again (row + 1, out)

def eraseDisplayBefore (s : Terminal) (col row : UInt8) : Option Terminal :=
  (repeatPass (eraseRowsPass fuel s.geometry.columns row) fuel (0, s.out)).bind fun (_, out) =>
    eraseLine fuel mos { s with param1 := 1, out := out ++ [.tab col row] }

def eraseDisplayAfter (s : Terminal) (col row : UInt8) : Option Terminal :=
  (eraseLine fuel mos { s with param1 := 0 }).bind fun s =>
    (repeatPass (eraseRowsPass fuel s.geometry.columns s.geometry.rows) fuel
      (row + 1, s.out)).bind fun (last, out) =>
        -- A row counter that wrapped falls through to the code for ED1.
        if last = 0 then eraseDisplayBefore fuel mos { s with out := out } col row
        else some { s with out := out ++ [.tab col row] }

def eraseDisplayAll (s : Terminal) (col row : UInt8) : Terminal :=
  position (oswrch s 12) col row

/-- CSI Ps J -/
def eraseDisplay (s : Terminal) : Option Terminal :=
  let (col, row) := mos.cursor s.out
  if s.param1 = 2 then some (eraseDisplayAll s col row)
  else if s.param1 = 3 then some (eraseDisplayAll s col row)
  else if s.param1 = 1 then eraseDisplayBefore fuel mos s col row
  else if col ||| row = 0 then some (eraseDisplayAll s col row)
  else eraseDisplayAfter fuel mos s col row

end Erasing

section Moving

variable (mos : Mos)

/-- VDU 31 with a place computed from the cursor. -/
def moveCursor (s : Terminal) (place : UInt8 → UInt8 → UInt8 × UInt8) : Terminal :=
  let (col, row) := mos.cursor s.out
  position s (place col row).1 (place col row).2

def cursorUp (s : Terminal) : Terminal :=
  moveCursor mos s fun col row => (col, moveBack row (defaultOne s.param1))

def cursorDown (s : Terminal) : Terminal :=
  moveCursor mos s fun col row =>
    (col, moveForward row (defaultOne s.param1) s.geometry.rows s.geometry.lastRow)

-- The last column and the last row are never 0, so the BNE after loading one is taken.
def cursorRight (s : Terminal) : Terminal :=
  moveCursor mos s fun col row =>
    (moveForward col (defaultOne s.param1) s.geometry.columns s.geometry.lastColumn, row)

def cursorLeft (s : Terminal) : Terminal :=
  moveCursor mos s fun col row => (moveBack col (defaultOne s.param1), row)

def cursorNextLine (s : Terminal) : Terminal :=
  moveCursor mos s fun _ row =>
    (0, moveForward row (defaultOne s.param1) s.geometry.rows s.geometry.lastRow)

def cursorPreviousLine (s : Terminal) : Terminal :=
  moveCursor mos s fun _ row => (0, moveBack row (defaultOne s.param1))

def cursorPosition (s : Terminal) : Terminal :=
  position s (coordinate s.param2 s.geometry.columns s.geometry.lastColumn)
    (coordinate s.param1 s.geometry.rows s.geometry.lastRow)

def cursorColumn (s : Terminal) : Terminal :=
  moveCursor mos s fun _ row =>
    (coordinate s.param1 s.geometry.columns s.geometry.lastColumn, row)

def cursorAbsoluteRow (s : Terminal) : Terminal :=
  moveCursor mos s fun col _ => (col, coordinate s.param1 s.geometry.rows s.geometry.lastRow)

def backspace (s : Terminal) : Terminal :=
  let (col, row) := mos.cursor s.out
  if col = 0 then s else position s (col - 1) row

def tab (s : Terminal) : Terminal :=
  moveCursor mos s fun col row =>
    (if (col ||| 7) + 1 < s.geometry.columns then (col ||| 7) + 1 else s.geometry.lastColumn, row)

def saveCursor (s : Terminal) : Terminal :=
  let (col, row) := mos.cursor s.out
  { s with state := .ground, savedCol := col, savedRow := row }

def restoreCursor (s : Terminal) : Terminal :=
  position { s with state := .ground } s.savedCol s.savedRow

end Moving

section Modes

/-- `vt_set_mode` and `vt_reset_mode` -/
def recordMode (s : Terminal) (value : UInt8) : Terminal :=
  { s with modeValue := value, modeParameter := s.param1, modePrivate := s.privateMarker }

/-- The top margin of `CSI Pt ; Pb r`; BPL tests bit 7 of the difference. -/
def newTop (s : Terminal) : UInt8 :=
  if s.param1 = 0 then 0 else if s.param1 - 1 < 128 then s.param1 - 1 else 0

def newBottom (s : Terminal) : UInt8 :=
  if s.param2 = 0 then s.geometry.lastRow
  else if s.param2 - 1 < s.geometry.rows then s.param2 - 1 else s.geometry.lastRow

/-- CSI Pt ; Pb r -/
def setMargins (s : Terminal) : Terminal :=
  { s with marginTop := newTop s, marginBottom := newBottom s }

def sgrOne (s : Terminal) (param : UInt8) : Terminal :=
  if param = 0 then sgrReset s else if param = 7 then sgrInverse s else s

/-- CSI Ps m -/
def sgr (s : Terminal) : Terminal :=
  let s := sgrOne s s.param1
  if s.paramSelect = 0 then s else sgrOne s s.param2

def resetTerminal (s : Terminal) : Terminal :=
  sgrReset (oswrch { s with state := .ground } 12)

end Modes

section Parser

variable (fuel : Nat) (mos : Mos)

def enterCsi (s : Terminal) : Terminal :=
  { s with state := .csi, param1 := 0, param2 := 0, paramSelect := 0, privateMarker := 0 }

def ground (s : Terminal) (byte : UInt8) : Terminal :=
  if byte = 27 then { s with state := .escape }
  else if byte = 127 then s
  else if 32 ≤ byte then oswrch s byte
  else if byte = 7 then oswrch s byte
  else if byte = 8 then backspace mos s
  else if byte = 9 then tab mos s
  else if byte = 10 then oswrch s byte
  else if byte = 11 then oswrch s 10
  else if byte = 12 then oswrch s 10
  else if byte = 13 then oswrch s byte
  else s

/-- The byte after ESC. The numbers are the ASCII codes of `[ ] 7 8 c D E M ( ) * + P ^ _`. -/
def escape (s : Terminal) (byte : UInt8) : Terminal :=
  if byte = 91 then enterCsi s
  else if byte = 93 then { s with state := .osc, sequenceLength := 0 }
  else if byte = 55 then saveCursor mos s
  else if byte = 56 then restoreCursor s
  else if byte = 99 then resetTerminal s
  else if byte = 68 then oswrch { s with state := .ground } 10
  else if byte = 69 then oswrch (oswrch { s with state := .ground } 13) 10
  else if byte = 77 then oswrch { s with state := .ground } 11
  else if byte = 40 ∨ byte = 41 ∨ byte = 42 ∨ byte = 43 then { s with state := .charset }
  else if byte = 80 ∨ byte = 94 ∨ byte = 95 then { s with state := .string, sequenceLength := 0 }
  else { s with state := .ground }

/-- The byte that ends a control sequence. The numbers are the ASCII codes of
`A B C D E F G H f d J K @ L M P X S T m h l r n c g s u`. -/
def csiFinal (s : Terminal) (byte : UInt8) : Option Terminal :=
  let s := { s with state := .ground }
  if byte = 65 then some (cursorUp mos s)
  else if byte = 66 then some (cursorDown mos s)
  else if byte = 67 then some (cursorRight mos s)
  else if byte = 68 then some (cursorLeft mos s)
  else if byte = 69 then some (cursorNextLine mos s)
  else if byte = 70 then some (cursorPreviousLine mos s)
  else if byte = 71 then some (cursorColumn mos s)
  else if byte = 72 then some (cursorPosition s)
  else if byte = 102 then some (cursorPosition s)
  else if byte = 100 then some (cursorAbsoluteRow mos s)
  else if byte = 74 then eraseDisplay fuel mos s
  else if byte = 75 then eraseLine fuel mos s
  else if byte = 64 then insertCharacters fuel mos s
  else if byte = 76 then insertLines fuel mos s
  else if byte = 77 then deleteLines fuel mos s
  else if byte = 80 then deleteCharacters fuel mos s
  else if byte = 88 then eraseCharacters fuel mos s
  else if byte = 83 then scrollUp fuel mos s
  else if byte = 84 then scrollDown fuel mos s
  else if byte = 109 then some (sgr s)
  else if byte = 104 then some (recordMode s 1)
  else if byte = 108 then some (recordMode s 0)
  else if byte = 114 then some (setMargins s)
  else if byte = 110 then some { s with replyPending := 1 }
  else if byte = 99 then some { s with replyPending := 2 }
  else if byte = 103 then some s
  else if byte = 115 then some (saveCursor mos s)
  else if byte = 117 then some (restoreCursor s)
  else some s

def csiDigit (s : Terminal) (digit : UInt8) : Terminal :=
  if s.paramSelect = 0 then { s with param1 := appendDigit s.param1 digit }
  else { s with param2 := appendDigit s.param2 digit }

def csi (s : Terminal) (byte : UInt8) : Option Terminal :=
  if 60 ≤ byte ∧ byte < 64 then some { s with privateMarker := byte }
  else if 32 ≤ byte ∧ byte < 48 then some { s with intermediate := byte }
  else if byte = 59 then some { s with paramSelect := 1 }
  else if 48 ≤ byte ∧ byte < 58 then some (csiDigit s (byte - 48))
  else csiFinal fuel mos s byte

/-- One byte of a control string of at most 127 bytes. -/
def countString (s : Terminal) : Terminal :=
  let s := { s with sequenceLength := s.sequenceLength + 1 }
  if s.sequenceLength = 0 ∨ 128 ≤ s.sequenceLength then { s with state := .ground } else s

def osc (s : Terminal) (byte : UInt8) : Terminal :=
  if byte = 7 then { s with state := .ground }
  else if byte = 27 then { s with state := .oscEscape }
  else countString s

def oscEscape (s : Terminal) (byte : UInt8) : Terminal :=
  { s with state := if byte = 92 then .ground else .osc }

def controlString (s : Terminal) (byte : UInt8) : Terminal :=
  if byte = 27 then { s with state := .stringEscape } else countString s

def controlStringEscape (s : Terminal) (byte : UInt8) : Terminal :=
  { s with state := if byte = 92 then .ground else .string }

/-- `vt_process`: one byte in A. `none` says that a loop used up its passes. -/
def process (s : Terminal) (byte : UInt8) : Option Terminal :=
  match s.state with
  | .ground => some (ground mos s byte)
  | .escape => some (escape mos s byte)
  | .csi => csi fuel mos s byte
  | .osc => some (osc s byte)
  | .oscEscape => some (oscEscape s byte)
  | .charset => some { s with state := .ground }
  | .string => some (controlString s byte)
  | .stringEscape => some (controlStringEscape s byte)

end Parser

section Start

/-- The variables as the program file holds them. -/
def loaded : Terminal where
  state := .ground
  param1 := 0
  param2 := 0
  paramSelect := 0
  privateMarker := 0
  intermediate := 0
  sequenceLength := 0
  savedCol := 0
  savedRow := 0
  marginTop := 0
  marginBottom := 23
  geometry := readWindowGeometry ⟨0, 23, 39, 0⟩
  modeParameter := 0
  modePrivate := 0
  modeValue := 0
  replyPending := 0
  out := []

/-- `vt_init` -/
def init (window : Window) (s : Terminal) : Terminal :=
  let geometry := readWindowGeometry window
  sgrReset { s with
    state := .ground, savedCol := 0, savedRow := 0, intermediate := 0, marginTop := 0
    replyPending := 0, modeParameter := 0, modePrivate := 0, modeValue := 0
    geometry := geometry, marginBottom := geometry.lastRow }

/-- The states in which a byte can arrive: those after `vt_init` and after a call that returned.
The MOS may answer differently at every call. -/
inductive Reachable (window : Window) : Terminal → Prop
  | start : Reachable window (init window loaded)
  | step {s s' : Terminal} (fuel : Nat) (mos : Mos) (byte : UInt8) (before : Reachable window s)
      (returned : process fuel mos s byte = some s') : Reachable window s'

end Start

end Pi1MHz.Vt100
