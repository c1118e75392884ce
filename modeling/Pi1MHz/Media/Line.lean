import Pi1MHz.Media.CheckedTapes

/-! One line of the catalogue with every access to the caller's buffer. The line has up to forty
characters, and the check at its start does not count the NUL. -/
namespace Pi1MHz.MediaChecked
open MediaCatalogue (mediaNameMax MediaEntry putHex)
open UefRepair (char)

/-- A buffer and the number of characters written to it. -/
abbrev Line := List UInt8 × Nat

/-- `out[n++]`, once for each of the characters. -/
def emit (line : Line) (text : List UInt8) : Option Line := do
  let out ← storeAll line.1 line.2 text
  return (out, line.2 + text.length)

/-- The loop that copies a name up to its NUL, at the given indices. -/
def emitName (name : List UInt8) (line : Line) : List Nat → Option Line
  | [] => some line
  | i :: rest => do
    let ch ← name[i]?
    if ch = 0 then return line
    emitName name (← emit line [ch]) rest

/-- `media_format_entry`, with the capacity as the length of the buffer. -/
def mediaFormatEntry (entry : MediaEntry) (out : List UInt8) : Option Line := do
  if out.length < 40 then return (out, 0)
  let line ← emitName entry.name (out, 0) (List.range 11)
  let line ← emit line (List.replicate (12 - line.2) (char ' '))
  let line ← emit line (putHex entry.load 8)
  let line ← emit line [char ' ']
  let line ← emit line (putHex entry.exec 8)
  let line ← emit line [char ' ']
  let line ← emit line (putHex entry.length 6)
  let line ← if entry.locked then emit line [char ' ', char 'L'] else some line
  let line ← if entry.crcOk then some line else emit line [char ' ', char '?']
  let out ← store line.1 line.2 0
  return (out, line.2)

/-- No access was outside the buffer, and a count other than zero is that of a text that the buffer
holds with its NUL. -/
def FitsBuffer (out : List UInt8) (result : Option Line) : Prop :=
  ∃ line, result = some line ∧ line.1.length = out.length ∧
    (0 < line.2 → line.2 < out.length ∧
      ∃ text, text.length = line.2 ∧ 0 ∉ text ∧ text ++ [0] <+: line.1)

section Writing
variable {out text more : List UInt8}

/-- A buffer that begins with a text. -/
def written (out text : List UInt8) : Line := (text ++ out.drop text.length, text.length)

theorem written_count : (written out text).2 = text.length := rfl

theorem written_length (fits : text.length ≤ out.length) :
    (written out text).1.length = out.length := by
  simp only [written, List.length_append, List.length_drop]
  omega

theorem emit_nil (line : Line) : emit line [] = some line := rfl

theorem emit_written (fits : (text ++ more).length ≤ out.length) :
    emit (written out text) more = some (written out (text ++ more)) := by
  rw [List.length_append] at fits
  have whole : (written out text).1.length = out.length := written_length (by omega)
  have rest : (written out text).1.drop (text.length + more.length) =
      out.drop (text ++ more).length := by
    rw [written, ← List.drop_drop, List.drop_left, List.drop_drop, List.length_append]
  have stored : storeAll (written out text).1 text.length more =
      some (text ++ more ++ out.drop (text ++ more).length) := by
    rw [storeAll_eq (by omega), rest]
    simp only [written, List.take_left]
  rw [emit, written_count, stored, ← List.length_append]
  rfl

/-- One field after the other. -/
theorem emits_written {fields : List (List UInt8)}
    (fits : (text ++ fields.flatten).length ≤ out.length) :
    fields.foldlM emit (written out text) = some (written out (text ++ fields.flatten)) := by
  induction fields generalizing text with
  | nil => rw [List.flatten_nil, List.append_nil, List.foldlM_nil, Option.pure_def]
  | cons field rest ih =>
    rw [List.flatten_cons, ← List.append_assoc] at fits ⊢
    have first : (text ++ field).length ≤ out.length := by
      rw [List.length_append] at fits
      omega
    rw [List.foldlM_cons, emit_written first, Option.bind_eq_bind, Option.bind_some, ih fits]

theorem emitName_written {name : List UInt8} {i count : Nat} (whole : i + count ≤ name.length)
    (room : text.length + count ≤ out.length) :
    emitName name (written out text) (List.range' i count) =
      some (written out (text ++ ((name.drop i).take count).takeWhile (· ≠ 0))) := by
  induction count generalizing i text with
  | zero => simp [emitName]
  | succ count ih =>
    have inside : i < name.length := by omega
    rw [List.range'_succ, emitName, List.getElem?_eq_getElem inside, List.drop_eq_getElem_cons inside,
      List.take_succ_cons]
    simp only [Option.bind_eq_bind, Option.bind_some]
    by_cases ended : name[i] = 0
    · rw [if_pos ended, List.takeWhile_cons_of_neg (by simp [ended]), List.append_nil]
      rfl
    · have fits : (text ++ [name[i]]).length ≤ out.length := by
        rw [List.length_append, List.length_singleton]
        omega
      rw [if_neg ended, List.takeWhile_cons_of_pos (by simpa using ended), emit_written fits,
        Option.bind_some, ih (by omega) (by rw [List.length_append, List.length_singleton]; omega),
        List.append_assoc, List.singleton_append]

theorem store_written (room : text.length < out.length) :
    ∃ buffer, store (written out text).1 text.length 0 = some buffer ∧
      buffer.length = out.length ∧ text ++ [0] <+: buffer := by
  have whole : (written out text).1.length = out.length := written_length room.le
  refine ⟨_, store_eq (by omega), by rw [List.length_set, whole], ?_⟩
  rw [written, List.set_append_right _ _ le_rfl, Nat.sub_self, List.drop_eq_getElem_cons room,
    List.set_cons_zero]
  exact List.prefix_append_right_inj text |>.mpr (List.prefix_append [0] _)

theorem store_full (full : text.length = out.length) :
    store (written out text).1 text.length 0 = none := by
  have whole : (written out text).1.length = out.length := written_length full.le
  exact if_neg (by omega)

end Writing

section Text

/-- The characters of the line, as the model without a buffer gives them. -/
def lineText (entry : MediaEntry) : List UInt8 :=
  MediaCatalogue.mediaFormatEntry { entry with name := entry.name.takeWhile (· ≠ 0) } 40

theorem putHex_length (value : UInt32) (digits : Nat) : (putHex value digits).length = digits := by
  rw [putHex, List.length_map, List.length_range]

theorem putHex_plain (value : UInt32) (digits : Nat) : 0 ∉ putHex value digits := by
  have digit : ∀ d < 16, MediaCatalogue.hexDigit d ≠ 0 := by decide
  intro member
  obtain ⟨i, -, same⟩ := List.mem_map.mp member
  exact digit _ (Nat.mod_lt _ (by decide)) same

theorem lineText_length (entry : MediaEntry) :
    (lineText entry).length = 36 + (if entry.locked then 2 else 0) + if entry.crcOk then 0 else 2 := by
  cases locked : entry.locked <;> cases crcOk : entry.crcOk <;>
    simp only [lineText, MediaCatalogue.mediaFormatEntry, locked, crcOk, List.length_append,
      List.length_replicate, List.length_take, putHex_length, List.length_cons, List.length_nil,
      Nat.lt_irrefl, if_false, if_true, Bool.false_eq_true] <;>
    omega

theorem lineText_plain (entry : MediaEntry) : 0 ∉ lineText entry := by
  have name : 0 ∉ (entry.name.takeWhile (· ≠ 0)).take 11 := by
    intro member
    simpa using List.all_eq_true.mp List.all_takeWhile 0 (List.mem_of_mem_take member)
  have padding : ∀ count, 0 ∉ List.replicate count (char ' ') := by
    intro count member
    exact absurd (List.eq_of_mem_replicate member) (by decide)
  simp only [lineText, MediaCatalogue.mediaFormatEntry, Nat.lt_irrefl, if_false, List.mem_append, not_or]
  exact ⟨⟨⟨⟨⟨⟨⟨⟨name, padding _⟩, putHex_plain _ _⟩, by decide⟩, putHex_plain _ _⟩, by decide⟩,
    putHex_plain _ _⟩, by cases entry.locked <;> decide⟩, by cases entry.crcOk <;> decide⟩

/-- What follows the name. -/
def fields (entry : MediaEntry) (named : Nat) : List (List UInt8) :=
  [List.replicate (12 - named) (char ' '), putHex entry.load 8, [char ' '], putHex entry.exec 8,
    [char ' '], putHex entry.length 6, if entry.locked then [char ' ', char 'L'] else [],
    if entry.crcOk then [] else [char ' ', char '?']]

/-- A buffer that passes the check takes the whole line, but for its NUL. -/
theorem mediaFormatEntry_eq {entry : MediaEntry} (named : entry.name.length = mediaNameMax)
    {out : List UInt8} (room : 40 ≤ out.length) :
    mediaFormatEntry entry out =
      (store (written out (lineText entry)).1 (lineText entry).length 0).map
        fun out => (out, (lineText entry).length) := by
  have size : mediaNameMax = 16 := rfl
  have start : (out, 0) = written out [] := rfl
  let name := (entry.name.takeWhile (· ≠ 0)).take 11
  have copied : emitName entry.name (out, 0) (List.range 11) = some (written out name) := by
    rw [start, List.range_eq_range', emitName_written (by omega) (by rw [List.length_nil]; omega),
      ← List.take_takeWhile]
    rfl
  have text : name ++ (fields entry name.length).flatten = lineText entry := by
    simp only [fields, lineText, MediaCatalogue.mediaFormatEntry, Nat.lt_irrefl, if_false,
      List.flatten_cons, List.flatten_nil, List.append_nil, List.append_assoc]
    rfl
  have fits : (name ++ (fields entry name.length).flatten).length ≤ out.length := by
    rw [text, lineText_length]
    split <;> split <;> omega
  have emitted := emits_written fits
  rw [text] at emitted
  have chain : mediaFormatEntry entry out =
      ((fields entry name.length).foldlM emit (written out name)).bind fun line =>
        (store line.1 line.2 0).map fun out => (out, line.2) := by
    rw [mediaFormatEntry, if_neg (by omega), copied]
    cases locked : entry.locked <;> cases crcOk : entry.crcOk <;>
      simp only [fields, locked, crcOk, List.foldlM_cons, List.foldlM_nil, Bool.false_eq_true,
        if_true, if_false, Option.bind_eq_bind, Option.bind_some, Option.bind_assoc, emit_nil,
        Option.map_eq_bind] <;>
      rfl
  rw [chain, emitted]
  rfl

theorem fitsBuffer_of_room {entry : MediaEntry} (named : entry.name.length = mediaNameMax)
    {out : List UInt8} (checked : 40 ≤ out.length) (room : (lineText entry).length < out.length) :
    FitsBuffer out (mediaFormatEntry entry out) := by
  obtain ⟨buffer, stored, whole, ends⟩ := store_written room
  rw [mediaFormatEntry_eq named checked, stored]
  exact ⟨_, rfl, whole, fun _ => ⟨room, lineText entry, rfl, lineText_plain entry, ends⟩⟩

/-- The longest line in a buffer of forty bytes has no room for its NUL. Every other entry and
capacity has. -/
theorem mediaFormatEntry_fits_iff (entry : MediaEntry) (named : entry.name.length = mediaNameMax)
    (out : List UInt8) :
    FitsBuffer out (mediaFormatEntry entry out) ↔
      ¬(out.length = 40 ∧ entry.locked = true ∧ entry.crcOk = false) := by
  by_cases small : out.length < 40
  case pos =>
    have refused : mediaFormatEntry entry out = some (out, 0) := by
      rw [mediaFormatEntry, if_pos small]
      rfl
    refine iff_of_true ⟨(out, 0), refused, rfl, fun positive => absurd positive (Nat.lt_irrefl 0)⟩ ?_
    rintro ⟨forty, -⟩
    omega
  case neg =>
    have longest : (lineText entry).length < out.length ↔
        ¬(out.length = 40 ∧ entry.locked = true ∧ entry.crcOk = false) := by
      rw [lineText_length]
      cases entry.locked <;> cases entry.crcOk <;> simp <;> omega
    rw [mediaFormatEntry_eq named (by omega), ← longest]
    constructor
    · rintro ⟨line, stored, -⟩
      by_contra beyond
      have total := lineText_length entry
      have full : (lineText entry).length = out.length := by
        split at total <;> split at total <;> omega
      rw [store_full full] at stored
      cases stored
    · intro room
      rw [← mediaFormatEntry_eq named (by omega)]
      exact fitsBuffer_of_room named (by omega) room

/-- A locked entry whose data fails its CRC, with the name of the comment in the code. -/
def damaged : MediaEntry where
  name := padded [char 'N', char 'A', char 'M', char 'E']
  load := 0xffff1900
  exec := 0xffff8023
  length := 0x4a0
  offset := 0
  blocks := 1
  locked := true
  crcOk := false

theorem damaged_fits : FitsBuffer (List.replicate 64 0) (mediaFormatEntry damaged (List.replicate 64 0)) :=
  (mediaFormatEntry_fits_iff damaged (by decide) (List.replicate 64 0)).mpr (by decide)

/-- The NUL of its line goes behind a buffer of forty bytes. -/
theorem damaged_overruns :
    ¬∀ (entry : MediaEntry), entry.name.length = mediaNameMax → ∀ out : List UInt8,
      FitsBuffer out (mediaFormatEntry entry out) := by
  intro fits
  obtain ⟨line, stored, -⟩ := fits damaged (by decide) (List.replicate 40 0)
  have fault : mediaFormatEntry damaged (List.replicate 40 0) = none := by decide +kernel
  rw [fault] at stored
  cases stored

end Text

end Pi1MHz.MediaChecked
