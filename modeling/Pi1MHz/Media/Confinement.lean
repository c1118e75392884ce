import Mathlib.Algebra.Ring.Nat
import Pi1MHz.Media.CheckedTapes

/-! No access of the container decoder is a fault: `media_identify`, `media_catalogue` and
`media_extract` return what the model without accesses returns, for every image, array and
buffer. -/
namespace Pi1MHz.MediaChecked
open MediaCatalogue (slice mediaNameMax mediaMaxEntries uefHeaderLen uefMagic dfsSector dfsMaxFiles
  printable titleBytes signExtend MediaKind MediaEntry MediaStatus visited)
open UefRepair (rd16 rd16_lt rd32 char)

section Buffers

variable {name : List UInt8} {byte : UInt8}

theorem padded_nil : padded [] = List.replicate mediaNameMax 0 := rfl

/-- The next character of a name that leaves room. -/
theorem store_char (short : name.length < mediaNameMax) :
    store (padded name) name.length byte = some (padded (name ++ [byte])) := by
  obtain ⟨rest, room⟩ : ∃ rest, mediaNameMax - name.length = rest + 1 :=
    ⟨mediaNameMax - name.length - 1, by omega⟩
  have less : mediaNameMax - (name ++ [byte]).length = rest := by
    rw [List.length_append, List.length_singleton]
    omega
  rw [store_eq (by rw [padded_length short.le]; exact short), padded, padded, less, room,
    List.set_append_right _ _ le_rfl, Nat.sub_self, List.append_assoc]
  rfl

theorem store_nul (short : name.length < mediaNameMax) :
    store (padded name) name.length 0 = some (padded name) := by
  obtain ⟨rest, room⟩ : ∃ rest, mediaNameMax - name.length = rest + 1 :=
    ⟨mediaNameMax - name.length - 1, by omega⟩
  rw [store_eq (by rw [padded_length short.le]; exact short), padded, room,
    List.set_append_right _ _ le_rfl, Nat.sub_self]
  rfl

/-- Copying a name and its NUL to a cleared buffer. -/
theorem storeAll_padded (short : name.length < mediaNameMax) :
    storeAll (padded []) 0 ((padded name).take (name.length + 1)) = some (padded name) := by
  obtain ⟨rest, room⟩ : ∃ rest, mediaNameMax - name.length = rest + 1 :=
    ⟨mediaNameMax - name.length - 1, by omega⟩
  have front : (padded name).take (name.length + 1) = name ++ [0] := by
    rw [padded, room, List.take_length_add_append]
    rfl
  have size : (name ++ [(0 : UInt8)]).length = name.length + 1 := by
    rw [List.length_append, List.length_singleton]
  rw [front, storeAll_eq (by rw [padded_length (Nat.zero_le _), size]; omega), padded_nil, size,
    List.drop_replicate, padded, room, List.take_zero, List.nil_append, List.append_assoc,
    show mediaNameMax - (0 + (name.length + 1)) = rest by omega]
  rfl

end Buffers

section Discs

variable {image : Image}

/-- Checks that all succeed in reading. -/
theorem allM_some {α : Type} {f : α → Option Bool} {g : α → Bool} {xs : List α}
    (each : ∀ x ∈ xs, f x = some (g x)) : xs.allM f = some (xs.all g) := by
  induction xs with
  | nil => rfl
  | cons x xs ih =>
    rw [List.forall_mem_cons] at each
    rw [List.allM, each.1, List.all_cons]
    cases g x with
    | true => exact ih each.2
    | false => rfl

theorem dfsPlausible_eq : dfsPlausible image = some (MediaCatalogue.dfsPlausible image.bytes) := by
  have length : image.bytes.length = image.length := rfl
  have sector : dfsSector = 256 := rfl
  have most : dfsMaxFiles = 31 := rfl
  simp only [dfsPlausible, MediaCatalogue.dfsPlausible, Option.bind_eq_bind, Option.pure_def]
  rw [length]
  by_cases short : image.length < 2 * dfsSector
  · rw [if_pos short, decide_eq_false (by omega)]
    rfl
  rw [if_neg short, decide_eq_true (by omega), Bool.true_and]
  by_cases ragged : image.length % dfsSector ≠ 0
  · rw [if_pos ragged, beq_eq_false_iff_ne.mpr ragged]
    rfl
  rw [if_neg ragged, not_not.mp ragged, read_eq (by omega), Option.bind_some]
  simp only [beq_self_eq_true, Bool.true_and]
  generalize (image.bytes.getD (dfsSector + 5) 0).toNat = fileBytes
  by_cases odd : fileBytes % 8 ≠ 0
  · rw [if_pos odd, beq_eq_false_iff_ne.mpr odd]
    rfl
  rw [if_neg odd, not_not.mp odd]
  simp only [beq_self_eq_true, Bool.true_and]
  by_cases many : dfsMaxFiles < fileBytes / 8
  · rw [if_pos many, decide_eq_false (by omega)]
    rfl
  rw [if_neg many, decide_eq_true (by omega), Bool.true_and]
  refine allM_some fun i file => allM_some fun c column => ?_
  rw [List.mem_range] at file column
  rw [read_eq (by omega), Option.bind_some]

/-- What a catalogue that looks like one promises. -/
structure Disc (bytes : List UInt8) : Prop where
  sectors : 2 * dfsSector ≤ bytes.length
  files : (bytes.getD (dfsSector + 5) 0).toNat / 8 ≤ dfsMaxFiles
  names : ∀ i < (bytes.getD (dfsSector + 5) 0).toNat / 8, ∀ c < 8,
    printable (bytes.getD (8 + i * 8 + c) 0) = true

theorem disc_of_plausible {bytes : List UInt8} (disc : MediaCatalogue.dfsPlausible bytes = true) :
    Disc bytes := by
  simp only [MediaCatalogue.dfsPlausible, Bool.and_eq_true, decide_eq_true_eq, List.all_eq_true,
    List.mem_range] at disc
  exact ⟨disc.1.1, disc.2.1.2, disc.2.2⟩

theorem printable_ne_zero {byte : UInt8} (shown : printable byte = true) : byte &&& 0x7f ≠ 0 := by
  simp only [printable, Bool.and_eq_true, decide_eq_true_eq] at shown
  intro zero
  rw [zero] at shown
  exact absurd shown.1 (by decide)

/-- The loop over the characters of the title. -/
theorem title_run {places : List Nat} {title : List UInt8}
    (inside : ∀ i ∈ places, i < image.length)
    (short : title.length + places.length < mediaTitleMax) :
    places.foldlM (titleStep image) (padded title, title.length) =
      some (padded (title ++ titleBytes (places.map fun i => image.bytes.getD i 0)),
        (title ++ titleBytes (places.map fun i => image.bytes.getD i 0)).length) := by
  have room : mediaTitleMax = mediaNameMax := rfl
  induction places generalizing title with
  | nil => simp [titleBytes]
  | cons i rest ih =>
    rw [List.forall_mem_cons] at inside
    rw [List.length_cons] at short
    rw [List.foldlM_cons, titleStep, if_pos (show title.length < mediaTitleMax - 1 by omega),
      read_eq inside.1]
    simp only [Option.bind_eq_bind, Option.bind_some, Option.pure_def]
    by_cases blank : image.bytes.getD i 0 &&& 0x7f = 0 ∨ image.bytes.getD i 0 &&& 0x7f = 0x20
    · have skipped : titleBytes ((i :: rest).map fun i => image.bytes.getD i 0) =
          titleBytes (rest.map fun i => image.bytes.getD i 0) := by
        rw [titleBytes, List.map_cons, List.map_cons, List.filter_cons_of_neg]
        · rfl
        · rcases blank with zero | space
          · rw [zero]
            decide
          · rw [space]
            decide
      rw [if_pos blank, Option.bind_some, skipped]
      exact ih inside.2 (by omega)
    · have kept : titleBytes ((i :: rest).map fun i => image.bytes.getD i 0) =
          (image.bytes.getD i 0 &&& 0x7f) :: titleBytes (rest.map fun i => image.bytes.getD i 0) := by
        rw [not_or] at blank
        rw [titleBytes, List.map_cons, List.map_cons, List.filter_cons_of_pos (by simpa using blank)]
        rfl
      have grown : (title ++ [image.bytes.getD i 0 &&& 0x7f]).length = title.length + 1 := by
        rw [List.length_append, List.length_singleton]
      have next := @ih (title ++ [image.bytes.getD i 0 &&& 0x7f]) inside.2 (by rw [grown]; omega)
      rw [if_neg blank, store_char (by omega), Option.bind_some, Option.bind_some, kept, ← grown, next,
        List.append_assoc]
      rfl

/-- The loop over the characters of a name. -/
theorem nameChars_run {nm : Nat} {name : List UInt8} {columns : List Nat}
    (inside : ∀ c ∈ columns, nm + c < image.length)
    (short : name.length + columns.length < mediaNameMax) :
    let chars := (columns.map fun c => image.bytes.getD (nm + c) 0 &&& 0x7f).takeWhile (· != 0x20)
    nameChars image nm (padded name) name.length columns =
      some (padded (name ++ chars), (name ++ chars).length) := by
  induction columns generalizing name with
  | nil => simp [nameChars]
  | cons c rest ih =>
    rw [List.forall_mem_cons] at inside
    rw [List.length_cons] at short
    rw [nameChars, read_eq inside.1]
    simp only [Option.bind_eq_bind, Option.bind_some, Option.pure_def]
    by_cases space : image.bytes.getD (nm + c) 0 &&& 0x7f = 0x20
    · rw [if_pos space, List.map_cons, List.takeWhile_cons_of_neg (by rw [space]; decide),
        List.append_nil]
    · have grown : (name ++ [image.bytes.getD (nm + c) 0 &&& 0x7f]).length = name.length + 1 := by
        rw [List.length_append, List.length_singleton]
      have next := @ih (name ++ [image.bytes.getD (nm + c) 0 &&& 0x7f]) inside.2 (by rw [grown]; omega)
      rw [if_neg space, store_char (by omega), Option.bind_some, ← grown, next, List.map_cons,
        List.takeWhile_cons_of_pos (by simpa using space), List.append_assoc]
      rfl

/-- A name of a disc's catalogue, as the model reads it, fits its buffer. -/
theorem dfsEntry_name {bytes : List UInt8} (sectorsTotal : Nat) {i : Nat}
    (shown : ∀ c < 8, printable (bytes.getD (8 + i * 8 + c) 0) = true)
    (inside : 8 + i * 8 + 8 ≤ bytes.length) :
    (MediaCatalogue.dfsEntry bytes sectorsTotal i).1.name =
        (bytes.getD (8 + i * 8 + 7) 0 &&& 0x7f) :: char '.' ::
          (((List.range 7).map fun c => bytes.getD (8 + i * 8 + c) 0 &&& 0x7f).takeWhile (· != 0x20)) ∧
      Fits (MediaCatalogue.dfsEntry bytes sectorsTotal i).1.name := by
  have size : mediaNameMax = 16 := rfl
  have name : (MediaCatalogue.dfsEntry bytes sectorsTotal i).1.name =
      (bytes.getD (8 + i * 8 + 7) 0 &&& 0x7f) :: char '.' ::
        (((List.range 7).map fun c => bytes.getD (8 + i * 8 + c) 0 &&& 0x7f).takeWhile
          (· != 0x20)) := by
    have chars : (List.range 7).map (fun c => bytes.getD (8 + i * 8 + c) 0 &&& 0x7f) =
        (slice bytes (8 + i * 8) 7).map (· &&& 0x7f) := by
      rw [← slice_eq_map (by omega), List.map_map]
      rfl
    rw [chars]
    rfl
  refine ⟨name, ⟨?_, ?_⟩⟩
  · have most := (List.takeWhile_prefix (· != (0x20 : UInt8)) (l := (List.range 7).map fun c =>
      bytes.getD (8 + i * 8 + c) 0 &&& 0x7f)).length_le
    rw [List.length_map, List.length_range] at most
    rw [name, List.length_cons, List.length_cons]
    omega
  · rw [name]
    intro nul
    rcases List.mem_cons.mp nul with first | rest
    · exact printable_ne_zero (shown 7 (by decide)) first.symm
    rcases List.mem_cons.mp rest with dot | char
    · exact absurd dot (by decide)
    · obtain ⟨c, column, zero⟩ := List.mem_map.mp (List.takeWhile_subset _ char)
      rw [List.mem_range] at column
      exact printable_ne_zero (shown c (by omega)) zero

theorem two_bits (byte : UInt8) : (byte &&& 0x03).toNat ≤ 3 := by
  rw [UInt8.toNat_and]
  exact Nat.and_le_right

/-- A length of eighteen bits. -/
theorem length_lt (low : Nat) (extra shift : UInt8) (word : low < 0x10000) :
    (low.toUInt32 ||| ((extra >>> shift) &&& 0x03).toUInt32 <<< 16).toNat < 0x40000 := by
  have bits := two_bits (extra >>> shift)
  rw [UInt32.toNat_or]
  refine @Nat.or_lt_two_pow _ _ 18 ?_ ?_
  · rw [Nat.toUInt32_eq, UInt32.toNat_ofNat']
    omega
  · rw [UInt32.toNat_shiftLeft, UInt8.toNat_toUInt32, Nat.shiftLeft_eq]
    simp only [UInt32.reduceToNat, Nat.reduceMod, Nat.reducePow]
    omega

theorem offset_lt (low : UInt8) (extra : UInt8) :
    ((low.toNat + (extra &&& 0x03).toNat * 0x100) * dfsSector).toUInt32.toNat < 0x40000 := by
  have sector : dfsSector = 256 := rfl
  have bits := two_bits extra
  have byte := low.toNat_lt
  rw [sector, Nat.toUInt32_eq, UInt32.toNat_ofNat']
  omega

theorem dfsEntry_extent (bytes : List UInt8) (sectorsTotal i : Nat) :
    (MediaCatalogue.dfsEntry bytes sectorsTotal i).1.offset.toNat +
      (MediaCatalogue.dfsEntry bytes sectorsTotal i).1.length.toNat < 0x80000 :=
  Nat.add_lt_add (offset_lt _ _) (length_lt _ _ _ (rd16_lt bytes _))

/-- The caller's array after the entries of some files, as many as it takes. -/
def filled (array : Option (List MediaEntry)) (entries : List MediaEntry) : Option (List MediaEntry) :=
  array.map fun slots => entries.map rawEntry ++ slots.drop entries.length

/-- One file of a disc. -/
theorem dfsFile_eq {sectorsTotal i : Nat} {summary : Summary} {array : Option (List MediaEntry)}
    (shown : ∀ c < 8, printable (image.bytes.getD (8 + i * 8 + c) 0) = true)
    (few : i < dfsMaxFiles) (sectors : 2 * dfsSector ≤ image.bytes.length) :
    dfsFile image sectorsTotal (summary, array) i =
      let (entry, issues) := MediaCatalogue.dfsEntry image.bytes sectorsTotal i
      let summary := { summary with issues := summary.issues + issues }
      match array with
      | none => some (summary, none)
      | some slots =>
        if summary.count < slots.length then
          some ({ summary with count := summary.count + 1 },
            some (slots.set summary.count (rawEntry entry)))
        else some (summary, some slots) := by
  have length : image.bytes.length = image.length := rfl
  have sector : dfsSector = 256 := rfl
  have most : dfsMaxFiles = 31 := rfl
  have size : mediaNameMax = 16 := rfl
  obtain ⟨name, fits⟩ := dfsEntry_name sectorsTotal shown (by omega)
  have directory : store (List.replicate mediaNameMax 0) 0
      (image.bytes.getD (8 + i * 8 + 7) 0 &&& 0x7f) =
        some (padded [image.bytes.getD (8 + i * 8 + 7) 0 &&& 0x7f]) :=
    @store_char [] _ (by decide)
  have dot : store (padded [image.bytes.getD (8 + i * 8 + 7) 0 &&& 0x7f]) 1 (char '.') =
      some (padded [image.bytes.getD (8 + i * 8 + 7) 0 &&& 0x7f, char '.']) :=
    @store_char [_] _ (by rw [size, List.length_singleton]; decide)
  have chars := @nameChars_run image (8 + i * 8)
    [image.bytes.getD (8 + i * 8 + 7) 0 &&& 0x7f, char '.'] (List.range 7)
    (by intro c column; rw [List.mem_range] at column; omega)
    (by rw [List.length_range, List.length_cons, List.length_singleton]; decide)
  simp only [List.cons_append, List.nil_append] at chars
  rw [← name] at chars
  simp only [dfsFile, Option.bind_eq_bind, Option.pure_def]
  rw [read_eq (by omega), Option.bind_some, read_eq (by omega), Option.bind_some, directory,
    Option.bind_some, dot, Option.bind_some]
  have two : [image.bytes.getD (8 + i * 8 + 7) 0 &&& 0x7f, char '.'].length = 2 := rfl
  rw [two] at chars
  rw [chars, Option.bind_some]
  simp only
  rw [store_nul fits.short, Option.bind_some, read16_eq (by omega), Option.bind_some,
    read16_eq (by omega), Option.bind_some, read16_eq (by omega), Option.bind_some,
    read_eq (by omega), Option.bind_some]
  have extent := Nat.lt_of_lt_of_le (dfsEntry_extent image.bytes sectorsTotal i)
    (Nat.le_trans (by decide) image.wide)
  have fits : image.plus _ _ = some _ := plus_eq extent
  simp only [MediaCatalogue.dfsEntry] at fits
  rw [fits, Option.bind_some]
  cases array with
  | none => rfl
  | some slots =>
    simp only
    by_cases room : summary.count < slots.length
    · rw [if_pos room, if_pos room, store_eq room]
      rfl
    · rw [if_neg room, if_neg room]
      rfl

/-- How many entries the caller has room for. -/
def room (array : Option (List MediaEntry)) : Nat := (array.map List.length).getD 0

/-- The entries of the array with more of them, as many as it takes. -/
def taken (array : Option (List MediaEntry)) (entries more : List MediaEntry) : List MediaEntry :=
  entries ++ more.take (room array - entries.length)

section Taken

variable {array : Option (List MediaEntry)} {entries : List MediaEntry} {entry : MediaEntry}

theorem taken_room (more : entries.length < room array) : taken array entries [entry] = entries ++ [entry] := by
  rw [taken, List.take_of_length_le (by rw [List.length_singleton]; omega)]

theorem taken_full (full : ¬entries.length < room array) (more : List MediaEntry) :
    taken array entries more = entries := by
  rw [taken, Nat.sub_eq_zero_of_le (by omega), List.take_zero, List.append_nil]

theorem taken_cons (rest : List MediaEntry) :
    taken array entries (entry :: rest) = taken array (taken array entries [entry]) rest := by
  by_cases more : entries.length < room array
  · obtain ⟨left, size⟩ : ∃ left, room array - entries.length = left + 1 :=
      ⟨room array - entries.length - 1, by omega⟩
    have after : room array - (entries ++ [entry]).length = left := by
      rw [List.length_append, List.length_singleton]
      omega
    rw [taken_room more, taken, taken, size, after, List.take_succ_cons, List.append_assoc]
    rfl
  · rw [taken_full more, taken_full more, taken_full more]

theorem taken_length (bound : entries.length ≤ room array) (more : List MediaEntry) :
    (taken array entries more).length ≤ room array := by
  rw [taken, List.length_append, List.length_take]
  omega

end Taken

/-- One file of a disc, in an array with some entries. -/
theorem dfsFile_filled {sectorsTotal i : Nat} {summary : Summary} {array : Option (List MediaEntry)}
    {entries : List MediaEntry}
    (shown : ∀ c < 8, printable (image.bytes.getD (8 + i * 8 + c) 0) = true)
    (few : i < dfsMaxFiles) (sectors : 2 * dfsSector ≤ image.bytes.length)
    (bound : entries.length ≤ room array) :
    let decoded := MediaCatalogue.dfsEntry image.bytes sectorsTotal i
    dfsFile image sectorsTotal ({ summary with count := entries.length }, filled array entries) i =
      some ({ summary with
        count := (taken array entries [decoded.1]).length
        issues := summary.issues + decoded.2 }, filled array (taken array entries [decoded.1])) := by
  intro decoded
  rw [dfsFile_eq shown few sectors]
  cases array with
  | none =>
    rw [taken_full (Nat.not_lt_zero _)]
    rfl
  | some slots =>
    have limit : room (some slots) = slots.length := rfl
    rw [limit] at bound
    have size : (entries.map rawEntry ++ slots.drop entries.length).length = slots.length := by
      rw [List.length_append, List.length_map, List.length_drop]
      omega
    have array_eq : filled (some slots) entries =
        some (entries.map rawEntry ++ slots.drop entries.length) := rfl
    rw [array_eq]
    simp only [size]
    by_cases more : entries.length < slots.length
    · have stored := @store_next slots entries decoded.1 more
      rw [store_eq (by rw [size]; exact more)] at stored
      rw [if_pos more, taken_room more, Option.some.inj stored, filled, Option.map_some,
        List.length_append]
      rfl
    · rw [if_neg more, taken_full more]
      rfl

/-- The loop over the files of a disc. -/
theorem files_run {sectorsTotal : Nat} {summary : Summary} {array : Option (List MediaEntry)}
    {entries : List MediaEntry} {files : List Nat}
    (shown : ∀ i ∈ files, ∀ c < 8, printable (image.bytes.getD (8 + i * 8 + c) 0) = true)
    (few : ∀ i ∈ files, i < dfsMaxFiles) (sectors : 2 * dfsSector ≤ image.bytes.length)
    (bound : entries.length ≤ room array) :
    let decoded := files.map (MediaCatalogue.dfsEntry image.bytes sectorsTotal)
    files.foldlM (dfsFile image sectorsTotal)
        ({ summary with count := entries.length }, filled array entries) =
      some ({ summary with
        count := (taken array entries (decoded.map Prod.fst)).length
        issues := (decoded.map Prod.snd).foldl (· + ·) summary.issues },
        filled array (taken array entries (decoded.map Prod.fst))) := by
  induction files generalizing summary entries with
  | nil => simp [taken]
  | cons i files ih =>
    rw [List.forall_mem_cons] at shown few
    have first := @dfsFile_filled image sectorsTotal i summary array entries shown.1 few.1 sectors bound
    have others := @ih { summary with
      issues := summary.issues + (MediaCatalogue.dfsEntry image.bytes sectorsTotal i).2 }
      (taken array entries [(MediaCatalogue.dfsEntry image.bytes sectorsTotal i).1]) shown.2 few.2
      (taken_length bound _)
    dsimp only at first others ⊢
    rw [List.foldlM_cons, first, Option.bind_eq_bind, Option.bind_some, others, List.map_cons,
      List.map_cons, List.map_cons,
      taken_cons ((files.map (MediaCatalogue.dfsEntry image.bytes sectorsTotal)).map Prod.fst),
      List.foldl_cons]

/-- A summary of the model, its title in a buffer. -/
def summaryOf (catalogue : MediaCatalogue.Catalogue) : Summary where
  title := padded catalogue.title
  kind := catalogue.kind
  count := catalogue.count
  total := catalogue.total
  issues := catalogue.issues
  bootOption := catalogue.bootOption

theorem filled_nil (array : Option (List MediaEntry)) : filled array [] = array := by
  cases array <;> rfl

/-- Entries that the caller's array takes, with names that fit their buffers. -/
structure Listed (array : Option (List MediaEntry)) (entries : List MediaEntry) : Prop where
  bound : entries.length ≤ room array
  named : ∀ entry ∈ entries, Fits entry.name

theorem listed_nil (array : Option (List MediaEntry)) : Listed array [] where
  bound := Nat.zero_le _
  named := by simp

/-- The title of a disc, from both sectors of its catalogue. -/
def discTitle (bytes : List UInt8) : List UInt8 :=
  titleBytes (bytes.take 8) ++ titleBytes (slice bytes dfsSector 4)

theorem titleBytes_length (bytes : List UInt8) : (titleBytes bytes).length ≤ bytes.length := by
  refine (List.length_filter_le _ _).trans ?_
  rw [List.length_map]

theorem discTitle_length (bytes : List UInt8) : (discTitle bytes).length < mediaNameMax := by
  have size : mediaNameMax = 16 := rfl
  have front := titleBytes_length (bytes.take 8)
  have back := titleBytes_length (slice bytes dfsSector 4)
  rw [List.length_take] at front
  rw [slice, List.length_take] at back
  rw [discTitle, List.length_append, slice]
  omega

theorem discTitle_run (sectors : 2 * dfsSector ≤ image.bytes.length) :
    (List.range 8 ++ (List.range 4).map (dfsSector + ·)).foldlM (titleStep image)
        (List.replicate mediaTitleMax 0, 0) =
      some (padded (discTitle image.bytes), (discTitle image.bytes).length) := by
  have length : image.bytes.length = image.length := rfl
  have sector : dfsSector = 256 := rfl
  have run := @title_run image (List.range 8 ++ (List.range 4).map (dfsSector + ·)) []
    (by
      intro i member
      rcases List.mem_append.mp member with front | back
      · rw [List.mem_range] at front
        omega
      · obtain ⟨c, column, rfl⟩ := List.mem_map.mp back
        rw [List.mem_range] at column
        omega)
    (by decide)
  have front : (List.range 8).map (fun i => image.bytes.getD i 0) = image.bytes.take 8 := by
    have whole := @slice_eq_map 0 8 image.bytes (by omega)
    simp only [Nat.zero_add] at whole
    exact whole
  have back : ((List.range 4).map (dfsSector + ·)).map (fun i => image.bytes.getD i 0) =
      slice image.bytes dfsSector 4 := by
    rw [← slice_eq_map (by omega), List.map_map]
    rfl
  have joined : titleBytes (image.bytes.take 8 ++ slice image.bytes dfsSector 4) =
      discTitle image.bytes := by
    rw [titleBytes, List.map_append, List.filter_append]
    rfl
  rw [List.map_append, front, back, List.nil_append, joined] at run
  exact run

theorem taken_listed {array : Option (List MediaEntry)} {more : List MediaEntry}
    (named : ∀ entry ∈ more, Fits entry.name) : Listed array (taken array [] more) where
  bound := taken_length (Nat.zero_le _) more
  named entry member := named entry (List.mem_of_mem_take member)

theorem dfsCatalogue_eq (kind : MediaKind) (array : Option (List MediaEntry)) :
    let (status, catalogue) := MediaCatalogue.dfsCatalogue image.bytes (room array) (.empty kind)
    dfsCatalogue image array (.empty kind) =
        some (status, summaryOf catalogue, filled array catalogue.entries) ∧
      Listed array catalogue.entries := by
  have length : image.bytes.length = image.length := rfl
  have sector : dfsSector = 256 := rfl
  simp only [dfsCatalogue, MediaCatalogue.dfsCatalogue, dfsPlausible_eq, Option.bind_eq_bind,
    Option.bind_some, Option.pure_def]
  cases shape : MediaCatalogue.dfsPlausible image.bytes with
  | false =>
    simp only [Bool.not_false, if_true]
    refine ⟨?_, listed_nil array⟩
    rw [show (MediaCatalogue.Catalogue.empty kind).entries = [] from rfl, filled_nil]
    rfl
  | true =>
    have disc := disc_of_plausible shape
    have sectors := disc.sectors
    simp only [Bool.not_true, Bool.false_eq_true, if_false]
    rw [read_eq (by omega), Option.bind_some, read_eq (by omega), Option.bind_some,
      read_eq (by omega), Option.bind_some, discTitle_run sectors, Option.bind_some]
    simp only
    rw [store_nul (discTitle_length _), Option.bind_some]
    have stored : storeAll (Summary.empty kind).title 0
        ((padded (discTitle image.bytes)).take ((discTitle image.bytes).length + 1)) =
          some (padded (discTitle image.bytes)) := storeAll_padded (discTitle_length _)
    rw [stored, Option.bind_some]
    generalize sectorsTotal : (image.bytes.getD (dfsSector + 7) 0).toNat +
      (image.bytes.getD (dfsSector + 6) 0 &&& 3).toNat * 256 = total
    have few : ∀ i ∈ List.range ((image.bytes.getD (dfsSector + 5) 0).toNat / 8),
        i < (image.bytes.getD (dfsSector + 5) 0).toNat / 8 := fun i => List.mem_range.mp
    have run := @files_run image total ⟨padded (discTitle image.bytes), kind, 0,
      (image.bytes.getD (dfsSector + 5) 0).toNat / 8, 0,
      (image.bytes.getD (dfsSector + 6) 0 >>> 4) &&& 0x0f⟩ array [] _
      (fun i member => disc.names i (few i member))
      (fun i member => Nat.lt_of_lt_of_le (few i member) disc.files) sectors (Nat.zero_le _)
    rw [filled_nil] at run
    dsimp only [List.length_nil] at run
    have listed : ∀ entry ∈ ((List.range ((image.bytes.getD (dfsSector + 5) 0).toNat / 8)).map
        (MediaCatalogue.dfsEntry image.bytes total)).map Prod.fst, Fits entry.name := by
      intro entry member
      obtain ⟨decoded, one, rfl⟩ := List.mem_map.mp member
      obtain ⟨i, file, rfl⟩ := List.mem_map.mp one
      have most : dfsMaxFiles = 31 := rfl
      have bound := Nat.lt_of_lt_of_le (few i file) disc.files
      exact (dfsEntry_name total (disc.names i (few i file)) (by omega)).2
    refine ⟨?_, taken_listed listed⟩
    have whole := congrArg (fun result => result.bind fun s => some (MediaStatus.ok, s.1, s.2)) run
    refine whole.trans ?_
    have issues : ∀ sum : UInt32, (MediaCatalogue.Catalogue.empty kind).issues + sum = sum :=
      UInt32.zero_add
    rw [issues]
    rfl

end Discs

section Requests

variable {image : Image} {passes : Nat}

theorem mediaIdentify_eq :
    mediaIdentify image = some (MediaCatalogue.mediaIdentify image.bytes) := by
  have length : image.bytes.length = image.length := rfl
  have header : uefHeaderLen = 12 := rfl
  simp only [mediaIdentify, MediaCatalogue.mediaIdentify, dfsPlausible_eq, Option.bind_eq_bind,
    Option.bind_some, Option.pure_def]
  rw [length]
  by_cases long : uefHeaderLen ≤ image.length
  · have magic : image.readAll 0 10 = some (image.bytes.take 10) := readAll_eq (by omega)
    rw [if_pos long, magic, Option.bind_some]
    by_cases tape : image.bytes.take 10 = uefMagic
    · rw [if_pos tape, if_pos ⟨long, tape⟩]
    · have other : ¬(uefHeaderLen ≤ image.length ∧ image.bytes.take 10 = uefMagic) :=
        fun both => tape both.2
      rw [if_neg tape, if_neg other]
      cases MediaCatalogue.dfsPlausible image.bytes <;> rfl
  · have other : ¬(uefHeaderLen ≤ image.length ∧ image.bytes.take 10 = uefMagic) :=
      fun both => long both.1
    rw [if_neg long, if_neg other]
    cases MediaCatalogue.dfsPlausible image.bytes <;> rfl

/-- What a request does with the kind it was given or found. -/
theorem known_kind {β : Type} (kind : MediaKind) (next : MediaKind → Option β) :
    (if kind = .unknown then (mediaIdentify image).bind next
      else (pure kind : Option MediaKind).bind next) =
      next (if kind = .unknown then MediaCatalogue.mediaIdentify image.bytes else kind) := by
  rw [mediaIdentify_eq]
  split <;> rfl

/-- The catalogue of an image in the caller's array: the entries of the model in the first slots,
and the others as they were. -/
theorem mediaCatalogue_eq (enough : image.length + mediaNameMax < passes) (kind : MediaKind)
    (array : Option (List MediaEntry)) :
    let (status, catalogue) :=
      MediaCatalogue.mediaCatalogue image.bytes kind (array.map List.length)
    mediaCatalogue image passes kind array =
        some (status, summaryOf catalogue, filled array catalogue.entries) ∧
      Listed array catalogue.entries := by
  by_cases empty : array = some []
  · subst empty
    exact ⟨rfl, listed_nil _⟩
  have positive : array.map List.length ≠ some 0 := by
    cases array with
    | none => simp
    | some slots => simpa using empty
  simp only [mediaCatalogue, MediaCatalogue.mediaCatalogue, if_neg empty, if_neg positive,
    Option.bind_eq_bind, known_kind]
  generalize (if kind = .unknown then MediaCatalogue.mediaIdentify image.bytes else kind) = kind
  cases kind with
  | unknown =>
    simp only
    refine ⟨?_, listed_nil array⟩
    rw [show (MediaCatalogue.Catalogue.empty MediaKind.unknown).entries = [] from rfl, filled_nil]
    rfl
  | ssd => exact dfsCatalogue_eq .ssd array
  | uef =>
    obtain ⟨raw, ran, tracks⟩ := @group_run image passes array (by omega) (by omega)
    simp only [MediaCatalogue.uefWalk_eq]
    rw [ran, Option.bind_some]
    have bound := tracks.bound
    rw [tracks.limit] at bound
    refine ⟨?_, bound, tracks.named⟩
    simp only [tracks.entries, tracks.count, tracks.total]
    rfl

/-- Every name of a listing leaves room for its NUL. -/
theorem catalogue_named (bytes : List UInt8) (kind : MediaKind) (limit : Nat) :
    ∀ entry ∈ (MediaCatalogue.mediaCatalogue bytes kind (some limit)).2.entries, Fits entry.name := by
  let image : Image := ⟨bytes, max 0x100000000 (2 * bytes.length + 1), by omega, by omega⟩
  have blank : MediaEntry := ⟨[], 0, 0, 0, 0, 0, false, true⟩
  have listed := (@mediaCatalogue_eq image _ (Nat.lt_succ_self _) kind
    (some (List.replicate limit blank))).2
  rw [Option.map_some, List.length_replicate] at listed
  exact listed.named

theorem disc_extent (bytes : List UInt8) (limit : Option Nat) :
    ∀ entry ∈ (MediaCatalogue.mediaCatalogue bytes .ssd limit).2.entries,
      entry.offset.toNat + entry.length.toNat < 0x80000 := by
  intro entry member
  simp only [MediaCatalogue.mediaCatalogue, reduceCtorEq, if_false, MediaCatalogue.dfsCatalogue]
    at member
  split at member
  · cases member
  split at member
  · cases member
  · obtain ⟨decoded, one, rfl⟩ := List.mem_map.mp (List.mem_of_mem_take member)
    obtain ⟨i, -, rfl⟩ := List.mem_map.mp one
    exact dfsEntry_extent bytes _ i

/-- The bytes of an extraction at the start of the caller's buffer, the others as they were. -/
def extractionOf (out : List UInt8) (extraction : MediaCatalogue.Extraction) : Extraction where
  status := extraction.status
  out := extraction.written ++ out.drop extraction.written.length
  outLength := extraction.outLength

theorem mediaExtract_uef (enough : image.length + mediaNameMax < passes) (blank : MediaEntry)
    (index : Nat) (out : List UInt8) :
    let extraction := MediaCatalogue.mediaExtract image.bytes .uef index out.length
    mediaExtract image passes blank .uef index out = some (extractionOf out extraction) ∧
      extraction.written.length ≤ out.length := by
  simp only [mediaExtract, MediaCatalogue.mediaExtract, Option.bind_eq_bind, reduceCtorEq, if_false]
  obtain ⟨copy, ran, holds⟩ := @copy_run image passes out index (by omega) (by omega)
  simp only [MediaCatalogue.uefWalk_eq]
  rw [ran, Option.bind_some]
  generalize (visited image.bytes).foldl (MediaCatalogue.uefCopyBlock image.bytes)
    ⟨index, 0, none, [], out.length, false⟩ = c at holds
  have nameless : (!copy.haveCurrent) = c.current.isNone := by
    rw [holds.current.have_]
    cases c.current <;> rfl
  simp only [holds.overflow, holds.seen, holds.out, holds.written, nameless, Option.pure_def]
  by_cases format : (MediaCatalogue.uefListing image.bytes).1 = .errFormat
  · rw [if_pos format, if_pos format]
    exact ⟨by rw [extractionOf, MediaCatalogue.Extraction.outLength, format]; rfl, holds.bound⟩
  rw [if_neg format, if_neg format]
  by_cases spilled : c.overflow = true
  · rw [if_pos spilled, if_pos spilled]
    exact ⟨rfl, holds.bound⟩
  rw [if_neg spilled, if_neg spilled]
  by_cases missing : c.current.isNone = true ∨ c.seen < index
  · rw [if_pos missing, if_pos missing]
    exact ⟨rfl, holds.bound⟩
  · rw [if_neg missing, if_neg missing]
    exact ⟨rfl, holds.bound⟩

theorem mediaExtract_ssd (enough : image.length + mediaNameMax < passes) (blank : MediaEntry)
    (index : Nat) (out : List UInt8) :
    let extraction := MediaCatalogue.mediaExtract image.bytes .ssd index out.length
    mediaExtract image passes blank .ssd index out = some (extractionOf out extraction) ∧
      extraction.written.length ≤ out.length := by
  have length : image.bytes.length = image.length := rfl
  simp only [mediaExtract, MediaCatalogue.mediaExtract, Option.bind_eq_bind, reduceCtorEq, if_false]
  have catalogued := @mediaCatalogue_eq image passes enough .ssd
    (some (List.replicate mediaMaxEntries blank))
  have most : (some (List.replicate mediaMaxEntries blank)).map List.length =
      some mediaMaxEntries := by simp
  rw [most] at catalogued
  dsimp only at catalogued ⊢
  obtain ⟨ran, listed⟩ := catalogued
  rw [Option.pure_def, Option.bind_some]
  dsimp only
  rw [ran, Option.bind_some]
  dsimp only
  have extent := disc_extent image.bytes (some mediaMaxEntries)
  generalize MediaCatalogue.mediaCatalogue image.bytes .ssd (some mediaMaxEntries) = found at *
  have nothing : ∀ status, some (Extraction.mk status out 0) =
      some (extractionOf out ⟨status, []⟩) := by
    intro status
    simp only [extractionOf, MediaCatalogue.Extraction.outLength, List.length_nil, ite_self]
    rfl
  simp only [Option.pure_def, nothing]
  by_cases failed : found.1 ≠ .ok
  · rw [if_pos failed, if_pos failed]
    exact ⟨rfl, Nat.zero_le _⟩
  rw [if_neg failed, if_neg failed]
  have count : (summaryOf found.2).count = found.2.entries.length := rfl
  rw [count]
  by_cases beyond : found.2.entries.length ≤ index
  · rw [if_pos beyond, List.getElem?_eq_none_iff.mpr beyond]
    exact ⟨rfl, Nat.zero_le _⟩
  have inside : index < found.2.entries.length := by omega
  have slot : ((filled (some (List.replicate mediaMaxEntries blank)) found.2.entries).bind
      fun entries => entries[index]?) = some (rawEntry found.2.entries[index]) := by
    rw [filled, Option.map_some, Option.bind_some,
      List.getElem?_append_left (by rw [List.length_map]; exact inside), List.getElem?_map,
      List.getElem?_eq_getElem inside]
    rfl
  have small := extent _ (List.getElem_mem inside)
  rw [if_neg beyond, slot, Option.bind_some, List.getElem?_eq_getElem inside]
  generalize found.2.entries[index] = entry at *
  have wide := image.wide
  have same : (rawEntry entry).offset = entry.offset ∧ (rawEntry entry).length = entry.length :=
    ⟨rfl, rfl⟩
  simp only [same.1, same.2]
  rw [plus_eq (by omega), Option.bind_some, length]
  by_cases cut : image.length < entry.offset.toNat + entry.length.toNat
  · rw [if_pos cut, if_pos cut]
    exact ⟨rfl, Nat.zero_le _⟩
  rw [if_neg cut, if_neg cut]
  by_cases full : out.length < entry.length.toNat
  · rw [if_pos full, if_pos full]
    exact ⟨rfl, Nat.zero_le _⟩
  have data : (slice image.bytes entry.offset.toNat entry.length.toNat).length =
      entry.length.toNat := by
    rw [slice, List.length_take, List.length_drop]
    omega
  rw [if_neg full, if_neg full, readAll_eq (by omega), Option.bind_some, storeAll_eq (by omega),
    Option.bind_some]
  refine ⟨?_, data.le.trans (by omega)⟩
  rw [extractionOf, MediaCatalogue.Extraction.outLength, if_pos rfl, data, Nat.zero_add]
  rfl

theorem mediaExtract_eq (enough : image.length + mediaNameMax < passes) (blank : MediaEntry)
    (kind : MediaKind) (index : Nat) (out : List UInt8) :
    let extraction := MediaCatalogue.mediaExtract image.bytes kind index out.length
    mediaExtract image passes blank kind index out = some (extractionOf out extraction) ∧
      extraction.written.length ≤ out.length := by
  have tape := @mediaExtract_uef image passes enough blank index out
  have disc := @mediaExtract_ssd image passes enough blank index out
  simp only [mediaExtract, MediaCatalogue.mediaExtract, Option.bind_eq_bind, known_kind, reduceCtorEq,
    if_false] at tape disc ⊢
  generalize (if kind = .unknown then MediaCatalogue.mediaIdentify image.bytes else kind) = kind
  cases kind with
  | unknown => exact ⟨rfl, Nat.zero_le _⟩
  | uef => exact tape
  | ssd => exact disc

/-- What a catalogue of `count` entries leaves of the caller's array: only the first slots are
written, each with a name that ends in its buffer. -/
structure Written (array array' : Option (List MediaEntry)) (count : Nat) : Prop where
  bound : count ≤ room array
  size : array'.map List.length = array.map List.length
  rest : array'.map (List.drop count) = array.map (List.drop count)
  named : ∀ slots, array' = some slots → ∀ entry ∈ slots.take count, Terminated entry.name

/-- What an extraction leaves of the caller's buffer. -/
structure Stored (out : List UInt8) (extraction : Extraction) : Prop where
  size : extraction.out.length = out.length
  bound : extraction.outLength ≤ out.length
  rest : extraction.status = .ok →
    extraction.out.drop extraction.outLength = out.drop extraction.outLength

theorem Listed.written {array : Option (List MediaEntry)} {entries : List MediaEntry}
    (listed : Listed array entries) : Written array (filled array entries) entries.length := by
  obtain ⟨bound, named⟩ := listed
  cases array with
  | none => exact ⟨bound, rfl, rfl, fun slots same => by cases same⟩
  | some slots =>
    have limit : room (some slots) = slots.length := rfl
    have size : (entries.map rawEntry).length = entries.length := List.length_map _
    refine ⟨bound, ?_, ?_, ?_⟩
    · simp only [filled, Option.map_some, List.length_append, size, List.length_drop]
      congr 1
      omega
    · simp only [filled, Option.map_some]
      rw [List.drop_left' size]
    · rintro _ ⟨⟩ entry member
      rw [List.take_left' size] at member
      obtain ⟨own, listed, rfl⟩ := List.mem_map.mp member
      exact (named own listed).terminated

/-- The three functions end without a fault, write within the array and the buffer they are
given, and end every name they write. -/
theorem media_confined {image : Image} {passes : Nat} (enough : image.length + mediaNameMax < passes)
    (kind : MediaKind) :
    mediaIdentify image = some (MediaCatalogue.mediaIdentify image.bytes) ∧
      (∀ array, ∃ status summary array', mediaCatalogue image passes kind array =
        some (status, summary, array') ∧ Written array array' summary.count) ∧
      ∀ blank index out, ∃ extraction, mediaExtract image passes blank kind index out =
        some extraction ∧ Stored out extraction := by
  refine ⟨mediaIdentify_eq, fun array => ?_, fun blank index out => ?_⟩
  · obtain ⟨ran, listed⟩ := mediaCatalogue_eq enough kind array
    exact ⟨_, _, _, ran, listed.written⟩
  · obtain ⟨ran, bound⟩ := mediaExtract_eq enough blank kind index out
    refine ⟨_, ran, ?_, ?_, ?_⟩
    · rw [extractionOf, List.length_append, List.length_drop]
      omega
    · rw [extractionOf, MediaCatalogue.Extraction.outLength]
      split
      · exact bound
      · exact Nat.zero_le _
    · intro done
      have length : (extractionOf out
          (MediaCatalogue.mediaExtract image.bytes kind index out.length)).outLength =
          (MediaCatalogue.mediaExtract image.bytes kind index out.length).written.length := if_pos done
      rw [length]
      exact List.drop_left' rfl

/-- A tape that is cut in the second of its three blocks, whose chunk announces all of them. -/
theorem cutTape_confined :
    let image : Image := ⟨MediaCatalogue.pairedTape.take 62, 0x100000000, le_rfl, by decide⟩
    image.length + mediaNameMax < 80 ∧
      (mediaIdentify image = some (MediaCatalogue.mediaIdentify image.bytes) ∧
        (∀ array, ∃ status summary array', mediaCatalogue image 80 .uef array =
          some (status, summary, array') ∧ Written array array' summary.count) ∧
        ∀ blank index out, ∃ extraction, mediaExtract image 80 blank .uef index out =
          some extraction ∧ Stored out extraction) := by
  intro image
  exact ⟨by decide, media_confined (by decide) .uef⟩

end Requests

end Pi1MHz.MediaChecked
