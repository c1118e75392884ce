import Mathlib.Data.List.GetD
import Pi1MHz.Media.Agreement
import Pi1MHz.Media.Checked

/-! No access to a tape is a fault: with enough passes for every loop, the walk with its two visitors
returns what the model without accesses returns, in whole buffers. -/
namespace Pi1MHz.MediaChecked
open MediaCatalogue (slice mediaNameMax nameStop uefHeaderLen uefMagic uefChunkData
  CfsBlock MediaEntry MediaStatus UefGroup UefCopy visited)
open Loop (Pass repeatPass)
open UefRepair (rd16 rd16_lt rd32 tapeCrc char)

section Memory

variable {image : Image} {i start count a b : Nat}

theorem read_eq (inside : i < image.length) : image.read i = some (image.bytes.getD i 0) := by
  rw [Image.read, List.getD_eq_getElem?_getD, List.getElem?_eq_getElem inside]
  rfl

theorem plus_eq (fits : a + b < image.size) : image.plus a b = some (a + b) := if_pos fits

/-- A position not far behind the image, and a small step from there. -/
theorem plus_small (near : a ≤ image.length + 0x20000) (small : b ≤ 0x20000) :
    image.plus a b = some (a + b) := by
  have wide := image.wide
  have object := image.object
  rw [Image.length] at near
  exact plus_eq (by omega)

theorem read16_eq (inside : i + 2 ≤ image.length) : image.read16 i = some (rd16 image.bytes i) := by
  rw [Image.read16, read_eq (by omega), read_eq (by omega)]
  rfl

theorem rd32_eq (bytes : List UInt8) (i : Nat) :
    rd32 bytes i = rd16 bytes i + 0x10000 * rd16 bytes (i + 2) := by
  simp only [rd32, rd16, Nat.add_assoc, Nat.reduceAdd]
  omega

theorem read32_eq (inside : i + 4 ≤ image.length) : image.read32 i = some (rd32 image.bytes i) := by
  rw [Image.read32, read16_eq (by omega), read16_eq (by omega), rd32_eq]
  rfl

/-- Reads that all succeed. -/
theorem mapM_some {α β : Type} {f : α → Option β} {g : α → β} {xs : List α}
    (each : ∀ x ∈ xs, f x = some (g x)) : xs.mapM f = some (xs.map g) := by
  induction xs with
  | nil => rfl
  | cons x xs ih =>
    rw [List.forall_mem_cons] at each
    rw [List.mapM_cons, each.1, ih each.2]
    rfl

theorem slice_eq_map {bytes : List UInt8} (inside : start + count ≤ bytes.length) :
    (List.range count).map (fun i => bytes.getD (start + i) 0) = slice bytes start count := by
  refine List.ext_getElem ?_ fun i _ bound => ?_
  · rw [List.length_map, List.length_range, slice, List.length_take, List.length_drop]
    omega
  · rw [List.getElem_map, List.getElem_range, List.getD_eq_getElem _ _ (by simp [slice] at bound; omega)]
    simp [slice]

theorem readAll_eq (inside : start + count ≤ image.length) :
    image.readAll start count = some (slice image.bytes start count) := by
  have whole : start + count ≤ image.bytes.length := inside
  rw [← slice_eq_map whole, Image.readAll]
  refine mapM_some fun i member => ?_
  rw [List.mem_range] at member
  exact read_eq (by omega)

variable {α : Type} {array values : List α}

theorem store_eq {value : α} (inside : i < array.length) :
    store array i value = some (array.set i value) := if_pos inside

theorem storeAll_eq (inside : i + values.length ≤ array.length) :
    storeAll array i values = some (array.take i ++ values ++ array.drop (i + values.length)) := by
  induction values generalizing array i with
  | nil => simp [storeAll]
  | cons value rest ih =>
    rw [List.length_cons] at inside
    rw [storeAll, store_eq (by omega), Option.bind_eq_bind, Option.bind_some,
      ih (by rw [List.length_set]; omega)]
    have front : (array.take i).length = i := by
      rw [List.length_take]
      omega
    have split : array.set i value = (array.take i ++ [value]) ++ array.drop (i + 1) := by
      rw [List.set_eq_take_append_cons_drop, if_pos (by omega), List.append_assoc]
      rfl
    have size : (array.take i ++ [value]).length = i + 1 := by
      rw [List.length_append, front, List.length_singleton]
    have kept : (array.set i value).drop (i + 1 + rest.length) =
        array.drop (i + (rest.length + 1)) := by
      rw [split, Nat.add_comm i 1, Nat.add_assoc, List.drop_append, List.drop_of_length_le (by omega),
        size, List.drop_drop, List.nil_append]
      congr 1
      omega
    rw [kept, split, List.take_left' size]
    simp only [List.append_assoc, List.singleton_append, List.length_cons]

end Memory

section Names

variable {name other : List UInt8}

/-- The buffer of a name. -/
def padded (name : List UInt8) : List UInt8 :=
  name ++ List.replicate (mediaNameMax - name.length) 0

def rawBlock (block : CfsBlock) : CfsBlock := { block with name := padded block.name }

def rawEntry (entry : MediaEntry) : MediaEntry := { entry with name := padded entry.name }

/-- A name that leaves room for its NUL, and has none in it. -/
structure Fits (name : List UInt8) : Prop where
  short : name.length < mediaNameMax
  plain : 0 ∉ name

/-- A buffer of `MEDIA_NAME_MAX` bytes with its NUL. -/
structure Terminated (buffer : List UInt8) : Prop where
  size : buffer.length = mediaNameMax
  nul : 0 ∈ buffer

theorem padded_length (short : name.length ≤ mediaNameMax) : (padded name).length = mediaNameMax := by
  rw [padded, List.length_append, List.length_replicate]
  omega

theorem Fits.terminated (fits : Fits name) : Terminated (padded name) where
  size := padded_length fits.short.le
  nul := by
    have room := fits.short
    refine List.mem_append_right _ (List.mem_replicate.mpr ⟨by omega, rfl⟩)

theorem Fits.cString (fits : Fits name) : cString (padded name) = some name := by
  have all : ∀ byte ∈ name, (byte ≠ 0 : Bool) = true := by
    intro byte member
    have nonzero : byte ≠ 0 := by
      rintro rfl
      exact fits.plain member
    simpa using nonzero
  rw [MediaChecked.cString, if_pos fits.terminated.nul, padded, List.takeWhile_append_of_pos all,
    List.takeWhile_replicate]
  simp

/-- Filling a cleared buffer with a name and its NUL. -/
theorem store_name (short : name.length < mediaNameMax) :
    (storeAll (List.replicate mediaNameMax 0) 0 name).bind (store · name.length 0) =
      some (padded name) := by
  have size : (List.replicate mediaNameMax (0 : UInt8)).length = mediaNameMax := List.length_replicate
  obtain ⟨rest, room⟩ : ∃ rest, mediaNameMax - name.length = rest + 1 :=
    ⟨mediaNameMax - name.length - 1, by omega⟩
  have filled : storeAll (List.replicate mediaNameMax 0) 0 name =
      some (name ++ List.replicate (rest + 1) 0) := by
    rw [storeAll_eq (by omega), List.take_zero, List.nil_append, Nat.zero_add, List.drop_replicate,
      room]
  rw [filled, Option.bind_some, padded, room, store_eq (by simp), List.set_append_right _ _ (by omega),
    Nat.sub_self]
  rfl

end Names

section Blocks

variable {image : Image} {chunkEnd pos nameLen passes : Nat}

/-- Where the scan of a name stops: within fifteen characters, none of which is a NUL. -/
theorem nameStop_spec (bytes : List UInt8) (chunkEnd pos nameLen : Nat) :
    nameStop bytes chunkEnd pos nameLen ≤ pos + (mediaNameMax - 1 - nameLen) ∧
      nameStop bytes chunkEnd pos nameLen ≤ max pos chunkEnd ∧
      ∀ i, pos ≤ i → i < nameStop bytes chunkEnd pos nameLen → bytes.getD i 0 ≠ 0 := by
  induction pos, nameLen using MediaCatalogue.nameStop.induct bytes chunkEnd with
  | case1 pos nameLen more ih =>
    obtain ⟨near, inside, plain⟩ := ih
    rw [nameStop, if_pos more]
    refine ⟨by omega, by omega, fun i from_ before => ?_⟩
    by_cases first : i = pos
    · rw [first]
      exact more.2.1
    · exact plain i (by omega) before
  | case2 pos nameLen done =>
    rw [nameStop, if_neg done]
    exact ⟨by omega, by omega, fun i from_ before => absurd before (by omega)⟩

theorem nameLoop_eq (inside : chunkEnd ≤ image.length) (enough : mediaNameMax - nameLen < passes)
    (small : nameLen < mediaNameMax) (start : pos ≤ image.length) :
    repeatPass (nameBody image chunkEnd) passes (pos, nameLen) =
      some (nameStop image.bytes chunkEnd pos nameLen,
        nameLen + (nameStop image.bytes chunkEnd pos nameLen - pos)) := by
  induction passes generalizing pos nameLen with
  | zero => omega
  | succ passes ih =>
    rw [nameStop]
    by_cases before : pos < chunkEnd
    · have read : image.read pos = some (image.bytes.getD pos 0) := read_eq (by omega)
      by_cases more : image.bytes.getD pos 0 ≠ 0 ∧ nameLen < mediaNameMax - 1
      · have later := MediaCatalogue.nameStop_le image.bytes chunkEnd (pos + 1) (nameLen + 1)
        have pass : nameBody image chunkEnd (pos, nameLen) = some (.again (pos + 1, nameLen + 1)) := by
          simp only [nameBody, if_pos before, read, Option.bind_eq_bind, Option.bind_some, if_pos more,
            plus_small (show pos ≤ image.length + 0x20000 by omega) (show 1 ≤ 0x20000 by decide), Option.pure_def]
        rw [repeatPass, pass]
        simp only
        rw [ih (by omega) (by omega) (by omega), if_pos ⟨before, more⟩]
        congr 2
        omega
      · have pass : nameBody image chunkEnd (pos, nameLen) = some (.leave (pos, nameLen)) := by
          simp only [nameBody, if_pos before, read, Option.bind_eq_bind, Option.bind_some, if_neg more,
            Option.pure_def]
        rw [repeatPass, pass, if_neg fun all => more all.2, Nat.sub_self]
        rfl
    · have pass : nameBody image chunkEnd (pos, nameLen) = some (.leave (pos, nameLen)) := by
        simp only [nameBody, if_neg before, Option.pure_def]
      rw [repeatPass, pass, if_neg fun all => before all.1, Nat.sub_self]
      rfl

/-- A decoded name fits its buffer. -/
theorem cfsDecodeBlock_name {bytes : List UInt8} {next : Nat} {block : CfsBlock}
    (inside : chunkEnd ≤ bytes.length)
    (decoded : MediaCatalogue.cfsDecodeBlock bytes chunkEnd pos = some (next, block)) :
    Fits block.name := by
  obtain ⟨near, -, plain⟩ := nameStop_spec bytes chunkEnd (pos + 1) 0
  have name : block.name =
      slice bytes (pos + 1) (nameStop bytes chunkEnd (pos + 1) 0 - (pos + 1)) ∧
      nameStop bytes chunkEnd (pos + 1) 0 < chunkEnd := by
    simp only [MediaCatalogue.cfsDecodeBlock] at decoded
    split at decoded
    · cases decoded
    split at decoded
    · cases decoded
    rename_i ended
    split at decoded
    · cases decoded
    split at decoded
    · cases decoded
      exact ⟨rfl, by omega⟩
    split at decoded
    · cases decoded
    · cases decoded
      exact ⟨rfl, by omega⟩
  obtain ⟨name, before⟩ := name
  have size : mediaNameMax = 16 := rfl
  constructor
  · rw [name, slice, List.length_take]
    omega
  · rw [name]
    intro member
    obtain ⟨i, bound, nul⟩ := List.mem_iff_getElem.mp member
    simp only [slice, List.length_take, List.length_drop] at bound
    refine plain (pos + 1 + i) (by omega) (by omega) ?_
    rw [List.getD_eq_getElem _ _ (by omega), ← nul]
    simp [slice]

/-- Decoding a block makes no fault and gives the block of the model, its name in a buffer. -/
theorem cfsDecodeBlock_eq (inside : chunkEnd ≤ image.length) (enough : mediaNameMax < passes) :
    cfsDecodeBlock image passes chunkEnd pos =
      some ((MediaCatalogue.cfsDecodeBlock image.bytes chunkEnd pos).map fun found =>
        (found.1, rawBlock found.2)) := by
  have small : mediaNameMax = 16 := rfl
  dsimp only [cfsDecodeBlock, Option.bind_eq_bind, Option.pure_def]
  rw [MediaCatalogue.cfsDecodeBlock]
  by_cases ended : chunkEnd ≤ pos
  · rw [if_pos ended, if_pos (.inl ended)]
    rfl
  have first : image.read pos = some (image.bytes.getD pos 0) := read_eq (by omega)
  rw [if_neg ended, first, Option.bind_some]
  by_cases other : image.bytes.getD pos 0 ≠ 0x2a
  · rw [if_pos other, if_pos (.inr other)]
    rfl
  obtain ⟨near, bound, -⟩ := nameStop_spec image.bytes chunkEnd (pos + 1) 0
  have after := MediaCatalogue.nameStop_le image.bytes chunkEnd (pos + 1) 0
  have scan := @nameLoop_eq image chunkEnd (pos + 1) 0 passes inside (by omega) (by omega) (by omega)
  rw [Nat.zero_add] at scan
  rw [if_neg other, if_neg (not_or.mpr ⟨ended, other⟩), plus_small (by omega) (by decide),
    Option.bind_some, scan, Option.bind_some]
  dsimp only
  generalize nameStop image.bytes chunkEnd (pos + 1) 0 = stop at *
  by_cases past : chunkEnd ≤ stop
  · rw [if_pos past, if_pos (.inl past)]
    rfl
  have nul : image.read stop = some (image.bytes.getD stop 0) := read_eq (by omega)
  rw [if_neg past, nul, Option.bind_some]
  by_cases long : image.bytes.getD stop 0 ≠ 0
  · rw [if_pos long, if_pos (.inr long)]
    rfl
  rw [if_neg long, if_neg (not_or.mpr ⟨past, long⟩), plus_small (by omega) (by decide),
    Option.bind_some, plus_small (by omega) (by decide), Option.bind_some]
  rw [plus_small (by omega) (by decide), Option.bind_some]
  by_cases short : chunkEnd < stop + 1 + 17 + 2
  · rw [if_pos short, if_pos short]
    rfl
  have name := @store_name (slice image.bytes (pos + 1) (stop - (pos + 1)))
    (by rw [slice, List.length_take]; omega)
  have size : (slice image.bytes (pos + 1) (stop - (pos + 1))).length = stop - (pos + 1) := by
    rw [Image.length] at inside
    rw [slice, List.length_take, List.length_drop]
    omega
  rw [size] at name
  rw [if_neg short, if_neg short, readAll_eq (by omega), Option.bind_some, ← Option.bind_assoc, name,
    Option.bind_some, read32_eq (by omega), Option.bind_some, read32_eq (by omega), Option.bind_some,
    read16_eq (by omega), Option.bind_some, read16_eq (by omega), Option.bind_some,
    read_eq (by omega), Option.bind_some, read16_eq (by omega), Option.bind_some,
    readAll_eq (by omega), Option.bind_some]
  by_cases empty : rd16 image.bytes (stop + 1 + 10) = 0
  · rw [if_pos empty, if_pos empty]
    rfl
  have word := rd16_lt image.bytes (stop + 1 + 10)
  rw [if_neg empty, if_neg empty, plus_small (by omega) (by omega), Option.bind_some,
    plus_small (by omega) (by decide), Option.bind_some]
  by_cases crossing : chunkEnd < stop + 1 + 17 + 2 + rd16 image.bytes (stop + 1 + 10) + 2
  · rw [if_pos crossing, if_pos crossing]
    rfl
  · rw [if_neg crossing, if_neg crossing, readAll_eq (by omega), Option.bind_some,
      read16_eq (by omega), Option.bind_some]
    rfl

end Blocks

section Walks

variable {τ : Type} {image : Image} {visit : τ → CfsBlock → Option τ}
  {data chunkEnd bp pos passes fuel : Nat} {state : τ} {issues : UInt32}

/-- A visitor that may fault, as one of the model; after a fault it does nothing. -/
def lift (visit : τ → CfsBlock → Option τ) (state : Option τ) (block : CfsBlock) : Option τ :=
  state.bind fun s => visit s (rawBlock block)

theorem walkBlocks_none (bytes : List UInt8) (data chunkEnd bp : Nat) (issues : UInt32)
    {state : Option τ} (gone : state = none) :
    (MediaCatalogue.walkBlocks bytes (lift visit) data chunkEnd bp state issues).1 = none := by
  fun_induction MediaCatalogue.walkBlocks bytes (lift visit) data chunkEnd bp state issues with
  | case1 => exact gone
  | case2 bp state more next block decoded ih =>
    subst gone
    exact ih rfl
  | case3 => exact gone

theorem walkChunks_none (bytes : List UInt8) (pos : Nat) (issues : UInt32) {state : Option τ}
    (gone : state = none) :
    (MediaCatalogue.walkChunks bytes (lift visit) pos state issues).2.1 = none := by
  fun_induction MediaCatalogue.walkChunks bytes (lift visit) pos state issues with
  | case1 => exact gone
  | case2 pos state issues more data clen whole tape state' issues' walked ih =>
    have nothing := @walkBlocks_none _ visit bytes data (data + clen) data issues state gone
    rw [walked] at nothing
    exact ih nothing
  | case3 pos state issues more data clen whole other ih => exact ih gone
  | case4 => exact gone

/-- The loop over the blocks of a chunk ends, and faults only where the visitor does. -/
theorem blockLoop_eq (inside : chunkEnd ≤ image.length) (enough : mediaNameMax < passes)
    (ends : chunkEnd - bp < fuel) :
    (repeatPass (blockBody image passes visit data chunkEnd) fuel (bp, state, issues)).map Prod.snd =
      (MediaCatalogue.walkBlocks image.bytes (lift visit) data chunkEnd bp (some state) issues).1.map
        fun last => (last,
          (MediaCatalogue.walkBlocks image.bytes (lift visit) data chunkEnd bp (some state) issues).2) := by
  induction fuel generalizing bp state issues with
  | zero => omega
  | succ fuel ih =>
    rw [repeatPass]
    by_cases more : bp < chunkEnd
    · have block := @cfsDecodeBlock_eq image chunkEnd bp passes inside enough
      cases decoded : MediaCatalogue.cfsDecodeBlock image.bytes chunkEnd bp with
      | none =>
        rw [decoded, Option.map_none] at block
        rw [MediaCatalogue.walkBlocks_stuck more decoded]
        simp only [blockBody, if_pos more, block, Option.bind_eq_bind, Option.bind_some, Option.pure_def]
        rfl
      | some found =>
        obtain ⟨next, found⟩ := found
        rw [decoded, Option.map_some] at block
        have later := (MediaCatalogue.cfsDecodeBlock_inside decoded).1
        rw [MediaCatalogue.walkBlocks_step more decoded]
        simp only [blockBody, if_pos more, block, Option.bind_eq_bind, Option.bind_some,
          Option.pure_def]
        cases visited : visit state (rawBlock found) with
        | none =>
          have nothing : lift visit (some state) found = none := visited
          rw [nothing, walkBlocks_none _ _ _ _ _ rfl]
          rfl
        | some state' =>
          have seen : lift visit (some state) found = some state' := visited
          rw [seen, ← ih (by omega)]
          rfl
    · rw [MediaCatalogue.walkBlocks, if_neg more]
      simp only [blockBody, if_neg more, Option.pure_def]
      rfl

def Walk.result (w : Walk τ) : MediaStatus × τ × UInt32 := (w.status, w.state, w.issues)

/-- The result of a walk of the model with a visitor that may fault. -/
def settled (walked : MediaStatus × Option τ × UInt32) : Option (MediaStatus × τ × UInt32) :=
  walked.2.1.map fun state => (walked.1, state, walked.2.2)

/-- The loop over the chunks ends, and faults only where the visitor does. -/
theorem chunkLoop_eq (enough : mediaNameMax < passes) (room : image.length < passes)
    (near : pos ≤ image.length) (ends : image.length - pos < fuel) :
    (repeatPass (chunkBody image passes visit) fuel ⟨.ok, pos, state, issues⟩).map Walk.result =
      settled (MediaCatalogue.walkChunks image.bytes (lift visit) pos (some state) issues) := by
  have object := image.object
  have length : image.bytes.length = image.length := rfl
  induction fuel generalizing pos state issues with
  | zero => omega
  | succ fuel ih =>
    rw [repeatPass, MediaCatalogue.walkChunks]
    simp only [chunkBody, Option.bind_eq_bind, Option.pure_def]
    rw [plus_small (by omega) (by decide), Option.bind_some, length]
    by_cases last : image.length < pos + 6
    · rw [if_pos last, if_neg (by omega)]
      rfl
    rw [if_neg last, if_pos (by omega), read16_eq (by omega), Option.bind_some,
      read32_eq (by omega), Option.bind_some, Option.bind_some]
    by_cases long : image.length < rd32 image.bytes (pos + 2)
    · rw [if_pos long, if_pos (.inl long)]
      rfl
    rw [if_neg long, plus_eq (by omega), Option.bind_some]
    by_cases crossing : image.length < pos + 6 + rd32 image.bytes (pos + 2)
    · rw [if_pos crossing, if_pos (.inr crossing)]
      rfl
    rw [if_neg crossing, if_neg (not_or.mpr ⟨long, crossing⟩)]
    by_cases tape : rd16 image.bytes pos = uefChunkData
    · rw [if_pos tape, if_pos tape]
      have blocks := @blockLoop_eq _ image visit (pos + 6) (pos + 6 + rd32 image.bytes (pos + 2))
        (pos + 6) passes passes state issues (by omega) enough (by omega)
      rcases walked : MediaCatalogue.walkBlocks image.bytes (lift visit) (pos + 6)
        (pos + 6 + rd32 image.bytes (pos + 2)) (pos + 6) (some state) issues with ⟨last, issues'⟩
      rw [walked] at blocks
      cases last with
      | none =>
        rw [Option.map_none, Option.map_eq_none_iff] at blocks
        rw [blocks, settled, walkChunks_none _ _ _ rfl]
        rfl
      | some state' =>
        rw [Option.map_some, Option.map_eq_some_iff] at blocks
        obtain ⟨⟨bp, _, _⟩, ran, same⟩ := blocks
        cases same
        rw [ran, ← ih (by omega) (by omega)]
        rfl
    · rw [if_neg tape, if_neg tape, ← ih (by omega) (by omega)]

/-- The walk ends, and faults only where the visitor does. -/
theorem uefWalk_eq (enough : mediaNameMax < passes) (room : image.length < passes) :
    uefWalk image passes visit state =
      settled (MediaCatalogue.uefWalk image.bytes (lift visit) (some state)) := by
  have length : image.bytes.length = image.length := rfl
  have header : uefHeaderLen = 12 := rfl
  simp only [uefWalk, MediaCatalogue.uefWalk, Option.bind_eq_bind, Option.pure_def]
  rw [length]
  by_cases short : image.length < uefHeaderLen
  · rw [if_pos short, if_pos (.inl short)]
    rfl
  have magic : image.readAll 0 10 = some (image.bytes.take 10) := readAll_eq (by omega)
  rw [if_neg short, magic, Option.bind_some]
  by_cases other : image.bytes.take 10 ≠ uefMagic
  · rw [if_pos other, if_pos (.inr other)]
    rfl
  have chunks := @chunkLoop_eq _ image visit uefHeaderLen passes passes state 0 enough room
    (by omega) (by omega)
  rw [if_neg other, if_neg (not_or.mpr ⟨short, other⟩), ← chunks]
  cases repeatPass (chunkBody image passes visit) passes ⟨.ok, uefHeaderLen, state, 0⟩ <;> rfl

end Walks

section Visitors

variable {block : CfsBlock}

/-- The names a visitor compares: the current one, if there is one, is in its buffer. -/
structure Current (known : Option (List UInt8)) (haveCurrent : Bool) (buffer : List UInt8) : Prop where
  size : buffer.length = mediaNameMax
  have_ : haveCurrent = known.isSome
  held : ∀ name, known = some name → Fits name ∧ buffer = padded name

theorem Current.none : Current none false (List.replicate mediaNameMax 0) where
  size := List.length_replicate
  have_ := rfl
  held name same := by cases same

theorem Current.startsFile {known : Option (List UInt8)} {haveCurrent : Bool} {buffer : List UInt8}
    (current : Current known haveCurrent buffer) (named : Fits block.name) :
    startsFile haveCurrent buffer (rawBlock block) = some (block.startsFile known) := by
  rw [MediaChecked.startsFile, current.have_]
  cases known with
  | none => rfl
  | some name =>
    obtain ⟨fits, rfl⟩ := current.held name rfl
    have own : cString (rawBlock block).name = some block.name := named.cString
    simp only [Option.isSome_some, Bool.not_true, Bool.false_eq_true, if_false, fits.cString, own,
      Option.bind_eq_bind, Option.bind_some, Option.pure_def, CfsBlock.startsFile]
    rfl

/-- Copying the whole name of a block makes it the current one. -/
theorem Current.turn {known : Option (List UInt8)} {haveCurrent : Bool} {buffer : List UInt8}
    (current : Current known haveCurrent buffer) (named : Fits block.name) :
    storeAll buffer 0 (rawBlock block).name = some (padded block.name) ∧
      Current (some block.name) true (padded block.name) := by
  have size : (padded block.name).length = mediaNameMax := padded_length named.short.le
  constructor
  · have whole : (rawBlock block).name = padded block.name := rfl
    rw [whole, storeAll_eq (by rw [size, current.size, Nat.zero_add]), size, Nat.zero_add,
      List.drop_of_length_le current.size.le, List.take_zero, List.nil_append, List.append_nil]
  · refine ⟨size, rfl, ?_⟩
    rintro name ⟨⟩
    exact ⟨named, rfl⟩

/-- The caller's array, the counters and the open entry of a grouping. -/
structure Tracks (array : Option (List MediaEntry)) (g : UefGroup) (raw : Group) : Prop where
  limit : g.maxEntries = (array.map List.length).getD 0
  bound : g.entries.length ≤ g.maxEntries
  named : ∀ entry ∈ g.entries, Fits entry.name
  entries : raw.entries =
    array.map fun slots => g.entries.map rawEntry ++ slots.drop g.entries.length
  count : raw.count = g.entries.length
  total : raw.total = g.total
  current : Current g.current raw.haveCurrent raw.current
  opened : g.openEntry = true → 0 < g.entries.length
  openEntry : raw.openEntry = if g.openEntry then some (g.entries.length - 1) else none

/-- A slot behind the entries takes the next one. -/
theorem store_next {slots : List MediaEntry} {entries : List MediaEntry} {entry : MediaEntry}
    (room : entries.length < slots.length) :
    store (entries.map rawEntry ++ slots.drop entries.length) entries.length (rawEntry entry) =
      some ((entries ++ [entry]).map rawEntry ++ slots.drop (entries ++ [entry]).length) := by
  have size : (entries.map rawEntry).length = entries.length := List.length_map _
  have next : slots.drop entries.length = slots[entries.length] :: slots.drop (entries.length + 1) :=
    List.drop_eq_getElem_cons room
  rw [store_eq (by rw [List.length_append, size, List.length_drop]; omega),
    List.set_append_right _ _ size.le, size, Nat.sub_self, next, List.set_cons_zero,
    List.map_append, List.length_append, List.append_assoc]
  rfl

/-- The last entry is changed in its slot. -/
theorem store_last {slots front : List MediaEntry} {last entry : MediaEntry} :
    let entries := front ++ [last]
    let array := entries.map rawEntry ++ slots.drop entries.length
    array[entries.length - 1]? = some (rawEntry last) ∧
      store array (entries.length - 1) (rawEntry entry) =
        some ((front ++ [entry]).map rawEntry ++ slots.drop (front ++ [entry]).length) := by
  intro entries array
  have size : (front.map rawEntry).length = front.length := List.length_map _
  have array_eq : array = front.map rawEntry ++ rawEntry last :: slots.drop (front.length + 1) := by
    simp only [array, entries, List.map_append, List.map_cons, List.map_nil, List.length_append,
      List.length_cons, List.length_nil, List.append_assoc, List.singleton_append]
  have index : entries.length - 1 = front.length := by simp [entries]
  rw [index, array_eq]
  constructor
  · rw [List.getElem?_append_right size.le, size, Nat.sub_self]
    rfl
  · rw [store_eq (by simp), List.set_append_right _ _ size.le, size, Nat.sub_self, List.set_cons_zero]
    simp only [List.map_append, List.map_cons, List.map_nil, List.length_append, List.length_cons,
      List.length_nil, List.append_assoc, List.singleton_append]

variable {array : Option (List MediaEntry)} {g : UefGroup} {raw : Group}

theorem Tracks.opens (tracks : Tracks array g raw) (named : Fits block.name)
    (starts : block.startsFile g.current = true) :
    ∃ raw', uefGroupBlock g.maxEntries raw (rawBlock block) = some raw' ∧
      Tracks array (MediaCatalogue.uefGroupBlock g block) raw' := by
  obtain ⟨filled, current⟩ := tracks.current.turn named
  have begins := tracks.current.startsFile named
  rw [starts] at begins
  simp only [uefGroupBlock, MediaCatalogue.uefGroupBlock, begins, starts, filled, tracks.entries,
    Option.bind_eq_bind, Option.bind_some, Option.pure_def, if_true, tracks.count, tracks.total]
  cases array with
  | none =>
    have full : ¬g.entries.length < g.maxEntries := by
      rw [tracks.limit]
      exact Nat.not_lt_zero _
    rw [if_neg full]
    exact ⟨_, rfl, { tracks with
      total := rfl, current, entries := rfl, count := rfl
      opened := by simp
      openEntry := rfl }⟩
  | some slots =>
    have limit : g.maxEntries = slots.length := tracks.limit
    by_cases room : g.entries.length < g.maxEntries
    · have stored := @store_next slots g.entries ⟨block.name, block.load, block.exec,
        block.dataLength.toUInt32, 0, 1, block.flags &&& 0x01 != 0, block.crcOk⟩ (limit ▸ room)
      simp only [rawEntry] at stored
      simp only [Option.map_some, if_pos room, rawBlock, stored, Option.bind_some]
      refine ⟨_, rfl, ?_⟩
      exact {
        limit
        bound := by
          rw [List.length_append, List.length_singleton]
          exact room
        named := by
          intro entry member
          rcases List.mem_append.mp member with early | last
          · exact tracks.named entry early
          · rw [List.mem_singleton.mp last]
            exact named
        entries := rfl
        count := by rw [List.length_append, List.length_singleton]
        total := rfl
        current
        opened := fun _ => by simp
        openEntry := by simp }
    · simp only [Option.map_some, if_neg room]
      exact ⟨_, rfl, { tracks with
        total := rfl, current, entries := rfl, count := rfl
        opened := by simp
        openEntry := rfl }⟩

theorem Tracks.grows (tracks : Tracks array g raw) (named : Fits block.name)
    (same : block.startsFile g.current = false) :
    ∃ raw', uefGroupBlock g.maxEntries raw (rawBlock block) = some raw' ∧
      Tracks array (MediaCatalogue.uefGroupBlock g block) raw' := by
  have begins := tracks.current.startsFile named
  rw [same] at begins
  simp only [uefGroupBlock, MediaCatalogue.uefGroupBlock, begins, same, tracks.entries,
    tracks.openEntry, Option.bind_eq_bind, Option.bind_some, Option.pure_def, Bool.false_eq_true,
    if_false]
  by_cases open_ : g.openEntry = true
  · have filled := tracks.opened open_
    have bound := tracks.bound
    rw [tracks.limit] at bound
    cases array with
    | none =>
      rw [Option.map_none, Option.getD_none] at bound
      omega
    | some slots =>
      obtain ⟨front, last, split⟩ :=
        (List.eq_nil_or_concat g.entries).resolve_left (List.ne_nil_of_length_pos filled)
      rw [List.concat_eq_append] at split
      obtain ⟨read, stored⟩ := @store_last slots front last { last with
        length := last.length + block.dataLength.toUInt32
        blocks := last.blocks + 1
        crcOk := last.crcOk && block.crcOk }
      simp only [rawEntry] at read stored
      simp only [open_, if_true, Option.map_some, split, read, rawBlock, Option.bind_some, stored,
        MediaCatalogue.modify_last]
      have grown : (front ++ [last]).length = front.length + 1 := by
        rw [List.length_append, List.length_singleton]
      have bound := tracks.bound
      rw [split, grown] at bound
      have count := tracks.count
      rw [split, grown] at count
      refine ⟨_, rfl, ?_⟩
      exact {
        limit := tracks.limit
        bound := by
          rw [List.length_append, List.length_singleton]
          exact bound
        named := by
          intro entry member
          have early := tracks.named
          rw [split] at early
          rcases List.mem_append.mp member with before | final
          · exact early entry (List.mem_append_left _ before)
          · rw [List.mem_singleton.mp final]
            exact early last (List.mem_append_right _ (List.mem_singleton_self last))
        entries := rfl
        count := by
          rw [List.length_append, List.length_singleton]
          exact count
        total := tracks.total
        current := tracks.current
        opened := fun _ => by simp
        openEntry := by simp }
  · rw [if_neg open_, if_neg open_]
    refine ⟨raw, ?_, tracks⟩
    cases array <;> rfl

/-- The caller's buffer and the counters of a copy. -/
structure Holds (out : List UInt8) (c : UefCopy) (raw : Copy) : Prop where
  capacity : c.capacity = out.length
  bound : c.out.length ≤ out.length
  want : raw.want = c.want
  seen : raw.seen = c.seen
  current : Current c.current raw.haveCurrent raw.current
  out : raw.out = c.out ++ out.drop c.out.length
  written : raw.written = c.out.length
  overflow : raw.overflow = c.overflow

variable {image : Image} {out : List UInt8} {c : UefCopy} {copy : Copy}

theorem Holds.turn (holds : Holds out c copy) (named : Fits block.name) :
    ∃ copy', copy.turn (rawBlock block) = some copy' ∧ Holds out (c.turn block) copy' ∧
      copy'.haveCurrent = true := by
  have begins := holds.current.startsFile named
  obtain ⟨filled, current⟩ := holds.current.turn named
  simp only [Copy.turn, UefCopy.turn, begins, Option.bind_eq_bind, Option.bind_some, Option.pure_def]
  by_cases starts : block.startsFile c.current = true
  · rw [if_pos starts, if_pos starts, filled, Option.bind_some]
    refine ⟨_, rfl, { holds with seen := ?_, current }, rfl⟩
    rw [holds.seen, holds.current.have_]
  · rw [if_neg starts, if_neg starts]
    refine ⟨copy, rfl, holds, ?_⟩
    rw [holds.current.have_]
    cases known : c.current with
    | none =>
      rw [known] at starts
      exact absurd rfl starts
    | some name => rfl

/-- For a copy that has a current name, the data is stored where the model appends it. -/
theorem Holds.keep (holds : Holds out c copy) (named : copy.haveCurrent = true)
    (inside : block.dataOffset + block.dataLength ≤ image.length)
    (room : c.out.length + block.dataLength ≤ image.length) :
    ∃ copy', copy.keep image (rawBlock block) = some copy' ∧
      Holds out (c.store image.bytes block) copy' := by
  have object := image.object
  have length : image.bytes.length = image.length := rfl
  have current : Current c.current true copy.current := named ▸ holds.current
  have whole : copy.out.length = out.length := by
    have bound := holds.bound
    rw [holds.out, List.length_append, List.length_drop]
    omega
  simp only [Copy.keep, UefCopy.store, rawBlock, named, holds.seen, holds.want, holds.written, whole,
    Option.bind_eq_bind, Option.pure_def, Bool.not_true, Bool.false_eq_true, or_false]
  by_cases other : c.seen ≠ c.want
  · rw [if_pos other, if_pos other]
    exact ⟨copy, rfl, holds⟩
  rw [if_neg other, if_neg other]
  by_cases empty : block.dataLength = 0
  · rw [if_pos empty, if_pos empty]
    exact ⟨copy, rfl, holds⟩
  rw [if_neg empty, if_neg empty, plus_eq (by omega), Option.bind_some]
  by_cases full : out.length < c.out.length + block.dataLength
  · rw [if_pos full, if_pos (holds.capacity.symm ▸ full)]
    exact ⟨_, rfl, { holds with want := rfl, seen := rfl, current, written := rfl, overflow := rfl }⟩
  have data : (slice image.bytes block.dataOffset block.dataLength).length = block.dataLength := by
    rw [slice, List.length_take, List.length_drop]
    omega
  have stored : storeAll copy.out c.out.length (slice image.bytes block.dataOffset block.dataLength) =
      some ((c.out ++ slice image.bytes block.dataOffset block.dataLength) ++
        out.drop (c.out.length + block.dataLength)) := by
    rw [storeAll_eq (by omega), holds.out, data, List.take_left' rfl, List.drop_append,
      List.drop_of_length_le (by omega), Nat.add_sub_cancel_left, List.drop_drop, List.nil_append]
  rw [if_neg full, if_neg (holds.capacity.symm ▸ full), readAll_eq (by omega), Option.bind_some, stored, Option.bind_some]
  have grown : (c.out ++ slice image.bytes block.dataOffset block.dataLength).length =
      c.out.length + block.dataLength := by rw [List.length_append, data]
  refine ⟨_, rfl, { holds with
    want := rfl, seen := rfl, current, bound := ?_, out := ?_, written := grown.symm }⟩
  · rw [grown]
    omega
  · rw [grown]

end Visitors

section Runs

variable {σ τ : Type} {image : Image} {visit' : σ → CfsBlock → σ} {visit : τ → CfsBlock → Option τ}
  {passes : Nat}

/-- A visitor that follows the one of the model makes no fault in a whole walk. `R` may speak of
the blocks that are still to come. -/
theorem foldl_lift {R : List CfsBlock → σ → τ → Prop}
    (step : ∀ block rest s t, R (block :: rest) s t →
      ∃ t', visit t (rawBlock block) = some t' ∧ R rest (visit' s block) t')
    {blocks : List CfsBlock} {s : σ} {t : τ} (start : R blocks s t) :
    ∃ t', blocks.foldl (lift visit) (some t) = some t' ∧ R [] (blocks.foldl visit' s) t' := by
  induction blocks generalizing s t with
  | nil => exact ⟨t, rfl, start⟩
  | cons block rest ih =>
    obtain ⟨t', ran, next⟩ := step block rest s t start
    obtain ⟨last, rested, final⟩ := ih next
    refine ⟨last, ?_, final⟩
    rw [List.foldl_cons, show lift visit (some t) block = some t' from ran]
    exact rested

theorem uefWalk_run {R : List CfsBlock → σ → τ → Prop} (enough : mediaNameMax < passes)
    (room : image.length < passes)
    (step : ∀ block rest s t, R (block :: rest) s t →
      ∃ t', visit t (rawBlock block) = some t' ∧ R rest (visit' s block) t')
    {s : σ} {t : τ} (start : R (visited image.bytes) s t) :
    ∃ t', uefWalk image passes visit t = some ((MediaCatalogue.uefListing image.bytes).1, t',
        (MediaCatalogue.uefListing image.bytes).2.2) ∧
      R [] ((visited image.bytes).foldl visit' s) t' := by
  obtain ⟨last, folded, final⟩ := foldl_lift step start
  refine ⟨last, ?_, final⟩
  rw [uefWalk_eq enough room, MediaCatalogue.uefWalk_eq, folded]
  rfl

theorem visited_named (bytes : List UInt8) : ∀ block ∈ visited bytes, Fits block.name := by
  have carries : MediaCatalogue.Carries bytes (fun seen block => seen ++ [block]) fun _ seen =>
      ∀ block ∈ seen, Fits block.name := by
    constructor
    · intro pos next seen moved each
      exact each
    · intro chunkEnd pos next seen block inside decoded each other member
      rcases List.mem_append.mp member with early | last
      · exact each other early
      · rw [List.mem_singleton.mp last]
        exact cfsDecodeBlock_name inside decoded
  exact MediaCatalogue.uefWalk_carries carries [] (by simp)

/-- The grouping of a tape's blocks in the caller's array. -/
theorem group_run {array : Option (List MediaEntry)} (enough : mediaNameMax < passes)
    (room : image.length < passes) :
    let maxEntries := (array.map List.length).getD 0
    ∃ raw, uefWalk image passes (uefGroupBlock maxEntries)
          ⟨array, 0, 0, List.replicate mediaNameMax 0, false, none⟩ =
        some ((MediaCatalogue.uefListing image.bytes).1, raw,
          (MediaCatalogue.uefListing image.bytes).2.2) ∧
      Tracks array ((visited image.bytes).foldl MediaCatalogue.uefGroupBlock
        ⟨maxEntries, [], 0, none, false⟩) raw := by
  intro maxEntries
  have run := @uefWalk_run UefGroup Group image MediaCatalogue.uefGroupBlock
    (uefGroupBlock maxEntries) passes (fun rest g raw => (∀ block ∈ rest, Fits block.name) ∧
      Tracks array g raw) enough room ?_ ⟨maxEntries, [], 0, none, false⟩
    ⟨array, 0, 0, List.replicate mediaNameMax 0, false, none⟩ ⟨visited_named image.bytes, ?_⟩
  · obtain ⟨raw, ran, -, tracks⟩ := run
    exact ⟨raw, ran, tracks⟩
  · rintro block rest g raw ⟨named, tracks⟩
    rw [List.forall_mem_cons] at named
    have limit : g.maxEntries = maxEntries := tracks.limit
    rw [← limit]
    cases starts : block.startsFile g.current with
    | true =>
      obtain ⟨raw', ran, next⟩ := tracks.opens named.1 starts
      exact ⟨raw', ran, named.2, next⟩
    | false =>
      obtain ⟨raw', ran, next⟩ := tracks.grows named.1 starts
      exact ⟨raw', ran, named.2, next⟩
  · exact {
      limit := rfl
      bound := Nat.zero_le _
      named := by simp
      entries := by cases array <;> rfl
      count := rfl
      total := rfl
      current := .none
      opened := by simp
      openEntry := rfl }

/-- The copy of a file's data to the caller's buffer. -/
theorem copy_run {out : List UInt8} {index : Nat} (enough : mediaNameMax < passes)
    (room : image.length < passes) :
    ∃ copy, uefWalk image passes (uefCopyBlock image)
          ⟨index, 0, List.replicate mediaNameMax 0, false, out, 0, false⟩ =
        some ((MediaCatalogue.uefListing image.bytes).1, copy,
          (MediaCatalogue.uefListing image.bytes).2.2) ∧
      Holds out ((visited image.bytes).foldl (MediaCatalogue.uefCopyBlock image.bytes)
        ⟨index, 0, none, [], out.length, false⟩) copy := by
  obtain ⟨total, inside⟩ := MediaCatalogue.visited_inside image.bytes
  have run := @uefWalk_run UefCopy Copy image (MediaCatalogue.uefCopyBlock image.bytes)
    (uefCopyBlock image) passes (fun rest c copy =>
      ((∀ block ∈ rest, Fits block.name ∧ block.dataOffset + block.dataLength ≤ image.length) ∧
        c.out.length + (rest.map (·.dataLength)).sum ≤ image.length) ∧ Holds out c copy)
    enough room ?_ ⟨index, 0, none, [], out.length, false⟩
    ⟨index, 0, List.replicate mediaNameMax 0, false, out, 0, false⟩ ⟨⟨?_, ?_⟩, ?_⟩
  · obtain ⟨copy, ran, -, holds⟩ := run
    exact ⟨copy, ran, holds⟩
  · rintro block rest c copy ⟨⟨each, space⟩, holds⟩
    rw [List.forall_mem_cons] at each
    rw [List.map_cons, List.sum_cons] at space
    obtain ⟨⟨named, data⟩, others⟩ := each
    obtain ⟨turned, ran, same, have_⟩ := holds.turn named
    have size : (c.turn block).out = c.out := by
      rw [UefCopy.turn]
      split <;> rfl
    obtain ⟨kept, ran', next⟩ := same.keep have_ data (by rw [size]; omega)
    refine ⟨kept, ?_, ⟨others, ?_⟩, next⟩
    · rw [uefCopyBlock, ran]
      exact ran'
    · have grown : ((c.turn block).store image.bytes block).out.length ≤
          c.out.length + block.dataLength := by
        rw [← size, UefCopy.store]
        split
        · omega
        split
        · omega
        split
        · exact Nat.le_add_right _ _
        · rw [List.length_append, slice, List.length_take]
          omega
      rw [MediaCatalogue.uefCopyBlock_eq]
      omega
  · intro block member
    exact ⟨visited_named image.bytes block member, inside block member⟩
  · rw [List.length_nil, Nat.zero_add]
    exact total
  · exact {
      capacity := rfl
      bound := Nat.zero_le _
      want := rfl
      seen := rfl
      current := .none
      out := rfl
      written := rfl
      overflow := rfl }

end Runs

end Pi1MHz.MediaChecked
