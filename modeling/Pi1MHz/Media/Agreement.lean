import Mathlib.Data.List.GetD
import Pi1MHz.Foundation.Runs
import Pi1MHz.Media.Catalogue

/-! The catalogue of an image and the extraction of its files agree. On a tape both are
visitors of one walk; each of them is shown to follow the files of the tape, which are the
runs of blocks that continue one another. -/
namespace Pi1MHz.MediaCatalogue
open UefRepair

section Walk
variable {σ τ : Type} {image : List UInt8} {visit : σ → CfsBlock → σ} {visit' : τ → CfsBlock → τ}

/-- A map that commutes with two visitors commutes with their walks. -/
theorem walkBlocks_natural {h : σ → τ} (natural : ∀ s block, h (visit s block) = visit' (h s) block)
    (data chunkEnd bp : Nat) (s : σ) (issues : UInt32) :
    walkBlocks image visit' data chunkEnd bp (h s) issues =
      (h (walkBlocks image visit data chunkEnd bp s issues).1,
        (walkBlocks image visit data chunkEnd bp s issues).2) := by
  fun_induction walkBlocks image visit data chunkEnd bp s issues with
  | case1 bp s more stuck => rw [walkBlocks_stuck more stuck]
  | case2 bp s more next block decoded ih => rw [walkBlocks_step more decoded, ← natural, ih]
  | case3 bp s done => rw [walkBlocks, if_neg done]

theorem walkChunks_natural {h : σ → τ} (natural : ∀ s block, h (visit s block) = visit' (h s) block)
    (pos : Nat) (s : σ) (issues : UInt32) :
    walkChunks image visit' pos (h s) issues =
      ((walkChunks image visit pos s issues).1, h (walkChunks image visit pos s issues).2.1,
        (walkChunks image visit pos s issues).2.2) := by
  fun_induction walkChunks image visit pos s issues with
  | case1 pos s issues more data clen cut =>
    rw [walkChunks, if_pos more]
    simp only [data, clen] at cut
    simp only [if_pos cut]
  | case2 pos s issues more data clen whole tape s' issues' walked ih =>
    rw [walkChunks, if_pos more]
    simp only [data, clen] at whole walked ih ⊢
    simp only [if_neg whole, if_pos tape, walkBlocks_natural natural, walked, ih]
  | case3 pos s issues more data clen whole other ih =>
    rw [walkChunks, if_pos more]
    simp only [data, clen] at whole ih ⊢
    simp only [if_neg whole, if_neg other, ih]
  | case4 pos s issues done => rw [walkChunks, if_neg done]

theorem uefWalk_natural {h : σ → τ} (natural : ∀ s block, h (visit s block) = visit' (h s) block)
    (s : σ) :
    uefWalk image visit' (h s) =
      ((uefWalk image visit s).1, h (uefWalk image visit s).2.1, (uefWalk image visit s).2.2) := by
  simp only [uefWalk]
  split
  · rfl
  · exact walkChunks_natural natural _ _ _

/-- What holds along a walk: it survives every decoded block, and moving on. -/
structure Carries (image : List UInt8) (visit : σ → CfsBlock → σ) (Holds : Nat → σ → Prop) : Prop where
  later : ∀ {pos next s}, pos ≤ next → Holds pos s → Holds next s
  block : ∀ {chunkEnd pos next s block}, chunkEnd ≤ image.length →
    cfsDecodeBlock image chunkEnd pos = some (next, block) → Holds pos s → Holds next (visit s block)

variable {Holds : Nat → σ → Prop}

theorem walkBlocks_carries (carries : Carries image visit Holds) {chunkEnd bp : Nat} (data : Nat) (s : σ)
    (issues : UInt32) (inside : chunkEnd ≤ image.length) (bound : bp ≤ chunkEnd) (holds : Holds bp s) :
    Holds chunkEnd (walkBlocks image visit data chunkEnd bp s issues).1 := by
  fun_induction walkBlocks image visit data chunkEnd bp s issues with
  | case1 bp s more stuck => exact carries.later bound holds
  | case2 bp s more next block decoded ih =>
    exact ih (cfsDecodeBlock_inside decoded).2.2.2 (carries.block inside decoded holds)
  | case3 bp s done => exact carries.later bound holds

theorem walkChunks_carries (carries : Carries image visit Holds) {pos : Nat} (s : σ) (issues : UInt32)
    (bound : pos ≤ image.length) (holds : Holds pos s) :
    Holds image.length (walkChunks image visit pos s issues).2.1 := by
  fun_induction walkChunks image visit pos s issues with
  | case1 pos s issues more data clen cut => exact carries.later bound holds
  | case2 pos s issues more data clen whole tape s' issues' walked ih =>
    have inside : data + clen ≤ image.length := by omega
    have start : Holds data s := carries.later (by omega) holds
    have after := walkBlocks_carries carries data s issues inside (Nat.le_add_right data clen) start
    rw [walked] at after
    exact ih inside after
  | case3 pos s issues more data clen whole other ih =>
    have inside : data + clen ≤ image.length := by omega
    exact ih inside (carries.later (by omega) holds)
  | case4 pos s issues done => exact carries.later bound holds

theorem uefWalk_carries (carries : Carries image visit Holds) (s : σ) (holds : Holds 0 s) :
    Holds image.length (uefWalk image visit s).2.1 := by
  simp only [uefWalk]
  split
  · exact carries.later (Nat.zero_le _) holds
  · rename_i header
    refine walkChunks_carries carries s 0 (by omega) (carries.later (Nat.zero_le _) holds)

end Walk

/-- What a block holds. -/
structure TapeBlock where
  name : List UInt8
  load : UInt32
  exec : UInt32
  number : UInt16
  flags : UInt8
  data : List UInt8
deriving DecidableEq

/-- A block as the walk finds it. -/
structure FoundBlock extends TapeBlock where
  crcOk : Bool
deriving DecidableEq

def CfsBlock.found (image : List UInt8) (block : CfsBlock) : FoundBlock where
  name := block.name
  load := block.load
  exec := block.exec
  number := block.block
  flags := block.flags
  data := slice image block.dataOffset block.dataLength
  crcOk := block.crcOk

/-- The walk with the visitor that only lists the blocks. -/
def uefListing (image : List UInt8) : MediaStatus × List CfsBlock × UInt32 :=
  uefWalk image (fun seen block => seen ++ [block]) []

def visited (image : List UInt8) : List CfsBlock := (uefListing image).2.1

def tapeBlocks (image : List UInt8) : List FoundBlock := (visited image).map (·.found image)

/-- The second block belongs to the file of the first. -/
def continues (before block : FoundBlock) : Bool := before.name == block.name && block.number != 0

def tapeFiles (image : List UInt8) : List (List FoundBlock) := (tapeBlocks image).splitBy continues

def filePayload (file : List FoundBlock) : List UInt8 := file.flatMap fun block => block.data

/-- The entry of a file; no file of a tape is without blocks. -/
def fileEntry : List FoundBlock → MediaEntry
  | [] => ⟨[], 0, 0, 0, 0, 0, false, true⟩
  | first :: more => {
      name := first.name
      load := first.load
      exec := first.exec
      length := (filePayload (first :: more)).length.toUInt32
      offset := 0
      blocks := (more.length + 1).toUInt16
      locked := first.flags &&& 0x01 != 0
      crcOk := (first :: more).all fun block => block.crcOk }

/-- Every walk is a fold over the visited blocks. -/
theorem uefWalk_eq {σ : Type} (image : List UInt8) (visit : σ → CfsBlock → σ) (s : σ) :
    uefWalk image visit s =
      ((uefListing image).1, (visited image).foldl visit s, (uefListing image).2.2) := by
  have natural : ∀ (seen : List CfsBlock) block,
      (seen ++ [block]).foldl visit s = visit (seen.foldl visit s) block := by
    intro seen block
    rw [List.foldl_append, List.foldl_cons, List.foldl_nil]
  exact uefWalk_natural natural []

/-- The data of all visited blocks lies in the image, in disjoint places. -/
theorem visited_inside (image : List UInt8) :
    ((visited image).map (·.dataLength)).sum ≤ image.length ∧
      ∀ block ∈ visited image, block.dataOffset + block.dataLength ≤ image.length := by
  have carries : Carries image (fun seen block => seen ++ [block]) fun pos seen =>
      (seen.map (·.dataLength)).sum ≤ pos ∧
        ∀ block ∈ seen, block.dataOffset + block.dataLength ≤ image.length := by
    constructor
    · rintro pos next seen moved ⟨total, each⟩
      exact ⟨total.trans moved, each⟩
    · rintro chunkEnd pos next seen block inside decoded ⟨total, each⟩
      obtain ⟨_, taken, data, bound⟩ := cfsDecodeBlock_inside decoded
      constructor
      · rw [List.map_append, List.sum_append, List.map_cons, List.map_nil, List.sum_singleton]
        omega
      · intro other member
        rcases List.mem_append.mp member with early | last
        · exact each other early
        · rw [List.mem_singleton.mp last]
          omega
  exact uefWalk_carries carries [] (by simp)

theorem found_length {image : List UInt8} {block : CfsBlock} (member : block ∈ visited image) :
    (block.found image).data.length = block.dataLength := by
  have inside := (visited_inside image).2 block member
  simp only [CfsBlock.found, slice, List.length_take, List.length_drop]
  omega

@[simp] theorem filePayload_append (front back : List FoundBlock) :
    filePayload (front ++ back) = filePayload front ++ filePayload back :=
  List.flatMap_append

/-- No file of a tape is longer than the tape. -/
theorem filePayload_length {image : List UInt8} {file : List FoundBlock}
    (member : file ∈ tapeFiles image) : (filePayload file).length ≤ image.length := by
  obtain ⟨before, after, split⟩ := List.append_of_mem member
  have blocks : before.flatten ++ (file ++ after.flatten) = tapeBlocks image := by
    have flat : (tapeFiles image).flatten = tapeBlocks image := List.flatten_splitBy _ _
    rw [← flat, split, List.flatten_append, List.flatten_cons]
  have lengths : (filePayload (tapeBlocks image)).length = ((visited image).map (·.dataLength)).sum := by
    rw [filePayload, List.length_flatMap, tapeBlocks, List.map_map]
    congr 1
    exact List.map_congr_left fun block member => found_length member
  have total := (visited_inside image).1
  rw [← lengths, ← blocks, filePayload_append, filePayload_append, List.length_append,
    List.length_append] at total
  omega

/-- The name of the last block met. -/
def lastName (files : List (List FoundBlock)) : Option (List UInt8) :=
  (files.getLast?.bind List.getLast?).map fun block => block.name

theorem startsFile_of_opens {image : List UInt8} {files : List (List FoundBlock)} {block : CfsBlock}
    (opens : ∀ file last, files.getLast? = some (file ++ [last]) →
      continues last (block.found image) = false) :
    block.startsFile (lastName files) = true := by
  cases final : files.getLast? with
  | none => simp [CfsBlock.startsFile, lastName, final]
  | some file =>
    rcases List.eq_nil_or_concat file with rfl | ⟨front, last, rfl⟩
    · simp [CfsBlock.startsFile, lastName, final]
    · have apart := opens front last (by rw [final, List.concat_eq_append])
      simp only [continues, CfsBlock.found, Bool.and_eq_false_iff] at apart
      simp only [CfsBlock.startsFile, lastName, final, Option.bind_some, List.concat_eq_append,
        List.getLast?_append, List.getLast?_singleton, Option.some_or, Option.map_some]
      rcases apart with name | number
      · simp_all
      · simp_all

theorem startsFile_of_continues {image : List UInt8} {files : List (List FoundBlock)}
    {file : List FoundBlock} {last : FoundBlock} {block : CfsBlock}
    (same : continues last (block.found image) = true) :
    block.startsFile (lastName (files ++ [file ++ [last]])) = false := by
  simp only [continues, CfsBlock.found, Bool.and_eq_true, beq_iff_eq, bne_iff_ne] at same
  simp [CfsBlock.startsFile, lastName, same.1, same.2]

theorem lastName_continues (files : List (List FoundBlock)) (file : List FoundBlock)
    {last block : FoundBlock} (same : continues last block = true) :
    lastName (files ++ [file ++ [last, block]]) = lastName (files ++ [file ++ [last]]) := by
  simp only [continues, Bool.and_eq_true, beq_iff_eq] at same
  simp [lastName, same.1]

theorem lastName_isSome {files : List (List FoundBlock)} (filled : [] ∉ files) :
    (lastName files).isSome = !files.isEmpty := by
  rcases List.eq_nil_or_concat files with rfl | ⟨front, file, rfl⟩
  · rfl
  · rcases List.eq_nil_or_concat file with rfl | ⟨blocks, last, rfl⟩
    · simp at filled
    · simp [lastName]

/-- A further block of a file. -/
theorem fileEntry_concat {file : List FoundBlock} (filled : file ≠ []) (block : FoundBlock) :
    fileEntry (file ++ [block]) =
      { fileEntry file with
        length := (fileEntry file).length + block.data.length.toUInt32
        blocks := (fileEntry file).blocks + 1
        crcOk := (fileEntry file).crcOk && block.crcOk } := by
  cases file with
  | nil => contradiction
  | cons first more =>
    have payload : filePayload (first :: (more ++ [block])) =
        filePayload (first :: more) ++ block.data := by
      rw [← List.cons_append, filePayload_append]
      simp [filePayload]
    simp only [List.cons_append, fileEntry, payload, List.length_append, List.length_cons,
      List.length_nil, Nat.zero_add]
    congr 1
    · exact UInt32.ofNat_add _ _
    · exact UInt16.ofNat_add _ _
    · rw [← List.cons_append, List.all_append]
      simp

/-- The catalogue visitor has met these files. -/
structure Grouped (limit : Nat) (files : List (List FoundBlock)) (g : UefGroup) : Prop where
  maxEntries : g.maxEntries = limit
  entries : g.entries = (files.take limit).map fileEntry
  total : g.total = files.length
  current : g.current = lastName files
  openEntry : files ≠ [] → g.openEntry = decide (files.length ≤ limit)

theorem uefGroupBlock_opens {limit : Nat} {image : List UInt8} {files : List (List FoundBlock)}
    {g : UefGroup} {block : CfsBlock} (member : block ∈ visited image)
    (grouped : Grouped limit files g)
    (opens : ∀ file last, files.getLast? = some (file ++ [last]) →
      continues last (block.found image) = false) :
    Grouped limit (files ++ [[block.found image]]) (uefGroupBlock g block) := by
  have starts : block.startsFile g.current = true := by
    rw [grouped.current]
    exact startsFile_of_opens opens
  have listed : g.entries.length = min limit files.length := by
    rw [grouped.entries, List.length_map, List.length_take]
  have name : some block.name = lastName (files ++ [[block.found image]]) := by
    simp [lastName, CfsBlock.found]
  have entry : fileEntry [block.found image] = {
      name := block.name
      load := block.load
      exec := block.exec
      length := block.dataLength.toUInt32
      offset := 0
      blocks := 1
      locked := block.flags &&& 0x01 != 0
      crcOk := block.crcOk } := by
    have data : (filePayload [block.found image]).length = block.dataLength := by
      simp [filePayload, found_length member]
    simp only [fileEntry, data, List.all_cons, List.all_nil, Bool.and_true]
    rfl
  simp only [uefGroupBlock, starts, if_true]
  rw [grouped.maxEntries]
  split
  · rename_i room
    refine ⟨rfl, ?_, ?_, name, ?_⟩
    · rw [List.take_of_length_le (by simp; omega), List.map_append, List.map_cons, List.map_nil, entry,
        grouped.entries, List.take_of_length_le (by omega)]
    · simp [grouped.total]
    · simp
      omega
  · rename_i full
    refine ⟨rfl, ?_, ?_, name, ?_⟩
    · rw [List.take_append_of_le_length (by omega)]
      exact grouped.entries
    · simp [grouped.total]
    · simp
      omega

theorem modify_last {α : Type} (f : α → α) (front : List α) (last : α) :
    (front ++ [last]).modify ((front ++ [last]).length - 1) f = front ++ [f last] := by
  rw [List.modify_eq_take_cons_drop (by simp)]
  simp

theorem uefGroupBlock_grows {limit : Nat} {image : List UInt8} {files : List (List FoundBlock)}
    {file : List FoundBlock} {last : FoundBlock} {g : UefGroup} {block : CfsBlock}
    (member : block ∈ visited image) (grouped : Grouped limit (files ++ [file ++ [last]]) g)
    (same : continues last (block.found image) = true) :
    Grouped limit (files ++ [file ++ [last, block.found image]]) (uefGroupBlock g block) := by
  have starts : block.startsFile g.current = false := by
    rw [grouped.current]
    exact startsFile_of_continues same
  have name := lastName_continues files file same
  have opened := grouped.openEntry (by simp)
  simp only [uefGroupBlock, starts, Bool.false_eq_true, if_false]
  split
  · rename_i open_
    have room : files.length + 1 ≤ limit := by simpa [open_] using opened
    refine ⟨grouped.maxEntries, ?_, by simpa using grouped.total, by rw [name]; exact grouped.current, ?_⟩
    · have entries := grouped.entries
      have entry := fileEntry_concat (List.append_ne_nil_of_right_ne_nil file (List.cons_ne_nil last []))
        (block.found image)
      rw [found_length member, List.append_assoc, List.singleton_append] at entry
      rw [List.take_of_length_le (by simpa using room), List.map_append, List.map_singleton] at entries
      rw [List.take_of_length_le (by simpa using room), List.map_append, List.map_singleton, entry]
      simp only [entries, modify_last]
      rfl
    · intro _
      simpa using opened
  · rename_i closed
    have full : limit ≤ files.length := by
      simp only [Bool.not_eq_true] at closed
      simpa [closed, Nat.lt_succ_iff] using opened
    refine ⟨grouped.maxEntries, ?_, by simpa using grouped.total, by rw [name]; exact grouped.current, ?_⟩
    · rw [grouped.entries, List.take_append_of_le_length full, List.take_append_of_le_length full]
    · intro _
      simpa using opened

theorem visited_grouped (image : List UInt8) (limit : Nat) :
    Grouped limit (tapeFiles image)
      ((visited image).foldl uefGroupBlock ⟨limit, [], 0, none, false⟩) := by
  refine Runs.foldl_splitBy (·.found image) (visited image) ?_ ?_ ?_
  · exact ⟨rfl, by simp, rfl, rfl, by simp⟩
  · intro files g block member _ grouped opens
    exact uefGroupBlock_opens member grouped opens
  · intro files file last g block member grouped same
    exact uefGroupBlock_grows member grouped same

/-- The bytes kept of a payload that may or may not have fitted. -/
structure Keeps (capacity : Nat) (payload : List UInt8) (c : UefCopy) : Prop where
  fits : payload.length ≤ capacity → c.overflow = false ∧ c.out = payload
  spills : capacity < payload.length → c.overflow = true

/-- The extraction visitor has met these files. -/
structure Copied (index limit : Nat) (files : List (List FoundBlock)) (c : UefCopy) : Prop where
  want : c.want = index
  seen : c.seen = files.length - 1
  current : c.current = lastName files
  capacity : c.capacity = limit
  keeps : Keeps limit (filePayload (files.getD index [])) c

/-- The first half of `uefCopyBlock`: which file the block is of. -/
def UefCopy.turn (c : UefCopy) (block : CfsBlock) : UefCopy :=
  if block.startsFile c.current then
    { c with seen := if c.current.isSome then c.seen + 1 else c.seen, current := some block.name }
  else c

/-- The second half: keep the data of the wanted file. -/
def UefCopy.store (image : List UInt8) (c : UefCopy) (block : CfsBlock) : UefCopy :=
  if c.seen ≠ c.want then c
  else if block.dataLength = 0 then c
  else if c.capacity < c.out.length + block.dataLength then { c with overflow := true }
  else { c with out := c.out ++ slice image block.dataOffset block.dataLength }

theorem uefCopyBlock_eq (image : List UInt8) (c : UefCopy) (block : CfsBlock) :
    uefCopyBlock image c block = (c.turn block).store image block := rfl

theorem UefCopy.store_fields (image : List UInt8) (c : UefCopy) (block : CfsBlock) :
    (c.store image block).want = c.want ∧ (c.store image block).seen = c.seen ∧
      (c.store image block).current = c.current ∧ (c.store image block).capacity = c.capacity := by
  simp only [UefCopy.store]
  split
  · exact ⟨rfl, rfl, rfl, rfl⟩
  split
  · exact ⟨rfl, rfl, rfl, rfl⟩
  split <;> exact ⟨rfl, rfl, rfl, rfl⟩

theorem Keeps.store {image payload : List UInt8} {c : UefCopy} {block : CfsBlock}
    (member : block ∈ visited image) (wanted : c.seen = c.want) (keeps : Keeps c.capacity payload c) :
    Keeps c.capacity (payload ++ (block.found image).data) (c.store image block) := by
  have length := found_length member
  simp only [UefCopy.store, wanted, ne_eq, not_true_eq_false, if_false]
  split
  · rename_i empty
    rw [List.eq_nil_of_length_eq_zero (length.trans empty), List.append_nil]
    exact keeps
  rename_i nonempty
  split
  · rename_i over_
    constructor
    · intro room
      rw [List.length_append, length] at room
      rw [(keeps.fits (by omega)).2] at over_
      omega
    · intro _
      rfl
  · rename_i room
    constructor
    · intro small
      rw [List.length_append, length] at small
      obtain ⟨clean, out⟩ := keeps.fits (by omega)
      exact ⟨clean, by rw [out]; rfl⟩
    · intro large
      by_cases before : c.capacity < payload.length
      · exact keeps.spills before
      · rw [(keeps.fits (by omega)).2] at room
        rw [List.length_append, length] at large
        omega

theorem uefCopyBlock_opens {index limit : Nat} {image : List UInt8} {files : List (List FoundBlock)}
    {c : UefCopy} {block : CfsBlock} (member : block ∈ visited image) (filled : [] ∉ files)
    (copied : Copied index limit files c)
    (opens : ∀ file last, files.getLast? = some (file ++ [last]) →
      continues last (block.found image) = false) :
    Copied index limit (files ++ [[block.found image]]) (uefCopyBlock image c block) := by
  have starts : block.startsFile c.current = true := by
    rw [copied.current]
    exact startsFile_of_opens opens
  have count : (if c.current.isSome then c.seen + 1 else c.seen) = files.length := by
    rw [copied.current, copied.seen, lastName_isSome filled]
    cases files with
    | nil => rfl
    | cons file rest => rfl
  rw [uefCopyBlock_eq, UefCopy.turn, if_pos starts, count]
  obtain ⟨want, seen, current, capacity⟩ := UefCopy.store_fields image
    { c with seen := files.length, current := some block.name } block
  refine ⟨want.trans copied.want, ?_, ?_, capacity.trans copied.capacity, ?_⟩
  · rw [seen]
    simp
  · rw [current]
    simp [lastName, CfsBlock.found]
  by_cases wanted : files.length = index
  · -- The wanted file starts here: nothing of it has been kept before.
    have before : filePayload (files.getD index []) = [] := by
      rw [List.getD_eq_default _ _ (by omega)]
      rfl
    have after : filePayload ((files ++ [[block.found image]]).getD index []) =
        [] ++ (block.found image).data := by
      rw [List.getD_append_right _ _ _ _ (by omega), ← wanted]
      simp [filePayload]
    have keeps := copied.keeps
    rw [before] at keeps
    rw [after, ← copied.capacity]
    rw [← copied.capacity] at keeps
    refine Keeps.store (c := { c with seen := files.length, current := some block.name }) member
      (wanted.trans copied.want.symm) ⟨keeps.fits, keeps.spills⟩
  · have same : filePayload ((files ++ [[block.found image]]).getD index []) =
        filePayload (files.getD index []) := by
      by_cases early : index < files.length
      · rw [List.getD_append _ _ _ _ early]
      · rw [List.getD_eq_default _ _ (by simp; omega), List.getD_eq_default _ _ (by omega)]
    have skipped : UefCopy.store image { c with seen := files.length, current := some block.name } block =
        { c with seen := files.length, current := some block.name } := by
      rw [UefCopy.store, if_pos (by simpa [copied.want] using wanted)]
    rw [same, skipped]
    exact ⟨copied.keeps.fits, copied.keeps.spills⟩

theorem uefCopyBlock_grows {index limit : Nat} {image : List UInt8} {files : List (List FoundBlock)}
    {file : List FoundBlock} {last : FoundBlock} {c : UefCopy} {block : CfsBlock}
    (member : block ∈ visited image) (copied : Copied index limit (files ++ [file ++ [last]]) c)
    (same : continues last (block.found image) = true) :
    Copied index limit (files ++ [file ++ [last, block.found image]]) (uefCopyBlock image c block) := by
  have starts : block.startsFile c.current = false := by
    rw [copied.current]
    exact startsFile_of_continues same
  have name := lastName_continues files file same
  have count : c.seen = files.length := by simpa using copied.seen
  rw [uefCopyBlock_eq, UefCopy.turn, if_neg (by simp [starts])]
  obtain ⟨want, seen, current, capacity⟩ := UefCopy.store_fields image c block
  refine ⟨want.trans copied.want, ?_, ?_, capacity.trans copied.capacity, ?_⟩
  · rw [seen]
    simpa using count
  · rw [current, copied.current, name]
  have keeps := copied.keeps
  by_cases wanted : files.length = index
  · have payload : filePayload ((files ++ [file ++ [last, block.found image]]).getD index []) =
        filePayload ((files ++ [file ++ [last]]).getD index []) ++ (block.found image).data := by
      rw [← wanted]
      simp [filePayload]
    rw [payload, ← copied.capacity]
    rw [← copied.capacity] at keeps
    exact keeps.store member (by rw [count, wanted, copied.want])
  · have payload : filePayload ((files ++ [file ++ [last, block.found image]]).getD index []) =
        filePayload ((files ++ [file ++ [last]]).getD index []) := by
      by_cases early : index < files.length
      · rw [List.getD_append _ _ _ _ early, List.getD_append _ _ _ _ early]
      · rw [List.getD_eq_default _ _ (by simp; omega), List.getD_eq_default _ _ (by simp; omega)]
    rw [payload, UefCopy.store, if_pos (by rw [count, copied.want]; exact wanted)]
    exact keeps

theorem visited_copied (image : List UInt8) (index limit : Nat) :
    Copied index limit (tapeFiles image)
      ((visited image).foldl (uefCopyBlock image) ⟨index, 0, none, [], limit, false⟩) := by
  refine Runs.foldl_splitBy (·.found image) (visited image) ?_ ?_ ?_
  · refine ⟨rfl, rfl, rfl, rfl, ⟨fun _ => ⟨rfl, rfl⟩, fun spill => ?_⟩⟩
    simp [filePayload] at spill
  · intro files c block member filled copied opens
    exact uefCopyBlock_opens member filled copied opens
  · intro files file last c block member copied same
    exact uefCopyBlock_grows member copied same

theorem mediaCatalogue_uef (image : List UInt8) {n : Nat} (array : n ≠ 0) :
    mediaCatalogue image .uef (some n) =
      (if (uefListing image).1 = .errFormat then .errFormat else .ok,
        { Catalogue.empty .uef with
          entries := ((tapeFiles image).take n).map fileEntry
          total := (tapeFiles image).length
          issues := (uefListing image).2.2 }) := by
  have grouped := visited_grouped image n
  rw [mediaCatalogue, if_neg (by simpa using array)]
  simp only [reduceCtorEq, if_false, Option.getD_some, uefWalk_eq, grouped.entries, grouped.total]

theorem mediaExtract_uef {image : List UInt8} {index limit : Nat} {file : List FoundBlock}
    (readable : (uefListing image).1 ≠ .errFormat) (found : (tapeFiles image)[index]? = some file)
    (fits : (filePayload file).length ≤ limit) :
    mediaExtract image .uef index limit = ⟨.ok, filePayload file⟩ := by
  have copied := visited_copied image index limit
  have keeps := copied.keeps
  rw [List.getD_eq_getElem?_getD, found, Option.getD_some] at keeps
  obtain ⟨clean, out⟩ := keeps.fits fits
  obtain ⟨bound, _⟩ := List.getElem?_eq_some_iff.mp found
  have nonempty : (lastName (tapeFiles image)).isNone = false := by
    have filled : [] ∉ tapeFiles image := List.nil_notMem_splitBy _ _
    rw [Option.isNone_eq_false_iff, lastName_isSome filled]
    simpa using List.ne_nil_of_length_pos (Nat.zero_lt_of_lt bound)
  have reached : ¬ (tapeFiles image).length - 1 < index := by omega
  simp only [mediaExtract, reduceCtorEq, if_false, uefWalk_eq, if_neg readable, clean,
    Bool.false_eq_true, copied.current, copied.seen, nonempty, reached, or_self, out]

theorem mediaExtract_uef_range {image : List UInt8} {index limit : Nat}
    (readable : (uefListing image).1 ≠ .errFormat)
    (nothing : ∀ file, (tapeFiles image)[index]? = some file → limit < (filePayload file).length) :
    (mediaExtract image .uef index limit).status = .errRange := by
  have copied := visited_copied image index limit
  simp only [mediaExtract, reduceCtorEq, if_false, uefWalk_eq, if_neg readable, copied.current,
    copied.seen]
  cases found : (tapeFiles image)[index]? with
  | some file =>
    have keeps := copied.keeps
    rw [List.getD_eq_getElem?_getD, found, Option.getD_some] at keeps
    simp only [keeps.spills (nothing file found), if_true]
  | none =>
    have beyond := List.getElem?_eq_none_iff.mp found
    have missing : (lastName (tapeFiles image)).isNone = true ∨ (tapeFiles image).length - 1 < index := by
      cases files : tapeFiles image with
      | nil => exact .inl rfl
      | cons file rest =>
        rw [files] at beyond
        simp only [List.length_cons] at beyond ⊢
        omega
    simp only [missing, if_true]
    split <;> rfl

/-- The entries of a disc image, whatever room there is for them. -/
def dfsEntries (image : List UInt8) : List MediaEntry :=
  let sectorsTotal := (image.getD (dfsSector + 7) 0).toNat +
    (image.getD (dfsSector + 6) 0 &&& 0x03).toNat * 0x100
  ((List.range ((image.getD (dfsSector + 5) 0).toNat / 8)).map (dfsEntry image sectorsTotal)).map Prod.fst

theorem dfsEntries_length {image : List UInt8} (disc : dfsPlausible image = true) :
    (dfsEntries image).length ≤ mediaMaxEntries := by
  simp only [dfsPlausible, Bool.and_eq_true, decide_eq_true_eq] at disc
  have bound := disc.2.1.2
  simp only [dfsEntries, List.length_map, List.length_range, mediaMaxEntries]
  simp only [dfsMaxFiles] at bound
  omega

theorem mediaCatalogue_ssd {image : List UInt8} {n : Nat} {catalogue : Catalogue}
    (listed : mediaCatalogue image .ssd (some n) = (.ok, catalogue)) :
    dfsPlausible image = true ∧ catalogue.entries = (dfsEntries image).take n ∧
      catalogue.total = (dfsEntries image).length := by
  simp only [mediaCatalogue] at listed
  split at listed
  · cases listed
  simp only [reduceCtorEq, if_false, Option.getD_some, dfsCatalogue] at listed
  split at listed
  · cases listed
  rename_i disc
  obtain ⟨_, rfl⟩ := Prod.mk.inj listed
  refine ⟨by simpa using disc, ?_, ?_⟩
  · simp only [Catalogue.empty, Catalogue.count, List.length_nil, Nat.sub_zero, List.nil_append,
      dfsEntries]
  · simp only [dfsEntries, List.length_map, List.length_range]

theorem mediaCatalogue_ssd_full {image : List UInt8} (disc : dfsPlausible image = true) :
    ∃ catalogue, mediaCatalogue image .ssd (some mediaMaxEntries) = (.ok, catalogue) ∧
      catalogue.entries = dfsEntries image := by
  cases result : mediaCatalogue image .ssd (some mediaMaxEntries) with
  | mk status catalogue =>
    have good : status = .ok := by
      have first := congrArg Prod.fst result
      simpa [mediaCatalogue, mediaMaxEntries, dfsCatalogue, disc] using first.symm
    subst good
    have entries := (mediaCatalogue_ssd result).2.1
    rw [List.take_of_length_le (dfsEntries_length disc)] at entries
    exact ⟨catalogue, rfl, entries⟩

theorem mediaExtract_ssd {image : List UInt8} (disc : dfsPlausible image = true)
    (index limit : Nat) :
    mediaExtract image .ssd index limit =
      match (dfsEntries image)[index]? with
      | none => ⟨.errRange, []⟩
      | some entry =>
        if image.length < entry.offset.toNat + entry.length.toNat then ⟨.errTruncated, []⟩
        else if limit < entry.length.toNat then ⟨.errRange, []⟩
        else ⟨.ok, slice image entry.offset.toNat entry.length.toNat⟩ := by
  obtain ⟨catalogue, listed, entries⟩ := mediaCatalogue_ssd_full disc
  cases found : (dfsEntries image)[index]? with
  | none => simp [mediaExtract, listed, entries, found]
  | some entry => simp [mediaExtract, listed, entries, found]

/-- What was extracted once is extracted again with any room it fits in. -/
theorem mediaExtract_capacity {image : List UInt8} {kind : MediaKind} {index limit other : Nat}
    (known : kind ≠ .unknown) (extracted : (mediaExtract image kind index limit).status = .ok)
    (fits : (mediaExtract image kind index limit).written.length ≤ other) :
    mediaExtract image kind index other = mediaExtract image kind index limit := by
  cases kind with
  | unknown => contradiction
  | uef =>
    by_cases format : (uefListing image).1 = .errFormat
    · simp only [mediaExtract, reduceCtorEq, if_false, uefWalk_eq, format, if_true] at extracted
    · by_cases small : ∃ file, (tapeFiles image)[index]? = some file ∧ (filePayload file).length ≤ limit
      · obtain ⟨file, found, room⟩ := small
        rw [mediaExtract_uef format found room] at fits ⊢
        exact mediaExtract_uef format found fits
      · rw [mediaExtract_uef_range format fun file found => Nat.lt_of_not_le fun room =>
          small ⟨file, found, room⟩] at extracted
        cases extracted
  | ssd =>
    by_cases disc : dfsPlausible image = true
    · rw [mediaExtract_ssd disc] at extracted fits ⊢
      rw [mediaExtract_ssd disc]
      cases found : (dfsEntries image)[index]? with
      | none => rfl
      | some entry =>
        simp only [found] at extracted fits ⊢
        split at extracted
        · cases extracted
        rename_i inside
        split at extracted
        · cases extracted
        rename_i room
        simp only [if_neg inside, if_neg room, slice, List.length_take, List.length_drop] at fits ⊢
        rw [if_neg (by omega)]
    · simp [mediaExtract, mediaCatalogue, mediaMaxEntries, dfsCatalogue, disc] at extracted

/-- What the extraction of entry `index` owes to the catalogue. -/
structure Agrees (image : List UInt8) (kind : MediaKind) (catalogue : Catalogue) (index limit : Nat)
    (extraction : Extraction) : Prop where
  all_listed : catalogue.count = catalogue.total
  uef_ok : kind = .uef → (extraction.status = .ok ↔ index < catalogue.total ∧
    ∃ entry, catalogue.entries[index]? = some entry ∧ entry.length.toNat ≤ limit)
  uef_length : kind = .uef → extraction.status = .ok → ∀ entry, catalogue.entries[index]? = some entry →
    extraction.outLength = entry.length.toNat
  uef_range : kind = .uef → extraction.status ≠ .ok →
    extraction.status = .errRange ∧ extraction.outLength = 0
  ssd_missing : kind = .ssd → catalogue.count ≤ index → extraction.status = .errRange
  ssd_truncated : kind = .ssd → ∀ entry, catalogue.entries[index]? = some entry →
    image.length < entry.offset.toNat + entry.length.toNat → extraction.status = .errTruncated
  ssd_range : kind = .ssd → ∀ entry, catalogue.entries[index]? = some entry →
    entry.offset.toNat + entry.length.toNat ≤ image.length → limit < entry.length.toNat →
    extraction.status = .errRange
  ssd_ok : kind = .ssd → ∀ entry, catalogue.entries[index]? = some entry →
    entry.offset.toNat + entry.length.toNat ≤ image.length → entry.length.toNat ≤ limit →
    extraction = ⟨.ok, slice image entry.offset.toNat entry.length.toNat⟩

theorem uef_agrees {image : List UInt8} {n : Nat} {catalogue : Catalogue}
    (short : image.length < 2 ^ 32)
    (listed : mediaCatalogue image .uef (some n) = (.ok, catalogue)) (room : catalogue.total ≤ n)
    (index limit : Nat) :
    Agrees image .uef catalogue index limit (mediaExtract image .uef index limit) := by
  have array : n ≠ 0 := by
    rintro rfl
    cases listed
  rw [mediaCatalogue_uef image array] at listed
  obtain ⟨status, rfl⟩ := Prod.mk.inj listed
  have readable : (uefListing image).1 ≠ .errFormat := by
    intro bad
    rw [if_pos bad] at status
    cases status
  simp only at room
  have entry {file : List FoundBlock} (found : (tapeFiles image)[index]? = some file) :
      (fileEntry file).length.toNat = (filePayload file).length := by
    have member := List.mem_of_getElem? found
    have bound := filePayload_length member
    cases file with
    | nil => exact absurd member (List.nil_notMem_splitBy _ _)
    | cons first more => exact UInt32.toNat_ofNat_of_lt' (Nat.lt_of_le_of_lt bound short)
  have outcome : (∃ file, (tapeFiles image)[index]? = some file ∧ (filePayload file).length ≤ limit) ∨
      ∀ file, (tapeFiles image)[index]? = some file → limit < (filePayload file).length := by
    by_cases nonempty : ∃ file, (tapeFiles image)[index]? = some file ∧ (filePayload file).length ≤ limit
    · exact .inl nonempty
    · refine .inr fun file found => ?_
      exact Nat.lt_of_not_le fun fits => nonempty ⟨file, found, fits⟩
  refine ⟨?_, fun _ => ?_, fun _ good => ?_, fun _ bad => ?_, nofun, nofun, nofun, nofun⟩
  · simp only [Catalogue.count, List.take_of_length_le room, List.length_map]
  · simp only [List.take_of_length_le room, List.getElem?_map]
    rcases outcome with ⟨file, found, fits⟩ | beyond
    · obtain ⟨inside, _⟩ := List.getElem?_eq_some_iff.mp found
      rw [mediaExtract_uef readable found fits]
      refine ⟨fun _ => ⟨inside, _, by rw [found]; rfl, ?_⟩, fun _ => rfl⟩
      rw [entry found]
      exact fits
    · rw [mediaExtract_uef_range readable beyond]
      constructor
      · nofun
      · rintro ⟨_, listing, same, fits⟩
        obtain ⟨file, found, rfl⟩ := Option.map_eq_some_iff.mp same
        have over_ := beyond file found
        rw [entry found] at fits
        omega
  · rcases outcome with ⟨file, found, fits⟩ | beyond
    · intro listing same
      simp only [List.take_of_length_le room, List.getElem?_map, found, Option.map_some,
        Option.some.injEq] at same
      rw [mediaExtract_uef readable found fits, ← same, entry found]
      rfl
    · rw [mediaExtract_uef_range readable beyond] at good
      cases good
  · rcases outcome with ⟨file, found, fits⟩ | beyond
    · rw [mediaExtract_uef readable found fits] at bad
      exact absurd rfl bad
    · exact ⟨mediaExtract_uef_range readable beyond, if_neg bad⟩

theorem ssd_agrees {image : List UInt8} {n : Nat} {catalogue : Catalogue}
    (listed : mediaCatalogue image .ssd (some n) = (.ok, catalogue)) (room : catalogue.total ≤ n)
    (index limit : Nat) :
    Agrees image .ssd catalogue index limit (mediaExtract image .ssd index limit) := by
  obtain ⟨disc, entries, total⟩ := mediaCatalogue_ssd listed
  rw [total] at room
  rw [List.take_of_length_le room] at entries
  rw [mediaExtract_ssd disc, ← entries]
  refine ⟨?_, nofun, nofun, nofun, fun _ beyond => ?_, fun _ entry found off => ?_,
    fun _ entry found inside large => ?_, fun _ entry found inside fits => ?_⟩
  · rw [total, ← entries]
    rfl
  · rw [List.getElem?_eq_none beyond]
  · simp only [found, off, if_true]
  · simp only [found, Nat.not_lt.mpr inside, large, if_false, if_true]
  · simp only [found, Nat.not_lt.mpr inside, Nat.not_lt.mpr fits, if_false]

/-- On every image that can be catalogued with room for all its entries, the extraction of
any entry returns what the catalogue says of it. -/
theorem extraction_agrees {image : List UInt8} {kind : MediaKind} {n : Nat} {catalogue : Catalogue}
    (short : image.length < 2 ^ 32) (known : kind ≠ .unknown)
    (listed : mediaCatalogue image kind (some n) = (.ok, catalogue)) (room : catalogue.total ≤ n)
    (index limit : Nat) :
    Agrees image kind catalogue index limit (mediaExtract image kind index limit) := by
  cases kind with
  | unknown => contradiction
  | uef => exact uef_agrees short listed room index limit
  | ssd => exact ssd_agrees listed room index limit

/-- A tape of two blocks of a file `A` and two stray bytes in one chunk, and a chunk that
runs off the end. -/
def raggedTape : List UInt8 :=
  uefMagic ++ [10, 0] ++ [0x00, 0x01, 52, 0, 0, 0] ++
    [char '*', char 'A', 0, 0, 0x19, 0, 0, 0, 0x19, 0, 0, 0, 0, 1, 0, 0x00, 0, 0, 0, 0, 0, 0, 7, 0, 0] ++
    [char '*', char 'A', 0, 0, 0x19, 0, 0, 0, 0x19, 0, 0, 1, 0, 1, 0, 0x80, 0, 0, 0, 0, 0, 0, 8, 0, 0] ++
    [1, 2] ++ [0x10, 0x01, 2, 0, 0, 0, 9]

theorem raggedTape_agrees :
    ((mediaCatalogue raggedTape .uef (some 4)).2.entries.map (·.length) = [2]) ∧
      Agrees raggedTape .uef (mediaCatalogue raggedTape .uef (some 4)).2 0 2
        (mediaExtract raggedTape .uef 0 2) :=
  ⟨by decide +kernel, extraction_agrees (by decide +kernel) (by decide)
    (Prod.ext (by decide +kernel) rfl) (by decide +kernel) 0 2⟩

end Pi1MHz.MediaCatalogue
