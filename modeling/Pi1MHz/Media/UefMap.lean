import Mathlib.Data.List.Forall2
import Mathlib.Data.List.GetD
import Pi1MHz.Foundation.Runs
import Pi1MHz.Media.Catalogue

/-! The second decoder of tapes (`scripts/uef_map.py`), for images that are not compressed, and
the grouping of its blocks into files (`_oracle_entries` of `test_media_catalogue.py`). Names are
lists of bytes, as Latin-1 keeps them. -/
namespace Pi1MHz.UefMap
open UefRepair (rd16 rd32 tapeCrc)
open MediaCatalogue (slice uefMagic uefHeaderLen uefChunkData)

/-- What a `UefError` reports. -/
inductive UefError
  | notRaw
  | truncatedHeader (length : Nat)
  | truncatedChunkHeader (position remaining : Nat)
  | chunkOverrun (type header length available : Nat)
  | truncatedCfsHeader (chunkIndex chunkOffset : Nat)
  | cfsOverrun (chunkIndex chunkOffset dataLength chunkLength required : Nat)
deriving DecidableEq, Repr

structure InspectedBlock where
  chunkIndex : Nat
  dataOffsetInChunk : Nat
  chunkOffset : Nat
  name : List UInt8
  loadAddress : Nat
  executionAddress : Nat
  blockNumber : Nat
  dataLength : Nat
  flags : UInt8
  nextAddress : Nat
  headerCrc : Nat
  headerCrcOk : Bool
  dataCrc : Option Nat
  dataCrcOk : Bool
  trailing : List UInt8
deriving DecidableEq, Repr

/-- `int.from_bytes(.., "big")` of two bytes. -/
def big16 (p : List UInt8) (i : Nat) : Nat :=
  0x100 * (p.getD i 0).toNat + (p.getD (i + 1) 0).toNat

/-- `payload.index(0, 1, 12)`. -/
def nameEnd (payload : List UInt8) : Option Nat :=
  (((payload.drop 1).take 11).findIdx? (· == 0)).map (· + 1)

/-- What is reported of a block whose name ends at `nameEnd`; a marker without data ends after
the header CRC. -/
def describe (payload : List UInt8) (nameEnd chunkIndex chunkOffset : Nat) : InspectedBlock :=
  let descriptor := nameEnd + 1
  let headerCrcAt := descriptor + 17
  let dataLength := rd16 payload (descriptor + 10)
  let dataAt := headerCrcAt + 2
  let dataCrcAt := dataAt + dataLength
  { chunkIndex
    dataOffsetInChunk := dataAt
    chunkOffset
    name := slice payload 1 (nameEnd - 1)
    loadAddress := rd32 payload descriptor
    executionAddress := rd32 payload (descriptor + 4)
    blockNumber := rd16 payload (descriptor + 8)
    dataLength
    flags := payload.getD (descriptor + 12) 0
    nextAddress := rd32 payload (descriptor + 13)
    headerCrc := big16 payload headerCrcAt
    headerCrcOk := (tapeCrc (slice payload 1 (headerCrcAt - 1))).toNat == big16 payload headerCrcAt
    dataCrc := if dataLength = 0 then none else some (big16 payload dataCrcAt)
    dataCrcOk := dataLength == 0 ||
      (tapeCrc (slice payload dataAt dataLength)).toNat == big16 payload dataCrcAt
    trailing := payload.drop (dataCrcAt + if dataLength = 0 then 0 else 2) }

/-- Decode one standard cassette block held in an `&0100` chunk. -/
def inspectCfsBlock (payload : List UInt8) (chunkIndex chunkOffset : Nat) :
    Except UefError (Option InspectedBlock) :=
  if payload.getD 0 0 ≠ 0x2a then .ok none
  else match nameEnd payload with
    | none => .ok none
    | some nameEnd =>
      let headerCrcAt := nameEnd + 1 + 17
      if payload.length < headerCrcAt + 2 then .error (.truncatedCfsHeader chunkIndex chunkOffset)
      else
        let dataLength := rd16 payload (nameEnd + 1 + 10)
        let expectedLength := headerCrcAt + 2 + dataLength + if dataLength = 0 then 0 else 2
        if payload.length < expectedLength then
          .error (.cfsOverrun chunkIndex chunkOffset dataLength payload.length expectedLength)
        else .ok (some (describe payload nameEnd chunkIndex chunkOffset))

structure ChunkRecord where
  index : Nat
  offset : Nat
  type : Nat
  length : Nat
deriving DecidableEq, Repr

def ChunkRecord.payload (raw : List UInt8) (chunk : ChunkRecord) : List UInt8 :=
  slice raw (chunk.offset + 6) chunk.length

/-- The parts of the report that the grouping and the checks use. -/
structure Report where
  chunks : List ChunkRecord
  cfsBlocks : List InspectedBlock
deriving DecidableEq, Repr

/-- The chunk loop of `inspect_uef` from `position` on. -/
def inspectChunks (raw : List UInt8) (position : Nat) (report : Report) : Except UefError Report :=
  if position < raw.length then
    if raw.length - position < 6 then
      .error (.truncatedChunkHeader position (raw.length - position))
    else
      let type := rd16 raw position
      let length := rd32 raw (position + 2)
      if raw.length < position + 6 + length then
        .error (.chunkOverrun type position length (raw.length - (position + 6)))
      else
        let chunk : ChunkRecord := ⟨report.chunks.length, position, type, length⟩
        let chunks := report.chunks ++ [chunk]
        if type = uefChunkData then
          match inspectCfsBlock (chunk.payload raw) chunk.index position with
          | .error error => .error error
          | .ok none => inspectChunks raw (position + 6 + length) ⟨chunks, report.cfsBlocks⟩
          | .ok (some block) =>
            inspectChunks raw (position + 6 + length) ⟨chunks, report.cfsBlocks ++ [block]⟩
        else inspectChunks raw (position + 6 + length) ⟨chunks, report.cfsBlocks⟩
  else .ok report
termination_by raw.length - position

/-- `inspect_uef` of a file that `decode_container` takes as it is. -/
def inspectUef (raw : List UInt8) : Except UefError Report :=
  if raw.take 10 ≠ uefMagic then .error .notRaw
  else if raw.length < uefHeaderLen then .error (.truncatedHeader raw.length)
  else inspectChunks raw uefHeaderLen ⟨[], []⟩

structure OracleFile where
  name : List UInt8
  load : Nat
  exec : Nat
  length : Nat
  blocks : Nat
deriving DecidableEq, Repr

/-- A new file when there is none, when the name changes or when the block number is 0. -/
def oracleStep (files : List OracleFile) (block : InspectedBlock) : List OracleFile :=
  let opened : OracleFile :=
    ⟨block.name, block.loadAddress % 2 ^ 32, block.executionAddress % 2 ^ 32, block.dataLength, 1⟩
  match files.getLast? with
  | none => files ++ [opened]
  | some current =>
    if current.name ≠ block.name ∨ block.blockNumber = 0 then files ++ [opened]
    else files.dropLast ++
      [{ current with length := current.length + block.dataLength, blocks := current.blocks + 1 }]

def oracleEntries (blocks : List InspectedBlock) : List OracleFile := blocks.foldl oracleStep []

section Slices

variable {image : List UInt8} {start count i : Nat}

theorem getD_slice (inside : i < count) :
    (slice image start count).getD i 0 = image.getD (start + i) 0 := by
  rw [slice, List.getD_eq_getElem?_getD, List.getD_eq_getElem?_getD, List.getElem?_take_of_lt inside,
    List.getElem?_drop]

theorem rd16_slice (inside : i + 2 ≤ count) :
    rd16 (slice image start count) i = rd16 image (start + i) := by
  rw [rd16, rd16, getD_slice (by omega), getD_slice (by omega), Nat.add_assoc]

theorem rd32_slice (inside : i + 4 ≤ count) :
    rd32 (slice image start count) i = rd32 image (start + i) := by
  simp only [rd32]
  rw [getD_slice (by omega), getD_slice (by omega), getD_slice (by omega), getD_slice (by omega)]
  simp only [Nat.add_assoc]

theorem slice_slice {length : Nat} (inside : i + length ≤ count) :
    slice (slice image start count) i length = slice image (start + i) length := by
  rw [slice, slice, slice, List.drop_take, List.drop_drop, List.take_take, Nat.min_eq_left (by omega)]

theorem slice_length (inside : start + count ≤ image.length) :
    (slice image start count).length = count := by
  rw [slice, List.length_take, List.length_drop]
  omega

end Slices

section Chunks

/-- A chunk with its header, as long as the header says. -/
structure Sized (chunk : List UInt8) : Prop where
  header : 6 ≤ chunk.length
  length : 6 + rd32 chunk 2 = chunk.length

/-- The payload of a data chunk that holds a block. -/
def tapePayload (chunk : List UInt8) : Option (List UInt8) :=
  if rd16 chunk 0 = uefChunkData ∧ (chunk.drop 6).getD 0 0 = 0x2a then some (chunk.drop 6) else none

/-- The payload is one block and nothing behind it. -/
def Inspects (payload : List UInt8) (block : InspectedBlock) : Prop :=
  (∃ index offset, inspectCfsBlock payload index offset = .ok (some block)) ∧ block.trailing = []

/-- The payload of the chunk that a block was found in. -/
def InspectedBlock.payload (raw : List UInt8) (block : InspectedBlock) : List UInt8 :=
  slice raw (block.chunkOffset + 6) (rd32 raw (block.chunkOffset + 2))

/-- A block of the report is what its payload holds. -/
structure Reported (raw payload : List UInt8) (block : InspectedBlock) : Prop where
  inspects : Inspects payload block
  payload : block.payload raw = payload

/-- One block and nothing behind it, with the end of its name at `nameEnd`. -/
structure Framed (payload : List UInt8) (nameEnd : Nat) : Prop where
  star : payload.getD 0 0 = 0x2a
  positive : 1 ≤ nameEnd
  short : nameEnd ≤ 11
  plain : ∀ i, 1 ≤ i → i < nameEnd → payload.getD i 0 ≠ 0
  nul : payload.getD nameEnd 0 = 0
  length : payload.length = nameEnd + 20 + rd16 payload (nameEnd + 11) +
    if rd16 payload (nameEnd + 11) = 0 then 0 else 2

theorem nameEnd_eq_some {payload : List UInt8} {e : Nat} (found : nameEnd payload = some e) :
    1 ≤ e ∧ e ≤ 11 ∧ (∀ i, 1 ≤ i → i < e → payload.getD i 0 ≠ 0) ∧ payload.getD e 0 = 0 := by
  rw [nameEnd, Option.map_eq_some_iff] at found
  obtain ⟨k, found, rfl⟩ := found
  obtain ⟨bound, nul, before⟩ := List.findIdx?_eq_some_iff_getElem.mp found
  have size := bound
  simp only [List.length_take, List.length_drop] at size
  have cell : ∀ i < 11, ((payload.drop 1).take 11).getD i 0 = payload.getD (1 + i) 0 := by
    intro i inside
    exact getD_slice inside
  refine ⟨by omega, by omega, ?_, ?_⟩
  · intro i positive earlier same
    have other := before (i - 1) (by omega)
    have here := cell (i - 1) (by omega)
    rw [List.getD_eq_getElem _ _ (by omega), Nat.add_sub_cancel' positive, same] at here
    exact other (by rw [here]; rfl)
  · have here := cell k (by omega)
    rw [List.getD_eq_getElem _ _ bound] at here
    rw [Nat.add_comm, ← here]
    simpa using nul

theorem inspectCfsBlock_some {payload : List UInt8} {index offset : Nat} {block : InspectedBlock}
    (found : inspectCfsBlock payload index offset = .ok (some block)) :
    ∃ e, payload.getD 0 0 = 0x2a ∧ nameEnd payload = some e ∧
      e + 20 + rd16 payload (e + 11) + (if rd16 payload (e + 11) = 0 then 0 else 2) ≤ payload.length ∧
      block = describe payload e index offset := by
  rw [inspectCfsBlock] at found
  split at found
  · cases found
  rename_i star
  split at found
  · cases found
  rename_i e name
  dsimp only at found
  generalize last : (if rd16 payload (e + 1 + 10) = 0 then 0 else 2) = crcSize at found
  split at found
  · cases found
  split at found
  · cases found
  rename_i room enough
  cases found
  refine ⟨e, by simpa using star, name, ?_, rfl⟩
  simp only [Nat.add_assoc, Nat.reduceAdd] at enough last ⊢
  rw [last]
  omega

theorem Inspects.framed {payload : List UInt8} {block : InspectedBlock}
    (inspects : Inspects payload block) :
    ∃ nameEnd index offset, Framed payload nameEnd ∧ block = describe payload nameEnd index offset := by
  obtain ⟨⟨index, offset, found⟩, exact⟩ := inspects
  obtain ⟨e, star, name, enough, rfl⟩ := inspectCfsBlock_some found
  obtain ⟨positive, short, plain, nul⟩ := nameEnd_eq_some name
  refine ⟨e, index, offset, ⟨star, positive, short, plain, nul, ?_⟩, rfl⟩
  simp only [describe, List.drop_eq_nil_iff, Nat.add_assoc, Nat.reduceAdd] at exact
  omega

/-- The chunk is one block and nothing behind it. -/
def ChunkRecord.HoldsBlock (raw : List UInt8) (chunk : ChunkRecord) : Prop :=
  ∃ block, inspectCfsBlock (chunk.payload raw) chunk.index chunk.offset = .ok (some block) ∧
    block.trailing = []

instance (raw : List UInt8) (chunk : ChunkRecord) : Decidable (chunk.HoldsBlock raw) :=
  match found : inspectCfsBlock (chunk.payload raw) chunk.index chunk.offset with
  | .ok (some block) =>
    if exact : block.trailing = [] then .isTrue ⟨block, found, exact⟩
    else .isFalse fun ⟨other, same, trailing⟩ => exact (by cases found.symm.trans same; exact trailing)
  | .ok none => .isFalse fun ⟨_, same, _⟩ => nomatch found.symm.trans same
  | .error _ => .isFalse fun ⟨_, same, _⟩ => nomatch found.symm.trans same

/-- Every data chunk that starts like a block is one. -/
def Standard (raw : List UInt8) (report : Report) : Prop :=
  ∀ chunk ∈ report.chunks, chunk.type = uefChunkData → (chunk.payload raw).getD 0 0 = 0x2a →
    chunk.HoldsBlock raw

instance (raw : List UInt8) (report : Report) : Decidable (Standard raw report) :=
  inferInstanceAs (Decidable (∀ chunk ∈ report.chunks, chunk.type = uefChunkData →
    (chunk.payload raw).getD 0 0 = 0x2a → chunk.HoldsBlock raw))

theorem inspectChunks_chunks {raw : List UInt8} {position : Nat} {report result : Report}
    (accepted : inspectChunks raw position report = .ok result) : report.chunks <+: result.chunks := by
  fun_induction inspectChunks raw position report with
  | case1 => cases accepted
  | case2 => cases accepted
  | case3 => cases accepted
  | case4 position report more room type length whole chunk chunks data none ih =>
    exact (List.prefix_append _ _).trans (ih accepted)
  | case5 position report more room type length whole chunk chunks data block found ih =>
    exact (List.prefix_append _ _).trans (ih accepted)
  | case6 position report more room type length whole chunk chunks other ih =>
    exact (List.prefix_append _ _).trans (ih accepted)
  | case7 position report done =>
    cases accepted
    exact List.prefix_rfl

/-- The chunk at a position, and what is behind it. -/
theorem chunk_at {raw : List UInt8} {position : Nat}
    (whole : position + 6 + rd32 raw (position + 2) ≤ raw.length) :
    let chunk := slice raw position (6 + rd32 raw (position + 2))
    raw.drop position = chunk ++ raw.drop (position + 6 + rd32 raw (position + 2)) ∧ Sized chunk ∧
      rd16 chunk 0 = rd16 raw position ∧
      chunk.drop 6 = slice raw (position + 6) (rd32 raw (position + 2)) := by
  intro chunk
  have length : chunk.length = 6 + rd32 raw (position + 2) := slice_length (by omega)
  refine ⟨?_, ⟨by omega, ?_⟩, ?_, ?_⟩
  · rw [Nat.add_assoc, ← List.drop_drop]
    exact (List.take_append_drop _ _).symm
  · rw [length, rd32_slice (by omega)]
  · exact rd16_slice (by omega)
  · simp only [chunk, slice]
    rw [List.drop_take, List.drop_drop, Nat.add_sub_cancel_left]

/-- The chunks from a position on, with the blocks of their payloads. -/
def HoldsBlocks (raw : List UInt8) (position : Nat) (blocks : List InspectedBlock) : Prop :=
  ∃ chunks : List (List UInt8), raw.drop position = chunks.flatten ∧ (∀ chunk ∈ chunks, Sized chunk) ∧
    List.Forall₂ (Reported raw) (chunks.filterMap tapePayload) blocks

section HoldsBlocks

variable {raw : List UInt8} {position : Nat} {blocks : List InspectedBlock} {block : InspectedBlock}

theorem HoldsBlocks.skip (whole : position + 6 + rd32 raw (position + 2) ≤ raw.length)
    (other : rd16 raw position = uefChunkData →
      (slice raw (position + 6) (rd32 raw (position + 2))).getD 0 0 ≠ 0x2a)
    (rest : HoldsBlocks raw (position + 6 + rd32 raw (position + 2)) blocks) :
    HoldsBlocks raw position blocks := by
  obtain ⟨chunks, behind, sized, reported⟩ := rest
  obtain ⟨here, first, kind, payload⟩ := chunk_at whole
  refine ⟨_ :: chunks, by rw [here, behind, List.flatten_cons],
    List.forall_mem_cons.mpr ⟨first, sized⟩, ?_⟩
  rw [List.filterMap_cons_none]
  · exact reported
  · rw [tapePayload, kind, payload, if_neg fun both => other both.1 both.2]

theorem HoldsBlocks.cons (whole : position + 6 + rd32 raw (position + 2) ≤ raw.length)
    (data : rd16 raw position = uefChunkData)
    (entry : Reported raw (slice raw (position + 6) (rd32 raw (position + 2))) block)
    (rest : HoldsBlocks raw (position + 6 + rd32 raw (position + 2)) blocks) :
    HoldsBlocks raw position (block :: blocks) := by
  obtain ⟨chunks, behind, sized, reported⟩ := rest
  obtain ⟨here, first, kind, payload⟩ := chunk_at whole
  obtain ⟨_, _, _, framed, _⟩ := entry.inspects.framed
  refine ⟨_ :: chunks, by rw [here, behind, List.flatten_cons],
    List.forall_mem_cons.mpr ⟨first, sized⟩, ?_⟩
  rw [List.filterMap_cons_some]
  · exact .cons entry reported
  · rw [tapePayload, kind, payload, if_pos ⟨data, framed.star⟩]

end HoldsBlocks

/-- A report comes from a list of chunks, and its blocks from their payloads. -/
theorem inspectChunks_split {raw : List UInt8} {position : Nat} {report result : Report}
    (accepted : inspectChunks raw position report = .ok result) (standard : Standard raw result) :
    ∃ blocks, result.cfsBlocks = report.cfsBlocks ++ blocks ∧ HoldsBlocks raw position blocks := by
  fun_induction inspectChunks raw position report with
  | case1 => cases accepted
  | case2 => cases accepted
  | case3 => cases accepted
  | case4 position report more room type length whole chunk chunks data none ih =>
    -- a data chunk without a block
    obtain ⟨blocks, result, rest⟩ := ih accepted
    have recorded : chunk ∈ _ := (inspectChunks_chunks accepted).subset (by simp [chunks])
    refine ⟨blocks, result, rest.skip (by omega) fun _ star => ?_⟩
    obtain ⟨block, found, _⟩ := standard chunk recorded data star
    rw [none] at found
    cases found
  | case5 position report more room type length whole chunk chunks data block found ih =>
    obtain ⟨blocks, result, rest⟩ := ih accepted
    have recorded : chunk ∈ _ := (inspectChunks_chunks accepted).subset (by simp [chunks])
    obtain ⟨e, star, _, _, described⟩ := inspectCfsBlock_some found
    have exact : block.trailing = [] := by
      obtain ⟨same, again, trailing⟩ := standard chunk recorded data star
      cases found.symm.trans again
      exact trailing
    refine ⟨block :: blocks, ?_, rest.cons (by omega) data ⟨⟨⟨_, _, found⟩, exact⟩, ?_⟩⟩
    · rw [result, List.append_assoc]
      rfl
    · rw [described]
      rfl
  | case6 position report more room type length whole chunk chunks other ih =>
    obtain ⟨blocks, result, rest⟩ := ih accepted
    exact ⟨blocks, result, rest.skip (by omega) fun data => absurd data other⟩
  | case7 position report done =>
    cases accepted
    refine ⟨[], by simp, [], ?_, by simp, .nil⟩
    rw [List.drop_eq_nil_of_le (by omega), List.flatten_nil]

end Chunks

section Files

/-- The second block belongs to the file of the first. -/
def InspectedBlock.joins (before block : InspectedBlock) : Bool :=
  before.name == block.name && block.blockNumber != 0

def oracleRuns (blocks : List InspectedBlock) : List (List InspectedBlock) :=
  blocks.splitBy InspectedBlock.joins

/-- The file of a run; no run is empty. -/
def oracleFile : List InspectedBlock → OracleFile
  | [] => ⟨[], 0, 0, 0, 0⟩
  | first :: more => {
      name := first.name
      load := first.loadAddress % 2 ^ 32
      exec := first.executionAddress % 2 ^ 32
      length := ((first :: more).map fun block => block.dataLength).sum
      blocks := more.length + 1 }

theorem oracleFile_concat {run : List InspectedBlock} (filled : run ≠ []) (block : InspectedBlock) :
    oracleFile (run ++ [block]) =
      { oracleFile run with
        length := (oracleFile run).length + block.dataLength
        blocks := (oracleFile run).blocks + 1 } := by
  cases run with
  | nil => contradiction
  | cons first more => simp [oracleFile, Nat.add_assoc]

/-- The grouping has met these runs. -/
structure Collected (runs : List (List InspectedBlock)) (files : List OracleFile) : Prop where
  files : files = runs.map oracleFile
  named : ∀ run ∈ runs, ∀ block ∈ run, block.name = (oracleFile run).name

theorem oracleStep_opens {runs : List (List InspectedBlock)} {files : List OracleFile}
    {block : InspectedBlock} (filled : [] ∉ runs) (collected : Collected runs files)
    (opens : ∀ run last, runs.getLast? = some (run ++ [last]) → last.joins block = false) :
    Collected (runs ++ [[block]]) (oracleStep files block) := by
  have step : oracleStep files block = files ++ [oracleFile [block]] := by
    rw [oracleStep, collected.files, List.getLast?_map]
    rcases List.eq_nil_or_concat runs with rfl | ⟨front, run, rfl⟩
    · rfl
    · rcases List.eq_nil_or_concat run with rfl | ⟨start, last, rfl⟩
      · simp at filled
      · have apart := opens start last (by simp)
        have name := collected.named (start ++ [last]) (by simp) last (by simp)
        simp only [InspectedBlock.joins, name, Bool.and_eq_false_iff, beq_eq_false_iff_ne,
          bne_eq_false_iff_eq] at apart
        simp only [List.concat_eq_append, List.getLast?_append, List.getLast?_singleton, Option.some_or,
          Option.map_some]
        rw [if_pos apart]
        rfl
  refine ⟨?_, ?_⟩
  · rw [step, collected.files, List.map_append]
    rfl
  · intro run member
    rcases List.mem_append.mp member with early | last
    · exact collected.named run early
    · rw [List.mem_singleton.mp last]
      intro other among
      rw [List.mem_singleton.mp among]
      rfl

theorem oracleStep_grows {runs : List (List InspectedBlock)} {run : List InspectedBlock}
    {last block : InspectedBlock} {files : List OracleFile}
    (collected : Collected (runs ++ [run ++ [last]]) files) (joins : last.joins block = true) :
    Collected (runs ++ [run ++ [last, block]]) (oracleStep files block) := by
  have name := collected.named (run ++ [last]) (by simp) last (by simp)
  have filled : run ++ [last] ≠ [] := List.append_ne_nil_of_right_ne_nil run (List.cons_ne_nil last [])
  have longer := oracleFile_concat filled block
  rw [List.append_assoc, List.singleton_append] at longer
  simp only [InspectedBlock.joins, Bool.and_eq_true, beq_iff_eq, bne_iff_ne, name] at joins
  refine ⟨?_, ?_⟩
  · rw [oracleStep, collected.files, List.getLast?_map, List.map_append, List.map_append,
      List.map_singleton, List.map_singleton, longer]
    simp [joins]
  · intro other member
    rcases List.mem_append.mp member with early | final
    · exact collected.named other (List.mem_append_left _ early)
    · rw [List.mem_singleton.mp final, longer]
      intro b among
      have parts : b ∈ run ++ [last] ∨ b = block := by simpa [or_assoc] using among
      rcases parts with before | rfl
      · exact collected.named (run ++ [last]) (by simp) b before
      · exact joins.1.symm

/-- The test's grouping cuts the blocks into their runs. -/
theorem oracleEntries_eq (blocks : List InspectedBlock) :
    oracleEntries blocks = (oracleRuns blocks).map oracleFile := by
  have collected : Collected ((blocks.map id).splitBy InspectedBlock.joins) (oracleEntries blocks) := by
    refine Runs.foldl_splitBy id blocks ⟨rfl, by simp⟩ ?_ ?_
    · intro runs files block _ filled collected opens
      exact oracleStep_opens filled collected opens
    · intro runs run last files block _ collected joins
      exact oracleStep_grows collected joins
  rw [List.map_id] at collected
  exact collected.files

end Files

end Pi1MHz.UefMap
