import Mathlib.Data.List.Infix
import Pi1MHz.Foundation.Excerpt
import Pi1MHz.Media.Agreement
import Pi1MHz.Media.RoundTrip
import Pi1MHz.Media.UefMap

/-! The catalogue and `uef_map` read the same files from a tape of standard blocks: both walk the
same chunks, and a payload that is one block to one decoder is the same block to the other. -/
namespace Pi1MHz.UefMap
open UefRepair (rd16 rd16_lt rd32 tapeCrc)
open MediaCatalogue

section Decoder

/-- The check of both CRCs of a payload by the catalogue, low byte first. -/
def littleOk (payload : List UInt8) (nameEnd : Nat) : Bool :=
  rd16 payload (nameEnd + 18) == (tapeCrc (slice payload 1 (nameEnd + 17))).toNat &&
    (rd16 payload (nameEnd + 11) == 0 ||
      rd16 payload (nameEnd + 20 + rd16 payload (nameEnd + 11)) ==
        (tapeCrc (slice payload (nameEnd + 20) (rd16 payload (nameEnd + 11)))).toNat)

/-- The block that the catalogue decodes from a payload at `data`. -/
def decodedBlock (data : Nat) (payload : List UInt8) (nameEnd : Nat) : CfsBlock where
  name := slice payload 1 (nameEnd - 1)
  load := (rd32 payload (nameEnd + 1)).toUInt32
  exec := (rd32 payload (nameEnd + 5)).toUInt32
  block := (rd16 payload (nameEnd + 9)).toUInt16
  dataLength := rd16 payload (nameEnd + 11)
  flags := payload.getD (nameEnd + 13) 0
  dataOffset := data + (nameEnd + 20)
  crcOk := littleOk payload nameEnd

theorem nameStop_first {image : List UInt8} {chunkEnd start n : Nat}
    (plain : ∀ i < n, image.getD (start + i) 0 ≠ 0) (nul : image.getD (start + n) 0 = 0)
    (short : n ≤ 15) (inside : start + n < chunkEnd) : nameStop image chunkEnd start 0 = start + n := by
  have counted : ∀ left i, left + i = n → nameStop image chunkEnd (start + i) i = start + n := by
    intro left
    induction left with
    | zero =>
      intro i same
      obtain rfl : i = n := by omega
      rw [nameStop, if_neg fun more => more.2.1 nul]
    | succ left ih =>
      intro i same
      have more : start + i < chunkEnd ∧ image.getD (start + i) 0 ≠ 0 ∧ i < mediaNameMax - 1 :=
        ⟨by omega, plain i (by omega), by simp only [mediaNameMax]; omega⟩
      rw [nameStop, if_pos more]
      exact ih (i + 1) (by omega)
  exact counted n 0 rfl

variable {image payload : List UInt8} {data nameEnd : Nat}

section Excerpts

theorem getD_stands (stands : StandsAt image data payload) {i : Nat} (inside : i < payload.length) :
    image.getD (data + i) 0 = payload.getD i 0 := by
  conv => rhs; rw [← stands.take_drop]
  exact (getD_slice inside).symm

theorem rd16_stands (stands : StandsAt image data payload) {i : Nat} (inside : i + 2 ≤ payload.length) :
    rd16 image (data + i) = rd16 payload i := by
  conv => rhs; rw [← stands.take_drop]
  exact (rd16_slice inside).symm

theorem rd32_stands (stands : StandsAt image data payload) {i : Nat} (inside : i + 4 ≤ payload.length) :
    rd32 image (data + i) = rd32 payload i := by
  conv => rhs; rw [← stands.take_drop]
  exact (rd32_slice inside).symm

theorem slice_part (stands : StandsAt image data payload) {i count : Nat}
    (inside : i + count ≤ payload.length) : slice image (data + i) count = slice payload i count := by
  conv => rhs; rw [← stands.take_drop]
  exact (slice_slice inside).symm

end Excerpts

/-- The catalogue decodes the payload, up to its end. -/
theorem cfsDecodeBlock_framed (stands : StandsAt image data payload) (framed : Framed payload nameEnd) :
    cfsDecodeBlock image (data + payload.length) data =
      some (data + payload.length, decodedBlock data payload nameEnd) := by
  have length := framed.length
  have positive := framed.positive
  have short := framed.short
  have star : image.getD data 0 = 0x2a := (getD_stands stands (by omega)).trans framed.star
  have stop : nameStop image (data + payload.length) (data + 1) 0 = data + nameEnd := by
    rw [nameStop_first (n := nameEnd - 1)]
    · omega
    · intro i inside
      rw [show data + 1 + i = data + (1 + i) by omega, getD_stands stands (by omega)]
      exact framed.plain (1 + i) (by omega) (by omega)
    · rw [show data + 1 + (nameEnd - 1) = data + nameEnd by omega, getD_stands stands (by omega)]
      exact framed.nul
    · omega
    · omega
  have nul : image.getD (data + nameEnd) 0 = 0 := (getD_stands stands (by omega)).trans framed.nul
  have load := rd32_stands stands (show nameEnd + 1 + 4 ≤ payload.length by omega)
  have exec := rd32_stands stands (show nameEnd + 5 + 4 ≤ payload.length by omega)
  have number := rd16_stands stands (show nameEnd + 9 + 2 ≤ payload.length by omega)
  have size := rd16_stands stands (show nameEnd + 11 + 2 ≤ payload.length by omega)
  have flags := getD_stands stands (show nameEnd + 13 < payload.length by omega)
  have headerCrc := rd16_stands stands (show nameEnd + 18 + 2 ≤ payload.length by omega)
  have header := slice_part stands (show 1 + (nameEnd + 17) ≤ payload.length by omega)
  have name := slice_part stands (show 1 + (nameEnd - 1) ≤ payload.length by omega)
  have covered : data + (nameEnd + 18) - (data + 1) = nameEnd + 17 := by omega
  have named : data + nameEnd - (data + 1) = nameEnd - 1 := by omega
  simp only [cfsDecodeBlock, stop, star, nul]
  simp only [Nat.add_assoc, Nat.reduceAdd, load, exec, number, size, flags, headerCrc, covered, header,
    named, name]
  have starts : ¬(data + payload.length ≤ data ∨ (0x2a : UInt8) ≠ 0x2a) := by
    rintro (far | other)
    · omega
    · exact other rfl
  have ends : ¬(data + payload.length ≤ data + nameEnd ∨ (0 : UInt8) ≠ 0) := by
    rintro (far | other)
    · omega
    · exact other rfl
  rw [if_neg starts, if_neg ends, if_neg (by omega)]
  by_cases empty : rd16 payload (nameEnd + 11) = 0
  · rw [if_pos empty] at length ⊢
    simp [decodedBlock, littleOk, empty, length]
  · rw [if_neg empty] at length ⊢
    have dataCrc := rd16_stands stands
      (show nameEnd + (20 + rd16 payload (nameEnd + 11)) + 2 ≤ payload.length by omega)
    have content := slice_part stands
      (show nameEnd + 20 + rd16 payload (nameEnd + 11) ≤ payload.length by omega)
    have data : (rd16 payload (nameEnd + 11) == 0) = false := by simpa using empty
    rw [if_neg (by omega), dataCrc, content]
    simp [decodedBlock, littleOk, data, length, Nat.add_assoc]

variable {σ : Type} {visit : σ → CfsBlock → σ}

theorem walkBlocks_framed (stands : StandsAt image data payload) (framed : Framed payload nameEnd) (s : σ)
    (issues : UInt32) :
    walkBlocks image visit data (data + payload.length) data s issues =
      (visit s (decodedBlock data payload nameEnd), issues) := by
  have length := framed.length
  have decoded := cfsDecodeBlock_framed stands framed
  rw [walkBlocks, if_pos (by omega)]
  split
  · rename_i stuck
    rw [decoded] at stuck
    cases stuck
  · rename_i next block found
    rw [decoded] at found
    cases found
    rw [walkBlocks, if_neg (by omega)]

/-- A data chunk that does not start like a block is passed over. -/
theorem walkBlocks_other (stands : StandsAt image data payload) (other : payload.getD 0 0 ≠ 0x2a) (s : σ)
    (issues : UInt32) :
    walkBlocks image visit data (data + payload.length) data s issues = (s, issues) := by
  rw [walkBlocks]
  split
  · rename_i content
    have first : image.getD data 0 ≠ 0x2a := by
      have same := @getD_stands image payload data stands 0 (by omega)
      rw [Nat.add_zero] at same
      rw [same]
      exact other
    have undecoded : cfsDecodeBlock image (data + payload.length) data = none := by
      rw [cfsDecodeBlock, if_pos (.inr first)]
    split
    · simp
    · rename_i next block found
      rw [undecoded] at found
      cases found
  · rfl

end Decoder

section Walk

variable {image : List UInt8}

/-- The block decoded from a payload, wherever the image holds it. -/
def Decodes (image payload : List UInt8) (block : CfsBlock) : Prop :=
  ∃ data nameEnd, StandsAt image data payload ∧ Framed payload nameEnd ∧
    block = decodedBlock data payload nameEnd

section Step

variable {σ : Type} {visit : σ → CfsBlock → σ} {chunk payload : List UInt8} {pos nameEnd : Nat}

/-- What the walk reads of a chunk that stands at its position. -/
theorem chunk_stands (sized : Sized chunk) (stands : StandsAt image pos chunk) :
    rd16 image pos = rd16 chunk 0 ∧ pos + 6 + rd32 image (pos + 2) = pos + chunk.length ∧
      StandsAt image (pos + 6) (chunk.drop 6) ∧ pos + 6 + (chunk.drop 6).length = pos + chunk.length := by
  obtain ⟨header, size⟩ := sized
  refine ⟨@rd16_stands image chunk pos stands 0 (by omega), ?_, ?_, ?_⟩
  · rw [rd32_stands stands (by omega)]
    omega
  · rw [StandsAt, ← List.drop_drop]
    exact List.IsPrefix.drop stands 6
  · rw [List.length_drop]
    omega

/-- The walk visits the block of a chunk. -/
theorem walkChunks_block (sized : Sized chunk) (stands : StandsAt image pos chunk)
    (inside : pos + chunk.length ≤ image.length) (holds : tapePayload chunk = some payload)
    (framed : Framed payload nameEnd) (s : σ) (issues : UInt32) :
    walkChunks image visit pos s issues =
      walkChunks image visit (pos + chunk.length) (visit s (decodedBlock (pos + 6) payload nameEnd))
        issues := by
  obtain ⟨kind, next, behind, chunkEnd⟩ := chunk_stands sized stands
  have header := sized.header
  rw [tapePayload, Option.ite_none_right_eq_some, Option.some.injEq] at holds
  obtain ⟨⟨data, _⟩, rfl⟩ := holds
  have walked := @walkBlocks_framed _ _ _ _ _ visit behind framed s issues
  rw [chunkEnd] at walked
  rw [walkChunks, if_pos (by omega)]
  dsimp only
  rw [if_neg (by omega), kind, if_pos data, next, walked]

/-- The walk passes a chunk without a block. -/
theorem walkChunks_skip (sized : Sized chunk) (stands : StandsAt image pos chunk)
    (inside : pos + chunk.length ≤ image.length) (nothing : tapePayload chunk = none) (s : σ)
    (issues : UInt32) :
    walkChunks image visit pos s issues = walkChunks image visit (pos + chunk.length) s issues := by
  obtain ⟨kind, next, behind, chunkEnd⟩ := chunk_stands sized stands
  have header := sized.header
  rw [tapePayload, ite_eq_right_iff] at nothing
  rw [walkChunks, if_pos (by omega)]
  dsimp only
  rw [if_neg (by omega), kind, next]
  split
  · rename_i data
    have other : (chunk.drop 6).getD 0 0 ≠ 0x2a := fun star => Option.some_ne_none _ (nothing ⟨data, star⟩)
    have walked := @walkBlocks_other _ _ _ _ visit behind other s issues
    rw [chunkEnd] at walked
    rw [walked]
  · rfl

end Step

/-- The walk over a list of chunks finds the blocks of their payloads. -/
theorem walkChunks_chunks (chunks : List (List UInt8)) (front : List UInt8)
    (sized : ∀ chunk ∈ chunks, Sized chunk)
    (framed : ∀ payload ∈ chunks.filterMap tapePayload, ∃ nameEnd, Framed payload nameEnd)
    (seen : List CfsBlock) (issues : UInt32) (whole : front ++ chunks.flatten = image) :
    ∃ found, walkChunks image (fun seen block => seen ++ [block]) front.length seen issues =
        (.ok, seen ++ found, issues) ∧
      List.Forall₂ (Decodes image) (chunks.filterMap tapePayload) found := by
  induction chunks generalizing front seen with
  | nil =>
    rw [List.flatten_nil, List.append_nil] at whole
    refine ⟨[], ?_, .nil⟩
    rw [walkChunks, if_neg (by rw [whole]; omega), List.append_nil]
  | cons chunk chunks ih =>
    obtain ⟨first, others⟩ := List.forall_mem_cons.mp sized
    rw [List.flatten_cons] at whole
    have stands : StandsAt image front.length chunk := by
      rw [← whole, StandsAt, List.drop_left]
      exact List.prefix_append _ _
    have inside : front.length + chunk.length ≤ image.length := by
      rw [← whole, List.length_append, List.length_append]
      omega
    have behind : (front ++ chunk) ++ chunks.flatten = image := by
      rw [List.append_assoc]
      exact whole
    have next : front.length + chunk.length = (front ++ chunk).length := List.length_append.symm
    cases holds : tapePayload chunk with
    | none =>
      rw [List.filterMap_cons_none holds] at framed ⊢
      rw [walkChunks_skip first stands inside holds, next]
      exact ih (front ++ chunk) others framed seen behind
    | some payload =>
      rw [List.filterMap_cons_some holds] at framed ⊢
      obtain ⟨⟨nameEnd, block⟩, later⟩ := List.forall_mem_cons.mp framed
      have bytes : payload = chunk.drop 6 := by
        rw [tapePayload, Option.ite_none_right_eq_some, Option.some.injEq] at holds
        exact holds.2.symm
      obtain ⟨found, rest, decodes⟩ := ih (front ++ chunk) others later
        (seen ++ [decodedBlock (front.length + 6) payload nameEnd]) behind
      refine ⟨decodedBlock (front.length + 6) payload nameEnd :: found, ?_, .cons ?_ decodes⟩
      · rw [walkChunks_block first stands inside holds block, next, rest, List.append_assoc]
        rfl
      · exact ⟨_, nameEnd, bytes ▸ (chunk_stands first stands).2.2.1, block, rfl⟩

/-- A tape as the list of its chunks. -/
structure ChunkList (image : List UInt8) (chunks : List (List UInt8)) : Prop where
  magic : image.take 10 = uefMagic
  header : uefHeaderLen ≤ image.length
  whole : image.take uefHeaderLen ++ chunks.flatten = image
  sized : ∀ chunk ∈ chunks, Sized chunk

theorem ChunkList.identified {chunks : List (List UInt8)} (list : ChunkList image chunks) :
    mediaIdentify image = .uef := by
  rw [mediaIdentify, if_pos ⟨list.header, list.magic⟩]

theorem ChunkList.visits {chunks : List (List UInt8)} (list : ChunkList image chunks)
    (framed : ∀ payload ∈ chunks.filterMap tapePayload, ∃ nameEnd, Framed payload nameEnd) :
    (uefListing image).1 = .ok ∧
      List.Forall₂ (Decodes image) (chunks.filterMap tapePayload) (visited image) := by
  obtain ⟨found, walked, decodes⟩ := walkChunks_chunks chunks (image.take uefHeaderLen) list.sized framed
    [] 0 list.whole
  rw [List.length_take, Nat.min_eq_left list.header, List.nil_append] at walked
  have listing : uefListing image = (.ok, found, 0) := by
    rw [uefListing, uefWalk, if_neg (by simp [list.magic, list.header]), walked]
  rw [visited, listing]
  exact ⟨rfl, decodes⟩

/-- An accepted tape of standard blocks is a list of chunks, and the report lists their blocks. -/
theorem inspectUef_chunks {report : Report} (accepted : inspectUef image = .ok report)
    (standard : Standard image report) : ∃ chunks, ChunkList image chunks ∧
      List.Forall₂ (Reported image) (chunks.filterMap tapePayload) report.cfsBlocks := by
  rw [inspectUef] at accepted
  split at accepted
  · cases accepted
  rename_i magic
  split at accepted
  · cases accepted
  rename_i header
  obtain ⟨blocks, result, chunks, behind, sized, reported⟩ := inspectChunks_split accepted standard
  rw [List.nil_append] at result
  refine ⟨chunks, ⟨by simpa using magic, by omega, ?_, sized⟩, by rw [result]; exact reported⟩
  rw [← behind, List.take_append_drop]

end Walk

section Blocks

variable {image : List UInt8}

theorem Framed.unique {payload : List UInt8} {first second : Nat} (one : Framed payload first)
    (other : Framed payload second) : first = second := by
  rcases Nat.lt_trichotomy first second with less | same | more
  · exact absurd one.nul (other.plain first one.positive less)
  · exact same
  · exact absurd other.nul (one.plain second other.positive more)

/-- The block that the walk finds in a payload. -/
def foundBlock (payload : List UInt8) (nameEnd : Nat) : FoundBlock where
  name := slice payload 1 (nameEnd - 1)
  load := (rd32 payload (nameEnd + 1)).toUInt32
  exec := (rd32 payload (nameEnd + 5)).toUInt32
  number := (rd16 payload (nameEnd + 9)).toUInt16
  flags := payload.getD (nameEnd + 13) 0
  data := slice payload (nameEnd + 20) (rd16 payload (nameEnd + 11))
  crcOk := littleOk payload nameEnd

def Finds (payload : List UInt8) (block : FoundBlock) : Prop :=
  ∃ nameEnd, Framed payload nameEnd ∧ block = foundBlock payload nameEnd

theorem Decodes.finds {payload : List UInt8} {block : CfsBlock} (decodes : Decodes image payload block) :
    Finds payload (block.found image) := by
  obtain ⟨data, e, stands, framed, rfl⟩ := decodes
  have length := framed.length
  have content := slice_part stands (show e + 20 + rd16 payload (e + 11) ≤ payload.length by omega)
  refine ⟨e, framed, ?_⟩
  rw [CfsBlock.found, foundBlock, ← content]
  rfl

theorem ChunkList.finds {chunks : List (List UInt8)} (list : ChunkList image chunks)
    (framed : ∀ payload ∈ chunks.filterMap tapePayload, ∃ nameEnd, Framed payload nameEnd) :
    List.Forall₂ Finds (chunks.filterMap tapePayload) (tapeBlocks image) := by
  rw [tapeBlocks, List.forall₂_map_right_iff]
  exact (list.visits framed).2.imp fun payload block decodes => decodes.finds

/-- With room for all its files, a tape is listed file by file. -/
theorem ChunkList.entries {chunks : List (List UInt8)} (list : ChunkList image chunks) {kind : MediaKind}
    {n : Nat} (tape : kind ≠ .ssd) (room : (tapeFiles image).length ≤ n) :
    (mediaCatalogue image kind (some n)).2.entries = (tapeFiles image).map fileEntry := by
  rw [(kind_irrelevant list.identified tape).1]
  by_cases array : n = 0
  · subst array
    rw [List.eq_nil_of_length_eq_zero (Nat.le_zero.mp room)]
    rfl
  · rw [mediaCatalogue_uef image array]
    dsimp only
    rw [List.take_of_length_le room]

/-- The payloads of a report are blocks. -/
theorem framed_of_reported {payloads : List (List UInt8)} {blocks : List InspectedBlock}
    (reported : List.Forall₂ (Reported image) payloads blocks) :
    ∀ payload ∈ payloads, ∃ nameEnd, Framed payload nameEnd := by
  have each : List.Forall₂ (fun payload _ => (∃ nameEnd, Framed payload nameEnd) ∧ True) payloads
      blocks := by
    refine reported.imp fun payload block entry => ⟨?_, trivial⟩
    obtain ⟨nameEnd, _, _, framed, _⟩ := entry.inspects.framed
    exact ⟨nameEnd, framed⟩
  exact ((List.forall₂_and_left _ _).mp each).1

/-- What decides whether a block starts a file is the same to both decoders. -/
structure Akin (found : FoundBlock) (inspected : InspectedBlock) : Prop where
  name : inspected.name = found.name
  number : (inspected.blockNumber == 0) = (found.number == 0)

theorem foundBlock_akin (payload : List UInt8) (e index offset : Nat) :
    Akin (foundBlock payload e) (describe payload e index offset) := by
  refine ⟨rfl, ?_⟩
  have small := rd16_lt payload (e + 9)
  rw [Bool.eq_iff_iff, beq_iff_eq, beq_iff_eq, ← UInt16.toNat_inj]
  simp only [describe, foundBlock, Nat.add_assoc, Nat.reduceAdd]
  rw [Nat.toUInt16_eq, UInt16.toNat_ofNat_of_lt' small]
  rfl

theorem Akin.continues {before found : FoundBlock} {inspectedBefore inspected : InspectedBlock}
    (first : Akin before inspectedBefore) (second : Akin found inspected) :
    continues before found = inspectedBefore.joins inspected := by
  rw [MediaCatalogue.continues, InspectedBlock.joins, first.name, second.name, bne, bne, second.number]

/-- Both decoders see the same files. -/
theorem akin_runs {R : FoundBlock → InspectedBlock → Prop} (akin : ∀ {f i}, R f i → Akin f i)
    {blocks : List InspectedBlock} (related : List.Forall₂ R (tapeBlocks image) blocks) :
    List.Forall₂ (List.Forall₂ R) (tapeFiles image) (oracleRuns blocks) :=
  Runs.forall₂_splitBy (fun first second => (akin first).continues (akin second)) related

end Blocks

section Listing

/-- A block as both decoders see it, but for the checks. -/
structure Same (found : FoundBlock) (inspected : InspectedBlock) : Prop
    extends Akin found inspected where
  load : inspected.loadAddress % 2 ^ 32 = found.load.toNat
  exec : inspected.executionAddress % 2 ^ 32 = found.exec.toNat
  length : inspected.dataLength = found.data.length

theorem Finds.same {payload : List UInt8} {found : FoundBlock} {inspected : InspectedBlock}
    (finds : Finds payload found) (inspects : Inspects payload inspected) : Same found inspected := by
  obtain ⟨e, framed, rfl⟩ := finds
  obtain ⟨e', index, offset, framed', rfl⟩ := inspects.framed
  obtain rfl := framed.unique framed'
  have length := framed.length
  refine ⟨foundBlock_akin payload e index offset, ?_, ?_, ?_⟩
  · simp [describe, foundBlock]
  · simp [describe, foundBlock, Nat.add_assoc]
  · exact (slice_length (show e + 20 + rd16 payload (e + 11) ≤ payload.length by omega)).symm

/-- What the test compares of an entry. -/
def oracleTuple (entry : MediaEntry) : OracleFile :=
  ⟨entry.name, entry.load.toNat, entry.exec.toNat, entry.length.toNat, entry.blocks.toNat⟩

theorem same_payload {file : List FoundBlock} {run : List InspectedBlock}
    (same : List.Forall₂ Same file run) :
    (run.map fun block => block.dataLength).sum = (filePayload file).length := by
  induction same with
  | nil => rfl
  | cons first _ ih =>
    rw [List.map_cons, List.sum_cons, ih, first.length]
    simp [filePayload]

/-- Within the width of the counters an entry says what the oracle says. -/
theorem oracleTuple_fileEntry {file : List FoundBlock} {run : List InspectedBlock}
    (same : List.Forall₂ Same file run) (blocks : (oracleFile run).blocks ≤ 65535)
    (length : (oracleFile run).length < 2 ^ 32) : oracleTuple (fileEntry file) = oracleFile run := by
  have payload := same_payload same
  have count := same.length_eq
  cases same with
  | nil => rfl
  | cons first others =>
    simp only [oracleFile] at blocks length
    simp only [List.length_cons] at count
    rw [oracleTuple, fileEntry, oracleFile, first.name, first.load, first.exec, ← payload]
    congr 1
    · exact UInt32.toNat_ofNat_of_lt' length
    · rw [count]
      exact UInt16.toNat_ofNat_of_lt' (Nat.lt_succ_of_le blocks)

/-- The catalogue of an accepted tape of standard blocks lists the files that the test groups
from the report. -/
theorem catalogue_matches_oracle {raw : List UInt8} {report : Report} {kind : MediaKind} {n : Nat}
    (accepted : inspectUef raw = .ok report) (standard : Standard raw report)
    (bounded : ∀ file ∈ oracleEntries report.cfsBlocks, file.blocks ≤ 65535 ∧ file.length < 2 ^ 32)
    (tape : kind ≠ .ssd) (room : (oracleEntries report.cfsBlocks).length ≤ n) :
    (n ≠ 0 → (mediaCatalogue raw kind (some n)).1 = .ok) ∧
      (mediaCatalogue raw kind (some n)).2.entries.map oracleTuple = oracleEntries report.cfsBlocks := by
  obtain ⟨chunks, list, reported⟩ := inspectUef_chunks accepted standard
  have framed := framed_of_reported reported
  have readable : (uefListing raw).1 = .ok := (list.visits framed).1
  have same : List.Forall₂ Same (tapeBlocks raw) report.cfsBlocks := by
    refine (Runs.forall₂_through (list.finds framed) reported).imp ?_
    rintro found inspected ⟨payload, finds, entry⟩
    exact finds.same entry.inspects
  have runs := akin_runs Same.toAkin same
  have listed : (tapeFiles raw).map (fun file => oracleTuple (fileEntry file)) =
      oracleEntries report.cfsBlocks := by
    rw [oracleEntries_eq] at bounded ⊢
    rw [← List.forall₂_eq_eq_eq, List.forall₂_map_left_iff, List.forall₂_map_right_iff]
    refine List.forall₂_iff_zip.mpr ⟨runs.length_eq, fun {file run} among => ?_⟩
    obtain ⟨blocks, length⟩ := bounded (oracleFile run) (List.mem_map_of_mem (List.of_mem_zip among).2)
    exact oracleTuple_fileEntry (List.forall₂_zip runs among) blocks length
  refine ⟨fun array => ?_, ?_⟩
  · rw [(kind_irrelevant list.identified tape).1, mediaCatalogue_uef raw array, readable]
    rfl
  · have all : (tapeFiles raw).length ≤ n := by
      rw [← listed, List.length_map] at room
      exact room
    rw [list.entries tape all, List.map_map]
    exact listed

/-- A tone, two blocks of a file `A`, a data chunk without a block and an empty file `B`. -/
def markedTape : List UInt8 :=
  uefMagic ++ [10, 0] ++ [0x10, 0x01, 2, 0, 0, 0, 0xdc, 0x05] ++ [0x00, 0x01, 25, 0, 0, 0] ++
    [0x2a, 0x41, 0, 0, 0x19, 0, 0, 0, 0x19, 0, 0, 0, 0, 1, 0, 0x00, 0, 0, 0, 0, 0, 0, 7, 0, 0] ++
    [0x00, 0x01, 25, 0, 0, 0] ++
    [0x2a, 0x41, 0, 0, 0x19, 0, 0, 0, 0x19, 0, 0, 1, 0, 1, 0, 0x80, 0, 0, 0, 0, 0, 0, 8, 0, 0] ++
    [0x00, 0x01, 3, 0, 0, 0, 1, 2, 3] ++ [0x00, 0x01, 22, 0, 0, 0] ++
    [0x2a, 0x42, 0, 0, 0x0e, 0, 0, 0, 0x0e, 0, 0, 0, 0, 0, 0, 0x80, 0, 0, 0, 0, 0, 0]

def markedReport : Report := (inspectUef markedTape).toOption.getD ⟨[], []⟩

theorem markedTape_matches_oracle :
    oracleEntries markedReport.cfsBlocks =
        [⟨[0x41], 0x1900, 0x1900, 2, 2⟩, ⟨[0x42], 0x0e00, 0x0e00, 0, 1⟩] ∧
      (mediaCatalogue markedTape .unknown (some 8)).2.entries.map oracleTuple =
        oracleEntries markedReport.cfsBlocks :=
  ⟨by decide +kernel, (catalogue_matches_oracle (by decide +kernel) (by decide +kernel)
    (by decide +kernel) (by decide) (by decide +kernel)).2⟩

end Listing

end Pi1MHz.UefMap
