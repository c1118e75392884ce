import Pi1MHz.Foundation.Excerpt
import Pi1MHz.Media.Agreement
import Pi1MHz.Media.Service

/-! Tapes written in the layout of the catalogue's own tests (`put_block`) are read back:
the catalogue lists the files that were written and the extraction returns their data. -/
namespace Pi1MHz.MediaCatalogue
open UefRepair
open MediaService (le32)

def le16 (value : UInt16) : List UInt8 := [value.toUInt8, (value >>> 8).toUInt8]

/-- Name, addresses, number, length, flags and next address. -/
def blockHeader (block : TapeBlock) : List UInt8 :=
  block.name ++ [0] ++ le32 block.load ++ le32 block.exec ++ le16 block.number ++
    le16 block.data.length.toUInt16 ++ [block.flags] ++ [0, 0, 0, 0]

def putBlock (block : TapeBlock) : List UInt8 :=
  [0x2a] ++ blockHeader block ++ le16 (tapeCrc (blockHeader block)) ++
    if block.data.length = 0 then [] else block.data ++ le16 (tapeCrc block.data)

/-- A block `put_block` can be asked for. -/
structure Writable (block : TapeBlock) : Prop where
  short : block.name.length ≤ 15
  plain : 0 ∉ block.name
  small : block.data.length < 65536

/-- The block read back without an error. -/
def TapeBlock.intact (block : TapeBlock) : FoundBlock := ⟨block, true⟩

theorem rd16_le16 {image : List UInt8} {pos : Nat} {value : UInt16}
    (stands : StandsAt image pos (le16 value)) : rd16 image pos = value.toNat := by
  have bound := value.toNat_lt
  rw [rd16, stands.getD, stands.tail.getD]
  simp only [UInt16.toNat_toUInt8, UInt16.toNat_shiftRight, UInt16.reduceToNat,
    Nat.shiftRight_eq_div_pow, Nat.reduceMod, Nat.reducePow]
  omega

theorem rd32_le32 {image : List UInt8} {pos : Nat} {value : UInt32}
    (stands : StandsAt image pos (le32 value)) : rd32 image pos = value.toNat := by
  have bound := value.toNat_lt
  rw [rd32, stands.getD, stands.tail.getD, stands.tail.tail.getD, stands.tail.tail.tail.getD]
  simp only [UInt32.toNat_toUInt8, UInt32.toNat_shiftRight, UInt32.reduceToNat,
    Nat.shiftRight_eq_div_pow, Nat.reduceMod, Nat.reducePow]
  omega

theorem nameStop_name {image name : List UInt8} {chunkEnd pos nameLen : Nat}
    (stands : StandsAt image pos (name ++ [0])) (plain : 0 ∉ name) (short : nameLen + name.length ≤ 15)
    (inside : pos + name.length < chunkEnd) :
    nameStop image chunkEnd pos nameLen = pos + name.length := by
  induction name generalizing pos nameLen with
  | nil =>
    rw [nameStop, if_neg]
    · rfl
    · rw [stands.getD]
      simp
  | cons char rest ih =>
    simp only [List.mem_cons, not_or] at plain
    simp only [List.length_cons] at short inside ⊢
    have more : pos < chunkEnd ∧ image.getD pos 0 ≠ 0 ∧ nameLen < mediaNameMax - 1 := by
      rw [stands.getD]
      exact ⟨by omega, Ne.symm plain.1, by simp only [mediaNameMax]; omega⟩
    rw [nameStop, if_pos more, ih stands.tail plain.2 (by omega) (by omega)]
    omega

theorem slice_stands {image cells : List UInt8} {pos count : Nat} (stands : StandsAt image pos cells)
    (length : cells.length = count) : slice image pos count = cells := by
  rw [slice, ← length]
  exact stands.take_drop

theorem blockHeader_length (block : TapeBlock) :
    (blockHeader block).length = block.name.length + 18 := by
  simp [blockHeader, le16, le32]

theorem putBlock_length (block : TapeBlock) : (putBlock block).length =
    block.name.length + 21 + if block.data.length = 0 then 0 else block.data.length + 2 := by
  simp only [putBlock, List.length_append, blockHeader_length]
  split <;> simp [le16] <;> omega

/-- The fields of a written header, seen from the byte after the name. -/
structure HeaderAt (image : List UInt8) (fixed : Nat) (block : TapeBlock) : Prop where
  load : rd32 image fixed = block.load.toNat
  exec : rd32 image (fixed + 4) = block.exec.toNat
  number : rd16 image (fixed + 8) = block.number.toNat
  length : rd16 image (fixed + 10) = block.data.length.toUInt16.toNat
  flags : image.getD (fixed + 12) 0 = block.flags

theorem headerAt {image : List UInt8} {pos : Nat} {block : TapeBlock}
    (stands : StandsAt image pos (blockHeader block)) :
    HeaderAt image (pos + block.name.length + 1) block := by
  simp only [blockHeader, StandsAt.append_iff, List.length_append, le16, le32, List.length_cons,
    List.length_nil] at stands
  obtain ⟨⟨⟨⟨⟨⟨_, load⟩, exec⟩, number⟩, length⟩, flags⟩, _⟩ := stands
  simp only [← Nat.add_assoc, Nat.zero_add, Nat.reduceAdd] at load exec number length flags
  exact ⟨rd32_le32 load, rd32_le32 exec, rd16_le16 number, rd16_le16 length, flags.getD 0⟩

/-- A written block is decoded as it was written, with its checks passed. -/
theorem cfsDecodeBlock_putBlock {image : List UInt8} {chunkEnd pos : Nat} {block : TapeBlock}
    (writable : Writable block) (stands : StandsAt image pos (putBlock block))
    (inside : pos + (putBlock block).length ≤ chunkEnd) :
    ∃ decoded, cfsDecodeBlock image chunkEnd pos = some (pos + (putBlock block).length, decoded) ∧
      decoded.found image = block.intact := by
  have size := putBlock_length block
  have headerSize := blockHeader_length block
  have small : block.data.length.toUInt16.toNat = block.data.length :=
    UInt16.toNat_ofNat_of_lt' writable.small
  obtain ⟨front, data⟩ := StandsAt.append_iff.mp stands
  obtain ⟨front, crc⟩ := StandsAt.append_iff.mp front
  obtain ⟨star, header⟩ := StandsAt.append_iff.mp front
  have star : image.getD pos 0 = 0x2a := star.getD 0
  have header : StandsAt image (pos + 1) (blockHeader block) := header
  have name : StandsAt image (pos + 1) (block.name ++ [0]) := by
    have start := header
    simp only [blockHeader, List.append_assoc] at start
    rw [← List.append_assoc] at start
    exact start.append_left
  have nul : image.getD (pos + 1 + block.name.length) 0 = 0 := name.append_right.getD 0
  have fields := headerAt header
  simp only [List.length_append, headerSize, le16, List.length_cons,
    List.length_nil] at crc data
  have stop : nameStop image chunkEnd (pos + 1) 0 = pos + 1 + block.name.length :=
    nameStop_name name writable.plain (by rw [Nat.zero_add]; exact writable.short) (by omega)
  have headerCrc : rd16 image (pos + 1 + block.name.length + 1 + 17) =
      (tapeCrc (blockHeader block)).toNat := by
    rw [show pos + 1 + block.name.length + 1 + 17 = pos + (1 + (block.name.length + 18)) by omega]
    exact rd16_le16 crc
  have headerSlice : slice image (pos + 1) (pos + 1 + block.name.length + 1 + 17 - (pos + 1)) =
      blockHeader block := slice_stands header (by omega)
  have nameSlice : slice image (pos + 1) (pos + 1 + block.name.length - (pos + 1)) = block.name :=
    slice_stands name.append_left (by omega)
  have dataStart : pos + 1 + block.name.length + 1 + 17 + 2 =
      pos + (1 + (block.name.length + 18) + (0 + 1 + 1)) := by omega
  rw [← dataStart] at data
  simp only [cfsDecodeBlock, stop, star, nul, headerCrc, headerSlice, nameSlice, fields.load, fields.exec,
    fields.number, fields.length, fields.flags, small, beq_self_eq_true, Bool.true_and]
  rw [if_neg (by simp; omega), if_neg (by simp; omega), if_neg (by omega)]
  by_cases empty : block.data.length = 0
  · rw [if_pos empty]
    rw [if_pos empty] at size
    have dataSlice : slice image (pos + 1 + block.name.length + 1 + 17 + 2) block.data.length =
        block.data := by
      rw [List.eq_nil_of_length_eq_zero empty]
      rfl
    refine ⟨_, congrArg (fun next => some (next, _)) (by omega), ?_⟩
    simp only [CfsBlock.found, TapeBlock.intact, dataSlice, UInt32.ofNat_toNat, UInt16.ofNat_toNat,
      Nat.toUInt32_eq, Nat.toUInt16_eq]
  · rw [if_neg empty]
    rw [if_neg empty] at size data
    have dataCrc := rd16_le16 data.append_right
    have dataSlice := slice_stands data.append_left rfl
    rw [if_neg (by omega), dataCrc, dataSlice]
    refine ⟨_, congrArg (fun next => some (next, _)) (by omega), ?_⟩
    simp only [CfsBlock.found, TapeBlock.intact, dataSlice, beq_self_eq_true, UInt32.ofNat_toNat,
      UInt16.ofNat_toNat, Nat.toUInt32_eq, Nat.toUInt16_eq]

/-- The blocks of a chunk are listed in order, to its end. -/
theorem walkBlocks_putBlock {image : List UInt8} {chunkEnd pos : Nat} {blocks : List TapeBlock}
    (writable : ∀ block ∈ blocks, Writable block) (stands : StandsAt image pos (blocks.flatMap putBlock))
    (whole : pos + (blocks.flatMap putBlock).length = chunkEnd) (data : Nat) (seen : List CfsBlock)
    (issues : UInt32) :
    ∃ found, walkBlocks image (fun seen block => seen ++ [block]) data chunkEnd pos seen issues =
        (seen ++ found, issues) ∧
      found.map (·.found image) = blocks.map TapeBlock.intact := by
  induction blocks generalizing pos seen with
  | nil =>
    refine ⟨[], ?_, rfl⟩
    rw [walkBlocks, if_neg (by simpa using Nat.le_of_eq whole.symm), List.append_nil]
  | cons block rest ih =>
    rw [List.flatMap_cons] at stands whole
    obtain ⟨here, later⟩ := StandsAt.append_iff.mp stands
    rw [List.length_append] at whole
    have positive : 0 < (putBlock block).length := by
      rw [putBlock_length]
      omega
    have inside : pos + (putBlock block).length ≤ chunkEnd := by omega
    obtain ⟨decoded, step, same⟩ :=
      cfsDecodeBlock_putBlock (writable block List.mem_cons_self) here inside
    obtain ⟨found, walked, all⟩ := ih (fun other member => writable other (List.mem_cons_of_mem _ member))
      later (by omega) (seen ++ [decoded])
    refine ⟨decoded :: found, ?_, ?_⟩
    · rw [walkBlocks, if_pos (by omega)]
      split
      · rename_i stuck
        rw [step] at stuck
        cases stuck
      · rename_i next other decoded'
        rw [step] at decoded'
        cases decoded'
        rw [walked, List.append_assoc, List.singleton_append]
    · rw [List.map_cons, List.map_cons, same, all]

/-- A chunk of a written tape: blocks of a data chunk, or any chunk of another type. -/
inductive Chunk
  | data (blocks : List TapeBlock)
  | other (type : UInt16) (payload : List UInt8) (different : type.toNat ≠ uefChunkData)

def Chunk.type : Chunk → UInt16
  | .data _ => uefChunkData.toUInt16
  | .other type _ _ => type

def Chunk.payload : Chunk → List UInt8
  | .data blocks => blocks.flatMap putBlock
  | .other _ payload _ => payload

def Chunk.blocks : Chunk → List TapeBlock
  | .data blocks => blocks
  | .other _ _ _ => []

def putChunk (chunk : Chunk) : List UInt8 :=
  le16 chunk.type ++ le32 chunk.payload.length.toUInt32 ++ chunk.payload

theorem putChunk_length (chunk : Chunk) : (putChunk chunk).length = 6 + chunk.payload.length := by
  simp [putChunk, le16, le32]
  omega

/-- One written chunk: the walk goes on behind it with the blocks it holds. -/
theorem walkChunks_putChunk {image : List UInt8} {pos : Nat} {chunk : Chunk}
    (writable : ∀ block ∈ chunk.blocks, Writable block) (small : image.length < 2 ^ 32)
    (stands : StandsAt image pos (putChunk chunk)) (inside : pos + (putChunk chunk).length ≤ image.length)
    (seen : List CfsBlock) (issues : UInt32) :
    ∃ found, walkChunks image (fun seen block => seen ++ [block]) pos seen issues =
        walkChunks image (fun seen block => seen ++ [block]) (pos + (putChunk chunk).length)
          (seen ++ found) issues ∧
      found.map (·.found image) = chunk.blocks.map TapeBlock.intact := by
  have size := putChunk_length chunk
  obtain ⟨front, payload⟩ := StandsAt.append_iff.mp stands
  obtain ⟨type, length⟩ := StandsAt.append_iff.mp front
  have type : rd16 image pos = chunk.type.toNat := rd16_le16 type
  have length : rd32 image (pos + 2) = chunk.payload.length := by
    have read : rd32 image (pos + 2) = chunk.payload.length.toUInt32.toNat := rd32_le32 length
    rw [read]
    exact UInt32.toNat_ofNat_of_lt' (by simp only [UInt32.size]; omega)
  have payload : StandsAt image (pos + 6) chunk.payload := payload
  have next : pos + (putChunk chunk).length = pos + 6 + chunk.payload.length := by omega
  rw [walkChunks, if_pos (by omega)]
  simp only [type, length]
  rw [if_neg (by omega), next]
  cases chunk with
  | data blocks =>
    obtain ⟨found, walked, all⟩ := walkBlocks_putBlock writable payload rfl (pos + 6) seen issues
    have data : (Chunk.data blocks).type.toNat = uefChunkData := rfl
    refine ⟨found, ?_, all⟩
    simp only [Chunk.blocks] at walked
    simp only [data, if_true, Chunk.payload, walked]
  | other type payload different =>
    refine ⟨[], ?_, rfl⟩
    simp only [Chunk.type, different, if_false, List.append_nil]

theorem walkChunks_putChunks {image : List UInt8} {pos : Nat} {chunks : List Chunk}
    (writable : ∀ block ∈ chunks.flatMap Chunk.blocks, Writable block) (small : image.length < 2 ^ 32)
    (stands : StandsAt image pos (chunks.flatMap putChunk))
    (whole : pos + (chunks.flatMap putChunk).length = image.length) (seen : List CfsBlock)
    (issues : UInt32) :
    ∃ found, walkChunks image (fun seen block => seen ++ [block]) pos seen issues =
        (.ok, seen ++ found, issues) ∧
      found.map (·.found image) = (chunks.flatMap Chunk.blocks).map TapeBlock.intact := by
  induction chunks generalizing pos seen with
  | nil =>
    rw [List.flatMap_nil, List.length_nil] at whole
    refine ⟨[], ?_, rfl⟩
    rw [walkChunks, if_neg (by omega), List.append_nil]
  | cons chunk rest ih =>
    rw [List.flatMap_cons] at stands whole writable
    obtain ⟨here, later⟩ := StandsAt.append_iff.mp stands
    rw [List.length_append] at whole
    obtain ⟨first, step, same⟩ := walkChunks_putChunk
      (fun block member => writable block (List.mem_append_left _ member)) small here (by omega) seen
      issues
    obtain ⟨found, walked, all⟩ := ih (fun block member => writable block (List.mem_append_right _ member))
      later (by omega) (seen ++ first)
    refine ⟨first ++ found, ?_, ?_⟩
    · rw [step, walked, List.append_assoc]
    · rw [List.map_append, same, all, List.flatMap_cons, List.map_append]

/-- The image of a tape: the header with its version, then the chunks. -/
def tapeImage (minor major : UInt8) (chunks : List Chunk) : List UInt8 :=
  uefMagic ++ [minor, major] ++ chunks.flatMap putChunk

theorem uefListing_tapeImage {minor major : UInt8} {chunks : List Chunk}
    (writable : ∀ block ∈ chunks.flatMap Chunk.blocks, Writable block)
    (small : (tapeImage minor major chunks).length < 2 ^ 32) :
    (uefListing (tapeImage minor major chunks)).1 = .ok ∧
      (uefListing (tapeImage minor major chunks)).2.2 = 0 ∧
      tapeBlocks (tapeImage minor major chunks) =
        (chunks.flatMap Chunk.blocks).map TapeBlock.intact := by
  have stands : StandsAt (tapeImage minor major chunks) uefHeaderLen (chunks.flatMap putChunk) :=
    StandsAt.after (uefMagic ++ [minor, major]) _
  have whole : uefHeaderLen + (chunks.flatMap putChunk).length =
      (tapeImage minor major chunks).length := by
    rw [tapeImage, List.length_append]
    rfl
  obtain ⟨found, walked, all⟩ := walkChunks_putChunks writable small stands whole [] 0
  have listing : uefListing (tapeImage minor major chunks) = (.ok, found, 0) := by
    have header : ¬ ((tapeImage minor major chunks).length < uefHeaderLen ∨
        (tapeImage minor major chunks).take 10 ≠ uefMagic) := by
      refine not_or.mpr ⟨by omega, not_not_intro ?_⟩
      rw [tapeImage, List.append_assoc]
      exact List.take_left' rfl
    rw [uefListing, uefWalk, if_neg header, walked, List.nil_append]
  refine ⟨by rw [listing], by rw [listing], ?_⟩
  rw [tapeBlocks, visited, listing, all]

/-- A part of a payload, with the flag bits its block is given besides the lock. -/
structure Piece where
  data : List UInt8
  flags : UInt8
  small : data.length < 65536

/-- A file to be written. -/
structure SourceFile where
  name : List UInt8
  load : UInt32
  exec : UInt32
  locked : Bool
  pieces : List Piece
  short : name.length ≤ 15
  plain : 0 ∉ name
  nonempty : pieces ≠ []
  few : pieces.length ≤ 65535

namespace SourceFile

def payload (file : SourceFile) : List UInt8 := file.pieces.flatMap Piece.data

def block (file : SourceFile) (number : Nat) (piece : Piece) : TapeBlock where
  name := file.name
  load := file.load
  exec := file.exec
  number := number.toUInt16
  flags := piece.flags &&& 0xfe ||| if file.locked then 1 else 0
  data := piece.data

/-- The file's blocks, numbered from 0. -/
def blocks (file : SourceFile) : List TapeBlock := file.pieces.mapIdx file.block

/-- The entry the catalogue is to show. -/
def entry (file : SourceFile) : MediaEntry where
  name := file.name
  load := file.load
  exec := file.exec
  length := file.payload.length.toUInt32
  offset := 0
  blocks := file.pieces.length.toUInt16
  locked := file.locked
  crcOk := true

theorem blocks_writable (file : SourceFile) : ∀ block ∈ file.blocks, Writable block := by
  intro block member
  obtain ⟨i, bound, rfl⟩ := List.mem_mapIdx.mp member
  exact ⟨file.short, file.plain, file.pieces[i].small⟩

theorem blocks_length (file : SourceFile) : file.blocks.length = file.pieces.length :=
  List.length_mapIdx

theorem blocks_data (file : SourceFile) :
    file.blocks.map TapeBlock.data = file.pieces.map Piece.data := by
  apply List.ext_getElem
  · simp [blocks_length]
  · intro i _ _
    simp [blocks, block]

theorem intact_payload (file : SourceFile) :
    filePayload (file.blocks.map TapeBlock.intact) = file.payload := by
  rw [filePayload, List.flatMap_map, payload, List.flatMap_def, List.flatMap_def, ← blocks_data]
  rfl

/-- The blocks of a file continue one another. -/
theorem blocks_continue (file : SourceFile) :
    (file.blocks.map TapeBlock.intact).IsChain fun before block => continues before block = true := by
  refine List.isChain_iff_getElem.mpr fun i bound => ?_
  rw [List.length_map, blocks_length] at bound
  have few := file.few
  have number : (i + 1).toUInt16 ≠ 0 := by
    have fits : i + 1 < UInt16.size := by
      simp only [UInt16.size]
      omega
    rw [← UInt16.toNat_inj.ne, Nat.toUInt16_eq, UInt16.toNat_ofNat_of_lt' fits]
    exact Nat.succ_ne_zero i
  simpa [continues, TapeBlock.intact, blocks, block] using number

/-- The first block of a file continues nothing. -/
theorem blocks_start (file : SourceFile) (before : FoundBlock)
    (nonempty : file.blocks.map TapeBlock.intact ≠ []) :
    continues before ((file.blocks.map TapeBlock.intact).head nonempty) = false := by
  simp [continues, TapeBlock.intact, blocks, block, List.head_eq_getElem]

theorem locked_flag (flags : UInt8) (locked : Bool) :
    ((flags &&& 0xfe ||| if locked then 1 else 0) &&& 0x01 != 0) = locked := by
  have bit : ((flags &&& 0xfe ||| if locked then 1 else 0) &&& 0x01).toNat = if locked then 1 else 0 := by
    rw [UInt8.toNat_and, UInt8.toNat_or, UInt8.toNat_and, Nat.and_or_distrib_right, Nat.and_assoc]
    cases locked <;> simp
  cases locked with
  | false => simpa [← UInt8.toNat_inj] using bit
  | true =>
    rw [bne_iff_ne, ← UInt8.toNat_inj.ne, bit]
    decide

theorem intact_entry (file : SourceFile) :
    fileEntry (file.blocks.map TapeBlock.intact) = file.entry := by
  have payload := file.intact_payload
  have count := file.blocks_length
  cases pieces : file.pieces with
  | nil => exact absurd pieces file.nonempty
  | cons first more =>
    have split : file.blocks = file.block 0 first :: more.mapIdx fun i => file.block (i + 1) := by
      rw [blocks, pieces, List.mapIdx_cons]
    rw [split, List.map_cons] at payload ⊢
    simp only [fileEntry, entry, payload, List.length_map, List.length_mapIdx, pieces, List.length_cons]
    congr 1
    · exact locked_flag first.flags file.locked
    · simp [TapeBlock.intact]

end SourceFile

/-- The files of a written tape are the files that were written. -/
theorem tapeFiles_tapeImage {files : List SourceFile} {chunks : List Chunk} {minor major : UInt8}
    (grouped : chunks.flatMap Chunk.blocks = files.flatMap SourceFile.blocks)
    (found : tapeBlocks (tapeImage minor major chunks) =
      (chunks.flatMap Chunk.blocks).map TapeBlock.intact) :
    tapeFiles (tapeImage minor major chunks) =
      files.map fun file => file.blocks.map TapeBlock.intact := by
  have filled (file : SourceFile) : file.blocks.map TapeBlock.intact ≠ [] := by
    rw [← List.length_pos_iff, List.length_map, file.blocks_length, List.length_pos_iff]
    exact file.nonempty
  rw [tapeFiles, found, grouped, List.map_flatMap, List.flatMap_def]
  refine List.splitBy_flatten ?_ ?_ ?_
  · intro member
    obtain ⟨file, _, empty⟩ := List.mem_map.mp member
    exact filled file empty
  · intro blocks member
    obtain ⟨file, _, rfl⟩ := List.mem_map.mp member
    exact file.blocks_continue
  · refine List.isChain_iff_getElem.mpr fun i bound => ?_
    simp only [List.getElem_map]
    exact ⟨filled _, filled _, SourceFile.blocks_start _ _ _⟩

theorem mediaIdentify_tapeImage (minor major : UInt8) (chunks : List Chunk) :
    mediaIdentify (tapeImage minor major chunks) = .uef := by
  have length : uefHeaderLen ≤ (tapeImage minor major chunks).length := by
    rw [tapeImage, List.length_append]
    exact Nat.le_add_right _ _
  have magic : (tapeImage minor major chunks).take 10 = uefMagic := by
    rw [tapeImage, List.append_assoc]
    exact List.take_left' rfl
  rw [mediaIdentify, if_pos ⟨length, magic⟩]

/-- Asked for as a tape, or without a kind. -/
theorem kind_irrelevant {image : List UInt8} {kind : MediaKind} (identified : mediaIdentify image = .uef)
    (tape : kind ≠ .ssd) :
    (∀ entries, mediaCatalogue image kind entries = mediaCatalogue image .uef entries) ∧
      ∀ index limit, mediaExtract image kind index limit = mediaExtract image .uef index limit := by
  cases kind with
  | ssd => contradiction
  | uef => exact ⟨fun _ => rfl, fun _ _ => rfl⟩
  | unknown =>
    constructor
    · intro entries
      simp [mediaCatalogue, identified]
    · intro index limit
      simp [mediaExtract, identified]

/-- Every list of files written as a tape, in any grouping of their blocks into data chunks
and with any other chunks between these, is catalogued and extracted as it was written. -/
theorem tape_round_trip {files : List SourceFile} {chunks : List Chunk} {minor major : UInt8}
    {kind : MediaKind} {n : Nat}
    (grouped : chunks.flatMap Chunk.blocks = files.flatMap SourceFile.blocks)
    (small : (tapeImage minor major chunks).length < 2 ^ 32) (tape : kind ≠ .ssd) (array : n ≠ 0)
    (enough : files.length ≤ n) :
    mediaCatalogue (tapeImage minor major chunks) kind (some n) =
        (.ok, { Catalogue.empty .uef with
          entries := files.map SourceFile.entry
          total := files.length
          issues := 0 }) ∧
      (∀ file ∈ files, file.entry.length.toNat = file.payload.length ∧
        file.entry.blocks.toNat = file.pieces.length) ∧
      ∀ index file limit, files[index]? = some file → file.payload.length ≤ limit →
        mediaExtract (tapeImage minor major chunks) kind index limit = ⟨.ok, file.payload⟩ := by
  have writable : ∀ block ∈ chunks.flatMap Chunk.blocks, Writable block := by
    intro block member
    rw [grouped] at member
    obtain ⟨file, _, inside⟩ := List.mem_flatMap.mp member
    exact file.blocks_writable block inside
  obtain ⟨status, issues, blocks⟩ := uefListing_tapeImage writable small
  have readable : (uefListing (tapeImage minor major chunks)).1 ≠ .errFormat := by
    rw [status]
    decide
  have written := tapeFiles_tapeImage grouped blocks
  obtain ⟨catalogue, extract⟩ := kind_irrelevant (mediaIdentify_tapeImage minor major chunks) tape
  refine ⟨?_, ?_, ?_⟩
  · have entries : (files.map fun file => file.blocks.map TapeBlock.intact).map fileEntry =
        files.map SourceFile.entry := by
      rw [List.map_map]
      exact List.map_congr_left fun file _ => SourceFile.intact_entry file
    rw [catalogue, mediaCatalogue_uef _ array, if_neg readable, written, issues, List.length_map,
      List.take_of_length_le (by simpa using enough), entries]
  · intro file member
    have listed : file.blocks.map TapeBlock.intact ∈ tapeFiles (tapeImage minor major chunks) := by
      rw [written]
      exact List.mem_map_of_mem member
    have bound := filePayload_length listed
    rw [file.intact_payload] at bound
    exact ⟨UInt32.toNat_ofNat_of_lt' (Nat.lt_of_le_of_lt bound small),
      UInt16.toNat_ofNat_of_lt' (Nat.lt_succ_of_le file.few)⟩
  · intro index file limit found fits
    have listed : (tapeFiles (tapeImage minor major chunks))[index]? =
        some (file.blocks.map TapeBlock.intact) := by
      rw [written, List.getElem?_map, found]
      rfl
    rw [extract, mediaExtract_uef readable listed (by rw [file.intact_payload]; exact fits),
      file.intact_payload]

/-- A locked file `A` of two blocks, the second one empty. -/
def lockedFile : SourceFile where
  name := [char 'A']
  load := 0xffff1900
  exec := 0xffff8023
  locked := true
  pieces := [⟨[0x11, 0x22], 0x00, by decide⟩, ⟨[], 0x80, by decide⟩]
  short := by decide
  plain := by decide
  nonempty := by decide
  few := by decide

/-- An unnamed file of one byte. -/
def unnamedFile : SourceFile where
  name := []
  load := 0
  exec := 0
  locked := false
  pieces := [⟨[0x33], 0x80, by decide⟩]
  short := by decide
  plain := by decide
  nonempty := by decide
  few := by decide

/-- The first block in a chunk of its own, a chunk of another type, then the rest. -/
def mixedChunks : List Chunk :=
  [.data (lockedFile.blocks.take 1), .other 0x0110 [4, 0] (by decide),
    .data (lockedFile.blocks.drop 1 ++ unnamedFile.blocks)]

theorem mixedChunks_round_trip :
    (mediaExtract (tapeImage 10 0 mixedChunks) .unknown 0 2 = ⟨.ok, [0x11, 0x22]⟩) ∧
      (mediaCatalogue (tapeImage 10 0 mixedChunks) .unknown (some 2)).2.entries =
        [lockedFile.entry, unnamedFile.entry] := by
  have grouped : mixedChunks.flatMap Chunk.blocks =
      [lockedFile, unnamedFile].flatMap SourceFile.blocks := by decide +kernel
  obtain ⟨catalogue, _, extract⟩ := @tape_round_trip [lockedFile, unnamedFile] mixedChunks 10 0 .unknown 2
    grouped (by decide +kernel) (by decide) (by decide) (by decide)
  refine ⟨extract 0 lockedFile 2 rfl (by decide), ?_⟩
  rw [catalogue]
  rfl

end Pi1MHz.MediaCatalogue
