import Pi1MHz.Media.Oracle
import Pi1MHz.Tape.Blocks

/-! The verdicts on the CRCs of a tape. The catalogue reads a stored CRC low byte first, `uef_map`
reads it and `uef_repair` writes it high byte first: they agree on the CRCs with two equal bytes. -/
namespace Pi1MHz.UefMap
open UefRepair hiding nameEnd
open MediaCatalogue

section Crcs

/-- A CRC on the tape, with the CRC of the bytes that it covers. -/
structure StoredCrc where
  first : UInt8
  second : UInt8
  computed : UInt16
deriving DecidableEq, Repr

namespace StoredCrc

/-- Right when it is read high byte first. -/
def big (crc : StoredCrc) : Bool := crc.computed.toNat == 0x100 * crc.first.toNat + crc.second.toNat

/-- Right when it is read low byte first. -/
def little (crc : StoredCrc) : Bool := crc.first.toNat + 0x100 * crc.second.toNat == crc.computed.toNat

/-- The same in both orders. -/
def Twin (crc : StoredCrc) : Prop := crc.first = crc.second

instance (crc : StoredCrc) : Decidable crc.Twin := inferInstanceAs (Decidable (crc.first = crc.second))

theorem Twin.little_eq {crc : StoredCrc} (twin : crc.Twin) : crc.little = crc.big := by
  rw [little, big, twin, Bool.eq_iff_iff, beq_iff_eq, beq_iff_eq]
  omega

theorem twin_of_both {crc : StoredCrc} (high : crc.big = true) (low : crc.little = true) : crc.Twin := by
  rw [big, beq_iff_eq] at high
  rw [little, beq_iff_eq] at low
  have first := crc.first.toNat_lt
  have second := crc.second.toNat_lt
  exact UInt8.toNat_inj.mp (by omega)

/-- The two verdicts on a list of CRCs are the same when each of its CRCs reads the same in both
orders, unless both verdicts are bad. -/
theorem all_little_eq_iff (crcs : List StoredCrc) :
    crcs.all little = crcs.all big ↔
      (crcs.all big = true ∨ crcs.all little = true → ∀ crc ∈ crcs, crc.Twin) := by
  constructor
  · intro same good crc member
    have both : crcs.all big = true ∧ crcs.all little = true := by
      rcases good with high | low
      · exact ⟨high, same.trans high⟩
      · exact ⟨same.symm.trans low, low⟩
    exact twin_of_both (List.all_eq_true.mp both.1 crc member) (List.all_eq_true.mp both.2 crc member)
  · intro twins
    by_cases good : crcs.all big = true ∨ crcs.all little = true
    · rw [Bool.eq_iff_iff, List.all_eq_true, List.all_eq_true]
      refine forall₂_congr fun crc member => ?_
      rw [(twins good crc member).little_eq]
    · rw [not_or, Bool.not_eq_true, Bool.not_eq_true] at good
      rw [good.1, good.2]

/-- A CRC as the repair writes it. -/
def written (data : List UInt8) : StoredCrc where
  first := (tapeCrc data >>> 8).toUInt8
  second := (tapeCrc data &&& 0xFF).toUInt8
  computed := tapeCrc data

theorem written_big (data : List UInt8) : (written data).big = true := by
  have low : (tapeCrc data &&& 0xFF).toNat = (tapeCrc data).toNat % 256 := by
    rw [UInt16.toNat_and]
    exact Nat.and_two_pow_sub_one_eq_mod _ 8
  have high : (tapeCrc data >>> 8).toNat = (tapeCrc data).toNat / 256 := by
    rw [UInt16.toNat_shiftRight]
    exact Nat.shiftRight_eq_div_pow _ 8
  have bound := (tapeCrc data).toNat_lt
  simp only [big, written, UInt16.toNat_toUInt8, low, high, beq_iff_eq]
  omega

theorem written_little_iff (data : List UInt8) : (written data).little = true ↔ (written data).Twin := by
  constructor
  · exact twin_of_both (written_big data)
  · intro twin
    rw [twin.little_eq, written_big]

end StoredCrc

def headerCrc (payload : List UInt8) (nameEnd : Nat) : StoredCrc where
  first := payload.getD (nameEnd + 18) 0
  second := payload.getD (nameEnd + 19) 0
  computed := tapeCrc (slice payload 1 (nameEnd + 17))

def dataCrc (payload : List UInt8) (nameEnd : Nat) : StoredCrc where
  first := payload.getD (nameEnd + 20 + rd16 payload (nameEnd + 11)) 0
  second := payload.getD (nameEnd + 20 + rd16 payload (nameEnd + 11) + 1) 0
  computed := tapeCrc (slice payload (nameEnd + 20) (rd16 payload (nameEnd + 11)))

/-- The CRCs of a payload; a block without data has one. -/
def storedCrcs (payload : List UInt8) (nameEnd : Nat) : List StoredCrc :=
  headerCrc payload nameEnd ::
    if rd16 payload (nameEnd + 11) = 0 then [] else [dataCrc payload nameEnd]

/-- The data of a payload with its addresses redirected, and how many there were. -/
def redirectedData (payload : List UInt8) (nameEnd : Nat) : List UInt8 × Nat :=
  repairBlockPayload (slice payload (nameEnd + 20) (rd16 payload (nameEnd + 11)))

theorem littleOk_eq (payload : List UInt8) (nameEnd : Nat) :
    littleOk payload nameEnd = (storedCrcs payload nameEnd).all StoredCrc.little := by
  rw [littleOk, storedCrcs]
  by_cases empty : rd16 payload (nameEnd + 11) = 0
  · simp only [empty, beq_self_eq_true, Bool.true_or, if_true, List.all_cons, List.all_nil]
    rfl
  · have data : (rd16 payload (nameEnd + 11) == 0) = false := by simpa using empty
    simp only [data, if_neg empty, List.all_cons, List.all_nil, Bool.and_true, Bool.false_or]
    rfl

namespace InspectedBlock

/-- Both CRCs of a block are right to `inspect_cfs_block`. -/
def verified (block : InspectedBlock) : Bool := block.headerCrcOk && block.dataCrcOk

/-- The CRCs of a reported block; its name ends twenty bytes before its data. -/
def storedCrcs (raw : List UInt8) (block : InspectedBlock) : List StoredCrc :=
  UefMap.storedCrcs (block.payload raw) (block.dataOffsetInChunk - 20)

def redirected (raw : List UInt8) (block : InspectedBlock) : List UInt8 × Nat :=
  redirectedData (block.payload raw) (block.dataOffsetInChunk - 20)

/-- The CRCs of the block once the tape is repaired. -/
def repairedCrcs (raw : List UInt8) (block : InspectedBlock) : List StoredCrc :=
  UefMap.storedCrcs (repairBlock (block.payload raw)).1 (block.dataOffsetInChunk - 20)

end InspectedBlock

theorem describe_verified (payload : List UInt8) (e index offset : Nat) :
    (describe payload e index offset).verified = (storedCrcs payload e).all StoredCrc.big := by
  rw [InspectedBlock.verified, storedCrcs]
  by_cases empty : rd16 payload (e + 11) = 0
  · simp only [describe, Nat.add_assoc, Nat.reduceAdd, empty, beq_self_eq_true, Bool.true_or, if_true,
      List.all_cons, List.all_nil]
    rfl
  · have data : (rd16 payload (e + 11) == 0) = false := by simpa using empty
    simp only [describe, Nat.add_assoc, Nat.reduceAdd, data, if_neg empty, List.all_cons, List.all_nil,
      Bool.and_true, Bool.false_or]
    rw [← Nat.add_assoc e 20]
    rfl

end Crcs

section Repair

variable {payload : List UInt8} {nameEnd : Nat}

theorem repairName_framed (framed : Framed payload nameEnd) : UefRepair.nameEnd payload 1 = nameEnd := by
  have length := framed.length
  have short := framed.short
  obtain ⟨name, rfl⟩ := Nat.exists_eq_add_of_le framed.positive
  have limit : name ≤ UefRepair.repairNameLimit := by
    simp only [UefRepair.repairNameLimit]
    omega
  exact UefRepair.nameEnd_of_name (fun i before => framed.plain (1 + i) (by omega) (by omega))
    framed.nul (by omega) limit 0 (Nat.zero_le name)

theorem redirectedData_length (framed : Framed payload nameEnd) :
    (redirectedData payload nameEnd).1.length = rd16 payload (nameEnd + 11) := by
  have length := framed.length
  rw [redirectedData, repairBlockPayload, UefRepair.repairFrom_length]
  exact slice_length (by omega)

theorem redirectedData_empty (empty : rd16 payload (nameEnd + 11) = 0) :
    (redirectedData payload nameEnd).2 = 0 := by
  rw [redirectedData, empty, slice, List.take_zero, repairBlockPayload, UefRepair.repairFrom,
    if_neg (by simp)]

theorem repairBlock_kept (framed : Framed payload nameEnd)
    (kept : (redirectedData payload nameEnd).2 = 0) :
    (repairBlock payload).1 = payload := by
  rw [repairBlock, repairName_framed framed]
  dsimp only
  simp only [redirectedData, slice] at kept
  simp only [Nat.add_assoc, Nat.reduceAdd, kept]
  split
  · split
    · split <;> rfl
    · rfl
  · rfl

theorem repairBlock_rewritten (framed : Framed payload nameEnd)
    (hits : (redirectedData payload nameEnd).2 ≠ 0) :
    (repairBlock payload).1 = payload.take (nameEnd + 20) ++ (redirectedData payload nameEnd).1 ++
      [(StoredCrc.written (redirectedData payload nameEnd).1).first,
        (StoredCrc.written (redirectedData payload nameEnd).1).second] := by
  have length := framed.length
  have data : rd16 payload (nameEnd + 11) ≠ 0 := fun empty => hits (redirectedData_empty empty)
  rw [if_neg data] at length
  rw [repairBlock, repairName_framed framed]
  dsimp only
  simp only [redirectedData, slice] at hits ⊢
  simp only [Nat.add_assoc, Nat.reduceAdd]
  have behind : payload.drop (nameEnd + (20 + (rd16 payload (nameEnd + 11) + 2))) = [] :=
    List.drop_eq_nil_of_le (by omega)
  rw [if_pos ⟨by omega, framed.nul⟩, if_pos ⟨by omega, by omega⟩, if_pos ⟨data, by omega⟩, if_pos hits,
    behind, List.append_nil]
  rfl

section Shared

variable {other : List UInt8} {k i : Nat}

theorem getD_shared (same : other.take k = payload.take k) (inside : i < k) :
    other.getD i 0 = payload.getD i 0 := by
  have left := @getD_slice other 0 k i inside
  have right := @getD_slice payload 0 k i inside
  rw [Nat.zero_add, slice, List.drop_zero] at left right
  rw [← left, ← right, same]

theorem rd16_shared (same : other.take k = payload.take k) (inside : i + 2 ≤ k) :
    rd16 other i = rd16 payload i := by
  rw [rd16, rd16, getD_shared same (by omega), getD_shared same (by omega)]

theorem rd32_shared (same : other.take k = payload.take k) (inside : i + 4 ≤ k) :
    rd32 other i = rd32 payload i := by
  rw [rd32, rd32, getD_shared same (by omega), getD_shared same (by omega), getD_shared same (by omega),
    getD_shared same (by omega)]

theorem slice_shared {count : Nat} (same : other.take k = payload.take k) (inside : i + count ≤ k) :
    slice other i count = slice payload i count := by
  have left := @slice_slice other 0 k i count inside
  have right := @slice_slice payload 0 k i count inside
  rw [Nat.zero_add] at left right
  rw [← left, ← right]
  simp only [slice, List.drop_zero, same]

end Shared

/-- The repair leaves everything before the data as it is. -/
theorem repairBlock_take (framed : Framed payload nameEnd) :
    (repairBlock payload).1.take (nameEnd + 20) = payload.take (nameEnd + 20) := by
  have length := framed.length
  by_cases hits : (redirectedData payload nameEnd).2 = 0
  · rw [repairBlock_kept framed hits]
  · rw [repairBlock_rewritten framed hits, List.append_assoc, List.take_append_of_le_length,
      List.take_take, Nat.min_self]
    rw [List.length_take]
    omega

theorem repairBlock_framed (framed : Framed payload nameEnd) :
    Framed (repairBlock payload).1 nameEnd := by
  have same := repairBlock_take framed
  have size := rd16_shared same (show nameEnd + 11 + 2 ≤ nameEnd + 20 by omega)
  refine ⟨?_, framed.positive, framed.short, ?_, ?_, ?_⟩
  · rw [getD_shared same (by omega)]
    exact framed.star
  · intro i positive before
    rw [getD_shared same (by omega)]
    exact framed.plain i positive before
  · rw [getD_shared same (by omega)]
    exact framed.nul
  · rw [UefRepair.repairBlock_length, size]
    exact framed.length

theorem headerCrc_repairBlock (framed : Framed payload nameEnd) :
    headerCrc (repairBlock payload).1 nameEnd = headerCrc payload nameEnd := by
  have same := repairBlock_take framed
  rw [headerCrc, headerCrc, getD_shared same (by omega), getD_shared same (by omega),
    slice_shared same (by omega)]

theorem dataCrc_rewritten (framed : Framed payload nameEnd)
    (hits : (redirectedData payload nameEnd).2 ≠ 0) :
    dataCrc (repairBlock payload).1 nameEnd = StoredCrc.written (redirectedData payload nameEnd).1 := by
  have length := framed.length
  have dataLength := redirectedData_length framed
  have size := rd16_shared (repairBlock_take framed) (show nameEnd + 11 + 2 ≤ nameEnd + 20 by omega)
  have front : (payload.take (nameEnd + 20)).length = nameEnd + 20 := by
    rw [List.length_take]
    omega
  have before : (payload.take (nameEnd + 20) ++ (redirectedData payload nameEnd).1).length =
      nameEnd + 20 + rd16 payload (nameEnd + 11) := by
    rw [List.length_append, front, dataLength]
  rw [dataCrc, size, repairBlock_rewritten framed hits]
  refine StoredCrc.mk.injEq .. ▸ ⟨?_, ?_, ?_⟩
  · rw [List.getD_append_right _ _ _ _ (by omega), before, Nat.sub_self]
    rfl
  · rw [List.getD_append_right _ _ _ _ (by omega), before, Nat.add_sub_cancel_left]
    rfl
  · rw [slice, List.append_assoc, List.drop_left' front, List.take_left' dataLength]

/-- The CRCs of a repaired payload: the header keeps its own, redirected data has a new one. -/
theorem storedCrcs_repairBlock (framed : Framed payload nameEnd) :
    storedCrcs (repairBlock payload).1 nameEnd =
      if (redirectedData payload nameEnd).2 = 0 then storedCrcs payload nameEnd
      else [headerCrc payload nameEnd, .written (redirectedData payload nameEnd).1] := by
  split
  · rename_i kept
    rw [repairBlock_kept framed kept]
  · rename_i hits
    have data : rd16 payload (nameEnd + 11) ≠ 0 := fun empty => hits (redirectedData_empty empty)
    have size := rd16_shared (repairBlock_take framed) (show nameEnd + 11 + 2 ≤ nameEnd + 20 by omega)
    rw [storedCrcs, size, if_neg data, headerCrc_repairBlock framed, dataCrc_rewritten framed hits]

end Repair

section RepairedTape

variable {chunk : List UInt8}

theorem repaired_take (header : 6 ≤ chunk.length) : (repaired chunk).take 6 = chunk.take 6 := by
  rw [repaired, repairChunk]
  split
  · rw [List.take_append_of_le_length, List.take_take, Nat.min_self]
    rw [List.length_take]
    omega
  · rfl

theorem Sized.repaired (sized : Sized chunk) : Sized (repaired chunk) := by
  have same := repaired_take sized.header
  have length : (UefRepair.repaired chunk).length = chunk.length := repairChunk_length chunk
  refine ⟨length ▸ sized.header, ?_⟩
  rw [rd32_shared same (by omega), length]
  exact sized.length

/-- The repair of a chunk repairs the block it holds. -/
theorem tapePayload_repaired (sized : Sized chunk)
    (framed : ∀ payload ∈ tapePayload chunk, ∃ nameEnd, Framed payload nameEnd) :
    tapePayload (repaired chunk) = (tapePayload chunk).map fun payload => (repairBlock payload).1 := by
  by_cases holds : rd16 chunk 0 = uefChunkData ∧ (chunk.drop 6).getD 0 0 = 0x2a
  · have payload : tapePayload chunk = some (chunk.drop 6) := if_pos holds
    obtain ⟨nameEnd, block⟩ := framed (chunk.drop 6) (by simp [payload])
    have length := block.length
    have front : (chunk.take 6).length = 6 := by
      rw [List.length_take]
      exact Nat.min_eq_left sized.header
    have rewritten : repaired chunk = chunk.take 6 ++ (repairBlock (chunk.drop 6)).1 := by
      rw [repaired, repairChunk, if_pos ⟨holds.1, by omega, holds.2⟩]
    have behind : (repaired chunk).drop 6 = (repairBlock (chunk.drop 6)).1 := by
      rw [rewritten, List.drop_left' front]
    have kind : rd16 (repaired chunk) 0 = uefChunkData :=
      (rd16_shared (repaired_take sized.header) (by omega)).trans holds.1
    rw [payload, tapePayload, behind, if_pos ⟨kind, (repairBlock_framed block).star⟩]
    rfl
  · have nothing : tapePayload chunk = none := if_neg holds
    have kept : repaired chunk = chunk := by
      rw [repaired, repairChunk, if_neg fun block => holds ⟨block.1, block.2.2⟩]
    rw [kept, nothing]
    rfl

theorem walk_repaired {list : List (List UInt8)} (sized : ∀ chunk ∈ list, Sized chunk) :
    chunks.walk repaired list.flatten = ((list.map repaired).flatten, []) := by
  induction list with
  | nil => exact Framing.walk_none Framing.split_nil
  | cons chunk list ih =>
    obtain ⟨first, later⟩ := List.forall_mem_cons.mp sized
    have size : chunkSize chunk = some chunk.length := by
      rw [chunkSize, if_pos first.header, first.length]
    have found : chunks.split (chunk ++ list.flatten) = some (chunk, list.flatten) :=
      Framing.split_eq_some.mpr ⟨chunks.stable _ size, rfl⟩
    rw [List.flatten_cons, Framing.walk_some found, ih later]
    rfl

theorem ChunkList.repaired {raw : List UInt8} {list : List (List UInt8)} (tape : ChunkList raw list) :
    ChunkList (uefRepairFilevStamp raw).1 (list.map repaired) := by
  have header := tape.header
  have front : (raw.take uefHeaderLen).length = uefHeaderLen := by
    rw [List.length_take]
    exact Nat.min_eq_left header
  have behind : raw.drop uefHeaderLen = list.flatten := by
    conv => lhs; rw [← tape.whole]
    exact List.drop_left' front
  have image : (uefRepairFilevStamp raw).1 =
      raw.take uefHeaderLen ++ (list.map UefRepair.repaired).flatten := by
    have span := (uefRepairFilevSpan_inside raw uefRepairHeader header).1
    rw [show uefRepairHeader = uefHeaderLen from rfl, behind, walk_repaired tape.sized,
      List.append_nil] at span
    exact span
  refine ⟨?_, ?_, ?_, ?_⟩
  · rw [image, List.take_append_of_le_length (by rw [front]; decide), List.take_take]
    exact tape.magic
  · rw [image, List.length_append, front]
    omega
  · rw [image, List.take_left' front]
  · intro chunk member
    obtain ⟨original, among, rfl⟩ := List.mem_map.mp member
    exact (tape.sized original among).repaired

theorem tapePayloads_repaired {list : List (List UInt8)} (sized : ∀ chunk ∈ list, Sized chunk)
    (framed : ∀ payload ∈ list.filterMap tapePayload, ∃ nameEnd, Framed payload nameEnd) :
    (list.map repaired).filterMap tapePayload =
      (list.filterMap tapePayload).map fun payload => (repairBlock payload).1 := by
  rw [List.filterMap_map, List.map_filterMap]
  refine List.filterMap_congr fun chunk member => ?_
  exact tapePayload_repaired (sized chunk member) fun payload holds =>
    framed payload (List.mem_filterMap.mpr ⟨chunk, member, holds⟩)

end RepairedTape

section Verdicts

/-- Every data chunk is one block. -/
def Cassette (raw : List UInt8) (report : Report) : Prop :=
  ∀ chunk ∈ report.chunks, chunk.type = uefChunkData → chunk.HoldsBlock raw

instance (raw : List UInt8) (report : Report) : Decidable (Cassette raw report) :=
  inferInstanceAs (Decidable (∀ chunk ∈ report.chunks, chunk.type = uefChunkData → chunk.HoldsBlock raw))

/-- The catalogue and `uef_map` judge every file alike. -/
def VerdictsAgree (raw : List UInt8) (report : Report) (kind : MediaKind) (n : Nat) : Prop :=
  (mediaCatalogue raw kind (some n)).2.entries.map (fun entry => entry.crcOk) =
    (oracleRuns report.cfsBlocks).map fun run => run.all InspectedBlock.verified

/-- When all blocks are right to `uef_map`, all files are right to the catalogue of the repaired
tape. -/
def RepairKeepsVerdicts (raw : List UInt8) (report : Report) (kind : MediaKind) (n : Nat) : Prop :=
  report.cfsBlocks.all InspectedBlock.verified = true →
    (mediaCatalogue (uefRepairFilevStamp raw).1 kind (some n)).2.entries.map (fun entry => entry.crcOk) =
      (oracleRuns report.cfsBlocks).map fun _ => true

/-- A file whose CRCs are all right in one byte order has CRCs of two equal bytes. -/
def OrderFree (raw : List UInt8) (run : List InspectedBlock) : Prop :=
  (run.flatMap (·.storedCrcs raw)).all StoredCrc.big = true ∨
      (run.flatMap (·.storedCrcs raw)).all StoredCrc.little = true →
    ∀ crc ∈ run.flatMap (·.storedCrcs raw), crc.Twin

instance (raw : List UInt8) (run : List InspectedBlock) : Decidable (OrderFree raw run) :=
  inferInstanceAs (Decidable (_ ∨ _ → _))

/-- On a tape whose CRCs are all right high byte first, redirected data has a CRC of two equal
bytes. -/
def RepairOrderFree (raw : List UInt8) (blocks : List InspectedBlock) : Prop :=
  (blocks.flatMap (·.storedCrcs raw)).all StoredCrc.big = true →
    ∀ block ∈ blocks, (block.redirected raw).2 ≠ 0 → (StoredCrc.written (block.redirected raw).1).Twin

instance (raw : List UInt8) (blocks : List InspectedBlock) : Decidable (RepairOrderFree raw blocks) :=
  inferInstanceAs (Decidable (_ → _))

/-- A block of the catalogue and of the report, with the CRCs that the catalogue looks at. -/
structure Judged (crcs : InspectedBlock → List StoredCrc) (found : FoundBlock)
    (inspected : InspectedBlock) : Prop extends Akin found inspected where
  crcOk : found.crcOk = (crcs inspected).all StoredCrc.little

variable {raw image : List UInt8} {blocks : List InspectedBlock}

theorem Reported.described {payload : List UInt8} {block : InspectedBlock}
    (entry : Reported raw payload block) :
    ∃ e index offset, Framed payload e ∧ block = describe payload e index offset ∧
      block.payload raw = payload ∧ block.dataOffsetInChunk - 20 = e := by
  obtain ⟨e, index, offset, framed, same⟩ := entry.inspects.framed
  refine ⟨e, index, offset, framed, same, entry.payload, ?_⟩
  rw [same]
  exact Nat.add_sub_cancel e 20

theorem judged_stored {payload : List UInt8} {found : FoundBlock} {block : InspectedBlock}
    (finds : Finds payload found) (entry : Reported raw payload block) :
    Judged (·.storedCrcs raw) found block := by
  obtain ⟨e, framed, rfl⟩ := finds
  obtain ⟨e', index, offset, framed', same, bytes, place⟩ := entry.described
  obtain rfl := framed.unique framed'
  refine ⟨same ▸ foundBlock_akin payload e index offset, ?_⟩
  rw [InspectedBlock.storedCrcs, bytes, place, foundBlock, littleOk_eq]

theorem judged_repaired {payload : List UInt8} {found : FoundBlock} {block : InspectedBlock}
    (finds : Finds (repairBlock payload).1 found) (entry : Reported raw payload block) :
    Judged (·.repairedCrcs raw) found block := by
  obtain ⟨e, framed, rfl⟩ := finds
  obtain ⟨e', index, offset, framed', same, bytes, place⟩ := entry.described
  obtain rfl := framed.unique (repairBlock_framed framed')
  have shared := repairBlock_take framed'
  have akin := foundBlock_akin payload e index offset
  refine ⟨⟨?_, ?_⟩, ?_⟩
  · rw [same, akin.name, foundBlock, foundBlock, slice_shared shared (by omega)]
  · rw [same, akin.number, foundBlock, foundBlock, rd16_shared shared (by omega)]
  · rw [InspectedBlock.repairedCrcs, bytes, place, foundBlock, littleOk_eq]

theorem verified_eq {payload : List UInt8} {block : InspectedBlock}
    (entry : Reported raw payload block) :
    block.verified = (block.storedCrcs raw).all StoredCrc.big := by
  obtain ⟨e, index, offset, framed, same, bytes, place⟩ := entry.described
  rw [InspectedBlock.storedCrcs, bytes, place, same, describe_verified]

theorem repairedCrcs_eq {payload : List UInt8} {block : InspectedBlock}
    (entry : Reported raw payload block) :
    (block.redirected raw).2 = 0 ∧ block.repairedCrcs raw = block.storedCrcs raw ∨
      (block.redirected raw).2 ≠ 0 ∧ ∃ header ∈ block.storedCrcs raw,
        block.repairedCrcs raw = [header, .written (block.redirected raw).1] := by
  obtain ⟨e, index, offset, framed, same, bytes, place⟩ := entry.described
  rw [InspectedBlock.redirected, InspectedBlock.repairedCrcs, InspectedBlock.storedCrcs, bytes, place,
    storedCrcs_repairBlock framed]
  by_cases kept : (redirectedData payload e).2 = 0
  · exact .inl ⟨kept, if_pos kept⟩
  · exact .inr ⟨kept, headerCrc payload e, List.mem_cons_self, if_neg kept⟩

theorem fileEntry_crcOk (file : List FoundBlock) :
    (fileEntry file).crcOk = file.all fun block => block.crcOk := by
  cases file with
  | nil => rfl
  | cons first more => rfl

theorem judged_file {crcs : InspectedBlock → List StoredCrc} {file : List FoundBlock}
    {run : List InspectedBlock} (judged : List.Forall₂ (Judged crcs) file run) :
    (file.all fun block => block.crcOk) = (run.flatMap crcs).all StoredCrc.little := by
  induction judged with
  | nil => rfl
  | cons first _ ih => rw [List.all_cons, List.flatMap_cons, List.all_append, ih, first.crcOk]

/-- What the catalogue of a tape says of its files. -/
theorem catalogue_verdicts {list : List (List UInt8)} (chunkList : ChunkList image list)
    {crcs : InspectedBlock → List StoredCrc}
    (judged : List.Forall₂ (Judged crcs) (tapeBlocks image) blocks)
    {kind : MediaKind} {n : Nat} (tape : kind ≠ .ssd) (room : (oracleRuns blocks).length ≤ n) :
    (mediaCatalogue image kind (some n)).2.entries.map (fun entry => entry.crcOk) =
      (oracleRuns blocks).map fun run => (run.flatMap crcs).all StoredCrc.little := by
  have runs := akin_runs Judged.toAkin judged
  rw [chunkList.entries tape (runs.length_eq ▸ room), List.map_map, ← List.forall₂_eq_eq_eq,
    List.forall₂_map_left_iff, List.forall₂_map_right_iff]
  refine runs.imp fun file run related => ?_
  rw [Function.comp_apply, fileEntry_crcOk]
  exact judged_file related

theorem forall_runs {p : InspectedBlock → Prop} :
    (∀ run ∈ oracleRuns blocks, ∀ block ∈ run, p block) ↔ ∀ block ∈ blocks, p block := by
  have whole := List.flatten_splitBy InspectedBlock.joins blocks
  constructor
  · intro each block member
    rw [← whole] at member
    obtain ⟨run, inside, among⟩ := List.mem_flatten.mp member
    exact each run inside block among
  · intro each run inside block among
    refine each block ?_
    rw [← whole]
    exact List.mem_flatten.mpr ⟨run, inside, among⟩

theorem reported_of_mem {payloads : List (List UInt8)} {block : InspectedBlock}
    (reported : List.Forall₂ (Reported raw) payloads blocks) (member : block ∈ blocks) :
    ∃ payload, Reported raw payload block := by
  induction reported with
  | nil => cases member
  | cons first _ ih =>
    rcases List.mem_cons.mp member with rfl | later
    · exact ⟨_, first⟩
    · exact ih later

theorem all_verified {run : List InspectedBlock}
    (each : ∀ block ∈ run, ∃ payload, Reported raw payload block) :
    run.all InspectedBlock.verified = (run.flatMap (·.storedCrcs raw)).all StoredCrc.big := by
  induction run with
  | nil => rfl
  | cons block run ih =>
    obtain ⟨⟨payload, first⟩, later⟩ := List.forall_mem_cons.mp each
    rw [List.all_cons, List.flatMap_cons, List.all_append, ih later, verified_eq first]

theorem verdictsAgree_iff {list : List (List UInt8)} (chunkList : ChunkList raw list)
    {report : Report}
    (reported : List.Forall₂ (Reported raw) (list.filterMap tapePayload) report.cfsBlocks)
    {kind : MediaKind} {n : Nat} (tape : kind ≠ .ssd) (room : (oracleRuns report.cfsBlocks).length ≤ n) :
    VerdictsAgree raw report kind n ↔ ∀ run ∈ oracleRuns report.cfsBlocks, OrderFree raw run := by
  have judged : List.Forall₂ (Judged (·.storedCrcs raw)) (tapeBlocks raw) report.cfsBlocks := by
    refine (Runs.forall₂_through (chunkList.finds (framed_of_reported reported)) reported).imp ?_
    rintro found block ⟨payload, finds, entry⟩
    exact judged_stored finds entry
  have each := forall_runs.mpr fun block member => reported_of_mem reported member
  rw [VerdictsAgree, catalogue_verdicts chunkList judged tape room, List.map_inj_left]
  refine forall₂_congr fun run member => ?_
  rw [all_verified (each run member), StoredCrc.all_little_eq_iff]
  rfl

/-- Where no verdict hangs on the byte order, what is right high byte first is right low byte
first. -/
theorem little_of_orderFree (free : ∀ run ∈ oracleRuns blocks, OrderFree raw run)
    (good : (blocks.flatMap (·.storedCrcs raw)).all StoredCrc.big = true) :
    ∀ block ∈ blocks, ∀ crc ∈ block.storedCrcs raw, crc.little = true := by
  rw [List.all_eq_true] at good
  have right : ∀ run ∈ oracleRuns blocks, ∀ block ∈ run, ∀ crc ∈ block.storedCrcs raw,
      crc.big = true := by
    refine forall_runs.mpr fun block member crc stored => ?_
    exact good crc (List.mem_flatMap.mpr ⟨block, member, stored⟩)
  refine forall_runs.mp fun run member block among crc stored => ?_
  have twin : crc.Twin := by
    refine free run member (.inl ?_) crc (List.mem_flatMap.mpr ⟨block, among, stored⟩)
    refine List.all_eq_true.mpr fun other inside => ?_
    obtain ⟨holder, within_, held⟩ := List.mem_flatMap.mp inside
    exact right run member holder within_ other held
  rw [twin.little_eq]
  exact right run member block among crc stored

theorem repairKeepsVerdicts_iff {list : List (List UInt8)} (chunkList : ChunkList raw list)
    {report : Report}
    (reported : List.Forall₂ (Reported raw) (list.filterMap tapePayload) report.cfsBlocks)
    {kind : MediaKind} {n : Nat} (tape : kind ≠ .ssd) (room : (oracleRuns report.cfsBlocks).length ≤ n)
    (free : ∀ run ∈ oracleRuns report.cfsBlocks, OrderFree raw run) :
    RepairKeepsVerdicts raw report kind n ↔ RepairOrderFree raw report.cfsBlocks := by
  have framed := framed_of_reported reported
  have payloads := tapePayloads_repaired chunkList.sized framed
  have judged : List.Forall₂ (Judged (·.repairedCrcs raw)) (tapeBlocks (uefRepairFilevStamp raw).1)
      report.cfsBlocks := by
    have finds := chunkList.repaired.finds (by
      rw [payloads]
      intro payload member
      obtain ⟨original, among, rfl⟩ := List.mem_map.mp member
      obtain ⟨nameEnd, block⟩ := framed original among
      exact ⟨nameEnd, repairBlock_framed block⟩)
    rw [payloads, List.forall₂_map_left_iff] at finds
    refine (Runs.forall₂_through finds reported).imp ?_
    rintro found block ⟨payload, found, entry⟩
    exact judged_repaired found entry
  have each := fun block member => @reported_of_mem raw report.cfsBlocks _ block reported member
  rw [RepairKeepsVerdicts, RepairOrderFree, all_verified each,
    catalogue_verdicts chunkList.repaired judged tape room, List.map_inj_left]
  refine imp_congr_right fun good => ?_
  have little := little_of_orderFree free good
  have single : ∀ block ∈ report.cfsBlocks, (block.repairedCrcs raw).all StoredCrc.little = true ↔
      ((block.redirected raw).2 ≠ 0 → (StoredCrc.written (block.redirected raw).1).Twin) := by
    intro block member
    obtain ⟨payload, entry⟩ := each block member
    rcases repairedCrcs_eq entry with ⟨kept, same⟩ | ⟨hits, header, stored, same⟩
    · rw [same, List.all_eq_true]
      exact ⟨fun _ hits => absurd kept hits, fun _ => little block member⟩
    · have right := little block member header stored
      rw [same, ← StoredCrc.written_little_iff]
      simp [right, hits]
  calc (∀ run ∈ oracleRuns report.cfsBlocks,
        (run.flatMap (·.repairedCrcs raw)).all StoredCrc.little = true)
    _ ↔ ∀ run ∈ oracleRuns report.cfsBlocks, ∀ block ∈ run,
        (block.repairedCrcs raw).all StoredCrc.little = true := by
      simp only [List.all_flatMap, List.all_eq_true]
    _ ↔ ∀ block ∈ report.cfsBlocks, (block.repairedCrcs raw).all StoredCrc.little = true := forall_runs
    _ ↔ _ := forall₂_congr single

/-- The three decoders agree on the CRCs of a tape exactly when no verdict hangs on the byte order. -/
theorem verdicts_agree_iff {report : Report} {kind : MediaKind} {n : Nat}
    (accepted : inspectUef raw = .ok report) (cassette : Cassette raw report) (tape : kind ≠ .ssd)
    (room : (oracleRuns report.cfsBlocks).length ≤ n) :
    VerdictsAgree raw report kind n ∧ RepairKeepsVerdicts raw report kind n ↔
      (∀ run ∈ oracleRuns report.cfsBlocks, OrderFree raw run) ∧ RepairOrderFree raw report.cfsBlocks := by
  obtain ⟨list, chunkList, reported⟩ := inspectUef_chunks accepted
    fun chunk member data _ => cassette chunk member data
  rw [verdictsAgree_iff chunkList reported tape room]
  refine and_congr_right fun free => ?_
  exact repairKeepsVerdicts_iff chunkList reported tape room free

/-- One block with four addresses to redirect and CRCs of equal bytes, before and after the repair. -/
def twinTape : List UInt8 :=
  uefMagic ++ [10, 0] ++ [0x00, 0x01, 48, 0, 0, 0] ++
    [0x2a, 0x41, 0, 0, 0x19, 0, 0, 0x64, 0x19, 0, 0, 0, 0, 24, 0, 0x80, 0, 0, 0, 0, 0x5e, 0x5e] ++
    [0x3f, 0x26, 0x32, 0x31, 0x32, 0x20, 0x20, 0x3f, 0x26, 0x32, 0x31, 0x32] ++
    [0x3f, 0x26, 0x32, 0x31, 0x32, 0x4e, 0x3a, 0x3f, 0x26, 0x32, 0x31, 0x32] ++ [0x84, 0x84]

def twinReport : Report := (inspectUef twinTape).toOption.getD ⟨[], []⟩

theorem twinTape_verdicts :
    (uefRepairFilevStamp twinTape).2 = 4 ∧ VerdictsAgree twinTape twinReport .unknown 4 ∧
      RepairKeepsVerdicts twinTape twinReport .unknown 4 :=
  ⟨by decide +kernel, (verdicts_agree_iff (by decide +kernel) (by decide +kernel) (by decide)
    (by decide +kernel)).mpr ⟨by decide +kernel, by decide +kernel⟩⟩

/-- One block of one byte, with the CRCs &30FC and &70E7 as a cassette has them. -/
def cassetteTape : List UInt8 :=
  uefMagic ++ [10, 0] ++ [0x00, 0x01, 25, 0, 0, 0] ++
    [0x2a, 0x41, 0, 0, 0x19, 0, 0, 0, 0x19, 0, 0, 0, 0, 1, 0, 0x80, 0, 0, 0, 0, 0x30, 0xfc, 7, 0x70, 0xe7]

def cassetteReport : Report := (inspectUef cassetteTape).toOption.getD ⟨[], []⟩

/-- The block is right to `uef_map` and wrong to the catalogue, repaired or not. -/
theorem cassetteTape_misjudged :
    inspectUef cassetteTape = .ok cassetteReport ∧ Cassette cassetteTape cassetteReport ∧
      cassetteReport.cfsBlocks.map InspectedBlock.verified = [true] ∧
      (mediaCatalogue cassetteTape .uef (some 4)).2.entries.map (fun entry => entry.crcOk) = [false] ∧
      (uefRepairFilevStamp cassetteTape).1 = cassetteTape ∧
      ¬ VerdictsAgree cassetteTape cassetteReport .uef 4 ∧
      ¬ RepairKeepsVerdicts cassetteTape cassetteReport .uef 4 := by
  have bad : (mediaCatalogue cassetteTape .uef (some 4)).2.entries.map (fun entry => entry.crcOk) =
      [false] := by
    decide +kernel
  have kept : (uefRepairFilevStamp cassetteTape).1 = cassetteTape := by decide +kernel
  refine ⟨by decide +kernel, by decide +kernel, by decide +kernel, bad, kept, ?_, ?_⟩
  · rw [VerdictsAgree, bad]
    decide +kernel
  · rw [RepairKeepsVerdicts, kept, bad]
    decide +kernel

end Verdicts

end Pi1MHz.UefMap
