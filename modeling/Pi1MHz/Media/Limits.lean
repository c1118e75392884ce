import Pi1MHz.Media.Oracle
import Pi1MHz.Tape.Blocks

/-! The three decoders of cassette blocks. Each looks for the end of the name in its own way and
gives up at its own length; apart from that they accept the same payloads. -/
namespace Pi1MHz.CassetteDecoders
open UefRepair (CassetteBlock char rd16 scannedBlock scannedBlock_iff repairNameLimit)
open UefMap (inspectCfsBlock InspectedBlock)
open MediaCatalogue (cfsDecodeBlock CfsBlock)

/-- A complete block with data whose name has at most `limit` characters. -/
def Accepted (limit : Nat) (block : List UInt8) : Prop :=
  ∃ name ≤ limit, ∃ size, CassetteBlock block name size

/-- The block that the comment of `uef_repair_filev_span` describes. -/
def Documented (block : List UInt8) : Prop :=
  ∃ name size, 1 ≤ name ∧ name ≤ 10 ∧ CassetteBlock block name size

/-- The tests of `uef_repair_filev_span` on the payload of a `&0100` chunk before it scans. -/
def Scanned (block : List UInt8) : Prop :=
  1 < block.length ∧ block.getD 0 0 = char '*' ∧ ∃ dataAt size, scannedBlock block = some (dataAt, size)

/-- `inspect_cfs_block` returns a block with data. -/
def Inspected (index offset : Nat) (block : List UInt8) : Prop :=
  ∃ inspected, inspectCfsBlock block index offset = .ok (some inspected) ∧ inspected.dataLength ≠ 0

/-- `cfs_decode_block` decodes a block with data at the start of a payload at `pos`. -/
def Decoded (image : List UInt8) (pos : Nat) (block : List UInt8) : Prop :=
  ∃ next decoded, cfsDecodeBlock image (pos + block.length) pos = some (next, decoded) ∧
    decoded.dataLength ≠ 0

section Acceptance
variable {block : List UInt8}

theorem scanned_iff : Scanned block ↔ Accepted 11 block := by
  constructor
  · rintro ⟨_, star, dataAt, size, scanned⟩
    obtain ⟨name, short, complete, _⟩ := (scannedBlock_iff star).mp scanned
    exact ⟨name, short, size, complete⟩
  · rintro ⟨name, short, size, complete⟩
    have whole := complete.complete
    exact ⟨by omega, complete.star, name + 21, size,
      (scannedBlock_iff complete.star).mpr ⟨name, short, complete, rfl⟩⟩

/-- The search of `inspect_cfs_block` for the end of the name. -/
theorem nameEnd_of_block {name size : Nat} (complete : CassetteBlock block name size)
    (short : name ≤ 10) : UefMap.nameEnd block = some (1 + name) := by
  have whole := complete.complete
  have cell : ∀ i < 11, ((block.drop 1).take 11).getD i 0 = block.getD (1 + i) 0 :=
    fun i inside => UefMap.getD_slice inside
  have room : name < ((block.drop 1).take 11).length := by
    rw [List.length_take, List.length_drop]
    omega
  have found : ((block.drop 1).take 11).findIdx? (· == 0) = some name := by
    refine List.findIdx?_eq_some_iff_getElem.mpr ⟨room, ?_, ?_⟩
    · have here := cell name (by omega)
      rw [List.getD_eq_getElem _ _ room, complete.nul] at here
      rw [here]
      rfl
    · intro i before
      have here := cell i (by omega)
      rw [List.getD_eq_getElem _ _ (by omega)] at here
      rw [here]
      simpa using complete.letters i before
  rw [UefMap.nameEnd, found, Option.map_some, Nat.add_comm]

theorem inspected_iff (index offset : Nat) : Inspected index offset block ↔ Accepted 10 block := by
  constructor
  · rintro ⟨inspected, found, data⟩
    obtain ⟨stop, star, ends, enough, rfl⟩ := UefMap.inspectCfsBlock_some found
    obtain ⟨positive, short, plain, nul⟩ := UefMap.nameEnd_eq_some ends
    obtain ⟨name, rfl⟩ := Nat.exists_eq_add_of_le positive
    have place : 1 + name + 11 = name + 12 := by omega
    have filled : rd16 block (name + 12) ≠ 0 := by
      rw [← place]
      exact data
    rw [place, if_neg filled] at enough
    refine ⟨name, by omega, rd16 block (name + 12), star, ?_, nul, rfl, filled, by omega⟩
    intro i before
    exact plain (1 + i) (by omega) (by omega)
  · rintro ⟨name, short, size, complete⟩
    have whole := complete.complete
    have place : 1 + name + 1 + 10 = name + 12 := by omega
    have star : ¬block.getD 0 0 ≠ 0x2a := not_not_intro complete.star
    refine ⟨UefMap.describe block (1 + name) index offset, ?_, ?_⟩
    · rw [inspectCfsBlock, if_neg star, nameEnd_of_block complete short]
      dsimp only
      rw [place, complete.length, if_neg (by omega), if_neg complete.data, if_neg (by omega)]
    · show rd16 block (1 + name + 1 + 10) ≠ 0
      rw [place, complete.length]
      exact complete.data

/-- What the name scan of the catalogue passed over, and where it can have stopped. -/
theorem nameStop_passed (image : List UInt8) (chunkEnd pos count : Nat) (low : count ≤ 15) :
    let stop := MediaCatalogue.nameStop image chunkEnd pos count
    pos ≤ stop ∧ stop + count ≤ pos + 15 ∧ ∀ j, pos ≤ j → j < stop → image.getD j 0 ≠ 0 := by
  induction pos, count using MediaCatalogue.nameStop.induct image chunkEnd with
  | case1 pos count more ih =>
    have limit : count < 15 := more.2.2
    obtain ⟨past, high, passed⟩ := ih (by omega)
    rw [MediaCatalogue.nameStop, if_pos more]
    refine ⟨by omega, by omega, fun j from_ before => ?_⟩
    by_cases same : j = pos
    · rw [same]
      exact more.2.1
    · exact passed j (by omega) before
  | case2 pos count done =>
    rw [MediaCatalogue.nameStop, if_neg done]
    exact ⟨Nat.le_refl pos, by omega, fun j from_ before => by omega⟩

/-- The tests that a block with data has passed. -/
theorem cfsDecodeBlock_data_iff (image : List UInt8) (chunkEnd pos : Nat) :
    (∃ next decoded, cfsDecodeBlock image chunkEnd pos = some (next, decoded) ∧
        decoded.dataLength ≠ 0) ↔
      let stop := MediaCatalogue.nameStop image chunkEnd (pos + 1) 0
      (pos < chunkEnd ∧ image.getD pos 0 = 0x2a) ∧ (stop < chunkEnd ∧ image.getD stop 0 = 0) ∧
        rd16 image (stop + 11) ≠ 0 ∧ stop + 20 + rd16 image (stop + 11) + 2 ≤ chunkEnd := by
  simp only [cfsDecodeBlock]
  generalize MediaCatalogue.nameStop image chunkEnd (pos + 1) 0 = stop
  simp only [Nat.add_assoc, Nat.reduceAdd]
  constructor
  · rintro ⟨next, decoded, found, data⟩
    split at found
    · cases found
    next begins =>
      split at found
      · cases found
      next ends =>
        split at found
        · cases found
        split at found
        next empty =>
          cases found
          exact absurd empty data
        split at found
        · cases found
        next filled room =>
          rw [not_or, not_not, Nat.not_le] at begins ends
          exact ⟨begins, ends, filled, by omega⟩
  · rintro ⟨⟨inside, star⟩, ⟨ends, nul⟩, filled, room⟩
    have begins : ¬(chunkEnd ≤ pos ∨ image.getD pos 0 ≠ 0x2a) := by
      rw [not_or, not_not, Nat.not_le]
      exact ⟨inside, star⟩
    have named : ¬(chunkEnd ≤ stop ∨ image.getD stop 0 ≠ 0) := by
      rw [not_or, not_not, Nat.not_le]
      exact ⟨ends, nul⟩
    rw [if_neg begins, if_neg named, if_neg (by omega), if_neg filled, if_neg (by omega)]
    exact ⟨_, _, rfl, filled⟩

theorem decoded_iff {image : List UInt8} {pos : Nat} (stands : StandsAt image pos block) :
    Decoded image pos block ↔ Accepted 15 block := by
  have byte : ∀ i < block.length, image.getD (pos + i) 0 = block.getD i 0 :=
    fun i inside => UefMap.getD_stands stands inside
  rw [Decoded, cfsDecodeBlock_data_iff]
  constructor
  · obtain ⟨past, high, passed⟩ :=
      nameStop_passed image (pos + block.length) (pos + 1) 0 (Nat.zero_le 15)
    dsimp only
    generalize MediaCatalogue.nameStop image (pos + block.length) (pos + 1) 0 = stop at *
    rintro ⟨⟨inside, star⟩, ⟨ends, nul⟩, filled, room⟩
    obtain ⟨name, rfl⟩ := Nat.exists_eq_add_of_le past
    have place : pos + 1 + name + 11 = pos + (name + 12) := by omega
    rw [place, UefMap.rd16_stands stands (by omega)] at filled room
    refine ⟨name, by omega, rd16 block (name + 12), ?_, ?_, ?_, rfl, filled, by omega⟩
    · rw [← byte 0 (by omega)]
      exact star
    · intro i before
      rw [← byte (1 + i) (by omega), ← Nat.add_assoc]
      exact passed _ (by omega) (by omega)
    · rw [← byte (1 + name) (by omega), ← Nat.add_assoc]
      exact nul
  · rintro ⟨name, short, size, complete⟩
    have whole := complete.complete
    have letters : ∀ i < name, image.getD (pos + 1 + i) 0 ≠ 0 := by
      intro i before
      rw [Nat.add_assoc, byte (1 + i) (by omega)]
      exact complete.letters i before
    have nul : image.getD (pos + 1 + name) 0 = 0 := by
      rw [Nat.add_assoc, byte (1 + name) (by omega)]
      exact complete.nul
    have stop := UefMap.nameStop_first letters nul short
      (show pos + 1 + name < pos + block.length by omega)
    have place : pos + 1 + name + 11 = pos + (name + 12) := by omega
    dsimp only
    rw [stop, place, UefMap.rd16_stands stands (by omega), complete.length]
    exact ⟨⟨by omega, (byte 0 (by omega)).trans complete.star⟩, ⟨by omega, nul⟩, complete.data,
      by omega⟩

end Acceptance

/-- Every decoder accepts the payload exactly when it is a documented block. -/
def DecodersAgree (block : List UInt8) : Prop :=
  (Scanned block ↔ Documented block) ∧
    (∀ index offset, Inspected index offset block ↔ Documented block) ∧
    ∀ image pos, StandsAt image pos block → (Decoded image pos block ↔ Documented block)

theorem decodersAgree_iff_limits {block : List UInt8} :
    DecodersAgree block ↔ (Accepted 11 block ↔ Documented block) ∧
      (Accepted 10 block ↔ Documented block) ∧ (Accepted 15 block ↔ Documented block) := by
  constructor
  · rintro ⟨scanned, inspected, decoded⟩
    rw [scanned_iff] at scanned
    have first := inspected 0 0
    rw [inspected_iff] at first
    have whole : StandsAt block 0 block := List.prefix_refl block
    have alone := decoded block 0 whole
    rw [decoded_iff whole] at alone
    exact ⟨scanned, first, alone⟩
  · rintro ⟨scanned, inspected, decoded⟩
    refine ⟨scanned_iff.trans scanned, fun index offset => (inspected_iff index offset).trans inspected,
      fun image pos stands => (decoded_iff stands).trans decoded⟩

/-- The decoders agree unless the payload is a complete block with data whose name is empty or has
from eleven to fifteen characters. -/
theorem decoders_agree_iff (block : List UInt8) :
    DecodersAgree block ↔
      ∀ name size, CassetteBlock block name size → name ≠ 0 ∧ (name ≤ 10 ∨ 15 < name) := by
  rw [decodersAgree_iff_limits]
  constructor
  · rintro ⟨scanned, inspected, decoded⟩ name size complete
    by_cases long : 15 < name
    · exact ⟨by omega, .inr long⟩
    · obtain ⟨other, second, positive, short, same⟩ :=
        decoded.mp ⟨name, by omega, size, complete⟩
      obtain ⟨rfl, rfl⟩ := complete.unique same
      exact ⟨by omega, .inl short⟩
  · intro usual
    have limits : ∀ limit, 10 ≤ limit → limit ≤ 15 → (Accepted limit block ↔ Documented block) := by
      intro limit low high
      constructor
      · rintro ⟨name, within, size, complete⟩
        obtain ⟨positive, short | long⟩ := usual name size complete
        · exact ⟨name, size, by omega, short, complete⟩
        · omega
      · rintro ⟨name, size, positive, short, complete⟩
        exact ⟨name, by omega, size, complete⟩
    exact ⟨limits 11 (by decide) (by decide), limits 10 (by decide) (by decide),
      limits 15 (by decide) (by decide)⟩

/-- A block of one byte of data under a name of eleven characters. -/
def elevenLetters : List UInt8 :=
  char '*' :: List.replicate 11 (char 'A') ++ 0 :: List.replicate 10 0 ++ [1, 0] ++
    List.replicate 5 0 ++ [0, 0] ++ [char 'A'] ++ [0, 0]

theorem elevenLetters_block : CassetteBlock elevenLetters 11 1 where
  star := by decide
  letters := by decide
  nul := by decide
  length := by decide
  data := by decide
  complete := by decide

/-- The span scans the block and the catalogue decodes it; `uef_map` sees none. -/
theorem elevenLetters_disagree :
    Scanned elevenLetters ∧ Decoded elevenLetters 0 elevenLetters ∧ ¬Inspected 0 0 elevenLetters ∧
      ¬DecodersAgree elevenLetters := by
  have undocumented : ¬Documented elevenLetters := by
    rintro ⟨name, size, _, short, complete⟩
    have same := (complete.unique elevenLetters_block).1
    omega
  have scanned : Scanned elevenLetters := scanned_iff.mpr ⟨11, by decide, 1, elevenLetters_block⟩
  have whole : StandsAt elevenLetters 0 elevenLetters := List.prefix_refl elevenLetters
  refine ⟨scanned, ?_, ?_, fun agree => undocumented (agree.1.mp scanned)⟩
  · exact (decoded_iff whole).mpr ⟨11, by decide, 1, elevenLetters_block⟩
  · rw [inspected_iff]
    rintro ⟨name, short, size, complete⟩
    have same := (complete.unique elevenLetters_block).1
    omega

end Pi1MHz.CassetteDecoders
