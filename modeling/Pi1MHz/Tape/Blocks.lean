import Pi1MHz.Tape.Repair

/-! The cassette blocks that the repair looks into. -/
namespace Pi1MHz.UefRepair

/-- A complete cassette block with data: `*`, a name of `name` characters and its NUL, seventeen
bytes of descriptor and two of header CRC, and `size` bytes of data followed by their CRC. -/
structure CassetteBlock (block : List UInt8) (name size : Nat) : Prop where
  star : block.getD 0 0 = char '*'
  letters : ∀ i < name, block.getD (1 + i) 0 ≠ 0
  nul : block.getD (1 + name) 0 = 0
  length : rd16 block (name + 12) = size
  data : size ≠ 0
  complete : name + 21 + size + 2 ≤ block.length

/-- The longest name that the repair reads. -/
def repairNameLimit : Nat := 11

section Blocks
variable {block : List UInt8} {name size : Nat}

theorem CassetteBlock.unique {other second : Nat} (here : CassetteBlock block name size)
    (there : CassetteBlock block other second) : name = other ∧ size = second := by
  have same : name = other := by
    rcases Nat.lt_trichotomy name other with short | same | long
    · exact absurd here.nul (there.letters name short)
    · exact same
    · exact absurd there.nul (here.letters other long)
  subst same
  exact ⟨rfl, here.length.symm.trans there.length⟩

/-- The name scan stops at the first NUL, if it comes in time. -/
theorem nameEnd_of_name (letters : ∀ i < name, block.getD (1 + i) 0 ≠ 0)
    (nul : block.getD (1 + name) 0 = 0) (inside : name < block.length)
    (short : name ≤ repairNameLimit)
    (i : Nat) (before : i ≤ name) : nameEnd block (1 + i) = 1 + name := by
  induction left : name - i generalizing i with
  | zero =>
    have stop : i = name := by omega
    subst stop
    rw [nameEnd, if_neg]
    rintro ⟨_, _, more⟩
    exact more nul
  | succ left ih =>
    have limit : name ≤ 11 := short
    have letter := letters i (by omega)
    have more : 1 + i < block.length ∧ 1 + i ≤ 11 ∧ block.getD (1 + i) 0 ≠ 0 :=
      ⟨by omega, by omega, letter⟩
    rw [nameEnd, if_pos more]
    exact ih (i + 1) (by omega) (by omega)

/-- What the name scan passed over, and where it can have stopped. -/
theorem nameEnd_passed (i : Nat) (low : i ≤ 12) :
    i ≤ nameEnd block i ∧ nameEnd block i ≤ 12 ∧
      ∀ j, i ≤ j → j < nameEnd block i → block.getD j 0 ≠ 0 := by
  induction i using nameEnd.induct block with
  | case1 i more ih =>
    obtain ⟨past, high, passed⟩ := ih (by omega)
    rw [nameEnd, if_pos more]
    refine ⟨by omega, high, fun j from_ before => ?_⟩
    by_cases same : j = i
    · rw [same]
      exact more.2.2
    · exact passed j (by omega) before
  | case2 i done =>
    rw [nameEnd, if_neg done]
    exact ⟨Nat.le_refl i, low, fun j from_ before => by omega⟩

/-- Where the data that the span scans begins in a chunk's payload that starts with `*`, and its
length, if the span scans any. -/
def scannedBlock (block : List UInt8) : Option (Nat × Nat) :=
  let descriptor := nameEnd block 1 + 1
  let dataAt := descriptor + 17 + 2
  let dataLength := rd16 block (descriptor + 10)
  if (nameEnd block 1 < block.length ∧ block.getD (nameEnd block 1) 0 = 0) ∧
      (dataAt ≤ block.length ∧ descriptor + 13 ≤ block.length) ∧
      dataLength ≠ 0 ∧ dataAt + dataLength + 2 ≤ block.length then some (dataAt, dataLength)
  else none

/-- The two bytes of a data CRC. -/
def storedCrc (data : List UInt8) : List UInt8 :=
  [(tapeCrc data >>> 8).toUInt8, (tapeCrc data &&& 0xFF).toUInt8]

/-- A block with its data rewritten, and the CRC when a token was. -/
def rewriteAt (block : List UInt8) (dataAt size : Nat) : List UInt8 × Nat :=
  let (data, hits) := repairBlockPayload ((block.drop dataAt).take size)
  if hits ≠ 0 then
    (block.take dataAt ++ data ++ storedCrc data ++ block.drop (dataAt + size + 2), hits)
  else (block, 0)

theorem repairBlock_scanned {dataAt : Nat} (scanned : scannedBlock block = some (dataAt, size)) :
    repairBlock block = rewriteAt block dataAt size := by
  simp only [scannedBlock, Option.ite_none_right_eq_some, Option.some.injEq, Prod.mk.injEq] at scanned
  obtain ⟨⟨name, header, data⟩, rfl, rfl⟩ := scanned
  simp only [repairBlock, if_pos name, if_pos header, if_pos data]
  rfl

theorem repairBlock_passed (passed : scannedBlock block = none) : repairBlock block = (block, 0) := by
  simp only [scannedBlock, ite_eq_right_iff, reduceCtorEq, imp_false] at passed
  simp only [repairBlock]
  split
  next name =>
    split
    next header =>
      split
      next data => exact absurd ⟨name, header, data⟩ passed
      next => rfl
    next => rfl
  next => rfl

/-- The span scans the data of complete cassette blocks whose names are not too long for it. -/
theorem scannedBlock_iff {dataAt : Nat} (star : block.getD 0 0 = char '*') :
    scannedBlock block = some (dataAt, size) ↔
      ∃ name ≤ repairNameLimit, CassetteBlock block name size ∧ dataAt = name + 21 := by
  simp only [scannedBlock, Option.ite_none_right_eq_some, Option.some.injEq, Prod.mk.injEq]
  constructor
  · rintro ⟨⟨⟨inside, nul⟩, header, data⟩, rfl, rfl⟩
    obtain ⟨low, high, passed⟩ := @nameEnd_passed block 1 (by decide)
    generalize nameEnd block 1 = stop at *
    obtain ⟨name, rfl⟩ := Nat.exists_eq_add_of_le low
    have limit : name ≤ 11 := by omega
    have place : 1 + name + 1 + 10 = name + 12 := by omega
    rw [place] at data ⊢
    refine ⟨name, limit, ⟨star, ?_, nul, rfl, data.1, ?_⟩, ?_⟩
    · intro i before
      exact passed (1 + i) (by omega) (by omega)
    · omega
    · omega
  · rintro ⟨name, short, complete, rfl⟩
    have whole := complete.complete
    have stop := nameEnd_of_name complete.letters complete.nul (by omega) short 0 (Nat.zero_le _)
    have place : 1 + name + 1 + 10 = name + 12 := by omega
    rw [Nat.add_zero] at stop
    rw [stop, place, complete.length]
    have data := complete.data
    exact ⟨⟨⟨by omega, complete.nul⟩, ⟨by omega, by omega⟩, data, by omega⟩, by omega, rfl⟩

end Blocks

end Pi1MHz.UefRepair
