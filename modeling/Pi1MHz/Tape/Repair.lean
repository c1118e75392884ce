import Mathlib.Algebra.Ring.Nat
import Pi1MHz.Foundation.Framing

/-! FILEV stamp repair of UEF tapes (`uef_repair.c`). A window is the list of its bytes;
the chunk walk looks at the bytes from `position` on, and positions inside a chunk are
counted from its payload. -/
namespace Pi1MHz.UefRepair

/-- Little-endian reads; every call site is inside the bytes it is given. -/
def rd16 (p : List UInt8) (i : Nat) : Nat :=
  (p.getD i 0).toNat + 0x100 * (p.getD (i + 1) 0).toNat

theorem rd16_lt (p : List UInt8) (i : Nat) : rd16 p i < 0x10000 := by
  have low := (p.getD i 0).toNat_lt
  have high := (p.getD (i + 1) 0).toNat_lt
  rw [rd16]
  omega

def rd32 (p : List UInt8) (i : Nat) : Nat :=
  (p.getD i 0).toNat + 0x100 * (p.getD (i + 1) 0).toNat +
    0x10000 * (p.getD (i + 2) 0).toNat + 0x1000000 * (p.getD (i + 3) 0).toNat

/-- Acorn cassette CRC: CCITT with the polynomial applied high byte first. -/
def tapeCrcBit (crc : UInt16) : UInt16 :=
  if crc &&& 0x8000 ≠ 0 then (crc <<< 1) ^^^ 0x1021 else crc <<< 1

def tapeCrcByte (crc : UInt16) (byte : UInt8) : UInt16 :=
  (List.range 8).foldl (fun crc _ => tapeCrcBit crc) (crc ^^^ (byte.toUInt16 <<< 8))

def tapeCrc (data : List UInt8) : UInt16 := data.foldl tapeCrcByte 0

def char (c : Char) : UInt8 := c.toNat.toUInt8

def stampHexDigit (c : UInt8) : Bool :=
  (char '0' ≤ c && c ≤ char '9') || (char 'A' ≤ c && c ≤ char 'F') ||
    (char 'a' ≤ c && c ≤ char 'f')

/-- `?&212`, `!&212`, `?&213` or `!&213` with its `&` at `i`, not part of a longer address. -/
def stampAt (data : List UInt8) (i : Nat) : Bool :=
  data.getD i 0 == char '&' && data.getD (i + 1) 0 == char '2' &&
    data.getD (i + 2) 0 == char '1' &&
    (data.getD (i + 3) 0 == char '2' || data.getD (i + 3) 0 == char '3') &&
    !(decide (i + 4 < data.length) && stampHexDigit (data.getD (i + 4) 0)) &&
    i != 0 && (data.getD (i - 1) 0 == char '?' || data.getD (i - 1) 0 == char '!')

/-- The three digits become `900` or `901`. -/
def redirect (data : List UInt8) (i : Nat) : List UInt8 :=
  let last := if data.getD (i + 3) 0 == char '2' then char '0' else char '1'
  ((data.set (i + 1) (char '9')).set (i + 2) (char '0')).set (i + 3) last

@[simp] theorem redirect_length (data : List UInt8) (i : Nat) :
    (redirect data i).length = data.length := by
  simp [redirect]

/-- The scan of `repair_block_payload` from index `i`, with the count so far. -/
def repairFrom (i : Nat) (data : List UInt8) (repaired : Nat) : List UInt8 × Nat :=
  if i + 4 ≤ data.length then
    if stampAt data i then repairFrom (i + 1) (redirect data i) (repaired + 1)
    else repairFrom (i + 1) data repaired
  else (data, repaired)
termination_by data.length - i
decreasing_by
  · simp only [redirect_length]
    omega
  · omega

def repairBlockPayload (data : List UInt8) : List UInt8 × Nat := repairFrom 0 data 0

theorem repairFrom_length (i : Nat) (data : List UInt8) (repaired : Nat) :
    (repairFrom i data repaired).1.length = data.length := by
  induction i, data, repaired using repairFrom.induct with
  | case1 i data repaired room stamp ih =>
    rw [repairFrom, if_pos room, if_pos stamp, ih, redirect_length]
  | case2 i data repaired room plain ih => rw [repairFrom, if_pos room, if_neg plain, ih]
  | case3 i data repaired done => rw [repairFrom, if_neg done]

/-- The name scan of the span: up to twelve positions past the `*`. -/
def nameEnd (block : List UInt8) (i : Nat) : Nat :=
  if i < block.length ∧ i ≤ 11 ∧ block.getD i 0 ≠ 0 then nameEnd block (i + 1) else i
termination_by 12 - i

/-- Repair a chunk payload that starts with `*`, when it is a standard cassette block with
data; the data CRC is rewritten only when a token was. -/
def repairBlock (block : List UInt8) : List UInt8 × Nat :=
  let name := nameEnd block 1
  if name < block.length ∧ block.getD name 0 = 0 then
    let descriptor := name + 1
    let headerCrc := descriptor + 17
    let dataAt := headerCrc + 2
    if dataAt ≤ block.length ∧ descriptor + 13 ≤ block.length then
      let dataLength := rd16 block (descriptor + 10)
      let dataCrc := dataAt + dataLength
      if dataLength ≠ 0 ∧ dataCrc + 2 ≤ block.length then
        let (payload, hits) := repairBlockPayload ((block.drop dataAt).take dataLength)
        if hits ≠ 0 then
          let crc := tapeCrc payload
          (block.take dataAt ++ payload ++ [(crc >>> 8).toUInt8, (crc &&& 0xFF).toUInt8] ++
            block.drop (dataCrc + 2), hits)
        else (block, 0)
      else (block, 0)
    else (block, 0)
  else (block, 0)

/-- A whole chunk, header included: only `&0100` chunks holding `*` are looked into. -/
def repairChunk (chunk : List UInt8) : List UInt8 × Nat :=
  let block := chunk.drop 6
  if rd16 chunk 0 = 0x0100 ∧ 1 < block.length ∧ block.getD 0 0 = char '*' then
    (chunk.take 6 ++ (repairBlock block).1, (repairBlock block).2)
  else (chunk, 0)

theorem repairBlock_length (block : List UInt8) : (repairBlock block).1.length = block.length := by
  simp only [repairBlock]
  generalize nameEnd block 1 = name
  split
  · split
    · generalize rd16 block (name + 1 + 10) = dataLength
      split
      · rename_i room
        have payload := repairFrom_length 0 ((block.drop (name + 1 + 17 + 2)).take dataLength) 0
        split
        · simp only [repairBlockPayload, List.length_append, payload, List.length_take,
            List.length_drop, List.length_cons, List.length_nil]
          omega
        · rfl
      · rfl
    · rfl
  · rfl

theorem repairChunk_length (chunk : List UInt8) : (repairChunk chunk).1.length = chunk.length := by
  simp only [repairChunk]
  split
  · simp only [List.length_append, List.length_take, repairBlock_length, List.length_drop]
    omega
  · rfl

/-- Chunks other than `&0100` are left alone. -/
theorem repairChunk_other {chunk : List UInt8} (other : rd16 chunk 0 ≠ 0x0100) :
    (repairChunk chunk).1 = chunk := by
  simp [repairChunk, other]

/-- The chunk walk over the bytes from `position` on: the repaired bytes, how many of them
were complete chunks, and the tokens redirected. -/
def repairChunks (rest : List UInt8) : List UInt8 × Nat × Nat :=
  if 6 ≤ rest.length then
    let chunkLength := rd32 rest 2
    if rest.length < 6 + chunkLength then (rest, 0, 0)
    else
      let (chunk, hits) := repairChunk (rest.take (6 + chunkLength))
      let (after, framed, total) := repairChunks (rest.drop (6 + chunkLength))
      (chunk ++ after, 6 + chunkLength + framed, hits + total)
  else (rest, 0, 0)
termination_by rest.length
decreasing_by
  simp only [List.length_drop]
  omega

/-- Repair every complete chunk from `start`; returns the window, the offset just past the
last of them and the number of tokens redirected. -/
def uefRepairFilevSpan (window : List UInt8) (start : Nat) : List UInt8 × Nat × Nat :=
  if window.length < start then (window, window.length, 0)
  else
    let (after, framed, total) := repairChunks (window.drop start)
    (window.take start ++ after, start + framed, total)

def uefRepairHeader : Nat := 12

def uefRepairFilevStamp (window : List UInt8) : List UInt8 × Nat :=
  let (window, _, repaired) := uefRepairFilevSpan window uefRepairHeader
  (window, repaired)

/-- A chunk announces its length in the last four bytes of its header. -/
def chunkSize (bytes : List UInt8) : Option Nat :=
  if 6 ≤ bytes.length then some (6 + rd32 bytes 2) else none

theorem rd32_append (xs ys : List UInt8) (i : Nat) (inside : i + 4 ≤ xs.length) :
    rd32 (xs ++ ys) i = rd32 xs i := by
  simp only [rd32, List.getD_eq_getElem?_getD]
  rw [List.getElem?_append_left (by omega), List.getElem?_append_left (by omega),
    List.getElem?_append_left (by omega), List.getElem?_append_left (by omega)]

def chunks : Framing UInt8 where
  size := chunkSize
  positive := by
    intro xs n size
    simp only [chunkSize, Option.ite_none_right_eq_some, Option.some.injEq] at size
    omega
  stable := by
    intro xs n ys size
    simp only [chunkSize, Option.ite_none_right_eq_some, Option.some.injEq] at size ⊢
    refine ⟨by simp; omega, ?_⟩
    rw [rd32_append _ _ _ (by omega)]
    exact size.2

/-- The byte effect of the repair on one chunk. -/
def repaired (chunk : List UInt8) : List UInt8 := (repairChunk chunk).1

theorem repairChunks_none {rest : List UInt8} (stop : chunks.split rest = none) :
    repairChunks rest = (rest, 0, 0) := by
  rw [repairChunks]
  simp only [Framing.split, chunks, chunkSize] at stop
  split
  · rename_i header
    simp only [header, if_true, ite_eq_right_iff, reduceCtorEq, imp_false] at stop
    rw [if_pos (by omega)]
  · rfl

theorem repairChunks_some {rest c after : List UInt8} (found : chunks.split rest = some (c, after)) :
    repairChunks rest = ((repairChunk c).1 ++ (repairChunks after).1,
      c.length + (repairChunks after).2.1, (repairChunk c).2 + (repairChunks after).2.2) := by
  rw [repairChunks]
  obtain ⟨size, same⟩ := Framing.split_eq_some.mp found
  simp only [chunks, chunkSize, Option.ite_none_right_eq_some, Option.some.injEq] at size
  have whole : ¬ rest.length < 6 + rd32 rest 2 := by
    rw [size.2, same, List.length_append]
    omega
  have front : rest.take (6 + rd32 rest 2) = c := by
    rw [size.2]
    conv => lhs; rw [same]
    simp
  have back : rest.drop (6 + rd32 rest 2) = after := by
    rw [size.2]
    conv => lhs; rw [same]
    simp
  rw [if_pos size.1]
  simp only [if_neg whole, front, back]
  rw [size.2]

/-- The loop of the span is the walk over complete chunks. -/
theorem repairChunks_walk (rest : List UInt8) :
    (repairChunks rest).1 = (chunks.walk repaired rest).1 ++ (chunks.walk repaired rest).2 ∧
      (repairChunks rest).2.1 = (chunks.walk repaired rest).1.length := by
  have preserves : ∀ c, (repaired c).length = c.length := repairChunk_length
  refine Framing.walk_induction (F := chunks) ?_ ?_ rest
  · intro rest stop
    rw [Framing.walk_none stop, repairChunks_none stop]
    exact ⟨rfl, rfl⟩
  · intro rest c after found ih
    rw [Framing.walk_some found, repairChunks_some found, ih.1, ih.2, List.append_assoc,
      List.length_append, preserves]
    exact ⟨rfl, rfl⟩

theorem uefRepairFilevSpan_inside (window : List UInt8) (start : Nat)
    (inside : start ≤ window.length) :
    let walked := chunks.walk repaired (window.drop start)
    (uefRepairFilevSpan window start).1 = window.take start ++ walked.1 ++ walked.2 ∧
      (uefRepairFilevSpan window start).2.1 = start + walked.1.length := by
  obtain ⟨bytes, framed⟩ := repairChunks_walk (window.drop start)
  simp only [uefRepairFilevSpan, if_neg (Nat.not_lt.mpr inside), bytes, framed,
    List.append_assoc]
  exact ⟨trivial, trivial⟩

theorem uefRepairFilevSpan_length (window : List UInt8) (start : Nat) :
    (uefRepairFilevSpan window start).1.length = window.length := by
  by_cases inside : start ≤ window.length
  · have kept := Framing.walk_length (F := chunks) (f := repaired) repairChunk_length
      (window.drop start)
    simp only [List.length_drop] at kept
    rw [(uefRepairFilevSpan_inside window start inside).1]
    simp only [List.length_append, List.length_take]
    omega
  · simp [uefRepairFilevSpan, Nat.lt_of_not_ge inside]

theorem uefRepairFilevStamp_length (window : List UInt8) :
    (uefRepairFilevStamp window).1.length = window.length :=
  uefRepairFilevSpan_length window uefRepairHeader

end Pi1MHz.UefRepair
