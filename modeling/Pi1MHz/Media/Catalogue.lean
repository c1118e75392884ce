import Pi1MHz.Tape.Repair

/-! Container parsing (`media_catalogue.c`): UEF cassette streams and DFS disc images. An
image is the list of its bytes; names are kept without their NUL. Sums of positions stay
far below the width of `size_t`. -/
namespace Pi1MHz.MediaCatalogue
open UefRepair

def mediaNameMax : Nat := 16
def mediaMaxEntries : Nat := 128

inductive MediaKind
  | unknown
  | uef
  | ssd
deriving DecidableEq, Repr

inductive MediaStatus
  | ok
  | errParam
  | errFormat
  | errRange
  | errTruncated
deriving DecidableEq, Repr

structure MediaEntry where
  name : List UInt8
  load : UInt32
  exec : UInt32
  length : UInt32
  offset : UInt32
  blocks : UInt16
  locked : Bool
  crcOk : Bool
deriving DecidableEq, Repr

/-- `media_catalogue_t`, with the entries written to the caller's array; `count` is their
number. -/
structure Catalogue where
  title : List UInt8
  kind : MediaKind
  entries : List MediaEntry
  total : Nat
  issues : UInt32
  bootOption : UInt8
deriving DecidableEq, Repr

def Catalogue.count (catalogue : Catalogue) : Nat := catalogue.entries.length

def Catalogue.empty (kind : MediaKind) : Catalogue := ⟨[], kind, [], 0, 0, 0⟩

def uefMagic : List UInt8 :=
  [char 'U', char 'E', char 'F', char ' ', char 'F', char 'i', char 'l', char 'e', char '!', 0]

def uefHeaderLen : Nat := 12
def uefChunkData : Nat := 0x0100

structure CfsBlock where
  name : List UInt8
  load : UInt32
  exec : UInt32
  block : UInt16
  dataLength : Nat
  flags : UInt8
  dataOffset : Nat
  crcOk : Bool

/-- The name scan: stops at a NUL, at the end of the chunk or after fifteen characters. -/
def nameStop (image : List UInt8) (chunkEnd pos nameLen : Nat) : Nat :=
  if pos < chunkEnd ∧ image.getD pos 0 ≠ 0 ∧ nameLen < mediaNameMax - 1 then
    nameStop image chunkEnd (pos + 1) (nameLen + 1)
  else pos
termination_by mediaNameMax - nameLen

def slice (image : List UInt8) (start length : Nat) : List UInt8 := (image.drop start).take length

/-- Decode the block at `pos`: the offset just past it, and the block. -/
def cfsDecodeBlock (image : List UInt8) (chunkEnd pos : Nat) : Option (Nat × CfsBlock) :=
  if chunkEnd ≤ pos ∨ image.getD pos 0 ≠ 0x2a then none
  else
    let nameStart := pos + 1
    let stop := nameStop image chunkEnd nameStart 0
    if chunkEnd ≤ stop ∨ image.getD stop 0 ≠ 0 then none
    else
      let fixed := stop + 1
      if chunkEnd < fixed + 17 + 2 then none
      else
        let dataLength := rd16 image (fixed + 10)
        let data := fixed + 17 + 2
        let headerOk := rd16 image (fixed + 17) ==
          (tapeCrc (slice image nameStart (fixed + 17 - nameStart))).toNat
        let block : CfsBlock := {
          name := slice image nameStart (stop - nameStart)
          load := (rd32 image fixed).toUInt32
          exec := (rd32 image (fixed + 4)).toUInt32
          block := (rd16 image (fixed + 8)).toUInt16
          dataLength
          flags := image.getD (fixed + 12) 0
          dataOffset := data
          crcOk := headerOk }
        if dataLength = 0 then some (data, block)
        else if chunkEnd < data + dataLength + 2 then none
        else
          let dataOk := rd16 image (data + dataLength) ==
            (tapeCrc (slice image data dataLength)).toNat
          some (data + dataLength + 2, { block with crcOk := headerOk && dataOk })

theorem nameStop_le (image : List UInt8) (chunkEnd pos nameLen : Nat) :
    pos ≤ nameStop image chunkEnd pos nameLen := by
  induction pos, nameLen using nameStop.induct image chunkEnd with
  | case1 pos nameLen more ih =>
    rw [nameStop, if_pos more]
    omega
  | case2 pos nameLen done =>
    have stops : nameStop image chunkEnd pos nameLen = pos := by rw [nameStop, if_neg done]
    exact Nat.le_of_eq stops.symm

/-- A decoded block is not empty, it keeps inside its chunk, and its data inside the block. -/
theorem cfsDecodeBlock_inside {image : List UInt8} {chunkEnd pos next : Nat} {block : CfsBlock}
    (decoded : cfsDecodeBlock image chunkEnd pos = some (next, block)) :
    pos < next ∧ pos + block.dataLength ≤ next ∧ block.dataOffset + block.dataLength ≤ next ∧
      next ≤ chunkEnd := by
  have stop := nameStop_le image chunkEnd (pos + 1) 0
  simp only [cfsDecodeBlock] at decoded
  split at decoded
  · cases decoded
  split at decoded
  · cases decoded
  split at decoded
  · cases decoded
  split at decoded
  · rename_i room empty
    cases decoded
    simp only [empty]
    omega
  split at decoded
  · cases decoded
  · cases decoded
    simp only
    omega

variable {σ : Type}

/-- The blocks of one `&0100` chunk from `bp` on. A chunk whose tail does not decode counts
as an issue when a block came before it. -/
def walkBlocks (image : List UInt8) (visit : σ → CfsBlock → σ) (data chunkEnd bp : Nat)
    (state : σ) (issues : UInt32) : σ × UInt32 :=
  if bp < chunkEnd then
    match _decoded : cfsDecodeBlock image chunkEnd bp with
    | none => (state, if bp ≠ data then issues + 1 else issues)
    | some (next, block) => walkBlocks image visit data chunkEnd next (visit state block) issues
  else (state, issues)
termination_by chunkEnd - bp
decreasing_by
  have later := (cfsDecodeBlock_inside _decoded).1
  omega

section Blocks

variable {image : List UInt8} {visit : σ → CfsBlock → σ} {data chunkEnd bp : Nat} {state : σ}
  {issues : UInt32}

theorem walkBlocks_stuck (more : bp < chunkEnd) (stuck : cfsDecodeBlock image chunkEnd bp = none) :
    walkBlocks image visit data chunkEnd bp state issues =
      (state, if bp ≠ data then issues + 1 else issues) := by
  rw [walkBlocks, if_pos more]
  split
  · rfl
  · rename_i next block decoded
    rw [stuck] at decoded
    cases decoded

theorem walkBlocks_step {next : Nat} {block : CfsBlock} (more : bp < chunkEnd)
    (decoded : cfsDecodeBlock image chunkEnd bp = some (next, block)) :
    walkBlocks image visit data chunkEnd bp state issues =
      walkBlocks image visit data chunkEnd next (visit state block) issues := by
  rw [walkBlocks, if_pos more]
  split
  · rename_i stuck
    rw [stuck] at decoded
    cases decoded
  · rename_i next' block' decoded'
    rw [decoded] at decoded'
    cases decoded'
    rfl

end Blocks

/-- The chunk walk of `uef_walk` from `pos` on. -/
def walkChunks (image : List UInt8) (visit : σ → CfsBlock → σ) (pos : Nat) (state : σ)
    (issues : UInt32) : MediaStatus × σ × UInt32 :=
  if pos + 6 ≤ image.length then
    let data := pos + 6
    let clen := rd32 image (pos + 2)
    if image.length < clen ∨ image.length < data + clen then (.errTruncated, state, issues + 1)
    else if rd16 image pos = uefChunkData then
      let (state, issues) := walkBlocks image visit data (data + clen) data state issues
      walkChunks image visit (data + clen) state issues
    else walkChunks image visit (data + clen) state issues
  else (.ok, state, issues)
termination_by image.length - pos

def uefWalk (image : List UInt8) (visit : σ → CfsBlock → σ) (state : σ) :
    MediaStatus × σ × UInt32 :=
  if image.length < uefHeaderLen ∨ image.take 10 ≠ uefMagic then (.errFormat, state, 0)
  else walkChunks image visit uefHeaderLen state 0

/-- `uef_group_t`: the entries written so far and whether the last of them is still open. -/
structure UefGroup where
  maxEntries : Nat
  entries : List MediaEntry
  total : Nat
  current : Option (List UInt8)
  openEntry : Bool

def CfsBlock.startsFile (block : CfsBlock) (current : Option (List UInt8)) : Bool :=
  current != some block.name || block.block == 0

def uefGroupBlock (g : UefGroup) (block : CfsBlock) : UefGroup :=
  if block.startsFile g.current then
    let g := { g with total := g.total + 1, current := some block.name, openEntry := false }
    if g.entries.length < g.maxEntries then
      let entry : MediaEntry := {
        name := block.name
        load := block.load
        exec := block.exec
        length := block.dataLength.toUInt32
        offset := 0
        blocks := 1
        locked := block.flags &&& 0x01 != 0
        crcOk := block.crcOk }
      { g with entries := g.entries ++ [entry], openEntry := true }
    else g
  else if g.openEntry then
    { g with entries := g.entries.modify (g.entries.length - 1) fun entry =>
        { entry with
          length := entry.length + block.dataLength.toUInt32
          blocks := entry.blocks + 1
          crcOk := entry.crcOk && block.crcOk } }
  else g

def dfsSector : Nat := 256
def dfsMaxFiles : Nat := 31

def printable (byte : UInt8) : Bool := 0x20 ≤ byte &&& 0x7f && byte &&& 0x7f ≤ 0x7e

def dfsPlausible (image : List UInt8) : Bool :=
  decide (2 * dfsSector ≤ image.length) && image.length % dfsSector == 0 &&
    let fileBytes := (image.getD (dfsSector + 5) 0).toNat
    fileBytes % 8 == 0 && decide (fileBytes / 8 ≤ dfsMaxFiles) &&
      (List.range (fileBytes / 8)).all fun i =>
        (List.range 8).all fun c => printable (image.getD (8 + i * 8 + c) 0)

/-- Title characters: the low seven bits, without NULs and spaces. -/
def titleBytes (bytes : List UInt8) : List UInt8 :=
  (bytes.map (· &&& 0x7f)).filter fun ch => ch != 0 && ch != 0x20

def signExtend (address : UInt32) : UInt32 :=
  if address &&& 0x30000 = 0x30000 then address ||| 0xfffc0000 else address

/-- Entry `i` of a DFS catalogue, with the issues it raises. -/
def dfsEntry (image : List UInt8) (sectorsTotal i : Nat) : MediaEntry × UInt32 :=
  let nm := 8 + i * 8
  let md := dfsSector + 8 + i * 8
  let extra := image.getD (md + 6) 0
  let high (shift : UInt8) : UInt32 := ((extra >>> shift) &&& 0x03).toUInt32 <<< 16
  let name := ((slice image nm 7).map (· &&& 0x7f)).takeWhile (· != 0x20)
  let startSector := (image.getD (md + 7) 0).toNat + (extra &&& 0x03).toNat * 0x100
  let length := (rd16 image (md + 4)).toUInt32 ||| high 4
  let offset := (startSector * dfsSector).toUInt32
  let runsOff := decide (image.length < offset.toNat + length.toNat)
  ({ name := (image.getD (nm + 7) 0 &&& 0x7f) :: char '.' :: name
     load := signExtend ((rd16 image md).toUInt32 ||| high 2)
     exec := signExtend ((rd16 image (md + 2)).toUInt32 ||| high 6)
     length
     offset
     blocks := 0
     locked := image.getD (nm + 7) 0 &&& 0x80 != 0
     crcOk := !runsOff },
    (if runsOff then 1 else 0) +
      (if sectorsTotal ≠ 0 ∧ sectorsTotal < startSector then 1 else 0))

def dfsCatalogue (image : List UInt8) (maxEntries : Nat) (summary : Catalogue) :
    MediaStatus × Catalogue :=
  if !dfsPlausible image then (.errFormat, summary)
  else
    let files := (image.getD (dfsSector + 5) 0).toNat / 8
    let mode := image.getD (dfsSector + 6) 0
    let sectorsTotal := (image.getD (dfsSector + 7) 0).toNat + (mode &&& 0x03).toNat * 0x100
    let decoded := (List.range files).map (dfsEntry image sectorsTotal)
    (.ok,
      { summary with
        bootOption := (mode >>> 4) &&& 0x0f
        title := titleBytes (image.take 8) ++ titleBytes (slice image dfsSector 4)
        total := files
        issues := summary.issues + (decoded.map Prod.snd).foldl (· + ·) 0
        entries := summary.entries ++ (decoded.map Prod.fst).take (maxEntries - summary.count) })

def mediaIdentify (image : List UInt8) : MediaKind :=
  if uefHeaderLen ≤ image.length ∧ image.take 10 = uefMagic then .uef
  else if dfsPlausible image then .ssd
  else .unknown

/-- `none` stands for counting only, with no array to fill. -/
def mediaCatalogue (image : List UInt8) (kind : MediaKind) (entries : Option Nat) :
    MediaStatus × Catalogue :=
  if entries = some 0 then (.errParam, .empty .unknown)
  else
    let kind := if kind = .unknown then mediaIdentify image else kind
    let summary := Catalogue.empty kind
    match kind with
    | .uef =>
      let group : UefGroup := ⟨entries.getD 0, [], 0, none, false⟩
      let (status, group, issues) := uefWalk image uefGroupBlock group
      (if status = .errFormat then .errFormat else .ok,
        { summary with entries := group.entries, total := group.total, issues })
    | .ssd => dfsCatalogue image (entries.getD 0) summary
    | .unknown => (.errFormat, summary)

/-- `uef_copy_t`; `out` holds the bytes written to the caller's buffer. -/
structure UefCopy where
  want : Nat
  seen : Nat
  current : Option (List UInt8)
  out : List UInt8
  capacity : Nat
  overflow : Bool

def uefCopyBlock (image : List UInt8) (c : UefCopy) (block : CfsBlock) : UefCopy :=
  let c :=
    if block.startsFile c.current then
      { c with seen := if c.current.isSome then c.seen + 1 else c.seen, current := some block.name }
    else c
  if c.seen ≠ c.want then c
  else if block.dataLength = 0 then c
  else if c.capacity < c.out.length + block.dataLength then { c with overflow := true }
  else { c with out := c.out ++ slice image block.dataOffset block.dataLength }

/-- What an extraction leaves: its status and the bytes it stored at the start of `out`.
`*out_length` is their number on success and 0 otherwise. -/
structure Extraction where
  status : MediaStatus
  written : List UInt8

def Extraction.outLength (extraction : Extraction) : Nat :=
  if extraction.status = .ok then extraction.written.length else 0

def mediaExtract (image : List UInt8) (kind : MediaKind) (index capacity : Nat) : Extraction :=
  let kind := if kind = .unknown then mediaIdentify image else kind
  match kind with
  | .uef =>
    let (status, copy, _) := uefWalk image (uefCopyBlock image) ⟨index, 0, none, [], capacity, false⟩
    if status = .errFormat then ⟨status, copy.out⟩
    else if copy.overflow then ⟨.errRange, copy.out⟩
    else if copy.current.isNone ∨ copy.seen < index then ⟨.errRange, copy.out⟩
    else ⟨.ok, copy.out⟩
  | .ssd =>
    let (status, summary) := mediaCatalogue image kind (some mediaMaxEntries)
    if status ≠ .ok then ⟨status, []⟩
    else
      match summary.entries[index]? with
      | none => ⟨.errRange, []⟩
      | some entry =>
        if image.length < entry.offset.toNat + entry.length.toNat then ⟨.errTruncated, []⟩
        else if capacity < entry.length.toNat then ⟨.errRange, []⟩
        else ⟨.ok, slice image entry.offset.toNat entry.length.toNat⟩
  | .unknown => ⟨.errFormat, []⟩

def hexDigit (value : Nat) : UInt8 :=
  if value < 10 then (0x30 + value).toUInt8 else (0x41 + value - 10).toUInt8

def putHex (value : UInt32) (digits : Nat) : List UInt8 :=
  (List.range digits).map fun i => hexDigit (value.toNat / 16 ^ (digits - 1 - i) % 16)

/-- One catalogue line, or nothing when the buffer is too small for any. -/
def mediaFormatEntry (entry : MediaEntry) (capacity : Nat) : List UInt8 :=
  if capacity < 40 then []
  else
    let name := entry.name.take 11
    name ++ List.replicate (12 - name.length) (char ' ') ++ putHex entry.load 8 ++ [char ' '] ++
      putHex entry.exec 8 ++ [char ' '] ++ putHex entry.length 6 ++
      (if entry.locked then [char ' ', char 'L'] else []) ++
      (if entry.crcOk then [] else [char ' ', char '?'])

/-- A tape of a file `A` of one block and a file `B` of two. -/
def pairedTape : List UInt8 :=
  uefMagic ++ [10, 0] ++ [0x00, 0x01, 75, 0, 0, 0] ++
    [char '*', char 'A', 0, 0, 0x19, 0, 0, 0, 0x19, 0, 0, 0, 0, 1, 0, 0x80, 0, 0, 0, 0, 0, 0, 7, 0, 0] ++
    [char '*', char 'B', 0, 0, 0x19, 0, 0, 0, 0x19, 0, 0, 0, 0, 1, 0, 0x00, 0, 0, 0, 0, 0, 0, 8, 0, 0] ++
    [char '*', char 'B', 0, 0, 0x19, 0, 0, 0, 0x19, 0, 0, 1, 0, 1, 0, 0x80, 0, 0, 0, 0, 0, 0, 9, 0, 0]

end Pi1MHz.MediaCatalogue
