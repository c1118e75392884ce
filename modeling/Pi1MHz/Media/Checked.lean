import Pi1MHz.Foundation.Loop
import Pi1MHz.Media.Catalogue

/-! The functions of `media_catalogue.c` with every access to memory they make. A read outside the
image, a write outside an array, a sum that `size_t` does not hold and a string without its NUL
give `none`, and so does a loop that uses up its passes. Names are whole buffers of
`MEDIA_NAME_MAX` bytes here. -/
namespace Pi1MHz.MediaChecked
open MediaCatalogue
open Loop (Pass repeatPass)
open UefRepair (tapeCrc char)

/-- An image and the number of values of `size_t`. No C object takes half of them. -/
structure Image where
  bytes : List UInt8
  size : Nat
  wide : 0x100000000 ≤ size
  object : 2 * bytes.length < size

section Memory

def Image.length (image : Image) : Nat := image.bytes.length

def Image.read (image : Image) (i : Nat) : Option UInt8 := image.bytes[i]?

/-- A sum in `size_t`. -/
def Image.plus (image : Image) (a b : Nat) : Option Nat :=
  if a + b < image.size then some (a + b) else none

def Image.read16 (image : Image) (i : Nat) : Option Nat := do
  let low ← image.read i
  let high ← image.read (i + 1)
  return low.toNat + 0x100 * high.toNat

def Image.read32 (image : Image) (i : Nat) : Option Nat := do
  let low ← image.read16 i
  let high ← image.read16 (i + 2)
  return low + 0x10000 * high

/-- The bytes that `tape_crc`, `memcpy` and `memcmp` read one after the other. -/
def Image.readAll (image : Image) (start count : Nat) : Option (List UInt8) :=
  (List.range count).mapM fun i => image.read (start + i)

variable {α : Type}

def store (array : List α) (i : Nat) (value : α) : Option (List α) :=
  if i < array.length then some (array.set i value) else none

/-- `memcpy` to `array + i`. -/
def storeAll (array : List α) (i : Nat) : List α → Option (List α)
  | [] => some array
  | value :: rest => do
    let array ← store array i value
    storeAll array (i + 1) rest

/-- A C string, which ends in its buffer. -/
def cString (buffer : List UInt8) : Option (List UInt8) :=
  if 0 ∈ buffer then some (buffer.takeWhile (· ≠ 0)) else none

end Memory

section Tapes

/-- One pass of the scan for the end of a name, with the position and the length so far. -/
def nameBody (image : Image) (chunkEnd : Nat) (s : Nat × Nat) : Option (Pass (Nat × Nat)) :=
  if s.1 < chunkEnd then do
    let byte ← image.read s.1
    if byte ≠ 0 ∧ s.2 < mediaNameMax - 1 then
      let pos ← image.plus s.1 1
      return .again (pos, s.2 + 1)
    return .leave s
  else return .leave s

/-- `cfs_decode_block`; the outer `none` is a fault, the inner one a block refused. -/
def cfsDecodeBlock (image : Image) (passes chunkEnd pos : Nat) :
    Option (Option (Nat × CfsBlock)) := do
  if chunkEnd ≤ pos then return none
  if (← image.read pos) ≠ 0x2a then return none
  let nameStart ← image.plus pos 1
  let (stop, nameLen) ← repeatPass (nameBody image chunkEnd) passes (nameStart, 0)
  if chunkEnd ≤ stop then return none
  if (← image.read stop) ≠ 0 then return none
  let pos ← image.plus stop 1
  let crcAt ← image.plus pos 17
  let data ← image.plus crcAt 2
  if chunkEnd < data then return none
  let text ← image.readAll nameStart nameLen
  let name ← storeAll (List.replicate mediaNameMax 0) 0 text
  let name ← store name nameLen 0
  let load ← image.read32 pos
  let exec ← image.read32 (pos + 4)
  let number ← image.read16 (pos + 8)
  let dataLength ← image.read16 (pos + 10)
  let flags ← image.read (pos + 12)
  let storedCrc ← image.read16 crcAt
  let header ← image.readAll nameStart (crcAt - nameStart)
  let block : CfsBlock := {
    name
    load := load.toUInt32
    exec := exec.toUInt32
    block := number.toUInt16
    dataLength
    flags
    dataOffset := data
    crcOk := storedCrc == (tapeCrc header).toNat }
  if dataLength = 0 then return some (data, block)
  let dataEnd ← image.plus data dataLength
  let next ← image.plus dataEnd 2
  if chunkEnd < next then return none
  let bytes ← image.readAll data dataLength
  let storedCrc ← image.read16 dataEnd
  return some (next, { block with crcOk := block.crcOk && storedCrc == (tapeCrc bytes).toNat })

variable {τ : Type}

/-- One pass of the loop over the blocks of a chunk. -/
def blockBody (image : Image) (passes : Nat) (visit : τ → CfsBlock → Option τ) (data chunkEnd : Nat)
    (s : Nat × τ × UInt32) : Option (Pass (Nat × τ × UInt32)) :=
  let (bp, state, issues) := s
  if bp < chunkEnd then do
    match ← cfsDecodeBlock image passes chunkEnd bp with
    | none => return .leave (bp, state, if bp ≠ data then issues + 1 else issues)
    | some (next, block) => return .again (next, ← visit state block, issues)
  else return .leave s

/-- A walk between two chunks, or after the last one. -/
structure Walk (τ : Type) where
  status : MediaStatus
  pos : Nat
  state : τ
  issues : UInt32

/-- One pass of the loop over the chunks. -/
def chunkBody (image : Image) (passes : Nat) (visit : τ → CfsBlock → Option τ) (w : Walk τ) :
    Option (Pass (Walk τ)) := do
  if image.length < (← image.plus w.pos 6) then return .leave w
  let type ← image.read16 w.pos
  let clen ← image.read32 (w.pos + 2)
  let data ← image.plus w.pos 6
  if image.length < clen then
    return .leave { w with status := .errTruncated, issues := w.issues + 1 }
  let chunkEnd ← image.plus data clen
  if image.length < chunkEnd then
    return .leave { w with status := .errTruncated, issues := w.issues + 1 }
  if type = uefChunkData then
    let (_, state, issues) ← repeatPass (blockBody image passes visit data chunkEnd) passes
      (data, w.state, w.issues)
    return .again { w with pos := chunkEnd, state, issues }
  return .again { w with pos := chunkEnd }

def uefWalk (image : Image) (passes : Nat) (visit : τ → CfsBlock → Option τ) (state : τ) :
    Option (MediaStatus × τ × UInt32) := do
  if image.length < uefHeaderLen then return (.errFormat, state, 0)
  if (← image.readAll 0 10) ≠ uefMagic then return (.errFormat, state, 0)
  let w ← repeatPass (chunkBody image passes visit) passes ⟨.ok, uefHeaderLen, state, 0⟩
  return (w.status, w.state, w.issues)

/-- `uef_group_t`, with the caller's array, if there is one, and the index of the open entry. -/
structure Group where
  entries : Option (List MediaEntry)
  count : Nat
  total : Nat
  current : List UInt8
  haveCurrent : Bool
  openEntry : Option Nat

/-- Whether a block starts a file; the names are compared when there is a current one. -/
def startsFile (haveCurrent : Bool) (current : List UInt8) (block : CfsBlock) : Option Bool :=
  if !haveCurrent then some true
  else do
    let left ← cString current
    let right ← cString block.name
    return left != right || block.block == 0

def uefGroupBlock (maxEntries : Nat) (g : Group) (block : CfsBlock) : Option Group := do
  if ← startsFile g.haveCurrent g.current block then
    let current ← storeAll g.current 0 block.name
    let g := { g with total := g.total + 1, current, haveCurrent := true, openEntry := none }
    match g.entries with
    | none => return g
    | some entries =>
      if g.count < maxEntries then
        let entry : MediaEntry := {
          name := block.name
          load := block.load
          exec := block.exec
          length := block.dataLength.toUInt32
          offset := 0
          blocks := 1
          locked := block.flags &&& 0x01 != 0
          crcOk := block.crcOk }
        let entries ← store entries g.count entry
        return { g with entries := some entries, count := g.count + 1, openEntry := some g.count }
      else return g
  else
    match g.entries, g.openEntry with
    | some entries, some i =>
      let entry ← entries[i]?
      let entries ← store entries i { entry with
        length := entry.length + block.dataLength.toUInt32
        blocks := entry.blocks + 1
        crcOk := entry.crcOk && block.crcOk }
      return { g with entries := some entries }
    | _, _ => return g

/-- `uef_copy_t`, with the caller's whole buffer. -/
structure Copy where
  want : Nat
  seen : Nat
  current : List UInt8
  haveCurrent : Bool
  out : List UInt8
  written : Nat
  overflow : Bool

/-- The first half of `uef_copy_block`: a new file makes its name the current one. -/
def Copy.turn (c : Copy) (block : CfsBlock) : Option Copy := do
  if ← startsFile c.haveCurrent c.current block then
    let current ← storeAll c.current 0 block.name
    return { c with
      seen := if c.haveCurrent then c.seen + 1 else c.seen
      current
      haveCurrent := true }
  return c

/-- The second half: the data of the wanted file goes to the buffer. -/
def Copy.keep (image : Image) (c : Copy) (block : CfsBlock) : Option Copy := do
  if c.seen ≠ c.want ∨ !c.haveCurrent then return c
  if block.dataLength = 0 then return c
  if c.out.length < (← image.plus c.written block.dataLength) then return { c with overflow := true }
  let data ← image.readAll block.dataOffset block.dataLength
  let out ← storeAll c.out c.written data
  return { c with out, written := c.written + block.dataLength }

def uefCopyBlock (image : Image) (c : Copy) (block : CfsBlock) : Option Copy := do
  (← c.turn block).keep image block

end Tapes

section Discs

def dfsPlausible (image : Image) : Option Bool := do
  if image.length < 2 * dfsSector then return false
  if image.length % dfsSector ≠ 0 then return false
  let fileBytes ← image.read (dfsSector + 5)
  if fileBytes.toNat % 8 ≠ 0 then return false
  if dfsMaxFiles < fileBytes.toNat / 8 then return false
  (List.range (fileBytes.toNat / 8)).allM fun i =>
    (List.range 8).allM fun c => do return printable (← image.read (8 + i * 8 + c))

def mediaTitleMax : Nat := 16

/-- A character of the title, with the buffer and the length so far. -/
def titleStep (image : Image) (s : List UInt8 × Nat) (i : Nat) : Option (List UInt8 × Nat) :=
  if s.2 < mediaTitleMax - 1 then do
    let ch := (← image.read i) &&& 0x7f
    if ch = 0 ∨ ch = 0x20 then return s
    return (← store s.1 s.2 ch, s.2 + 1)
  else some s

/-- The loop that copies a name from `nm`, up to a space. -/
def nameChars (image : Image) (nm : Nat) (name : List UInt8) (n : Nat) :
    List Nat → Option (List UInt8 × Nat)
  | [] => some (name, n)
  | c :: rest => do
    let ch := (← image.read (nm + c)) &&& 0x7f
    if ch = 0x20 then return (name, n)
    nameChars image nm (← store name n ch) (n + 1) rest

/-- `media_catalogue_t`, with the whole buffer of the title. -/
structure Summary where
  title : List UInt8
  kind : MediaKind
  count : Nat
  total : Nat
  issues : UInt32
  bootOption : UInt8

def Summary.empty (kind : MediaKind) : Summary := ⟨List.replicate mediaTitleMax 0, kind, 0, 0, 0, 0⟩

/-- The body of the loop of `dfs_catalogue` for file `i`. -/
def dfsFile (image : Image) (sectorsTotal : Nat) (s : Summary × Option (List MediaEntry)) (i : Nat) :
    Option (Summary × Option (List MediaEntry)) := do
  let nm := 8 + i * 8
  let md := dfsSector + 8 + i * 8
  let extra ← image.read (md + 6)
  let high (shift : UInt8) : UInt32 := ((extra >>> shift) &&& 0x03).toUInt32 <<< 16
  let directory ← image.read (nm + 7)
  let name ← store (List.replicate mediaNameMax 0) 0 (directory &&& 0x7f)
  let name ← store name 1 (char '.')
  let (name, n) ← nameChars image nm name 2 (List.range 7)
  let name ← store name n 0
  let load ← image.read16 md
  let exec ← image.read16 (md + 2)
  let length ← image.read16 (md + 4)
  let startLow ← image.read (md + 7)
  let startSector := startLow.toNat + (extra &&& 0x03).toNat * 0x100
  let entry : MediaEntry := {
    name
    load := signExtend (load.toUInt32 ||| high 2)
    exec := signExtend (exec.toUInt32 ||| high 6)
    length := length.toUInt32 ||| high 4
    offset := (startSector * dfsSector).toUInt32
    blocks := 0
    locked := directory &&& 0x80 != 0
    crcOk := true }
  let dataEnd ← image.plus entry.offset.toNat entry.length.toNat
  let runsOff := decide (image.length < dataEnd)
  let entry := { entry with crcOk := !runsOff }
  let summary := { s.1 with
    issues := s.1.issues + ((if runsOff then 1 else 0) +
      (if sectorsTotal ≠ 0 ∧ sectorsTotal < startSector then 1 else 0)) }
  match s.2 with
  | none => return (summary, none)
  | some entries =>
    if summary.count < entries.length then
      let entries ← store entries summary.count entry
      return ({ summary with count := summary.count + 1 }, some entries)
    else return (summary, some entries)

def dfsCatalogue (image : Image) (entries : Option (List MediaEntry)) (summary : Summary) :
    Option (MediaStatus × Summary × Option (List MediaEntry)) := do
  if !(← dfsPlausible image) then return (.errFormat, summary, entries)
  let files := (← image.read (dfsSector + 5)).toNat / 8
  let mode ← image.read (dfsSector + 6)
  let sectorsLow ← image.read (dfsSector + 7)
  let sectorsTotal := sectorsLow.toNat + (mode &&& 0x03).toNat * 0x100
  let (title, n) ← (List.range 8 ++ (List.range 4).map (dfsSector + ·)).foldlM (titleStep image)
    (List.replicate mediaTitleMax 0, 0)
  let title ← store title n 0
  let title ← storeAll summary.title 0 (title.take (n + 1))
  let summary := { summary with title, bootOption := (mode >>> 4) &&& 0x0f, total := files }
  let (summary, entries) ← (List.range files).foldlM (dfsFile image sectorsTotal) (summary, entries)
  return (.ok, summary, entries)

end Discs

section Requests

def mediaIdentify (image : Image) : Option MediaKind := do
  if uefHeaderLen ≤ image.length then
    if (← image.readAll 0 10) = uefMagic then return .uef
  if ← dfsPlausible image then return .ssd
  return .unknown

def mediaCatalogue (image : Image) (passes : Nat) (kind : MediaKind)
    (entries : Option (List MediaEntry)) :
    Option (MediaStatus × Summary × Option (List MediaEntry)) := do
  if entries = some [] then return (.errParam, .empty .unknown, entries)
  let kind ← if kind = .unknown then mediaIdentify image else pure kind
  let summary := Summary.empty kind
  match kind with
  | .uef =>
    let group : Group := ⟨entries, 0, 0, List.replicate mediaNameMax 0, false, none⟩
    let maxEntries := (entries.map List.length).getD 0
    let (status, group, issues) ← uefWalk image passes (uefGroupBlock maxEntries) group
    let summary := { summary with count := group.count, total := group.total, issues }
    return (if status = .errFormat then .errFormat else .ok, summary, group.entries)
  | .ssd => dfsCatalogue image entries summary
  | .unknown => return (.errFormat, summary, entries)

/-- What an extraction leaves: its status, the whole buffer and `*out_length`. -/
structure Extraction where
  status : MediaStatus
  out : List UInt8
  outLength : Nat

/-- `blank` is what the array of the disc's entries holds before it is filled. -/
def mediaExtract (image : Image) (passes : Nat) (blank : MediaEntry) (kind : MediaKind)
    (index : Nat) (out : List UInt8) : Option Extraction := do
  let kind ← if kind = .unknown then mediaIdentify image else pure kind
  match kind with
  | .uef =>
    let copy : Copy := ⟨index, 0, List.replicate mediaNameMax 0, false, out, 0, false⟩
    let (status, copy, _) ← uefWalk image passes (uefCopyBlock image) copy
    if status = .errFormat then return ⟨status, copy.out, 0⟩
    if copy.overflow then return ⟨.errRange, copy.out, 0⟩
    if !copy.haveCurrent ∨ copy.seen < index then return ⟨.errRange, copy.out, 0⟩
    return ⟨.ok, copy.out, copy.written⟩
  | .ssd =>
    let entries := List.replicate mediaMaxEntries blank
    let (status, summary, entries) ← mediaCatalogue image passes kind (some entries)
    if status ≠ .ok then return ⟨status, out, 0⟩
    if summary.count ≤ index then return ⟨.errRange, out, 0⟩
    let entry ← entries.bind fun entries => entries[index]?
    if image.length < (← image.plus entry.offset.toNat entry.length.toNat) then
      return ⟨.errTruncated, out, 0⟩
    if out.length < entry.length.toNat then return ⟨.errRange, out, 0⟩
    let data ← image.readAll entry.offset.toNat entry.length.toNat
    let out ← storeAll out 0 data
    return ⟨.ok, out, entry.length.toNat⟩
  | .unknown => return ⟨.errFormat, out, 0⟩

end Requests

end Pi1MHz.MediaChecked
