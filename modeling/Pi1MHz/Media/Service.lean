import Pi1MHz.Foundation.Memory
import Pi1MHz.Media.Catalogue

/-! The media session core (`media_service_core.c`). The extracted data of the entry being
streamed is kept once for the whole file, not once per service. -/
namespace Pi1MHz.MediaService
open UefRepair MediaCatalogue

def mediaSvcReplyMax : Nat := 240
def mediaSvcReadWindow : Nat := mediaSvcReplyMax - 4
def streamCapacity : Nat := 65536

inductive Status
  | ok
  | eof
  | errParam
  | errFormat
  | errRange
deriving DecidableEq, Repr

inductive Command
  | open
  | cat
  | info
  | read
  | close
deriving DecidableEq, Repr

def Command.ofByte (byte : UInt8) : Option Command :=
  if byte < 120 then none
  else [Command.open, .cat, .info, .read, .close][byte.toNat - 120]?

/-- `media_service`; the summary carries the entries array. -/
structure Service where
  image : List UInt8
  kind : MediaKind
  summary : Catalogue
  catCursor : Nat
  readIndex : Nat
  readOffset : Nat
  opened : Bool
deriving DecidableEq

def Service.reset : Service := ⟨[], .unknown, .empty .unknown, 0, 0, 0, false⟩

/-- The file's statics: the data of the entry being streamed. -/
structure Stream where
  data : Memory UInt8
  length : Nat
  index : Nat
  valid : Bool

/-- Bind an image; an empty one stands for a missing one. -/
def mediaServiceOpen (image : List UInt8) : Status × Service :=
  if image = [] then (.errParam, .reset)
  else
    let kind := mediaIdentify image
    let service := { Service.reset with kind }
    if kind = .unknown then (.errFormat, service)
    else
      let (status, summary) := mediaCatalogue image kind (some mediaMaxEntries)
      let service := { service with summary }
      if status ≠ .ok then (.errFormat, service)
      else (.ok, { service with image, opened := true })

/-- Status and reply of a command, with the service and the stream after it. -/
structure Outcome where
  status : Status
  reply : List UInt8
  service : Service
  stream : Stream

def kindByte : MediaKind → UInt8
  | .unknown => 0
  | .uef => 1
  | .ssd => 2

def dispatchOpen (service : Service) (stream : Stream) (capacity : Nat) : Outcome :=
  if !service.opened then ⟨.errParam, [], service, stream⟩
  else if capacity < 4 then ⟨.errRange, [], service, stream⟩
  else
    let reply := [kindByte service.kind, service.summary.count.toUInt8,
      service.summary.total.toUInt8, service.summary.bootOption]
    ⟨.ok, reply, service, stream⟩

def dispatchCat (service : Service) (stream : Stream) (capacity : Nat) : Outcome :=
  if !service.opened then ⟨.errParam, [], service, stream⟩
  else
    match service.summary.entries[service.catCursor]? with
    | none => ⟨.eof, [], service, stream⟩
    | some entry =>
      let line := mediaFormatEntry entry 64
      if line.length = 0 then ⟨.errRange, [], service, stream⟩
      else if capacity < line.length + 1 ∨ mediaSvcReplyMax < line.length + 1 then
        ⟨.errRange, [], service, stream⟩
      else ⟨.ok, line ++ [0x0d], { service with catCursor := service.catCursor + 1 }, stream⟩

def le32 (value : UInt32) : List UInt8 :=
  [value.toUInt8, (value >>> 8).toUInt8, (value >>> 16).toUInt8, (value >>> 24).toUInt8]

def dispatchInfo (service : Service) (stream : Stream) (index : UInt8) (capacity : Nat) :
    Outcome :=
  if !service.opened then ⟨.errParam, [], service, stream⟩
  else
    match service.summary.entries[index.toNat]? with
    | none => ⟨.errRange, [], service, stream⟩
    | some entry =>
      if capacity < 13 + mediaNameMax then ⟨.errRange, [], service, stream⟩
      else
        let flags : UInt8 := (if entry.locked then 1 else 0) ||| (if entry.crcOk then 0 else 2)
        ⟨.ok, le32 entry.load ++ le32 entry.exec ++ le32 entry.length ++ [flags] ++
          entry.name.take mediaNameMax ++ [0], service, stream⟩

/-- Extract entry `index` into the stream. A failure leaves the index and the valid flag as
they were, but not the data and its length. -/
def startStream (service : Service) (stream : Stream) (index : Nat) :
    MediaStatus × Service × Stream :=
  let extracted := mediaExtract service.image service.kind index streamCapacity
  let stream := { stream with
    data := stream.data.write 0 extracted.written
    length := extracted.outLength }
  if extracted.status = .ok then
    (.ok, { service with readIndex := index, readOffset := 0 }, { stream with index, valid := true })
  else (extracted.status, service, stream)

def streamWindow (service : Service) (stream : Stream) (capacity : Nat) : Outcome :=
  if stream.length ≤ service.readOffset then
    ⟨.eof, [], { service with readOffset := 0 }, { stream with valid := false }⟩
  else
    let remaining := stream.length - service.readOffset
    let window := if remaining < mediaSvcReadWindow then remaining else mediaSvcReadWindow
    let window := if capacity < window + 4 then capacity - 4 else window
    ⟨.ok,
      [remaining.toUInt8, (remaining / 0x100).toUInt8, (remaining / 0x10000).toUInt8,
        window.toUInt8] ++ stream.data.read service.readOffset window,
      { service with readOffset := service.readOffset + window }, stream⟩

/-- The stream that is there is taken to be the one asked for. -/
def live (service : Service) (stream : Stream) (index : Nat) : Bool :=
  stream.valid && stream.index == index && service.readIndex == index

def dispatchRead (service : Service) (stream : Stream) (index : UInt8) (capacity : Nat) :
    Outcome :=
  if !service.opened then ⟨.errParam, [], service, stream⟩
  else if service.summary.count ≤ index.toNat then ⟨.errRange, [], service, stream⟩
  else if capacity < 4 then ⟨.errRange, [], service, stream⟩
  else if live service stream index.toNat then streamWindow service stream capacity
  else
    let (status, service, stream) := startStream service stream index.toNat
    match status with
    | .ok => streamWindow service stream capacity
    | .errRange => ⟨.errRange, [], service, stream⟩
    | _ => ⟨.errFormat, [], service, stream⟩

/-- `media_service_dispatch` on the first two bytes of the command block. -/
def mediaServiceDispatch (service : Service) (stream : Stream) (command argument : UInt8)
    (replyCapacity : Nat) : Outcome :=
  let capacity := if mediaSvcReplyMax < replyCapacity then mediaSvcReplyMax else replyCapacity
  match Command.ofByte command with
  | some .open => dispatchOpen service stream capacity
  | some .cat => dispatchCat service stream capacity
  | some .info => dispatchInfo service stream argument capacity
  | some .read => dispatchRead service stream argument capacity
  | some .close => ⟨.ok, [], .reset, { stream with valid := false }⟩
  | none => ⟨.errParam, [], service, stream⟩

end Pi1MHz.MediaService
