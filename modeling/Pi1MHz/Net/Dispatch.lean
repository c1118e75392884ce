import Pi1MHz.Http.Reader
import Pi1MHz.Mailbox.Model
import Pi1MHz.Net.Fixture

/-! The dispatcher of the backend (`pi1mhz_net_backend_dispatch` of `pi1mhz_net_backend.c`) with the
commands that move blocks of data through JIM. The fields of a command and the sizes keep the widths
they have in the code, so that a sum or a product wraps where it would wrap there. -/
namespace Pi1MHz.NetDispatch
open Http (Poll Received recv finishHeader countBody closedCode responseSize blankLine cString sizeMax)
open NetFixture (netCmdRecv netCmdUrlRead netCmdCopyPublic fixtureChunk)

def fatCmdReadSectors : UInt8 := 0
def fatCmdWriteSectors : UInt8 := 1
def elkwifiCmdGuardImage : UInt8 := 86
def elkwifiCmdUefNormalize : UInt8 := 93

def ok : UInt8 := 0x00
def fatResError : UInt8 := 1
def fatResWriteProtect : UInt8 := 2
def fatResNotReady : UInt8 := 3
def fatResParameter : UInt8 := 4
def netErrNotOpen : UInt8 := 0x22
def netErrParam : UInt8 := 0x23

def codeByte : Http.Code → UInt8
  | .ok => ok
  | .eof => 0x20
  | .notOpen => netErrNotOpen
  | .param => netErrParam
  | .conn => 0x25
  | .tcpClosed => 0x2b

def fatSectorSize : UInt64 := 512

/-- `PI1MHZ_SERVICE_SIZE`. -/
def serviceSize : UInt64 := (2 : UInt64) <<< (24 : UInt64)

def netMaxHandles : Nat := 8

/-- The fields of `net_handle` that a READ uses, in either mode, with what is on the way on its
socket. -/
structure NetHandle extends Http.NetHandle where
  readIndex : UInt32
  fixture : List UInt8
  fixturePos : Nat
  wire : List UInt8

structure Backend where
  live : Bool
  /-- The file of the SD image, if there is one. -/
  sdImage : Option (List UInt8)
  sdImageSize : UInt64
  sdImageWritable : Bool
  handles : Fin netMaxHandles → NetHandle

/-- What a command meets outside: whether `fseeko` and `fflush` succeed, the bytes that `fread` or
`fwrite` moves before it fails, and the `recv` for a header and the one for a body. -/
structure World where
  seeks : Bool
  flushes : Bool
  moved : Nat
  first : Poll
  second : Poll

/-- The result byte with the backend and JIM. -/
abbrev Outcome := UInt8 × Backend × Jim

section Fields

/-- A command block, by the offset in it. -/
abbrev Command := Nat → UInt8

def rd24 (p : Command) (i : Nat) : UInt32 :=
  (p i).toUInt32 ||| (p (i + 1)).toUInt32 <<< 8 ||| (p (i + 2)).toUInt32 <<< 16

def rd32 (p : Command) (i : Nat) : UInt32 := rd24 p i ||| (p (i + 3)).toUInt32 <<< 24

def wr24 (value : Nat) : List UInt8 :=
  [value.toUInt8, (value / 256).toUInt8, (value / 65536).toUInt8]

end Fields

/-- `do_fat_sectors`; the window of the service memory begins at `base` and has `jimSize` bytes. -/
def doFatSectors (world : World) (backend : Backend) (command : Command) (jim : Jim) (base : Nat)
    (jimSize : UInt64) : Outcome :=
  let buffer := rd32 command 4
  let sector := rd32 command 8
  let count := rd32 command 12
  let offset := sector.toUInt64 * fatSectorSize
  let length := count.toUInt64 * fatSectorSize
  match backend.sdImage with
  | none => (fatResNotReady, backend, jim)
  | some file =>
    if command 1 ≠ 0 ∨ count = 0 ∨ sizeMax < length.toNat ∨ jimSize < buffer.toUInt64 ∨
        jimSize - buffer.toUInt64 < length ∨ backend.sdImageSize < offset ∨
        backend.sdImageSize - offset < length then
      (fatResParameter, backend, jim)
    else if command 0 = fatCmdWriteSectors ∧ backend.sdImageWritable = false then
      (fatResWriteProtect, backend, jim)
    else if !world.seeks then (fatResError, backend, jim)
    else if command 0 = fatCmdReadSectors then
      let data := (file.drop offset.toNat).take (min length.toNat world.moved)
      -- A read that fails has filled the front of the buffer.
      (if data.length / fatSectorSize.toNat ≠ count.toNat then fatResError else ok, backend,
        jim.write (base + buffer.toNat) data)
    else
      let data := jim.read (base + buffer.toNat) (min length.toNat world.moved)
      let file := (file ++ List.replicate (offset.toNat - file.length) 0).take offset.toNat ++ data ++
        file.drop (offset.toNat + data.length)
      (if data.length / fatSectorSize.toNat ≠ count.toNat ∨ !world.flushes then fatResError else ok,
        { backend with sdImage := some file }, jim)

/-- What a READ does: the handle it leaves, its result, what it stores at the destination, and the
length it writes to the command if it gets so far. -/
structure Moved where
  handle : NetHandle
  code : Http.Code
  data : List UInt8
  length : Option Nat

section Read

/-- The header part of a live READ; a result ends the READ. -/
def readHeader (poll : Poll) (h : NetHandle) : NetHandle × Option (Http.Code × Option Nat) :=
  if responseSize - 1 ≤ h.response.length then (h, some (.conn, none))
  else match recv poll (responseSize - 1 - h.response.length) h.wire with
    | (.wouldBlock, _) => (h, some (.ok, some 0))
    | (.error, _) => (h, some (.conn, some 0))
    | (.bytes data, wire) =>
      if data = [] then (h, some (.conn, none))
      else
        let h := { h with response := h.response ++ data, wire }
        match Search.firstAt blankLine (cString h.response) with
        | none => (h, some (.ok, some 0))
        | some separator =>
          match finishHeader h.toNetHandle separator with
          | none => (h, some (.conn, none))
          | some finished => ({ h with toNetHandle := finished }, none)

/-- The body part of a live READ. -/
def readBody (poll : Poll) (h : NetHandle) (maximum : UInt32) : Moved :=
  if h.http && h.responsePos < h.response.length then
    let copied := (h.response.drop h.responsePos).take maximum.toNat
    let h := { h with responsePos := h.responsePos + copied.length }
    ⟨{ h with toNetHandle := countBody h.toNetHandle copied.length }, .ok, copied, some copied.length⟩
  else match recv poll maximum.toNat h.wire with
    | (.wouldBlock, _) => ⟨h, .ok, [], some 0⟩
    | (.error, _) => ⟨h, .conn, [], some 0⟩
    | (.bytes data, wire) =>
      if data = [] then ⟨h, closedCode h.toNetHandle, [], some 0⟩
      else
        ⟨{ h with toNetHandle := countBody h.toNetHandle data.length, wire }, .ok, data,
          some data.length⟩

/-- A READ in fixture mode. -/
def readFixture (h : NetHandle) (maximum : UInt32) : Moved :=
  if h.fixture.length ≤ h.fixturePos then ⟨h, .eof, [], some 0⟩
  else
    let count := min (min maximum.toNat (fixtureChunk h.readIndex)) (h.fixture.length - h.fixturePos)
    ⟨{ h with readIndex := h.readIndex + 1, fixturePos := h.fixturePos + count }, .ok,
      (h.fixture.drop h.fixturePos).take count, some count⟩

def doRead (world : World) (live : Bool) (h : NetHandle) (command : Command) (jimSize : UInt64) :
    Moved :=
  let maximum := rd24 command 1
  let destination := rd32 command 4
  if !h.opened then ⟨h, .notOpen, [], none⟩
  else if jimSize ≤ destination.toUInt64 ∨ jimSize - destination.toUInt64 < maximum.toUInt64 then
    ⟨h, .param, [], none⟩
  else if live then
    if h.http && !h.headersDone then
      match readHeader world.first h with
      | (h, some (code, length)) => ⟨h, code, [], length⟩
      | (h, none) => readBody world.second h maximum
    else readBody world.second h maximum
  else readFixture h maximum

/-- JIM after a READ whose command block stands at `cp`. -/
def Moved.store (m : Moved) (jim : Jim) (cp destination : Nat) : Jim :=
  let stored := jim.write destination m.data
  match m.length with
  | none => stored
  | some length => stored.write (cp + 1) (wr24 length)

end Read

/-- The case `NET_CMD_COPY_PUBLIC`. -/
def copyPublic (backend : Backend) (command : Command) (jim : Jim) (base : Nat) (jimSize : UInt64) :
    Outcome :=
  let count := (command 1).toUInt64
  let destination := (command 2).toUInt64 ||| (command 3).toUInt64 <<< 8
  let scratch : UInt64 := 0xfff100
  if count = 0 ∨ 240 < count ∨ 0x10000 < destination + count ∨ jimSize < scratch + count then
    (netErrParam, backend, jim)
  else (ok, backend, jim.write destination.toNat (jim.read (base + scratch.toNat) count.toNat))

/-- A command that another part of the model, or none, is about. -/
abbrev Service := UInt8 → UInt32 → UInt64 → Backend → Jim → Outcome

/-- The commands that the dispatcher passes on, in the order of its tests. -/
structure Services where
  guardImage : Service
  uefControl : Service
  elkwifiControl : Service
  ftp : Service
  handleCommand : Service

/-- The ElkWiFi commands of the first switch. -/
def elkwifiCommands : List UInt8 := [80, 81, 82, 83, 87, 88, 89, 90, 91, 92]

/-- `pi1mhz_net_backend_dispatch` behind its checks of the pointer: the service memory begins at
`base` and has `size` bytes, and the command block stands at `cp`. -/
def dispatchCommand (services : Services) (world : World) (selector : UInt8)
    (commandPointer : UInt32) (jimSize : UInt64) (backend : Backend) (jim : Jim) (base cp : Nat)
    (size : UInt64) : Outcome :=
  let command : Command := fun i => jim (cp + i)
  let index := (selector &&& 0x0f).toNat
  if command 0 = fatCmdReadSectors ∨ command 0 = fatCmdWriteSectors then
    doFatSectors world backend command jim base size
  else if command 0 = elkwifiCmdGuardImage then
    services.guardImage selector commandPointer jimSize backend jim
  else if selector = 0xff ∧ command 0 = elkwifiCmdUefNormalize then
    services.uefControl selector commandPointer jimSize backend jim
  else if command 0 ∈ elkwifiCommands then
    services.elkwifiControl selector commandPointer jimSize backend jim
  else if 128 ≤ command 0 ∧ command 0 ≤ 133 then
    services.ftp selector commandPointer jimSize backend jim
  else if inside : index < netMaxHandles then
    if command 0 = netCmdRecv ∨ command 0 = netCmdUrlRead then
      let moved := doRead world backend.live (backend.handles ⟨index, inside⟩) command size
      (codeByte moved.code, { backend with
        handles := Function.update backend.handles ⟨index, inside⟩ moved.handle },
        moved.store jim cp (base + (rd32 command 4).toNat))
    else if command 0 = netCmdCopyPublic then copyPublic backend command jim base size
    else services.handleCommand selector commandPointer jimSize backend jim
  else (netErrParam, backend, jim)

/-- `pi1mhz_net_backend_dispatch`. -/
def dispatch (services : Services) (world : World) (selector : UInt8) (commandPointer : UInt32)
    (jimSize : UInt64) (backend : Backend) (jim : Jim) : Outcome :=
  if jimSize < serviceSize then (netErrParam, backend, jim)
  else
    let serviceBase := jimSize - serviceSize
    let size := jimSize - serviceBase
    if commandPointer.toUInt64 < serviceBase ∨
        size < commandPointer.toUInt64 - serviceBase + 224 then (netErrParam, backend, jim)
    else
      dispatchCommand services world selector commandPointer jimSize backend jim serviceBase.toNat
        (serviceBase.toNat + (commandPointer.toUInt64 - serviceBase).toNat) size

end Pi1MHz.NetDispatch
