import Pi1MHz.Foundation.Paging
import Pi1MHz.Mailbox.Model
import Pi1MHz.Uef.Normalize

/-! The UEF stream of the network backend: command 93 in its legacy and its incremental
form, and the guard command, which shares the window with it. Every other command of the
dispatcher leaves this state alone. -/
namespace Pi1MHz.NetBackend
open UefRepair

def netOk : UInt8 := 0
def netErrParam : UInt8 := 0x23

def uefCapacity : Nat := 0xfffe
def uefFirstPage : Nat := 1
def uefGuardOffset : Nat := 0x97
def uefGuardLength : Nat := 256 - uefGuardOffset
def uefFlatWindow : Nat := (256 - uefFirstPage - 1) * 256
def uefGuardWindow : Nat := (256 - uefFirstPage - 1) * uefGuardOffset
def uefUploadMax : Nat := 0xff00
def uefStreamCapacity : Nat := 0x01000000

def fatCmdReadSectors : UInt8 := 0
def fatCmdWriteSectors : UInt8 := 1
def elkwifiCmdGuardImage : UInt8 := 86
def elkwifiCmdUefNormalize : UInt8 := 93
def uefStreamVersion : UInt8 := 1

inductive Operation
  | probe
  | begin
  | append
  | finalize
  | rewind
  | refill
  | close
  | republish
deriving DecidableEq, Repr

def Operation.ofByte (byte : UInt8) : Option Operation :=
  [Operation.probe, .begin, .append, .finalize, .rewind, .refill, .close, .republish][byte.toNat]?

/-- The UEF fields of `pi1mhz_net_backend`, with the file's guard image. Lengths and
cursors are `size_t`. -/
structure UefState where
  trimTail : Bool
  filevRepair : Bool
  stream : Memory UInt8
  streamLength : Nat
  streamCursor : Nat
  publishedOffset : Nat
  publishedLength : UInt16
  streamToken : UInt32
  windowGeneration : UInt32
  lastAppendSequence : UInt32
  lastAppendCrc : UInt32
  lastAppendLength : UInt16
  publishedFinal : Bool
  streamReady : Bool
  uploadActive : Bool
  streamFormat : UInt8
  guardImage : Vector UInt8 uefGuardLength
  guardImageValid : Bool

def create (trimTail filevRepair : Bool) : UefState where
  trimTail
  filevRepair
  stream := fun _ => 0
  streamLength := 0
  streamCursor := 0
  publishedOffset := 0
  publishedLength := 0
  streamToken := 0
  windowGeneration := 0
  lastAppendSequence := 0
  lastAppendCrc := 0
  lastAppendLength := 0
  publishedFinal := false
  streamReady := false
  uploadActive := false
  streamFormat := 0
  guardImage := .replicate uefGuardLength 0
  guardImageValid := false

def le16 (value : Nat) : List UInt8 := [value.toUInt8, (value / 0x100).toUInt8]

def le32 (value : UInt32) : List UInt8 :=
  le16 value.toNat ++ le16 (value.toNat / 0x10000)

/-- What is written at `command + 1` for the reply of an incremental operation. -/
def uefStreamReply (s : UefState) : List UInt8 :=
  text ['I', 'U', 'E', 'F'] ++ [uefStreamVersion] ++ le32 s.streamToken ++
    le32 s.windowGeneration ++ le16 s.publishedLength.toNat ++
    [if s.publishedFinal then 1 else 0, s.streamFormat, 0]

def guardStamp (s : UefState) (jim : Jim) : Jim :=
  if s.guardImageValid then
    (List.range' uefFirstPage (256 - uefFirstPage)).foldl
      (fun jim page => jim.write (page * 0x100 + uefGuardOffset) s.guardImage.toList) jim
  else jim

def uefWindowScatter (s : UefState) (jim : Jim) (source : List UInt8) : Jim :=
  guardStamp s (jim.scatter (uefFirstPage * 0x100) 0x100 uefGuardOffset source)

def layOut (s : UefState) (jim : Jim) (source : List UInt8) : Jim :=
  if s.guardImageValid then uefWindowScatter s jim source
  else jim.write (uefFirstPage * 0x100) source

/-- The `size_t` subtraction at the head of `uef_stream_publish`. -/
def available (s : UefState) : Nat := (2 ^ 64 + s.streamLength - s.streamCursor) % 2 ^ 64

def windowLimit (s : UefState) : Nat :=
  if s.guardImageValid then uefGuardWindow else uefFlatWindow

def publishCount (s : UefState) : Nat :=
  if available s < windowLimit s then available s else windowLimit s

def uefStreamPublish (s : UefState) (jim : Jim) : UefState × Jim :=
  let count := publishCount s
  let jim :=
    if count ≠ 0 then layOut s jim (s.stream.read s.streamCursor count) else jim
  ({ s with
      publishedOffset := s.streamCursor
      streamCursor := s.streamCursor + count
      publishedLength := count.toUInt16
      publishedFinal := s.streamCursor + count == s.streamLength },
    jim.write uefCapacity (le16 count))

def uefStreamRepublish (s : UefState) (jim : Jim) : Jim :=
  if s.publishedLength = 0 then jim
  else
    (layOut s jim (s.stream.read s.publishedOffset s.publishedLength.toNat)).write uefCapacity
      (le16 s.publishedLength.toNat)

def uefWindowRelayout (s : UefState) (jim : Jim) : UefState × Jim :=
  if !s.streamReady then (s, jim)
  else uefStreamPublish { s with streamCursor := s.publishedOffset } jim

def uefStreamClear (s : UefState) (jim : Jim) : UefState × Jim :=
  ({ s with
      streamLength := 0
      streamCursor := 0
      publishedOffset := 0
      publishedLength := 0
      windowGeneration := 0
      lastAppendSequence := 0xffffffff
      lastAppendCrc := 0
      lastAppendLength := 0
      publishedFinal := false
      streamReady := false
      uploadActive := false
      streamFormat := 0 },
    jim.write uefCapacity [0, 0])

def nextToken (token : UInt32) : UInt32 := if token + 1 = 0 then 1 else token + 1

def repairStream (s : UefState) : UefState :=
  if s.filevRepair then
    { s with stream := s.stream.write 0 (uefRepairFilevStamp (s.stream.read 0 s.streamLength)).1 }
  else s

/-- Blocks stored one after the other at the start of a buffer. -/
def overlay (writes : List (List UInt8)) (buffer : Memory UInt8) : Memory UInt8 :=
  writes.foldl (fun buffer block => buffer.write 0 block) buffer

/-- How a command ends: refused with `NET_ERR_PARAM`, or with one of the texts or the
stream record at `command + 1`. -/
inductive Reply
  | refused
  | verdict (verdict : Verdict)
  | stream
deriving DecidableEq, Repr

def Verdict.format (verdict : Verdict) : UInt8 := verdict.message.headD 0

/-- The 16-bit length the host leaves at the end of the window. -/
def trailer (jim : Jim) : Nat := rd16 (jim.read uefCapacity 2) 0

def normalizeUefControl (z : Zlib) (capacity : Nat) (s : UefState) (jim : Jim) :
    Reply × UefState × Jim :=
  let length := trailer jim
  if length = 0 ∨ uefCapacity < length then (.verdict .invalid, s, jim)
  else
    let decoded := normalizeUef z capacity (jim.read 0 length)
    let jim := overlay decoded.writes jim
    if decoded.verdict.accepted then
      let window := jim.read 0 decoded.output.length
      let outputLength := if s.trimTail then wicfsStreamLength window else decoded.output.length
      let s := repairStream { s with
        stream := s.stream.write 0 (window.take outputLength)
        streamLength := outputLength }
      (.verdict decoded.verdict,
        { s with
          streamCursor := 0
          streamReady := true
          uploadActive := false
          streamToken := nextToken s.streamToken
          streamFormat := decoded.verdict.format },
        jim.write uefCapacity (le16 outputLength))
    else (.verdict decoded.verdict, s, jim)

structure Request where
  operation : UInt8
  token : UInt32
  value : UInt32
  length : UInt16
  crc : UInt32
deriving DecidableEq, Repr

def rd32At (jim : Jim) (i : Nat) : UInt32 := (rd32 (jim.read i 4) 0).toUInt32

def Request.parse (jim : Jim) (command : Nat) : Request where
  operation := jim (command + 6)
  token := rd32At jim (command + 7)
  value := rd32At jim (command + 11)
  length := (rd16 (jim.read (command + 15) 2) 0).toUInt16
  crc := rd32At jim (command + 17)

/-- A zero token stands for the current one, and a zero length for the trailer. -/
def Request.tokenFor (request : Request) (s : UefState) : UInt32 :=
  if request.token = 0 then s.streamToken else request.token

def Request.lengthIn (request : Request) (jim : Jim) : UInt16 :=
  if request.length = 0 then (trailer jim).toUInt16 else request.length

def uefBegin (s : UefState) (jim : Jim) : Reply × UefState × Jim :=
  let (s, jim) := uefStreamClear s jim
  (.stream, { s with uploadActive := true, streamToken := nextToken s.streamToken }, jim)

def uefAppend (z : Zlib) (s : UefState) (jim : Jim) (request : Request) : Reply × UefState × Jim :=
  let length := request.lengthIn jim
  if !s.uploadActive ∨ request.tokenFor s ≠ s.streamToken ∨ length = 0 ∨ uefUploadMax < length.toNat then
    (.refused, s, jim)
  else
    let bytes := jim.read 0 length.toNat
    let actualCrc := z.crc32 bytes
    if request.value = s.windowGeneration then
      if uefStreamCapacity - s.streamLength < length.toNat then (.refused, s, jim)
      else if request.crc ≠ 0 ∧ request.crc ≠ actualCrc then (.refused, s, jim)
      else
        (.stream,
          { s with
            stream := s.stream.write s.streamLength bytes
            streamLength := s.streamLength + length.toNat
            lastAppendSequence := request.value
            lastAppendLength := length
            lastAppendCrc := actualCrc
            windowGeneration := s.windowGeneration + 1 },
          jim)
    else if request.value + 1 ≠ s.windowGeneration ∨ request.value ≠ s.lastAppendSequence ∨
        length ≠ s.lastAppendLength ∨ actualCrc ≠ s.lastAppendCrc ∨
        (request.crc ≠ 0 ∧ request.crc ≠ actualCrc) then (.refused, s, jim)
    else (.stream, s, jim)

def uefFinalize (z : Zlib) (capacity : Nat) (s : UefState) (jim : Jim) (request : Request) :
    Reply × UefState × Jim :=
  if !s.uploadActive ∨ request.tokenFor s ≠ s.streamToken ∨ s.streamLength = 0 then (.refused, s, jim)
  else
    let decoded := finalizeUef z capacity (s.stream.read 0 s.streamLength)
    let s := { s with stream := overlay decoded.writes s.stream }
    if decoded.verdict.accepted then
      let s := repairStream { s with
        streamFormat := decoded.verdict.format
        streamLength := decoded.output.length }
      let (s, jim) := uefStreamPublish { s with
        streamCursor := 0
        streamReady := true
        uploadActive := false
        windowGeneration := s.windowGeneration + 1 } jim
      (.stream, s, jim)
    else (.verdict decoded.verdict, s, jim)

def uefRewind (s : UefState) (jim : Jim) (request : Request) : Reply × UefState × Jim :=
  if !s.streamReady ∨ (request.token ≠ 0 ∧ request.token ≠ s.streamToken) then (.refused, s, jim)
  else
    let (s, jim) := uefStreamPublish { s with
      streamCursor := 0
      windowGeneration := s.windowGeneration + 1 } jim
    (.stream, s, jim)

def uefRefill (s : UefState) (jim : Jim) (request : Request) : Reply × UefState × Jim :=
  if !s.streamReady ∨ (request.token ≠ 0 ∧ request.token ≠ s.streamToken) then (.refused, s, jim)
  else if (request.token = 0 ∧ request.value = 0) ∨ request.value = 0xffffffff ∨
      request.value = s.windowGeneration then
    let (s, jim) := uefStreamPublish { s with windowGeneration := s.windowGeneration + 1 } jim
    (.stream, s, jim)
  else if request.value + 1 = s.windowGeneration then (.stream, s, uefStreamRepublish s jim)
  else (.refused, s, jim)

def uefRepublish (s : UefState) (jim : Jim) (request : Request) : Reply × UefState × Jim :=
  if !s.streamReady ∨ (request.token ≠ 0 ∧ request.token ≠ s.streamToken) then (.refused, s, jim)
  else (.stream, s, uefStreamRepublish s jim)

def uefClose (s : UefState) (jim : Jim) (request : Request) : Reply × UefState × Jim :=
  if request.token ≠ 0 ∧ request.token ≠ s.streamToken then (.refused, s, jim)
  else
    let (s, jim) := uefStreamClear s jim
    (.stream, s, jim)

def incrementalUefControl (z : Zlib) (s : UefState) (jim : Jim) (request : Request) :
    Reply × UefState × Jim :=
  match Operation.ofByte request.operation with
  | some .probe => (.stream, s, jim)
  | some .begin => uefBegin s jim
  | some .append => uefAppend z s jim request
  | some .finalize => uefFinalize z uefStreamCapacity s jim request
  | some .rewind => uefRewind s jim request
  | some .refill => uefRefill s jim request
  | some .republish => uefRepublish s jim request
  | some .close => uefClose s jim request
  | none => (.refused, s, jim)

/-- Leave the reply at `command + 1` and return the status byte. -/
def respond (command : Nat) : Reply × UefState × Jim → UInt8 × UefState × Jim
  | (.refused, s, jim) => (netErrParam, s, jim)
  | (.verdict verdict, s, jim) =>
    let jim := jim.write (command + 1) (verdict.message ++ [0])
    (netOk, s, if verdict.accepted then jim.write (command + 17) [char '1'] else jim)
  | (.stream, s, jim) => (netOk, s, jim.write (command + 1) (uefStreamReply s))

def guardImageCommand (s : UefState) (command : Nat) (jim : Jim) : UInt8 × UefState × Jim :=
  if jim (command + 1) = 0 then
    let (s, jim) := uefWindowRelayout { s with
      guardImageValid := false
      guardImage := .replicate uefGuardLength 0 } jim
    (netOk, s, jim.write (command + 1) (text ['O', 'F', 'F', '\r', '\n'] ++ [0]))
  else if (jim (command + 1)).toNat ≠ uefGuardLength then (netErrParam, s, jim)
  else
    let s := { s with
      guardImage := ⟨(jim.read (command + 2) uefGuardLength).toArray, by simp⟩
      guardImageValid := true }
    let (s, jim) := uefWindowRelayout s (guardStamp s jim)
    (netOk, s, jim.write (command + 1) (text ['O', 'K', '\r', '\n'] ++ [0]))

def isIncremental (jim : Jim) (command : Nat) : Bool :=
  jim.read (command + 1) 5 == text ['I', 'U', 'E', 'F'] ++ [uefStreamVersion]

/-- The command block lies in the service area at the top of JIM. -/
def inService (jimSize command : Nat) : Bool :=
  decide (Mailbox.serviceSize ≤ jimSize) && decide (jimSize - Mailbox.serviceSize ≤ command) &&
    decide (command - (jimSize - Mailbox.serviceSize) + 224 ≤ Mailbox.serviceSize)

/-- `pi1mhz_net_backend_dispatch` up to the commands of the other services, for which the
result is `none`. -/
def dispatch (z : Zlib) (jimSize : Nat) (s : UefState) (selector : UInt8) (command : Nat)
    (jim : Jim) : Option (UInt8 × UefState × Jim) :=
  if !inService jimSize command then some (netErrParam, s, jim)
  else if jim command = fatCmdReadSectors ∨ jim command = fatCmdWriteSectors then none
  else if jim command = elkwifiCmdGuardImage then some (guardImageCommand s command jim)
  else if selector = 0xff ∧ jim command = elkwifiCmdUefNormalize then
    if isIncremental jim command then
      some (respond command (incrementalUefControl z s jim (.parse jim command)))
    else if jimSize < 0x10000 then some (netErrParam, s, jim)
    else some (respond command (normalizeUefControl z uefCapacity s jim))
  else none

end Pi1MHz.NetBackend
