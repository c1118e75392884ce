import Mathlib.Algebra.Ring.Nat
import Pi1MHz.Foundation.Memory

/-! The Acorn SCSI host adapter and its one mounted LUN (`beebscsi_elkulator.c`). `initialise`
has opened the image before the first register access, so the image is never NULL here. The
`unsigned` counters are numbers below 2^32. -/
namespace Pi1MHz.BeebScsi

inductive ScsiPhase
  | busFree
  | selection
  | command
  | scsiRead
  | scsiWrite
  | status
  | message
deriving DecidableEq, Repr

/-- The lines of the status register and the two-stage interrupt latch. A change of
`publishedIrq` calls the emulator back. -/
structure BusLines where
  messagePhase : Bool
  commandPhase : Bool
  inputPhase : Bool
  busy : Bool
  request : Bool
  irqArmed : Bool
  irqPending : Bool
  publishedIrq : Bool
deriving DecidableEq, Repr

structure State where
  phase : ScsiPhase
  selected : Bool
  bus : BusLines
  command : Memory UInt8
  buffer : Memory UInt8
  geometry : Memory UInt8
  status : UInt8
  message : UInt8
  blocks : Nat
  nextSector : Nat
  offset : Nat
  length : Nat
  lastWrite : UInt8
  senseCode : UInt8
  senseSector : Nat
  image : Memory UInt8
  imageBytes : Nat
  writable : Bool

def commandSize : Nat := 10
def bufferSize : Nat := 256
def geometrySize : Nat := 33

/-- What the C library answers to the file calls of one register access. -/
structure HostFile where
  seek : Bool
  count : Nat
  failed : Bool
  flush : Bool

/-- Every call succeeds and moves as much as it is asked to. -/
def HostFile.good : HostFile := ⟨true, bufferSize, false, true⟩

def increment (n : Nat) : Nat := (n + 1) % 2 ^ 32

/-- Decrementing zero wraps. -/
def decrement (n : Nat) : Nat := (n + (2 ^ 32 - 1)) % 2 ^ 32

def publishIrq (s : State) : State :=
  { s with bus := { s.bus with publishedIrq := s.bus.irqPending } }

def setRequest (s : State) (active : Bool) : State :=
  publishIrq { s with bus := { s.bus with
    request := active
    irqPending := s.bus.irqPending || (s.bus.irqArmed && active) } }

/-- The three phase lines, as every phase change sets them together. -/
def setLines (s : State) (input command message : Bool) : State :=
  { s with bus := { s.bus with
    inputPhase := input, commandPhase := command, messagePhase := message } }

def busFree (s : State) : State :=
  let lines := setLines { s with selected := false } false false false
  let idle := setRequest { lines with bus := { lines.bus with busy := false } } false
  { idle with phase := .busFree }

def sectorFromCommand (s : State) : Nat :=
  (s.command 1 &&& 0x1f).toNat <<< 16 ||| (s.command 2).toNat <<< 8 ||| (s.command 3).toNat

def readSector (file : HostFile) (s : State) (sector : Nat) : State × Bool :=
  let offset := sector * 256
  if s.imageBytes ≤ offset ∨ file.seek = false then (s, false)
  else
    let count := min file.count (min bufferSize (s.imageBytes - offset))
    let cleared := s.buffer.write 0 (List.replicate bufferSize 0)
    ({ s with buffer := cleared.write 0 (s.image.read offset count) },
      count == bufferSize || (!file.failed && count != 0))

def writeSector (file : HostFile) (s : State) (sector : Nat) : State × Bool :=
  let offset := sector * 256
  if s.writable = false ∨ s.imageBytes < offset + 256 ∨ file.seek = false then (s, false)
  else
    let count := min file.count bufferSize
    ({ s with image := s.image.write offset (s.buffer.read 0 count) },
      count == bufferSize && file.flush)

def statusPhase (s : State) (good : Bool) : State :=
  let lines := setRequest (setLines { s with phase := .status } true true false) true
  { lines with status := if good then 0x00 else 0x02, message := 0 }

def readPhase (s : State) (length : Nat) : State :=
  let lines := setRequest (setLines { s with phase := .scsiRead } true false false) true
  { lines with offset := 0, length, status := 0, message := 0 }

/-- Note the failing sector for REQUEST SENSE and end the command. -/
def failAt (s : State) (sector : Nat) : State :=
  statusPhase { s with senseCode := 0x21, senseSector := sector } false

def requestSense (s : State) : State :=
  let allocation := min (if s.command 4 ≠ 0 then (s.command 4).toNat else 4) bufferSize
  let sense : List UInt8 := [s.senseCode, (s.senseSector >>> 16).toUInt8,
    (s.senseSector >>> 8).toUInt8, s.senseSector.toUInt8]
  readPhase { s with
    buffer := (s.buffer.write 0 (List.replicate allocation 0)).write 0 sense
    senseCode := 0, senseSector := 0, blocks := 1 } allocation

/-- The block count of READ(6) and WRITE(6): zero stands for 256. -/
def blockCount (s : State) : Nat := if s.command 4 ≠ 0 then (s.command 4).toNat else 256

def read6 (file : HostFile) (s : State) (sector : Nat) : State :=
  let (loaded, good) := readSector file { s with blocks := blockCount s } sector
  if good then readPhase { loaded with nextSector := sector + 1 } 256
  else failAt loaded sector

def write6 (s : State) (sector : Nat) : State :=
  let started := { s with
    blocks := blockCount s, nextSector := sector, offset := 0, length := 256, phase := .scsiWrite }
  { setRequest (setLines started false false false) true with status := 0, message := 0 }

def translate (s : State) : State :=
  readPhase { s with
    buffer := s.buffer.write 0 [s.command 3, s.command 2, s.command 1 &&& 0x1f, 0]
    blocks := 1 } 4

/-- The parameter list length is taken as it stands, zero included. -/
def modeSelect (s : State) : State :=
  let started := { s with
    blocks := 1, offset := 0, length := (s.command 4).toNat, phase := .scsiWrite }
  setRequest (setLines started false false false) true

def modeSense (s : State) : State :=
  let allocation := min (if s.command 4 ≠ 0 then (s.command 4).toNat else 22) geometrySize
  readPhase { s with
    buffer := s.buffer.write 0 (s.geometry.read 0 allocation), blocks := 1 } allocation

/-- VERIFY(10), used as a range check. -/
def verify (s : State) (sector : Nat) : State :=
  if sector * 256 < s.imageBytes then statusPhase s true else failAt s sector

def executeCommand (file : HostFile) (s : State) : State :=
  let sector := sectorFromCommand s
  match (s.command 0).toNat with
  | 0x00 => statusPhase s true
  | 0x03 => requestSense s
  | 0x08 => read6 file s sector
  | 0x0a => write6 s sector
  | 0x0f => translate s
  | 0x15 => modeSelect s
  | 0x1a => modeSense s
  | 0x1b => statusPhase s true
  | 0x2f => verify s sector
  | _ => statusPhase s false

/-- One byte moved: `++offset`, `--length`, REQ dropped. -/
def countByte (s : State) : State :=
  setRequest { s with offset := increment s.offset, length := decrement s.length } false

/-- A command byte: the first one decides between a six and a ten byte block. -/
def commandByte (file : HostFile) (s : State) (value : UInt8) : State :=
  let stored := if s.offset < commandSize then s.command.write s.offset [value] else s.command
  let length := if s.offset = 0 ∧ 0x20 ≤ value ∧ value ≤ 0x3f then 10 else s.length
  let next := countByte { s with command := stored, length }
  if next.length = 0 then executeCommand file next else next

/-- One block of the transfer is complete. -/
def blockDone (s : State) : State :=
  let counted := { s with blocks := decrement s.blocks }
  if counted.blocks = 0 then statusPhase counted true
  else setRequest { counted with offset := 0, length := 256 } true

def dataByte (file : HostFile) (s : State) (value : UInt8) : State :=
  let stored := if s.offset < bufferSize then s.buffer.write s.offset [value] else s.buffer
  let next := countByte { s with buffer := stored }
  if next.length ≠ 0 then next
  else if next.command 0 = 0x0a then
    let (saved, good) := writeSector file next next.nextSector
    if good then blockDone { saved with nextSector := increment saved.nextSector }
    else failAt saved saved.nextSector
  else blockDone next

def writeData (file : HostFile) (s : State) (value : UInt8) : State :=
  let s := { s with lastWrite := value }
  match s.phase with
  | .busFree =>
    if s.selected then { s with bus := { s.bus with busy := true }, phase := .selection } else s
  | .selection =>
    if s.selected then s
    else { setLines { s with phase := .command } false true false with offset := 0, length := 6 }
  | .command => commandByte file s value
  | .scsiWrite => dataByte file s value
  | _ => busFree s

/-- The end of a block on its way to the host: the next sector is fetched. -/
def refill (file : HostFile) (s : State) : State :=
  let counted := { s with blocks := decrement s.blocks }
  if counted.blocks = 0 then statusPhase counted true
  else
    let sector := counted.nextSector
    let (loaded, good) := readSector file { counted with nextSector := increment sector } sector
    if good then setRequest { loaded with offset := 0, length := 256 } true
    else failAt loaded (decrement loaded.nextSector)

def readData (file : HostFile) (s : State) : State × UInt8 :=
  match s.phase with
  | .status =>
    let next := { setRequest s false with phase := .message }
    (setRequest { next with bus := { next.bus with messagePhase := true } } true, s.status)
  | .message => (busFree (setRequest s false), s.message)
  | .scsiRead =>
    let next := countByte s
    (if next.length = 0 then refill file next else next, s.buffer s.offset)
  | .busFree => (s, s.lastWrite)
  | _ => (busFree s, s.lastWrite)

/-- The status register; REQ always reads high. -/
def statusLines (s : State) : UInt8 :=
  0x20 ||| (if s.bus.commandPhase then 0x80 else 0) ||| (if s.bus.inputPhase then 0x40 else 0) |||
    (if s.bus.request then 0x20 else 0) ||| (if s.bus.irqPending then 0x10 else 0) |||
    (if s.bus.busy then 0x02 else 0) ||| (if s.bus.messagePhase then 0x01 else 0)

/-- `beebscsi_elkulator_read`. -/
def registerRead (file : HostFile) (s : State) (address : UInt16) : State × UInt8 :=
  if address = 0xfc44 then (s, 0xff)
  else if address &&& 3 = 0 then
    let (next, value) := readData file s
    (publishIrq next, value)
  else if address &&& 3 ≠ 1 then (s, 0xff)
  else (s, statusLines s)

/-- The interrupt arm register. -/
def armIrq (s : State) (value : UInt8) : State :=
  let armed := value &&& 1 != 0
  { s with
    selected := true
    bus := { s.bus with irqArmed := armed, irqPending := armed && (s.bus.irqPending || s.bus.request) } }

/-- `beebscsi_elkulator_write`. -/
def registerWrite (file : HostFile) (s : State) (address : UInt16) (value : UInt8) : State :=
  if address = 0xfc44 then s
  else
    publishIrq (match (address &&& 3).toNat with
      | 0 => writeData file { s with selected := true } value
      | 1 => s
      | 2 => writeData file { s with selected := false } value
      | _ => armIrq s value)

/-- The state that `initialise` leaves for an image it could open. -/
def mount (image : Memory UInt8) (imageBytes : Nat) (writable : Bool) (geometry : Memory UInt8) :
    State where
  phase := .busFree
  selected := false
  bus := ⟨false, false, false, false, false, false, false, false⟩
  command := fun _ => 0
  buffer := fun _ => 0
  geometry := geometry
  status := 0
  message := 0
  blocks := 0
  nextSector := 0
  offset := 0
  length := 0
  lastWrite := 0
  senseCode := 0
  senseSector := 0
  image := image
  imageBytes := imageBytes
  writable := writable

/-- `beebscsi_elkulator_reset`. -/
def reset (s : State) : State :=
  publishIrq (busFree { s with
    senseCode := 0, senseSector := 0, bus := { s.bus with irqArmed := false, irqPending := false } })

end Pi1MHz.BeebScsi
