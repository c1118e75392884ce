import Mathlib.Algebra.Ring.Nat
import Pi1MHz.Foundation.Memory
import Pi1MHz.Ftp.Text

/-! The network handles of the emulator in fixture mode (`pi1mhz_net_backend_dispatch` of
`pi1mhz_net_backend.c`): a handle serves bytes that the program carries with it. -/
namespace Pi1MHz.NetFixture
open FtpService (ascii lower)

def netCmdOpen : UInt8 := 45
def netCmdDns : UInt8 := 46
def netCmdConnect : UInt8 := 47
def netCmdSend : UInt8 := 50
def netCmdRecv : UInt8 := 51
def netCmdClose : UInt8 := 53
def netCmdCopyPublic : UInt8 := 58
def netCmdUrlOpen : UInt8 := 60
def netCmdUrlRead : UInt8 := 61
def netCmdUrlWrite : UInt8 := 62
def netCmdUrlClose : UInt8 := 63
def secCmdCaps : UInt8 := 94
def secCmdRandom : UInt8 := 95
def secCmdSshOpen : UInt8 := 96
def secCmdSshRead : UInt8 := 97
def secCmdSshWrite : UInt8 := 98
def secCmdSshClose : UInt8 := 99
def secCmdSshPassword : UInt8 := 100
def secCmdSftpOpen : UInt8 := 101
def secCmdSftpPwd : UInt8 := 102
def secCmdSftpCd : UInt8 := 103
def secCmdSftpLs : UInt8 := 104
def secCmdSftpDelete : UInt8 := 105
def secCmdSftpMkdir : UInt8 := 106
def secCmdSftpRmdir : UInt8 := 107
def secCmdSftpGetOpen : UInt8 := 108
def secCmdSftpGetRead : UInt8 := 109
def secCmdSftpPutOpen : UInt8 := 110
def secCmdSftpPutWrite : UInt8 := 111
def secCmdSftpTransferClose : UInt8 := 112
def secCmdSftpClose : UInt8 := 113

inductive Code
  | ok
  | pending
  | eof
  | inUse
  | notOpen
  | param
  | dns
  | conn
  | unsupported
deriving DecidableEq, Repr

/-- The fields of `net_handle` that fixture mode reads. `opening` stays zero and `fd` closed; the
bytes and the size of the fixture are one list. -/
structure NetHandle where
  opened : Bool
  openPolls : UInt32
  readIndex : UInt32
  url : List UInt8
  fixture : List UInt8
  fixturePos : Nat
  rawAllocated : Bool
  rawType : UInt8
deriving DecidableEq

/-- A handle of a backend just created. -/
def NetHandle.unused : NetHandle := ⟨false, 0, 0, [], [], 0, false, 0⟩

section Fixtures

def fixtureTelnet : List UInt8 := 27 :: ascii "[2J" ++ 27 :: ascii "[2;3HPi1MHz mailbox OK\r\n"

def fixtureSshIdentification : List UInt8 :=
  ascii "Emulated Pi1MHz service\r\nSSH-2.0-Pi1MHzFixture_1.0\r\n"

def fixtureSshShell : List UInt8 :=
  ascii "discarded" ++ 27 :: ascii "[2J" ++ 27 :: ascii "[2;3HPi1MHz SSH shell OK\r\n"

def fixtureSftp : List UInt8 := ascii "SFTP fixture\n"

def fixtureChunk (readIndex : UInt32) : Nat := [1, 2, 7, 3, 31].getD (readIndex.toNat % 5) 0

def wr32be (value : Nat) : List UInt8 :=
  [(value / 2 ^ 24).toUInt8, (value / 2 ^ 16).toUInt8, (value / 2 ^ 8).toUInt8, value.toUInt8]

def appendSshString (value : List UInt8) : List UInt8 := wr32be value.length ++ value

def kexNames : List (List UInt8) :=
  [ascii "curve25519-sha256", ascii "ssh-ed25519", ascii "aes128-ctr", ascii "aes128-ctr",
    ascii "hmac-sha2-256", ascii "hmac-sha2-256", ascii "none", ascii "none", [], []]

def buildFixtureKexinit : List UInt8 :=
  let payload := 20 :: (List.range 16).map (fun i => (0x10 + i).toUInt8) ++
    kexNames.flatMap appendSshString ++ [0, 0, 0, 0, 0]
  let short := (8 - (5 + payload.length) % 8) % 8
  let padding := if short < 4 then short + 8 else short
  wr32be (1 + payload.length + padding) ++ padding.toUInt8 :: payload ++
    (List.range padding).map fun i => (0x80 + i).toUInt8

end Fixtures

/-- `PI1MHZ_SERVICE_SIZE`. -/
def serviceSize : Nat := 2 * 2 ^ 24

/-- A command for a handle: the memory, in which the service window begins at `base` and holds the
command block at `cp`, and what the resolver and the random source answer. -/
structure Call where
  jim : Memory UInt8
  base : Nat
  cp : Nat
  placed : base ≤ cp ∧ cp + 224 ≤ base + serviceSize
  resolve : UInt8 → List UInt8 → Option (List UInt8)
  random : List UInt8

namespace Call
variable (c : Call)

def command (i : Nat) : UInt8 := c.jim (c.cp + i)

def rd16 (i : Nat) : Nat := (c.command i).toNat + (c.command (i + 1)).toNat * 256

def rd24 (i : Nat) : Nat := c.rd16 i + (c.command (i + 2)).toNat * 65536

def rd32 (i : Nat) : Nat := c.rd24 i + (c.command (i + 3)).toNat * 16777216

/-- The bytes of the service window from an offset to its end. -/
def window (offset : Nat) : List UInt8 := c.jim.read (c.base + offset) (serviceSize - offset)

/-- A string stands at the offset. -/
def terminated (offset : Nat) : Bool := offset < serviceSize && (0 : UInt8) ∈ c.window offset

def string (offset : Nat) : List UInt8 := (c.window offset).takeWhile (· ≠ 0)

/-- A string of the command block, cut off after `limit` bytes. -/
def text (i limit : Nat) : List UInt8 := (c.jim.read (c.cp + i) limit).takeWhile (· ≠ 0)

end Call

/-- Whether a block of the service window lies inside it. -/
def insideWindow (offset length : Nat) : Bool := offset < serviceSize && length ≤ serviceSize - offset

structure Answer where
  code : Code
  jim : Memory UInt8

/-- The command block with a length in it, over the memory given. -/
def wr24 (c : Call) (value : Nat) (jim : Memory UInt8) : Memory UInt8 :=
  jim.write (c.cp + 1) [value.toUInt8, (value / 256).toUInt8, (value / 65536).toUInt8]

def answer (c : Call) (code : Code) : Answer := ⟨code, c.jim⟩

def doOpen (h : NetHandle) (c : Call) : NetHandle × Answer :=
  if 221 ≤ (c.text 2 221).length then (h, answer c .param)
  else
    let h := if !h.opened && h.openPolls = 0 then { h with url := c.text 2 221 } else h
    let polled := { h with openPolls := h.openPolls + 1 }
    if h.openPolls = 0 then (polled, answer c .pending)
    else if (h.url.take 9).map lower = ascii "telnet://" then
      ({ polled with opened := true, fixture := fixtureTelnet }, answer c .ok)
    else if (h.url.take 6).map lower = ascii "tcp://" then
      ({ polled with
          opened := true, fixture := fixtureSshIdentification ++ buildFixtureKexinit },
        answer c .ok)
    else ({ polled with opened := false }, answer c .unsupported)

def doRead (h : NetHandle) (c : Call) : NetHandle × Answer :=
  let maximum := c.rd24 1
  let destination := c.rd32 4
  if !h.opened then (h, answer c .notOpen)
  else if !insideWindow destination maximum then (h, answer c .param)
  else if h.fixture.length ≤ h.fixturePos then (h, ⟨.eof, wr24 c 0 c.jim⟩)
  else
    let count := min (min maximum (fixtureChunk h.readIndex)) (h.fixture.length - h.fixturePos)
    let bytes := (h.fixture.drop h.fixturePos).take count
    ({ h with readIndex := h.readIndex + 1, fixturePos := h.fixturePos + count },
      ⟨.ok, wr24 c count (c.jim.write (c.base + destination) bytes)⟩)

def doWrite (h : NetHandle) (c : Call) : NetHandle × Answer :=
  let length := c.rd24 1
  if !h.opened then (h, answer c .notOpen)
  else if !insideWindow (c.rd32 4) length then (h, answer c .param)
  else (h, ⟨.ok, wr24 c (min length 5) c.jim⟩)

/-- `do_close` of a backend that does not leave at a close. The fields of a live connection, which
it clears too, are not there in fixture mode. -/
def doClose (h : NetHandle) (c : Call) : NetHandle × Answer :=
  ({ h with opened := false, rawAllocated := false, rawType := 0 }, answer c .ok)

def doRawOpen (h : NetHandle) (c : Call) : NetHandle × Answer :=
  if 1 < c.command 1 then (h, answer c .unsupported)
  else if h.rawAllocated || h.opened then (h, answer c .inUse)
  else ({ h with rawAllocated := true, rawType := c.command 1 }, answer c .ok)

def doRawDns (h : NetHandle) (c : Call) : NetHandle × Answer :=
  if !h.rawAllocated || 223 ≤ (c.text 1 223).length then (h, answer c .param)
  else
    match c.resolve h.rawType (c.text 1 223) with
    | none => (h, answer c .dns)
    | some address => (h, ⟨.ok, c.jim.write (c.cp + 4) address⟩)

/-- The URL that names a raw connection. -/
def rawUrl (h : NetHandle) (c : Call) : List UInt8 :=
  let octet (i : Nat) := ascii (toString (c.command i).toNat)
  (if h.rawType ≠ 0 then ascii "UDP" else ascii "TCP") ++ ascii "://" ++ octet 1 ++ ascii "." ++
    octet 2 ++ ascii "." ++ octet 3 ++ ascii "." ++ octet 4 ++ ascii ":" ++
    ascii (toString (c.rd16 5)) ++ ascii "/"

def doRawConnect (h : NetHandle) (c : Call) : NetHandle × Answer :=
  if !h.rawAllocated then (h, answer c .notOpen)
  else if c.rd16 5 = 0 then (h, answer c .param)
  else
    let h := if !h.opened then { h with url := rawUrl h c } else h
    ({ h with opened := true }, answer c .ok)

/-- `snprintf` of a string into `handle->url`. -/
def storedUrl (url : List UInt8) : List UInt8 := url.take 223

def doSshOpen (h : NetHandle) (c : Call) : NetHandle × Answer :=
  if !(c.terminated (c.rd32 2) && c.terminated (c.rd32 6)) then (h, answer c .param)
  else
    let polled := { h with openPolls := h.openPolls + 1 }
    if h.openPolls = 0 then
      ({ polled with url := storedUrl (c.string (c.rd32 2)) }, answer c .pending)
    else
      ({ polled with opened := true, fixture := fixtureSshShell, fixturePos := 0, readIndex := 0 },
        answer c .ok)

def doSshPassword (h : NetHandle) (c : Call) : NetHandle × Answer :=
  let length := (c.command 1).toNat
  if length = 0 || 127 < length || !insideWindow (c.rd32 4) length then (h, answer c .param)
  else (h, ⟨.ok, c.jim.write (c.base + c.rd32 4) (List.replicate length 0)⟩)

def doSftpOpen (h : NetHandle) (c : Call) : NetHandle × Answer :=
  if !(c.terminated (c.rd32 2) && c.terminated (c.rd32 6)) then (h, answer c .param)
  else ({ h with opened := true, url := storedUrl (c.string (c.rd32 2)) }, answer c .ok)

/-- The commands on a remote path, by their reply. -/
def doSftpPath (reply : List UInt8) (h : NetHandle) (c : Call) : NetHandle × Answer :=
  if !h.opened || !c.terminated (c.rd32 4) || !insideWindow (c.rd32 8) (c.rd24 1) ||
      c.rd24 1 < reply.length then (h, answer c .param)
  else (h, ⟨.ok, wr24 c reply.length (c.jim.write (c.base + c.rd32 8) reply)⟩)

def doSftpTransferOpen (h : NetHandle) (c : Call) : NetHandle × Answer :=
  if !h.opened then (h, answer c .notOpen)
  else ({ h with fixture := fixtureSftp, fixturePos := 0 }, answer c .ok)

def doSftpTransferClose (h : NetHandle) (c : Call) : NetHandle × Answer :=
  ({ h with fixture := [], fixturePos := 0 }, answer c .ok)

def doCaps (h : NetHandle) (c : Call) : NetHandle × Answer :=
  (h, ⟨.ok, c.jim.write (c.cp + 1) [1, 1, 0x0F, 0xB8, 0x88, 1, 1, 78, 84, 83]⟩)

/-- A random source that fails has filled the front of the block. -/
def doRandom (h : NetHandle) (c : Call) : NetHandle × Answer :=
  let length := c.rd16 1
  if length = 0 || 64 < length || !insideWindow (c.rd32 4) length then (h, answer c .param)
  else
    let filled := c.jim.write (c.base + c.rd32 4) (c.random.take length)
    (h, ⟨if c.random.length < length then .conn else .ok, filled⟩)

def doCopyPublic (h : NetHandle) (c : Call) : NetHandle × Answer :=
  let count := (c.command 1).toNat
  let destination := c.rd16 2
  if count = 0 || 240 < count || 0x10000 < destination + count || serviceSize < 0xfff100 + count then
    (h, answer c .param)
  else (h, ⟨.ok, c.jim.write destination (c.jim.read (c.base + 0xfff100) count)⟩)

/-- The function of a command, from the switches of `pi1mhz_net_backend_dispatch` and `do_secure`.
Commands of the other services are taken before a handle is looked up. -/
def handler (command : UInt8) : NetHandle → Call → NetHandle × Answer :=
  if command = netCmdOpen then doRawOpen
  else if command = netCmdDns then doRawDns
  else if command = netCmdConnect then doRawConnect
  else if command = netCmdCopyPublic then doCopyPublic
  else if command = netCmdUrlOpen then doOpen
  else if command ∈ [netCmdRecv, netCmdUrlRead, secCmdSshRead, secCmdSftpGetRead] then doRead
  else if command ∈ [netCmdSend, netCmdUrlWrite, secCmdSshWrite, secCmdSftpPutWrite] then doWrite
  else if command ∈ [netCmdClose, netCmdUrlClose, secCmdSshClose, secCmdSftpClose] then doClose
  else if command = secCmdCaps then doCaps
  else if command = secCmdRandom then doRandom
  else if command = secCmdSshOpen then doSshOpen
  else if command = secCmdSshPassword then doSshPassword
  else if command = secCmdSftpOpen then doSftpOpen
  else if command = secCmdSftpPwd then doSftpPath (ascii "/fixture\n")
  else if command = secCmdSftpLs then doSftpPath (ascii "fixture.txt\n")
  else if command ∈ [secCmdSftpCd, secCmdSftpDelete, secCmdSftpMkdir, secCmdSftpRmdir] then
    doSftpPath []
  else if command ∈ [secCmdSftpGetOpen, secCmdSftpPutOpen] then doSftpTransferOpen
  else if command = secCmdSftpTransferClose then doSftpTransferClose
  else fun h c => (h, answer c .unsupported)

def dispatch (h : NetHandle) (c : Call) : NetHandle × Answer := handler (c.command 0) h c

end Pi1MHz.NetFixture
