import Pi1MHz.HostTools.Calls
import Pi1MHz.Ssh.Secrets

/-! The SSH commands of the dispatcher over the live provider (`do_secure` of
`pi1mhz_net_backend.c`), with the file of known hosts and the strings in JIM. -/
namespace Pi1MHz.Wolfssh
open HostTools

def Status.byte : Status → UInt8
  | .ok => 0
  | .pending => 1
  | .errParam => 0x23
  | .errDns => 0x24
  | .errConn => 0x25
  | .errProtocol => 0x2b
  | .hostkeyUnknown => 0x2c
  | .authFailed => 0x2d

/-- A key that was accepted for a host, and whether the connection trusted unknown keys. -/
structure Accepted where
  hostId : List UInt8
  publicKey : List UInt8
  trustUnknown : Bool

/-- The provider, the file and JIM from `&020300` on. `accepted` lists the keys accepted so far;
the code keeps no such list. -/
structure Backend where
  provider : Provider
  knownHosts : List UInt8
  url : List UInt8
  username : List UInt8
  window : List UInt8
  fingerprint : List UInt8
  accepted : List Accepted

/-- What a call of `wolfSSH_stream_read` or `wolfSSH_stream_send` comes to. Neither presents a host
key here, as it does when the two ends renew their keys. -/
inductive Streamed
  | moved (bytes : List UInt8) (count : Nat)
  | wantIo
  | eof
  | failed

/-- What the network decides about one command: what an open meets, the keys that the server
presents with their fingerprints, and the stream. -/
structure Meeting where
  outside : Outside
  presented : List (List UInt8 × Option (List UInt8))
  streamed : Streamed

section HostKeys

variable (encoding : KeyEncoding)

/-- The callbacks of one `wolfSSH_connect`, in order. -/
def present (b : Backend) : List (List UInt8 × Option (List UInt8)) → Backend × List HostkeyCall
  | [] => (b, [])
  | (publicKey, fingerprint) :: rest =>
    let (verdict, file) := hostkey encoding b.provider.hostId b.provider.trustUnknown publicKey
      b.knownHosts
    let accepted := if verdict = .accepted then
        b.accepted ++ [⟨b.provider.hostId, publicKey, b.provider.trustUnknown⟩]
      else b.accepted
    let (b, calls) := present { b with knownHosts := file, accepted } rest
    (b, ⟨verdict, fingerprint⟩ :: calls)

end HostKeys

section Commands

variable (encoding : KeyEncoding)

def wr24 (command : UInt8) (value : Nat) : List UInt8 :=
  [command, value.toUInt8, (value / 256).toUInt8, (value / 65536).toUInt8]

/-- `SEC_CMD_SSH_OPEN`; only a connection in stage `PROVIDER_SSH` calls wolfSSH. -/
def secSshOpen (b : Backend) (flags : UInt8) (m : Meeting) : Backend × Reply :=
  let (b, calls) := if b.provider.stage = .ssh then present encoding b m.presented else (b, [])
  let opened := openCall b.provider b.url b.username (flags &&& 1 != 0)
    { m.outside with hostkeyCalls := calls }
  let fingerprint := if opened.status = .hostkeyUnknown then
      opened.fingerprint.getD b.fingerprint
    else b.fingerprint
  ({ b with provider := opened.provider, fingerprint }, ⟨opened.status.byte, [96, flags], []⟩)

/-- `SEC_CMD_SSH_PASSWORD`; the copy in JIM is erased unless the length is refused. -/
def secSshPassword (b : Backend) (length : UInt8) : Backend × Reply :=
  if length = 0 ∨ 127 < length then (b, ⟨Status.errParam.byte, [100, length], []⟩)
  else
    let (provider, stored) := passwordCall b.provider (b.window.take length.toNat)
    let window := List.replicate length.toNat 0 ++ b.window.drop length.toNat
    ({ b with provider, window }, ⟨if stored then 0 else Status.errParam.byte, [100, length], []⟩)

def secSshRead (b : Backend) (m : Meeting) : Reply :=
  if b.provider.stage ≠ .up then ⟨Status.errConn.byte, wr24 97 0, []⟩
  else
    match m.streamed with
    | .moved bytes _ => ⟨0, wr24 97 (bytes.take netIoMax).length, bytes.take netIoMax⟩
    | .wantIo => ⟨0, wr24 97 0, []⟩
    | .eof => ⟨netEof, wr24 97 0, []⟩
    | .failed => ⟨Status.errProtocol.byte, wr24 97 0, []⟩

def secSshWrite (b : Backend) (bytes : List UInt8) (m : Meeting) : Reply :=
  if b.provider.stage ≠ .up then ⟨Status.errConn.byte, wr24 98 0, []⟩
  else
    match m.streamed with
    | .moved _ count => ⟨0, wr24 98 (min count bytes.length), []⟩
    | .wantIo => ⟨0, wr24 98 0, []⟩
    | .eof | .failed => ⟨Status.errProtocol.byte, wr24 98 0, []⟩

/-- `SEC_CMD_CAPS`: ABI 1.1, managed SSH, passwords and SFTP. -/
def secCaps : Reply := ⟨0, [94, 1, 1, 0x0f, 0xb8, 0x88, 1, 1, 78, 84, 83], []⟩

/-- The commands of `*SSH`. Those of `*TELNET` do not come here. -/
def doSecure (b : Backend) (command : Command) (m : Meeting) : Backend × Reply :=
  match command with
  | .caps => (b, secCaps)
  | .sshOpen flags => secSshOpen encoding b flags m
  | .sshRead => (b, secSshRead b m)
  | .sshWrite bytes => (b, secSshWrite b bytes m)
  | .sshClose => ({ b with provider := close b.provider }, ⟨0, [99], []⟩)
  | .sshPassword length => secSshPassword b length
  | _ => (b, ⟨netErrUnsupported, [], []⟩)

theorem doSecure_sshPassword (b : Backend) (length : UInt8) (m : Meeting) :
    doSecure encoding b (.sshPassword length) m = secSshPassword b length := rfl

theorem doSecure_sshOpen (b : Backend) (flags : UInt8) (m : Meeting) :
    doSecure encoding b (.sshOpen flags) m = secSshOpen encoding b flags m := rfl

def storeString (b : Backend) (place : Place) (bytes : List UInt8) : Backend :=
  match place with
  | .url => { b with url := bytes }
  | .user => { b with username := bytes }
  | .password => { b with window := bytes ++ b.window.drop bytes.length }

/-- The service that `*SSH` meets in the emulator. -/
def sshService : Service Backend Meeting where
  store := storeString
  dispatch := doSecure encoding
  fingerprint := Backend.fingerprint

end Commands

end Pi1MHz.Wolfssh
