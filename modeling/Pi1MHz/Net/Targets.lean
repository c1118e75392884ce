import Pi1MHz.Foundation.Memory

/-! The builders of the URL a client connects to: `build_ssh_target` (`ssh.asm`),
`build_telnet_url` (`telnet.asm`) and `build_sftp_target` (`sftp.asm`). Numbers are ASCII codes:
13 CR, 32 space, 47 `/`, 58 `:`, 64 `@`. -/
namespace Pi1MHz.Targets

section Tail

/-- The 256 bytes that Y reaches from `command_line`, one of them the CR that ends the tail. -/
structure CommandTail where
  bytes : UInt8 → UInt8
  ended : ∃ y, bytes y = 13

def CommandTail.page (tail : CommandTail) : List UInt8 :=
  (List.range 256).map fun i => tail.bytes (UInt8.ofNat i)

/-- What stands before the first CR. -/
def CommandTail.text (tail : CommandTail) : List UInt8 := tail.page.takeWhile (· ≠ 13)

end Tail

section Loops

/-- A buffer while it is filled: X, Y, the bytes from its start on, and the offsets stored to. -/
structure Copy where
  x : UInt8
  y : UInt8
  buffer : Memory UInt8
  stores : List UInt8

/-- `STA buffer,X` -/
def Copy.store (s : Copy) (value : UInt8) : Copy :=
  { s with buffer := s.buffer.write s.x.toNat [value], stores := s.stores ++ [s.x] }

/-- A store and `INX`. -/
def Copy.put (s : Copy) (value : UInt8) : Copy := { s.store value with x := s.x + 1 }

def Copy.puts (s : Copy) (values : List UInt8) : Copy := values.foldl Copy.put s

variable (bytes : UInt8 → UInt8)

/-- The spaces before the target. The loop also ends when Y wraps. -/
def skipSpaces : Nat → UInt8 → Option UInt8
  | 0, _ => none
  | fuel + 1, y =>
    if bytes y ≠ 32 then some y
    else if y + 1 = 0 then some 0
    else skipSpaces fuel (y + 1)

/-- The spaces after the host. -/
def skipPortSpace : Nat → UInt8 → Option UInt8
  | 0, _ => none
  | fuel + 1, y => if bytes (y + 1) = 32 then skipPortSpace fuel (y + 1) else some (y + 1)

/-- The copy of a user name, a host or a port, up to a byte that stops it. With a limit it is given
up, the flag is then false, when X reaches it. -/
def copyUntil (stops : UInt8 → Bool) (limit : Option UInt8) : Nat → Copy → Option (Copy × Bool)
  | 0, _ => none
  | fuel + 1, s =>
    if stops (bytes s.y) then some (s, true)
    else
      let s := s.put (bytes s.y)
      if limit.any (· ≤ s.x) then some (s, false)
      else copyUntil stops limit fuel { s with y := s.y + 1 }

end Loops

section Builders

/-- C at the return, and the two buffers. -/
structure Built where
  success : Bool
  url : Copy
  username : Copy

/-- `TCP://` -/
def tcpPrefix : List UInt8 := [84, 67, 80, 58, 47, 47]

/-- `TELNET://` -/
def telnetPrefix : List UInt8 := [84, 69, 76, 78, 69, 84, 58, 47, 47]

variable (bytes : UInt8 → UInt8) (fuel : Nat)

/-- The `/` and the NUL. -/
def finish (url : Copy) : Copy := (url.put 47).store 0

/-- From the host on: the host, and either a space and the port or what stands for no port. -/
def hostAndPort (stops : UInt8 → Bool) (limit : UInt8) (noPort : List UInt8) (url username : Copy) :
    Option Built :=
  (copyUntil bytes stops (some limit) fuel url).bind fun (url, whole) =>
    if !whole then some ⟨false, url, username⟩
    else if bytes url.y = 32 then
      let url := url.put 58
      (skipPortSpace bytes fuel url.y).bind fun y =>
        (copyUntil bytes stops none fuel { url with y }).bind fun (url, _) =>
          some ⟨true, finish url, username⟩
    else some ⟨true, finish (url.puts noPort), username⟩

/-- `user@host [port]`; `ends` are the bytes taken for the end of the line. -/
def buildTarget (ends : UInt8 → Bool) (url username : Memory UInt8) : Option Built :=
  (skipSpaces bytes fuel 0).bind fun y =>
    (copyUntil bytes (fun byte => byte = 64 || ends byte || byte = 32) (some 63) fuel
        ⟨0, y, username, []⟩).bind fun (name, whole) =>
      if !whole || bytes name.y ≠ 64 then some ⟨false, ⟨0, name.y, url, []⟩, name⟩
      else
        let copied : Copy := ⟨0, name.y + 1, url, []⟩
        hostAndPort bytes fuel (fun byte => byte = 32 || ends byte) 180 [58, 50, 50]
          (copied.puts tcpPrefix) (name.store 0)

/-- `build_ssh_target`: CR and NUL end the line. -/
def buildSshTarget (url username : Memory UInt8) : Option Built :=
  buildTarget bytes fuel (fun byte => byte = 13 || byte = 0) url username

/-- `build_sftp_target`: only CR does. Its host loop moves Y before it compares X, which shows only
when it gives up. -/
def buildSftpTarget (url username : Memory UInt8) : Option Built :=
  buildTarget bytes fuel (fun byte => byte = 13) url username

/-- `build_telnet_url`: the prefix goes in first, and there is no user. -/
def buildTelnetUrl (url username : Memory UInt8) : Option Built :=
  let copied : Copy := (⟨0, 0, url, []⟩ : Copy).puts telnetPrefix
  (skipSpaces bytes fuel 0).bind fun y =>
    let copied := { copied with y }
    if bytes y = 13 || bytes y = 0 then some ⟨false, copied, ⟨0, 0, username, []⟩⟩
    else
      hostAndPort bytes fuel (fun byte => byte = 32 || byte = 13 || byte = 0) 190 [] copied
        ⟨0, 0, username, []⟩

inductive Client
  | ssh
  | telnet
  | sftp
deriving DecidableEq, Repr

def build : Client → Memory UInt8 → Memory UInt8 → Option Built
  | .ssh => buildSshTarget bytes fuel
  | .telnet => buildTelnetUrl bytes fuel
  | .sftp => buildSftpTarget bytes fuel

end Builders

/-! What is typed: `[user@]host [port]`, with spaces between. -/
section Typed

def Client.scheme : Client → List UInt8
  | .telnet => telnetPrefix
  | _ => tcpPrefix

def Client.noPort : Client → List UInt8
  | .telnet => []
  | _ => [58, 50, 50]

def Client.hostLimit : Client → UInt8
  | .telnet => 190
  | _ => 180

/-- SSH and TELNET take a NUL for the end of the line too. -/
def Client.ends : Client → UInt8 → Bool
  | .sftp, byte => byte = 13
  | _, byte => byte = 13 || byte = 0

def Client.inField (client : Client) (byte : UInt8) : Bool := !(byte = 32 || client.ends byte)

def Client.inName (client : Client) (byte : UInt8) : Bool := client.inField byte && byte ≠ 64

def afterSpaces (text : List UInt8) : List UInt8 := text.dropWhile (· = 32)

/-- What follows the `@`; TELNET has no user. -/
def Client.hostText : Client → List UInt8 → List UInt8
  | .telnet, text => afterSpaces text
  | client, text => ((afterSpaces text).dropWhile client.inName).drop 1

def Client.afterHost (client : Client) (text : List UInt8) : List UInt8 :=
  (client.hostText text).dropWhile client.inField

def Client.host (client : Client) (text : List UInt8) : List UInt8 :=
  (client.hostText text).takeWhile client.inField

def Client.port (client : Client) (text : List UInt8) : List UInt8 :=
  (afterSpaces (client.afterHost text)).takeWhile client.inField

/-- The URL of the typed target. -/
def Client.url (client : Client) (text : List UInt8) : List UInt8 :=
  client.scheme ++ client.host text ++
    (if client.port text = [] then client.noPort else 58 :: client.port text) ++ [47]

/-- A user of at most 62 bytes and its `@`, or for TELNET the start of a host. -/
def Client.Named : Client → List UInt8 → Prop
  | .telnet, text => ∃ first rest, afterSpaces text = first :: rest ∧ first ≠ 0
  | client, text =>
    ((afterSpaces text).takeWhile client.inName).length < 63 ∧
      ((afterSpaces text).dropWhile client.inName).head? = some 64

/-- The tail names a target whose host is not too long. -/
def Client.Accepts (client : Client) (text : List UInt8) : Prop :=
  client.Named text ∧ client.scheme.length + (client.host text).length < client.hostLimit.toNat

/-- The URL with its NUL fits the buffer, a space after the host is followed by a port, and no NUL
stands in the host or the port. -/
structure Client.Sound (client : Client) (text : List UInt8) : Prop where
  fits : client.port text ≠ [] →
    client.scheme.length + (client.host text).length + (client.port text).length ≤ 189
  port : (client.afterHost text).head? = some 32 → client.port text ≠ []
  plain : 0 ∉ client.host text ++ client.port text

/-- The builder returns, has stored only inside its buffers, and what it calls a success is the URL
of the typed target, ended by its only NUL. -/
def Safe (client : Client) (tail : CommandTail) (fuel : Nat) (url username : Memory UInt8) : Prop :=
  ∃ done, build tail.bytes fuel client url username = some done ∧
    (∀ offset ∈ done.url.stores, offset < 192) ∧ (∀ offset ∈ done.username.stores, offset < 64) ∧
    (done.success = true →
      done.url.buffer.read 0 ((client.url tail.text).length + 1) = client.url tail.text ++ [0] ∧
        0 ∉ client.url tail.text)

end Typed

end Pi1MHz.Targets
