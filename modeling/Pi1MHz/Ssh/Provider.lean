import Pi1MHz.Ssh.KnownHosts

/-! The SSH provider (`pi1mhz_wolfssh.c`) from one call to the next: an open is polled through the
stages of a connection, with the key files, the resolver, the sockets and wolfSSH giving any
results. -/
namespace Pi1MHz.Wolfssh

inductive Stage
  | idle
  | tcp
  | ssh
  | resize
  | up
deriving DecidableEq, Repr

inductive Status
  | ok
  | pending
  | errParam
  | errDns
  | errConn
  | errProtocol
  | hostkeyUnknown
  | authFailed
deriving DecidableEq, Repr

def directorySize : Nat := 384
def pathSize : Nat := 512
def usernameSize : Nat := 64
def fingerprintSize : Nat := 96

/-- `sizeof(provider->password)`. -/
def passwordCapacity : Nat := 128

structure Provider where
  stage : Stage
  socketFd : Option Nat
  ctx : Option Nat
  ssh : Option Nat
  directory : List UInt8
  host : List UInt8
  hostId : List UInt8
  username : List UInt8
  fingerprint : List UInt8
  trustUnknown : Bool
  hostUnknown : Bool
  hostChanged : Bool
  publicKey : Option (List UInt8)
  privateKey : Option (List UInt8)
  password : List UInt8
  passwordSize : Nat
deriving DecidableEq, Repr

section Outside

/-- What `wolfSSH_ReadKey_file` comes to, and the key it allocates. -/
structure KeyRead where
  success : Bool
  isPrivate : Bool
  key : Option (List UInt8)

/-- `socket` for one address, and whether `connect` succeeds or is in progress. -/
structure Attempt where
  socket : Option Nat
  connects : Bool

inductive SocketError
  | none
  | inProgress
  | other
deriving DecidableEq, Repr

inductive WsResult
  | success
  | wantRead
  | wantWrite
  | other
deriving DecidableEq, Repr

/-- A call that wolfSSH makes to `hostkey_callback`, and the fingerprint it gets to write. -/
structure HostkeyCall where
  verdict : Verdict
  fingerprint : Option (List UInt8)

/-- All that one open can meet outside the provider. -/
structure Outside where
  readKey : List UInt8 → KeyRead
  addresses : Option (List Attempt)
  getsockoptFails : Bool
  socketError : SocketError
  ctxNew : Option Nat
  sshNew : Option Nat
  setUsername : Bool
  setChannelType : Bool
  setFd : Bool
  hostkeyCalls : List HostkeyCall
  connect : WsResult
  changeTerminalSize : WsResult
  getError : WsResult

end Outside

section Erasing

def freeKeys (p : Provider) : Provider := { p with privateKey := none, publicKey := none }

def clearPassword (p : Provider) : Provider :=
  { p with password := List.replicate passwordCapacity 0, passwordSize := 0 }

/-- `memcpy` to the front of the password buffer. -/
def copyPassword (p : Provider) (bytes : List UInt8) : Provider :=
  { p with password := bytes ++ p.password.drop bytes.length, passwordSize := bytes.length }

def resetConnection (p : Provider) (keepPassword : Bool) : Provider :=
  let savedSize := if keepPassword then p.passwordSize else 0
  let closed := clearPassword
    { freeKeys p with ssh := none, ctx := none, socketFd := none, stage := .idle }
  if savedSize = 0 then closed else copyPassword closed (p.password.take savedSize)

/-- `pi1mhz_wolfssh_close`. -/
def close (p : Provider) : Provider := resetConnection p false

end Erasing

/-- `pi1mhz_wolfssh_create`. -/
def create (directory : List UInt8) (initialised : Bool) : Option Provider :=
  if directorySize ≤ directory.length ∨ !initialised then none
  else some
    { stage := .idle, socketFd := none, ctx := none, ssh := none, directory := directory
      host := [], hostId := [], username := [], fingerprint := []
      trustUnknown := false, hostUnknown := false, hostChanged := false
      publicKey := none, privateKey := none
      password := List.replicate passwordCapacity 0, passwordSize := 0 }

section Opening

def makePath (p : Provider) (name : List UInt8) : Option (List UInt8) :=
  let path := p.directory ++ 47 :: name
  if path.length < pathSize then some path else none

/-- `id_ed25519`. -/
def keyName : List UInt8 := [105, 100, 95, 101, 100, 50, 53, 53, 49, 57]

/-- `.pub`. -/
def publicSuffix : List UInt8 := [46, 112, 117, 98]

/-- What a read allocates stays in the provider, also when it fails. -/
def loadKeys (p : Provider) (o : Outside) : Provider × Bool :=
  match makePath p keyName with
  | none => (p, false)
  | some path =>
    let read := o.readKey path
    let p := { p with privateKey := read.key <|> p.privateKey }
    if !read.success || !read.isPrivate then (p, false)
    else match makePath p (keyName ++ publicSuffix) with
      | none => (p, false)
      | some path =>
        let read := o.readKey path
        let p := { p with publicKey := read.key <|> p.publicKey }
        (p, read.success && !read.isPrivate)

/-- The descriptor of the first address that connects; the others are closed. -/
def connectFirst : List Attempt → Option Nat
  | [] => none
  | a :: rest =>
    match a.socket with
    | none => connectFirst rest
    | some fd => if a.connects then some fd else connectFirst rest

def beginTcp (p : Provider) (url username : List UInt8) (trustUnknown : Bool) (o : Outside) :
    Provider × Status :=
  match parseUrl url with
  | none => (p, .errParam)
  | some (host, _) =>
    let p := { p with host := host }
    if username = [] ∨ usernameSize ≤ username.length then (p, .errParam)
    else
      let p := { p with username := username }
      match hostIdOf url with
      | none => (p, .errParam)
      | some hostId =>
        let p := { p with
          hostId := hostId
          trustUnknown := trustUnknown
          hostUnknown := false
          hostChanged := false
          fingerprint := [] }
        let (loaded, both) := loadKeys p o
        let p := if both then loaded else freeKeys loaded
        if !both ∧ p.passwordSize = 0 then (p, .authFailed)
        else match o.addresses with
          | none => (p, .errDns)
          | some addresses =>
            match connectFirst addresses with
            | none => ({ p with socketFd := none }, .errConn)
            | some fd => ({ p with socketFd := some fd, stage := .tcp }, .pending)

def startSsh (p : Provider) (o : Outside) : Provider × Status :=
  if o.getsockoptFails ∨ o.socketError ≠ .none then
    (p, if o.socketError = .inProgress then .pending else .errConn)
  else
    let p := { p with ctx := o.ctxNew }
    if p.ctx = none then (p, .errConn)
    else
      let p := { p with ssh := o.sshNew }
      if p.ssh = none ∨ !o.setUsername ∨ !o.setChannelType ∨ !o.setFd then (p, .errConn)
      else ({ p with stage := .ssh }, .pending)

def wantIo (p : Provider) (o : Outside) (result : WsResult) : Bool :=
  let error := if p.ssh.isSome then o.getError else result
  result = .wantRead || result = .wantWrite || error = .wantRead || error = .wantWrite

/-- What a call of `hostkey_callback` leaves in the provider. -/
def hostkeyCalled (p : Provider) (call : HostkeyCall) : Provider :=
  { p with
    fingerprint := call.fingerprint.getD p.fingerprint
    hostChanged := p.hostChanged || call.verdict = .changed
    hostUnknown := p.hostUnknown || call.verdict = .unknown }

/-- What an open leaves: the provider, the status, and the caller's fingerprint if it is written. -/
structure Opened where
  provider : Provider
  status : Status
  fingerprint : Option (List UInt8)

/-- An open in stage `PROVIDER_SSH`. -/
def connectSsh (p : Provider) (o : Outside) : Opened :=
  let p := o.hostkeyCalls.foldl hostkeyCalled p
  if o.connect = .success then ⟨{ clearPassword (freeKeys p) with stage := .resize }, .pending, none⟩
  else if wantIo p o o.connect then ⟨p, .pending, none⟩
  else
    let status :=
      if p.hostUnknown then .hostkeyUnknown
      else if p.hostChanged then .errProtocol else .authFailed
    ⟨resetConnection p (status = .hostkeyUnknown), status,
      some (p.fingerprint.take (fingerprintSize - 1))⟩

/-- A failed step of an open closes the provider. -/
def closeUnlessPending (out : Provider × Status) : Opened :=
  if out.2 = .pending then ⟨out.1, out.2, none⟩ else ⟨close out.1, out.2, none⟩

/-- `pi1mhz_wolfssh_open`. -/
def openCall (p : Provider) (url username : List UInt8) (trustUnknown : Bool) (o : Outside) :
    Opened :=
  match p.stage with
  | .idle => closeUnlessPending (beginTcp p url username trustUnknown o)
  | .tcp => closeUnlessPending (startSsh p o)
  | .up => ⟨p, .ok, none⟩
  | .resize =>
    if o.changeTerminalSize = .success then ⟨{ p with stage := .up }, .ok, none⟩
    else if wantIo p o o.changeTerminalSize then ⟨p, .pending, none⟩
    else ⟨close p, .errProtocol, none⟩
  | .ssh => connectSsh p o

end Opening

/-- `pi1mhz_wolfssh_password`, and whether it accepts the password. -/
def passwordCall (p : Provider) (bytes : List UInt8) : Provider × Bool :=
  if p.stage ≠ .idle ∨ bytes.length = 0 ∨ passwordCapacity < bytes.length then (p, false)
  else (copyPassword (clearPassword p) bytes, true)

inductive Call
  | password (bytes : List UInt8)
  | open (url username : List UInt8) (trustUnknown : Bool) (outside : Outside)
  | close

def call (p : Provider) : Call → Provider
  | .password bytes => (passwordCall p bytes).1
  | .open url username trustUnknown o => (openCall p url username trustUnknown o).provider
  | .close => close p

end Pi1MHz.Wolfssh
