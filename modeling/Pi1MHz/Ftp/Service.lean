import Pi1MHz.Foundation.RingBuffer
import Pi1MHz.Ftp.Text

/-! The FTP service (`ftp_service.c`): a mailbox request is polled to its end while lwIP calls
back between polls. What lwIP answers within a poll is an input of that poll, and what the
service does to the outside is the list of its actions. -/
namespace Pi1MHz.FtpService

def ftpControlCapacity : Nat := 768
def ftpDataCapacity : Nat := 8192
def ftpScratchOffset : Nat := 0xfff100
@[irreducible] def ftpTimeoutMs : UInt32 := 30000

def ftpCmdOpen : UInt8 := 128
def ftpCmdExec : UInt8 := 129
def ftpCmdRead : UInt8 := 130
def ftpCmdWrite : UInt8 := 131
def ftpCmdClose : UInt8 := 132
def ftpCmdCancel : UInt8 := 133

inductive Result
  | ok
  | pending
  | eof
  | param
  | dns
  | connect
  | timeout
  | abort
deriving DecidableEq, Repr

def Result.byte : Result → UInt8
  | .ok => 0x00
  | .pending => 0x80
  | .eof => 0x20
  | .param => 0x23
  | .dns => 0x24
  | .connect => 0x25
  | .timeout => 0x2B
  | .abort => 0x2D

inductive State
  | closed
  | dns
  | connecting
  | greeting
  | ready
  | error
deriving DecidableEq, Repr

inductive Operation
  | none
  | open
  | simpleSend
  | simpleReply
  | epsvSend
  | epsvReply
  | pasvSend
  | pasvReply
  | dataConnect
  | transferSend
  | transferReply
  | read
  | write
  | writeFinish
  | close
deriving DecidableEq, Repr

/-- A connection, by the end it was asked to connect to. -/
structure Pcb where
  address : UInt32
  port : Nat
deriving DecidableEq, Repr

/-- The session record; `controlText` holds `control_length` bytes. `lastReply` is the whole reply
also when there is a NUL in it, where the `strchr` of the two parsers would stop. -/
structure Ftp where
  state : State
  operation : Operation
  control : Option Pcb
  data : Option Pcb
  address : UInt32
  dnsDone : Bool
  dnsOk : Bool
  controlConnected : Bool
  controlEof : Bool
  dataConnected : Bool
  dataEof : Bool
  dataError : Bool
  dataPort : Nat
  transfer : Transfer
  host : List UInt8
  request : List UInt8
  transferCommand : List UInt8
  controlText : List UInt8
  lastReply : List UInt8
  ring : RingBuffer UInt8
  deadline : UInt32

/-- The record after `memset`. Detaching a connection removes its callbacks, so `ftp_reset`
leaves nothing else behind, however the connections were ended. -/
def ftpReset : Ftp where
  state := .closed
  operation := .none
  control := none
  data := none
  address := 0
  dnsDone := false
  dnsOk := false
  controlConnected := false
  controlEof := false
  dataConnected := false
  dataEof := false
  dataError := false
  dataPort := 0
  transfer := .none
  host := []
  request := []
  transferCommand := []
  controlText := []
  lastReply := []
  ring := ⟨fun _ => 0, 0, 0, 0⟩
  deadline := 0

inductive DnsAnswer
  | found (address : UInt32)
  | inProgress
  | failed
deriving DecidableEq, Repr

/-- What the clock and lwIP answer during one poll. -/
structure Env where
  now : UInt32
  addressReady : Bool
  dns : DnsAnswer
  newPcb : Bool
  connectOk : Bool
  closeOk : Bool
  sndbuf : Nat
  writeOk : Bool
deriving DecidableEq, Repr

/-- What the service does that can be seen from outside, and what lwIP reports to it. -/
inductive Action
  | resolve (host : List UInt8)
  | connectControl (pcb : Pcb)
  | wrote (line : List UInt8)
  | replied (code : Nat) (text : List UInt8)
  | connectData (pcb : Pcb)
  | connected (port : Nat)
  | wroteData (bytes : List UInt8)
deriving DecidableEq, Repr

/-- An entry of a trace: actions between the first and the last poll of requests. -/
inductive Entry
  | began (command : UInt8) (request : List UInt8)
  | did (action : Action)
  | completed (command : UInt8) (result : Result)
deriving DecidableEq, Repr

structure Outcome where
  result : Result
  ftp : Ftp
  actions : List Action

def ftpExpired (env : Env) (ftp : Ftp) : Bool := env.now - ftp.deadline < 0x80000000

def ftpSetDeadline (env : Env) (ftp : Ftp) : Ftp := { ftp with deadline := env.now + ftpTimeoutMs }

def ftpError (result : Result) (ftp : Ftp) : Outcome :=
  ⟨result, { ftp with state := .error, operation := .none }, []⟩

/-- A step that is not done yet. -/
def waiting (env : Env) (ftp : Ftp) : Outcome :=
  ⟨if ftpExpired env ftp then .timeout else .pending, ftp, []⟩

def sendable (env : Env) (ftp : Ftp) (line : List UInt8) : Bool :=
  ftp.control.isSome && line.length ≤ 0xffff && line.length ≤ env.sndbuf && env.writeOk

def ftpSend (env : Env) (ftp : Ftp) (line : List UInt8) : Option Ftp :=
  if sendable env ftp line then some (ftpSetDeadline env ftp) else none

/-- The sending cases of the switch: on success the operation moves to `next`. -/
def sendLine (env : Env) (ftp : Ftp) (line : List UInt8) (next : Operation) : Outcome :=
  match ftpSend env ftp line with
  | none => waiting env ftp
  | some ftp => ⟨.pending, { ftp with operation := next }, [.wrote line]⟩

/-- Take the first complete reply out of the control text. -/
def ftpReply (ftp : Ftp) : Option (Nat × Ftp) :=
  (scanReply ftp.controlText 0 0 0).map fun found =>
    (found.1, { ftp with
      lastReply := (ftp.controlText.take found.2).take ftpTextMax
      controlText := ftp.controlText.drop found.2 })

/-- The receiving cases of the switch. -/
def awaitReply (env : Env) (ftp : Ftp) (next : Nat → Ftp → Outcome) : Outcome :=
  match ftpReply ftp with
  | none => waiting env ftp
  | some (code, ftp) =>
    let after := next code ftp
    { after with actions := .replied code ftp.lastReply :: after.actions }

def ftpStartControl (env : Env) (port : Nat) (ftp : Ftp) : Outcome :=
  if !env.newPcb then ftpError .connect { ftp with control := none }
  else if !env.connectOk then ftpError .connect { ftp with control := none }
  else
    let pcb : Pcb := ⟨ftp.address, port⟩
    let ftp := { ftp with control := some pcb, state := .connecting }
    ⟨.pending, ftpSetDeadline env ftp, [.connectControl pcb]⟩

/-- An expired wait of `ftp_open_poll`, which ends the session. -/
def openWaiting (env : Env) (ftp : Ftp) : Outcome :=
  if ftpExpired env ftp then ftpError .timeout ftp else ⟨.pending, ftp, []⟩

/-- The part of `ftp_open_poll` in the resolving state. -/
def openResolving (env : Env) (port : Nat) (ftp : Ftp) : Outcome :=
  if !ftp.dnsDone then openWaiting env ftp
  else if !ftp.dnsOk then ftpError .dns ftp
  else ftpStartControl env port ftp

/-- The port is a static of its own, returned with the outcome. -/
def ftpOpenPoll (env : Env) (port : Nat) (ftp : Ftp) : Outcome × Nat :=
  match ftp.state with
  | .error => (⟨.connect, ftp, []⟩, port)
  | .closed =>
    match ftpParseUrl ftp.request with
    | none => (⟨.param, ftp, []⟩, port)
    | some (host, port) =>
      let ftp := { ftp with host }
      if !env.addressReady then (waiting env ftp, port)
      else
        let ftp := { ftp with state := .dns }
        let asked (o : Outcome) : Outcome × Nat :=
          ({ o with actions := .resolve host :: o.actions }, port)
        match env.dns with
        | .found address =>
          let ftp := { ftp with address, dnsDone := true, dnsOk := true }
          asked (openResolving env port (ftpSetDeadline env ftp))
        | .inProgress => asked (openResolving env port (ftpSetDeadline env ftp))
        | .failed => asked (ftpError .dns ftp)
  | .dns => (openResolving env port ftp, port)
  | .connecting => (openWaiting env ftp, port)
  | .greeting =>
    match ftpReply ftp with
    | none => (openWaiting env ftp, port)
    | some (code, ftp) =>
      let o : Outcome :=
        if code ≠ 220 then ftpError .connect ftp
        else ⟨.ok, { ftp with state := .ready, operation := .none }, []⟩
      ({ o with actions := [.replied code ftp.lastReply] }, port)
  | .ready => (⟨.ok, ftp, []⟩, port)

/-- Connect to the port just parsed, with an empty ring. -/
def ftpStartData (env : Env) (ftp : Ftp) : Outcome :=
  let ftp := { ftp with
    data := none, dataConnected := false, dataEof := false, dataError := false
    ring := { ftp.ring with head := 0, tail := 0, count := 0 } }
  if !env.newPcb then ⟨.connect, ftp, []⟩
  else if !env.connectOk then ⟨.connect, ftp, []⟩
  else
    let pcb : Pcb := ⟨ftp.address, ftp.dataPort⟩
    ⟨.pending, ftpSetDeadline env { ftp with data := some pcb }, [.connectData pcb]⟩

/-- Keep a line in `transfer_command`; one that does not fit is refused. -/
def storeLine (ftp : Ftp) (line : List UInt8) (next : Operation) : Bool × Ftp :=
  let ftp := { ftp with transferCommand := line.take (transferCommandSize - 1) }
  if transferCommandSize ≤ line.length then (false, ftp)
  else (true, { ftp with operation := next })

/-- The case `FTP_OP_NONE` up to its fall-through: a transfer goes on at `EPSV`, anything else
at its own line. `false` is a refused request. -/
def ftpPrepare (ftp : Ftp) : Bool × Ftp :=
  let ftp := { ftp with request := ftpUpperWord ftp.request }
  let argument := argumentOf ftp.request
  match ftpIsTransfer ftp.request with
  | some (transfer, verb) =>
    let ftp := { ftp with transfer }
    if (transfer = .read ∨ transfer = .write) ∧ argument.length ≤ 1 then (false, ftp)
    else storeLine ftp (verb ++ argument ++ crlf) .epsvSend
  | none =>
    let stored := storeLine ftp (ftpMakeCommand ftp.request) .simpleSend
    if stored.1 then (true, { stored.2 with transfer := .none }) else stored

def ftpExecPoll (env : Env) (ftp : Ftp) : Outcome :=
  if ftp.state ≠ .ready then ⟨.connect, ftp, []⟩
  else
    match ftp.operation with
    | .none =>
      let prepared := ftpPrepare ftp
      if !prepared.1 then ⟨.param, prepared.2, []⟩
      -- The case falls through to the next one for transfers too.
      else sendLine env prepared.2 prepared.2.transferCommand .simpleReply
    | .simpleSend => sendLine env ftp ftp.transferCommand .simpleReply
    | .simpleReply => awaitReply env ftp fun _ ftp => ⟨.ok, { ftp with operation := .none }, []⟩
    | .epsvSend => sendLine env ftp (ascii "EPSV\r\n") .epsvReply
    | .epsvReply => awaitReply env ftp fun code ftp =>
      match (ftpParseEpsv ftp.lastReply).filter fun _ => code = 229 with
      | some port => ftpStartData env { ftp with dataPort := port, operation := .dataConnect }
      | none =>
        if 400 ≤ code then ⟨.pending, { ftp with operation := .pasvSend }, []⟩
        else ⟨.connect, ftp, []⟩
    | .pasvSend => sendLine env ftp (ascii "PASV\r\n") .pasvReply
    | .pasvReply => awaitReply env ftp fun code ftp =>
      match (ftpParsePasv ftp.lastReply).filter fun _ => code = 227 with
      | some port => ftpStartData env { ftp with dataPort := port, operation := .dataConnect }
      | none => ⟨.connect, ftp, []⟩
    | .dataConnect =>
      if ftp.dataError then ⟨.connect, ftp, []⟩
      else if !ftp.dataConnected then waiting env ftp
      else
        sendLine env { ftp with operation := .transferSend } ftp.transferCommand .transferReply
    | .transferSend => sendLine env ftp ftp.transferCommand .transferReply
    | .transferReply => awaitReply env ftp fun code ftp =>
      if code ≠ 125 ∧ code ≠ 150 then
        ⟨.ok, { ftp with data := none, operation := .none, transfer := .none }, []⟩
      else
        ⟨.ok, { ftp with operation := if ftp.transfer = .write then .write else .read }, []⟩
    | _ => ⟨.param, ftp, []⟩

def ftpTransferReply (env : Env) (ftp : Ftp) : Outcome :=
  awaitReply env ftp fun _ ftp => ⟨.eof, { ftp with operation := .none, transfer := .none }, []⟩

/-- The byte after the command is the maximum on the way in and the count on the way out, at
every poll. -/
def ftpReadPoll (env : Env) (scratch cp : Nat) (ftp : Ftp) (jim : Memory UInt8) :
    Outcome × Memory UInt8 :=
  let maximum := (jim (cp + 1)).toNat
  let count := if maximum < ftp.ring.count then maximum else ftp.ring.count % 256
  if ftp.operation ≠ .read ∨ ftp.transfer = .write then (⟨.param, ftp, []⟩, jim)
  else
    let drained := ftp.ring.drain ftpDataCapacity count
    let ftp := { ftp with ring := drained.2 }
    let jim := (jim.write scratch drained.1).write (cp + 1) [count.toUInt8]
    if count ≠ 0 then (⟨.ok, ftpSetDeadline env ftp, []⟩, jim)
    else if ftp.dataError then (⟨.connect, ftp, []⟩, jim)
    else if !ftp.dataEof then (waiting env ftp, jim)
    else (ftpTransferReply env { ftp with data := none }, jim)

def ftpWritePoll (env : Env) (scratch cp : Nat) (ftp : Ftp) (jim : Memory UInt8) : Outcome :=
  let count := (jim (cp + 1)).toNat
  if ftp.operation = .writeFinish then ftpTransferReply env ftp
  else if ftp.operation ≠ .write ∨ ftp.transfer ≠ .write ∨ ftp.data = none then
    ⟨.param, ftp, []⟩
  else if count = 0 then
    -- A close refused while payload is still queued is tried again at the next poll.
    if !env.closeOk then waiting env ftp
    else
      ⟨.pending, ftpSetDeadline env { ftp with data := none, operation := .writeFinish }, []⟩
  else if env.sndbuf < count then waiting env ftp
  else if !env.writeOk then ⟨.pending, ftp, []⟩
  else ⟨.ok, ftpSetDeadline env ftp, [.wroteData (jim.read scratch count)]⟩

/-- The session, the request latch and the memory it shares with the host. -/
structure Service where
  ftp : Ftp
  controlPort : Nat
  requestPending : Bool
  requestCancel : Bool
  requestPointer : Nat
  requestStatusAddress : Nat
  requestStarted : Bool
  requestCommand : UInt8
  discRamBase : Nat
  jim : Memory UInt8
  status : Memory UInt8

def Service.scratch (s : Service) : Nat := s.discRamBase + ftpScratchOffset

def ftpResponse (cp : Nat) (ftp : Ftp) (jim : Memory UInt8) : Memory UInt8 :=
  let text := (ftp.lastReply.takeWhile (· ≠ 0)).take ftpTextMax
  jim.write (cp + 1) (ftp.transfer.byte :: (text ++ [0]))

/-- Copy the request text; `false` when it is empty or has no terminator in time. -/
def ftpCopyRequest (cp : Nat) (jim : Memory UInt8) (ftp : Ftp) : Bool × Ftp :=
  let text := (jim.read (cp + 1) (ftpTextMax + 1)).takeWhile (· ≠ 0)
  if ftpTextMax < text.length then (false, ftp)
  else (text ≠ [], { ftp with request := text })

/-- The first poll of a request. An `OPEN` starts a new session with the copied target. -/
def ftpBegin (env : Env) (s : Service) : Bool × Ftp :=
  let copied :=
    if s.requestCommand = ftpCmdOpen ∨ s.requestCommand = ftpCmdExec then
      ftpCopyRequest s.requestPointer s.jim s.ftp
    else (true, s.ftp)
  if !copied.1 then copied
  else if s.requestCommand = ftpCmdOpen then
    (true, ftpSetDeadline env { ftpReset with request := copied.2.request })
  else if s.requestCommand = ftpCmdExec then
    (true, ftpSetDeadline env { copied.2 with operation := .none })
  else (true, ftpSetDeadline env copied.2)

def ftpClose (env : Env) (ftp : Ftp) : Outcome :=
  let closed := { ftpReset with lastReply := ascii "221 Closed\r\n" }
  if ftp.state = .ready ∧ sendable env ftp (ascii "QUIT\r\n") then
    ⟨.ok, closed, [.wrote (ascii "QUIT\r\n")]⟩
  else ⟨.ok, closed, []⟩

/-- Result of a poll with the service after it. -/
structure Progress where
  result : Result
  service : Service
  trace : List Entry

/-- The switch of `ftp_process` and the response after it. -/
def ftpDispatch (env : Env) (s : Service) : Progress :=
  let respond (o : Outcome) (s : Service) : Progress :=
    let jim := if o.result = .pending then s.jim else ftpResponse s.requestPointer o.ftp s.jim
    ⟨o.result, { s with ftp := o.ftp, jim }, o.actions.map .did⟩
  let respondAtEof (o : Outcome) (s : Service) : Progress :=
    let jim := if o.result = .eof then ftpResponse s.requestPointer o.ftp s.jim else s.jim
    ⟨o.result, { s with ftp := o.ftp, jim }, o.actions.map .did⟩
  if s.requestCommand = ftpCmdOpen then
    let polled := ftpOpenPoll env s.controlPort s.ftp
    respond polled.1 { s with controlPort := polled.2 }
  else if s.requestCommand = ftpCmdExec then respond (ftpExecPoll env s.ftp) s
  else if s.requestCommand = ftpCmdRead then
    let polled := ftpReadPoll env s.scratch s.requestPointer s.ftp s.jim
    respondAtEof polled.1 { s with jim := polled.2 }
  else if s.requestCommand = ftpCmdWrite then
    respondAtEof (ftpWritePoll env s.scratch s.requestPointer s.ftp s.jim) s
  else if s.requestCommand = ftpCmdClose then respond (ftpClose env s.ftp) s
  else respond ⟨.param, s.ftp, []⟩ s

def ftpProcess (env : Env) (s : Service) : Progress :=
  if s.requestStarted then ftpDispatch env s
  else
    let begun := ftpBegin env s
    let s := { s with ftp := begun.2, requestStarted := true }
    let mark := Entry.began s.requestCommand begun.2.request
    if !begun.1 then ⟨.param, s, [mark]⟩
    else
      let progress := ftpDispatch env s
      { progress with trace := mark :: progress.trace }

/-- `Pi1MHz_MemoryWrite` to the status register of the request. -/
def Service.answer (s : Service) (address : Nat) (result : Result) : Service :=
  { s with status := s.status.write address [result.byte] }

def ftpServicePoll (env : Env) (s : Service) : Service × List Entry :=
  if s.requestCancel then
    let s := { s with
      ftp := ftpReset, requestPending := false, requestCancel := false, requestStarted := false }
    (s.answer s.requestStatusAddress .abort, [.completed s.requestCommand .abort])
  else if !s.requestPending then (s, [])
  else
    let progress := ftpProcess env s
    if progress.result = .pending then (progress.service, progress.trace)
    else
      let done := { progress.service with requestPending := false, requestStarted := false }
      (done.answer s.requestStatusAddress progress.result,
        progress.trace ++ [.completed s.requestCommand progress.result])

def ftpServiceCommand (commandPointer : UInt32) (address : Nat) (s : Service) : Service :=
  let cp := (commandPointer - (0xff0000 : UInt32) + s.discRamBase.toUInt32).toNat
  let command := s.jim cp
  if command = ftpCmdCancel then
    if !s.requestPending then { s with ftp := ftpReset }.answer address .abort
    else { s with requestCancel := true }.answer address .pending
  else if s.requestPending then s.answer address .pending
  else
    { s with
      requestPointer := cp, requestStatusAddress := address, requestCommand := command
      requestStarted := false, requestPending := true }.answer address .pending

section Callbacks

def ftpControlError (ftp : Ftp) : Ftp := { ftp with control := none, state := .error }

def ftpDataError (ftp : Ftp) : Ftp := { ftp with data := none, dataError := true }

/-- The callback with an error, at the end of the stream and with a payload. -/
inductive Received
  | fault
  | eof
  | payload (bytes : List UInt8)
deriving DecidableEq, Repr

def ftpControlReceive (ftp : Ftp) : Received → Ftp
  | .fault => { ftp with state := .error }
  | .eof => { ftp with controlEof := true }
  | .payload bytes =>
    if ftpControlCapacity ≤ ftp.controlText.length + bytes.length then { ftp with state := .error }
    else { ftp with controlText := ftp.controlText ++ bytes }

/-- `false` is `ERR_MEM`: lwIP keeps the payload and offers it again. -/
def ftpDataReceive (ftp : Ftp) : Received → Bool × Ftp
  | .fault => (true, { ftp with dataError := true })
  | .eof => (true, { ftp with dataEof := true })
  | .payload bytes =>
    if ftpDataCapacity - ftp.ring.count < bytes.length then (false, ftp)
    else (true, { ftp with ring := ftp.ring.append ftpDataCapacity bytes })

def ftpControlConnected (ok : Bool) (ftp : Ftp) : Ftp :=
  if ok then { ftp with controlConnected := true, state := .greeting }
  else { ftp with control := none, state := .error }

def ftpDataConnected (ok : Bool) (ftp : Ftp) : Ftp :=
  if ok then { ftp with dataConnected := true } else { ftp with data := none, dataError := true }

def ftpDnsFound (address : Option UInt32) (ftp : Ftp) : Ftp :=
  match address with
  | none => { ftp with dnsDone := true }
  | some address => { ftp with dnsDone := true, address, dnsOk := true }

end Callbacks

/-- Everything that can happen to the service. The host may write its memory at any time, and
its reset runs `ftp_service_init` again, which keeps the session. -/
inductive Event
  | command (pointer : UInt32) (address : Nat)
  | poll (env : Env)
  | host (jim : Memory UInt8)
  | init
  | controlError
  | controlConnected (ok : Bool)
  | controlReceive (received : Received)
  | dataError
  | dataConnected (ok : Bool)
  | dataReceive (received : Received)
  | dnsFound (address : Option UInt32)

/-- Apply a callback of the control connection, which must be attached. -/
def Service.onControl (s : Service) (callback : Ftp → Ftp) : Service :=
  if s.ftp.control.isSome then { s with ftp := callback s.ftp } else s

def Service.onData (s : Service) (callback : Ftp → Ftp) : Service :=
  if s.ftp.data.isSome then { s with ftp := callback s.ftp } else s

/-- One event. Only an attached connection has callbacks. -/
def Service.step (s : Service) : Event → Service × List Entry
  | .command pointer address => (ftpServiceCommand pointer address s, [])
  | .poll env => ftpServicePoll env s
  | .host jim => ({ s with jim }, [])
  | .init =>
    ({ s with requestPending := false, requestCancel := false, requestStarted := false }, [])
  | .controlError => (s.onControl ftpControlError, [])
  | .controlConnected ok => (s.onControl (ftpControlConnected ok), [])
  | .controlReceive received => (s.onControl fun ftp => ftpControlReceive ftp received, [])
  | .dataError => (s.onData ftpDataError, [])
  | .dataConnected ok =>
    (s.onData (ftpDataConnected ok),
      if ok then (s.ftp.data.map fun pcb => .did (.connected pcb.port)).toList else [])
  | .dataReceive received => (s.onData fun ftp => (ftpDataReceive ftp received).2, [])
  | .dnsFound address => ({ s with ftp := ftpDnsFound address s.ftp }, [])

/-- A run of events, with everything that was done along it. -/
def Service.run (s : Service) : List Event → Service × List Entry
  | [] => (s, [])
  | event :: events =>
    let first := s.step event
    let rest := first.1.run events
    (rest.1, first.2 ++ rest.2)

/-- `ftp_service_init` on an idle board whose memory the host has filled. -/
def ftpServiceInit (discRamBase : Nat) (jim : Memory UInt8) : Service where
  ftp := ftpReset
  controlPort := 0
  requestPending := false
  requestCancel := false
  requestPointer := 0
  requestStatusAddress := 0
  requestStarted := false
  requestCommand := 0
  discRamBase := discRamBase
  jim := jim
  status := fun _ => 0

end Pi1MHz.FtpService
