import Pi1MHz.HostTools.Calls
import Pi1MHz.Ftp.Text

/-! The terminal session that `ssh.asm` and `telnet.asm` share, between `setup_keyboard` and
`restore_keyboard`, and the whole of `*TELNET`. -/
namespace Pi1MHz.HostTools
open Dialogue Program
open FtpService (ascii)

section Texts

def osnewl : HostProgram Unit := print [10, 13]

/-- `print_nibble` -/
def nibble (value : UInt8) : UInt8 := if value < 10 then value + 48 else value + 55

def printHex (a : UInt8) : HostProgram Unit := print [nibble (a >>> 4), nibble (a &&& 15)]

def showError (text : List UInt8) (code : UInt8) : HostProgram Unit := do
  print text
  printHex code
  osnewl

end Texts

section Keyboard

/-- `saved_escape_break` to `saved_keyboard_status`. -/
structure Saved where
  escapeBreak : UInt8
  cursorKeys : UInt8
  escapeAscii : UInt8
  keyboardStatus : UInt8

def setupKeyboard : HostProgram Saved := do
  let escapeBreak ← osbyteX 0xc8 1 0
  let cursorKeys ← osbyteX 4 1 0
  let escapeAscii ← osbyteX 0xe5 0 0xff
  osbyte 0xe5 1 0
  let keyboardStatus ← osbyteX 0xca 0 0xff
  osbyte 0xca 0x10 0xef
  pure ⟨escapeBreak, cursorKeys, escapeAscii, keyboardStatus⟩

def restoreKeyboard (saved : Saved) : HostProgram Unit := do
  osbyte 0xc8 saved.escapeBreak 0
  osbyte 4 saved.cursorKeys 0
  osbyte 0xe5 saved.escapeAscii 0
  osbyte 0xca (saved.keyboardStatus &&& 0x10) 0xef

end Keyboard

section Session

/-- What differs between the two clients in their loop. -/
structure Terminal where
  read : Command
  write : List UInt8 → Command
  returnKey : List UInt8
  /-- The count is compared with 0 before each write, not after it. -/
  checksFirst : Bool

def sshTerminal : Terminal := ⟨.sshRead, .sshWrite, [13], false⟩

def telnetTerminal : Terminal := ⟨.urlRead, .urlWrite, [13, 10], true⟩

variable (t : Terminal)

/-- `send_pointer`, as the bytes from there on, `send_remaining` and `send_retries`. -/
structure Sending where
  rest : List UInt8
  remaining : UInt8
  retries : UInt8

/-- `send_all` and `ssh_send_all`. What is in memory behind the bytes is left out. -/
def sendAll (bytes : List UInt8) : HostProgram UInt8 :=
  .loop (fun s : Sending => do
    if t.checksFirst ∧ s.remaining = 0 then leave netOk
    else
      let reply ← netDispatch (t.write (s.rest.take s.remaining.toNat))
      if reply.code ≠ netOk then leave reply.code
      else if reply.lengthLo = 0 then
        vsync
        if s.retries - 1 ≠ 0 then again { s with retries := s.retries - 1 }
        else leave netLocalTimeout
      else
        let remaining := s.remaining - reply.lengthLo
        if t.checksFirst ∨ remaining ≠ 0 then
          again { s with rest := s.rest.drop reply.lengthLo.toNat, remaining }
        else leave netOk) ⟨bytes, bytes.length.toUInt8, 100⟩

/-- The bytes that a key is sent as; `&88` to `&8B` are the cursor keys. -/
def keyBytes (key : UInt8) : List UInt8 :=
  if key = 0x8b then ascii "\x1b[A"
  else if key = 0x8a then ascii "\x1b[B"
  else if key = 0x89 then ascii "\x1b[C"
  else if key = 0x88 then ascii "\x1b[D"
  else if key = 13 then t.returnKey
  else [key]

/-- `ssh_render_rx` and `telnet_render_rx`: the count is compared with 0 after it is decremented. -/
def renderRx (host : UInt8 → UInt8) (remaining : UInt8) : HostProgram Unit :=
  .loop (fun s : UInt8 × UInt8 => do
    vtProcess (host s.1)
    if s.2 - 1 = 0 then leave () else again (s.1 + 1, s.2 - 1)) (0, remaining)

inductive Ending
  | remoteClosed
  | localClosed
  | error (code : UInt8)
deriving DecidableEq, Repr

/-- `ssh_read_ok` and `telnet_read_ok`, down to the keyboard. -/
def render (reply : Reply) (host : UInt8 → UInt8) : HostProgram (UInt8 → UInt8) := do
  if reply.lengthLo = 0 ∧ reply.lengthHi = 0 then pure host
  else
    renderRx (netCopyRxToHost reply host) reply.lengthLo
    pure (netCopyRxToHost reply host)

/-- `ssh_loop` and `telnet_loop`; 29 is Ctrl-]. -/
def terminalLoop (host : UInt8 → UInt8) : HostProgram Ending :=
  .loop (fun host => do
    let reply ← netDispatch t.read
    if reply.code = netEof then leave .remoteClosed
    else if reply.code ≠ netOk then leave (.error reply.code)
    else
      let host ← render reply host
      let key ← osbyteXy 0x81 0 0
      if key.2 ≠ 0 then
        vsync
        again host
      else if key.1 = 29 then leave .localClosed
      else
        let code ← sendAll t (keyBytes t key.1)
        if code ≠ netOk then leave (.error code) else again host) host

end Session

section Asking

variable {asked : Call → Prop}

theorem showError_asks (prints : ∀ text, asked (.print text)) (text : List UInt8) (code : UInt8) :
    (showError text code).Asks asked := by
  simp [showError, printHex, osnewl, prints]

theorem setupKeyboard_asks (osbyte : ∀ a x y, asked (.osbyte a x y)) : setupKeyboard.Asks asked := by
  simp [setupKeyboard, osbyte]

theorem restoreKeyboard_asks (osbyte : ∀ a x y, asked (.osbyte a x y)) (saved : Saved) :
    (restoreKeyboard saved).Asks asked := by
  simp [restoreKeyboard, osbyte]

variable {t : Terminal}

theorem sendAll_asks (write : ∀ bytes, asked (.dispatch (t.write bytes)))
    (osbyte : ∀ a x y, asked (.osbyte a x y)) (bytes : List UInt8) : (sendAll t bytes).Asks asked := by
  simp [sendAll, write, osbyte]

theorem render_asks (vt : ∀ byte, asked (.vtProcess byte)) (reply : Reply) (host : UInt8 → UInt8) :
    (render reply host).Asks asked := by
  simp [render, renderRx, vt]

theorem terminalLoop_asks (read : asked (.dispatch t.read))
    (write : ∀ bytes, asked (.dispatch (t.write bytes))) (vt : ∀ byte, asked (.vtProcess byte))
    (osbyte : ∀ a x y, asked (.osbyte a x y)) (host : UInt8 → UInt8) :
    (terminalLoop t host).Asks asked := by
  simp [terminalLoop, read, render_asks vt, osbyte, sendAll_asks write osbyte]

end Asking

section Telnet

def telnetUsage : List UInt8 := ascii "Usage: *TELNET host [port]\r"
def noServiceText : List UInt8 :=
  ascii "Pi1MHz net service not found.\rSet net_enable=1 in Pi1MHz.cfg.\r"
def connectingText : List UInt8 := ascii "Connecting...\r"
def connectedText : List UInt8 := ascii "Connected. Ctrl-] disconnects.\r"
def remoteClosedText : List UInt8 := ascii "\rRemote host closed the connection.\r"
def localClosedText : List UInt8 := ascii "\rDisconnected.\r"
def netErrorText : List UInt8 := ascii "\rNetwork error &"

def telnetEnding : Ending → HostProgram Unit
  | .remoteClosed => print remoteClosedText
  | .localClosed => print localClosedText
  | .error code => showError netErrorText code

/-- From `telnet_service_present` to `restore_keyboard`. -/
def telnetSession (url : List UInt8) (host : UInt8 → UInt8) : HostProgram Unit := do
  let saved ← setupKeyboard
  print [4]
  vtInit
  print connectingText
  let opened ← netDispatchWait (.urlOpen url)
  if opened.code = netOk then
    print connectedText
    let ending ← terminalLoop telnetTerminal host
    telnetEnding ending
  else showError netErrorText opened.code
  let _ ← netDispatchWait .urlClose
  restoreKeyboard saved

/-- `*TELNET`, with the URL that `build_telnet_url` makes of the tail. -/
def telnet (url : Option (List UInt8)) (host : UInt8 → UInt8) : HostProgram Unit := do
  if !(← applicationCheckWorkspace) then pure ()
  else
    match url with
    | none => print telnetUsage
    | some url =>
      if !(← netProbe) then print noServiceText
      else telnetSession url host

end Telnet

end Pi1MHz.HostTools
