import Pi1MHz.HostTools.Terminal

/-! `*SSH` (`ssh.asm`): the opening, with the user asked about an unknown host key and for a
password, and the terminal session behind it. -/
namespace Pi1MHz.SshClient
open Dialogue Program HostTools
open FtpService (ascii)

/-- What `build_ssh_target` leaves in `url_buffer` and `username_buffer`. -/
structure Target where
  url : List UInt8
  username : List UInt8
deriving DecidableEq, Repr

/-- `password_buffer` and `password_length`. -/
structure Password where
  buffer : List UInt8
  length : UInt8
deriving DecidableEq, Repr

section Texts

def usageText : List UInt8 := ascii "Usage: *SSH user@host [port]\r"
def noServiceText : List UInt8 := ascii "Pi1MHz services mailbox not found.\r"
def secureRequiredText : List UInt8 := ascii "Pi1MHz managed SSH service ABI 1 required.\r"
def secureTimeoutText : List UInt8 := ascii "Pi1MHz secure service did not answer.\r"
def connectingText : List UInt8 := ascii "SSH: connecting and verifying host...\r"
def connectedText : List UInt8 := ascii "SSH connected. Ctrl-] disconnects.\r"
def unknownHostText : List UInt8 := ascii "Unknown host key: "
def acceptText : List UInt8 := ascii "\rTrust and store on Pi SD card (y/N)? "
def hostDeclinedText : List UInt8 := ascii "Host key not accepted.\r"
def authFailedText : List UInt8 := ascii "SSH authentication failed.\r"
def passwordText : List UInt8 := ascii "Password: "
def passwordAuthText : List UInt8 := ascii "Authenticating with password...\r"
def remoteClosedText : List UInt8 := ascii "\rRemote host closed the SSH channel.\r"
def localClosedText : List UInt8 := ascii "\rDisconnected.\r"
def errorText : List UInt8 := ascii "\rSSH 0.1.59 error &"

end Texts

section Opening

/-- `secure_probe`: the result and `secure_features`. -/
def secureProbe : HostProgram (UInt8 × UInt8) := do
  let reply ← netDispatch .caps
  if reply.code ≠ netOk then pure (reply.code, 0)
  else if reply.block.getD 1 0 ≠ 1 then pure (netErrUnsupported, 0)
  else
    let features := reply.block.getD 3 0
    if features &&& 1 = 0 ∨ (reply.block.drop 8).take 3 ≠ ascii "NTS" then
      pure (netErrUnsupported, features)
    else pure (netOk, features)

def secureSshOpen (flags : UInt8) : HostProgram UInt8 := do
  let reply ← netDispatchWait (.sshOpen flags)
  pure reply.code

/-- The copy to JIM, the command and the wipe of the copy. -/
def secureSshPassword (p : Password) : HostProgram UInt8 := do
  store .password (p.buffer.take p.length.toNat)
  let reply ← netDispatchWait (.sshPassword p.length)
  store .password (List.replicate p.length.toNat 0)
  pure reply.code

/-- `true` is Y or y. -/
def sshConfirmHostKey : HostProgram Bool := do
  print unknownHostText
  let name ← fingerprint
  print name
  print acceptText
  let a ← osrdch
  osnewl
  pure (a &&& 0xdf == 89)

def sshWipePassword : Password := ⟨List.replicate 64 0, 0⟩

/-- The length typed, or nothing after Escape or with no password. -/
def sshPromptPassword (p : Password) : HostProgram (Option UInt8 × Password) := do
  print passwordText
  .loop (fun s : UInt8 × List UInt8 => do
    let a ← osrdch
    if a = 13 then
      osnewl
      if s.1 = 0 then leave (none, sshWipePassword) else leave (some s.1, ⟨s.2, s.1⟩)
    else if a = 27 then
      osnewl
      leave (none, sshWipePassword)
    else if a = 8 ∨ a = 127 then
      if s.1 = 0 then again s else again (s.1 - 1, s.2.set (s.1 - 1).toNat 0)
    else if a < 32 ∨ 63 ≤ s.1 then again s
    else again (s.1 + 1, s.2.set s.1.toNat a)) (0, p.buffer)

/-- An open and, for an unknown host key, the question and a second open that accepts it. `none`
is a key that the user declined. -/
def openAsking : HostProgram (Option UInt8) := do
  let code ← secureSshOpen 0
  if code ≠ netHostkeyUnknown then pure (some code)
  else
    let accepted ← sshConfirmHostKey
    if !accepted then pure none
    else
      let code ← secureSshOpen 1
      pure (some code)

inductive Opening
  | connected
  | failed (code : UInt8)
  | authFailed
  | declined
deriving DecidableEq, Repr

/-- `ssh_password_open_result` -/
def Opening.ofPassword : Option UInt8 → Opening
  | none => .declined
  | some code =>
    if code = netOk then .connected
    else if code ≠ netAuthFailed then .failed code
    else .authFailed

def sshTryPassword (features : UInt8) (p : Password) : HostProgram (Opening × Password) := do
  if features &&& 4 = 0 then pure (.authFailed, p)
  else
    let (length, p) ← sshPromptPassword p
    match length with
    | none => pure (.authFailed, p)
    | some _ =>
      let code ← secureSshPassword p
      if code ≠ netOk then pure (.failed code, sshWipePassword)
      else
        print passwordAuthText
        let result ← openAsking
        pure (.ofPassword result, sshWipePassword)

/-- From `ssh_managed_available` to `ssh_open_result` and on; `password_attempted` is still 0. -/
def sshOpening (features : UInt8) (p : Password) : HostProgram (Opening × Password) := do
  let result ← openAsking
  match result with
  | none => pure (.declined, p)
  | some code =>
    if code = netOk then pure (.connected, p)
    else if code ≠ netAuthFailed then pure (.failed code, p)
    else sshTryPassword features p

end Opening

section Program

def sshEnding : Ending → HostProgram Unit
  | .remoteClosed => print remoteClosedText
  | .localClosed => print localClosedText
  | .error code => showError errorText code

/-- `ssh_connected`, down to `ssh_close`. -/
def sshConnected (host : UInt8 → UInt8) : HostProgram Saved := do
  let saved ← setupKeyboard
  print [4]
  vtInit
  print connectedText
  let ending ← terminalLoop sshTerminal host
  sshEnding ending
  pure saved

def secureSshClose : HostProgram Unit := do
  let _ ← netDispatchWait .sshClose
  pure ()

/-- What follows the opening; the keyboard is restored when it was set up. -/
def sshOpened (host : UInt8 → UInt8) : Opening → HostProgram Unit
  | .connected => do
    let saved ← sshConnected host
    secureSshClose
    restoreKeyboard saved
  | .failed code => do
    showError errorText code
    secureSshClose
  | .authFailed => do
    print authFailedText
    secureSshClose
  | .declined => do
    print hostDeclinedText
    secureSshClose

/-- `ssh_probe_secure_ok` and on. -/
def sshManaged (target : Target) (features : UInt8) (p : Password) (host : UInt8 → UInt8) :
    HostProgram Password := do
  store .url target.url
  store .user target.username
  print connectingText
  let (opening, p) ← sshOpening features p
  sshOpened host opening
  pure p

def sshSecureError (code : UInt8) : HostProgram Unit := do
  print secureRequiredText
  showError errorText code

/-- `*SSH`, with what `build_ssh_target` makes of the tail. -/
def ssh (target : Option Target) (p : Password) (host : UInt8 → UInt8) : HostProgram Password := do
  let safe ← applicationCheckWorkspace
  if !safe then pure p
  else
    match target with
    | none => do
      print usageText
      pure p
    | some target => do
      let present ← netProbe
      if !present then
        print noServiceText
        pure p
      else
        let (code, features) ← secureProbe
        if code = netLocalTimeout then
          print secureTimeoutText
          showError errorText netLocalTimeout
          pure p
        else if code ≠ netOk then
          sshSecureError code
          pure p
        else if features &&& 2 = 0 then
          sshSecureError netErrUnsupported
          pure p
        else sshManaged target features p host

end Program

section Runs

/-- The calls that come before a session. -/
def Before : Call → Prop
  | .dispatch command =>
    match command with
    | .caps | .sshOpen _ | .sshPassword _ => True
    | _ => False
  | .osbyte a _ _ => a = 19
  | .vtInit | .vtProcess _ => False
  | _ => True

/-- The calls that come before an open. -/
def Probing : Call → Prop
  | .dispatch command => command = .caps
  | .store place _ => place ≠ .password
  | .print _ | .checkWorkspace | .netProbe => True
  | _ => False

/-- The calls of a session and of what ends it. -/
def InSession : Call → Prop
  | .dispatch command =>
    match command with
    | .sshRead | .sshWrite _ | .sshClose => True
    | _ => False
  | .print _ | .osbyte .. | .vtInit | .vtProcess _ => True
  | _ => False

theorem sshConnected_session (host : UInt8 → UInt8) : (sshConnected host).Asks InSession := by
  have setup : setupKeyboard.Asks InSession := setupKeyboard_asks fun _ _ _ => trivial
  have loop : (terminalLoop sshTerminal host).Asks InSession :=
    terminalLoop_asks trivial (fun _ => trivial) (fun _ => trivial) (fun _ _ _ => trivial) host
  have endings : ∀ ending, (sshEnding ending).Asks InSession := by
    intro ending
    cases ending with
    | error code => exact showError_asks (fun _ => trivial) errorText code
    | _ => trivial
  exact ⟨setup, fun _ => ⟨trivial, fun _ => ⟨trivial, fun _ => ⟨trivial, fun _ => ⟨loop,
    fun ending => ⟨endings ending, fun _ => trivial⟩⟩⟩⟩⟩⟩

theorem sshOpened_session (host : UInt8 → UInt8) (opening : Opening) :
    (sshOpened host opening).Asks InSession := by
  have close : secureSshClose.Asks InSession :=
    ⟨(asks_netDispatchWait .sshClose).mpr ⟨trivial, trivial⟩, fun _ => trivial⟩
  have error : ∀ code, (showError errorText code).Asks InSession :=
    showError_asks (fun _ => trivial) errorText
  have restore : ∀ saved, (restoreKeyboard saved).Asks InSession :=
    restoreKeyboard_asks fun _ _ _ => trivial
  cases opening with
  | connected => exact ⟨sshConnected_session host, fun saved => ⟨close, fun _ => restore saved⟩⟩
  | failed code => exact ⟨error code, fun _ => close⟩
  | authFailed => exact ⟨trivial, fun _ => close⟩
  | declined => exact ⟨trivial, fun _ => close⟩

theorem before_calls : Before .osrdch ∧ Before .fingerprint ∧ (∀ text, Before (.print text)) ∧
    (∀ place bytes, Before (.store place bytes)) ∧ (∀ flags, Before (.dispatch (.sshOpen flags))) ∧
      (∀ length, Before (.dispatch (.sshPassword length))) ∧ ∀ x y, Before (.osbyte 19 x y) :=
  ⟨trivial, trivial, fun _ => trivial, fun _ _ => trivial, fun _ => trivial, fun _ => trivial,
    fun _ _ => rfl⟩

theorem openAsking_before : openAsking.Asks Before := by
  simp [openAsking, secureSshOpen, sshConfirmHostKey, osnewl, before_calls]

theorem sshOpening_before (features : UInt8) (p : Password) : (sshOpening features p).Asks Before := by
  refine ⟨openAsking_before, fun result => ?_⟩
  cases result with
  | none => trivial
  | some code =>
    have password : (sshTryPassword features p).Asks Before := by
      simp only [sshTryPassword, asks_ite]
      refine ⟨fun _ => trivial, fun _ => ⟨?_, ?_⟩⟩
      · simp [sshPromptPassword, osnewl, before_calls]
      · rintro ⟨length, p⟩
        cases length with
        | none => trivial
        | some length => simp [secureSshPassword, openAsking_before, before_calls]
    simp [password]

variable {τ δ : Type} {s : Service τ δ} {mid : Host τ → Prop} {post : Password → Host τ → Prop}

/-- A run of `*SSH` by what is kept before the opening, what the opening makes of it and what the
session makes of that. -/
theorem ssh_wp (early : Host τ → Prop) (late : Password → Host τ → Prop)
    (keeps : ∀ h c d, Probing c → early h → early (answers s h c d).1)
    (safe : ∀ h, early h → mid h) {p : Password} (ends : ∀ h, early h → post p h)
    (opening : ∀ features h, early h →
      (sshOpening features p).wp (answers s) mid (fun out => late out.2) h)
    {host : UInt8 → UInt8} (opened : ∀ opening p h, late p h →
      (sshOpened host opening).wp (answers s) mid (fun _ => post p) h)
    (target : Option Target) {h : Host τ} (holds : early h) :
    (ssh target p host).wp (answers s) mid post h := by
  have prints : ∀ text, (print text).Asks Probing := fun _ => trivial
  have fails : ∀ text code, (showError text code).Asks Probing := showError_asks fun _ => trivial
  have refuses : ∀ code, (sshSecureError code).Asks Probing := fun code =>
    ⟨trivial, fun _ => fails _ code⟩
  have probes : secureProbe.Asks Probing := by simp [secureProbe, Probing]
  have checks : applicationCheckWorkspace.Asks Probing := trivial
  have probe : netProbe.Asks Probing := trivial
  have url : ∀ bytes, (store .url bytes).Asks Probing := by simp [Probing]
  have user : ∀ bytes, (store .user bytes).Asks Probing := by simp [Probing]
  apply wp_past checks keeps safe holds
  intro checked h holds
  split
  · exact ends h holds
  cases target with
  | none => exact wp_past (prints _) keeps safe holds fun _ => ends
  | some target =>
    apply wp_past probe keeps safe holds
    intro present h holds
    split
    · exact wp_past (prints _) keeps safe holds fun _ => ends
    apply wp_past probes keeps safe holds
    rintro ⟨code, features⟩ h holds
    dsimp only
    split
    · apply wp_past (prints _) keeps safe holds
      exact fun _ h holds => wp_past (fails _ _) keeps safe holds fun _ => ends
    split
    · exact wp_past (refuses _) keeps safe holds fun _ => ends
    split
    · exact wp_past (refuses _) keeps safe holds fun _ => ends
    apply wp_past (url target.url) keeps safe holds
    intro _ h holds
    apply wp_past (user target.username) keeps safe holds
    intro _ h holds
    apply wp_past (prints connectingText) keeps safe holds
    intro _ h holds
    apply wp_mono _ (opening features h holds)
    rintro ⟨opening, p⟩ h holds
    exact opened opening p h holds

end Runs

end Pi1MHz.SshClient
