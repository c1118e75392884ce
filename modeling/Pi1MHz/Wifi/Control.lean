import Pi1MHz.Foundation.Conduit
import Pi1MHz.Foundation.Memory
import Pi1MHz.Ftp.Text

/-! The ElkWiFi control commands of the emulator (`do_elkwifi_control` of `pi1mhz_net_backend.c`):
a join that takes its time by two deadlines, and the flags that the commands read and set. -/
namespace Pi1MHz.ElkWifi
open FtpService (ascii lower)

def elkwifiCmdStatus : UInt8 := 80
def elkwifiCmdScan : UInt8 := 81
def elkwifiCmdJoin : UInt8 := 82
def elkwifiCmdIfcfg : UInt8 := 83
def elkwifiCmdLapopt : UInt8 := 87
def elkwifiCmdPing : UInt8 := 88
def elkwifiCmdDatetime : UInt8 := 89
def elkwifiCmdCancel : UInt8 := 90
def elkwifiCmdRadio : UInt8 := 91
def elkwifiCmdOnline : UInt8 := 92

def elkwifiTextMax : Nat := 220

/-- `sizeof(backend->wifi_ssid)` and `sizeof(backend->wifi_password)`. -/
def ssidSize : Nat := 33
def passwordSize : Nat := 65

inductive Code
  | ok
  | param
  | noWifi
  | io
  | unknown
deriving DecidableEq, Repr

def Code.byte : Code → UInt8
  | .ok => 0x00
  | .param => 0x40
  | .noWifi => 0x44
  | .io => 0x45
  | .unknown => 0x42

inductive Security
  | auto
  | open
  | wep
  | wpa
  | wpa2
deriving DecidableEq, Repr

def Security.text : Security → List UInt8
  | .auto => ascii "AUTO"
  | .open => ascii "OPEN"
  | .wep => ascii "WEP"
  | .wpa => ascii "WPA"
  | .wpa2 => ascii "WPA2"

/-- The WiFi fields of the backend. -/
structure Wifi where
  ssid : List UInt8
  password : List UInt8
  security : Security
  /-- Whether a profile path is set. -/
  profilePath : Bool
  present : Bool
  enabled : Bool
  associated : Bool
  hasAddress : Bool
  connecting : Bool
  associateAtMs : UInt64
  dhcpAtMs : UInt64
  associateDelayMs : UInt32
  dhcpDelayMs : UInt32
  scanFields : UInt8
deriving DecidableEq

def wifiStartJoin (now : UInt64) (w : Wifi) : Wifi :=
  let associateAtMs := now + w.associateDelayMs.toUInt64
  { w with
    enabled := true, connecting := true, associated := false, hasAddress := false
    associateAtMs, dhcpAtMs := associateAtMs + w.dhcpDelayMs.toUInt64 }

def wifiUpdate (now : UInt64) (w : Wifi) : Wifi :=
  if !w.connecting then w
  else
    let w := if !w.associated && w.associateAtMs ≤ now then { w with associated := true } else w
    if w.associated && w.dhcpAtMs ≤ now then { w with hasAddress := true, connecting := false } else w

def wifiHexKey (value : List UInt8) : Bool :=
  value.all fun byte =>
    (48 ≤ byte && byte ≤ 57) || (97 ≤ byte && byte ≤ 102) || (65 ≤ byte && byte ≤ 70)

/-- The four modes that a password may name in front of it. -/
def modes : List Security := [.auto, .wpa, .wpa2, .wep]

def wifiParseCredentials (input : List UInt8) : Security × List UInt8 :=
  if input.map lower = ascii "open" then (.open, [])
  else
    let named := modes.find? fun mode =>
      (input.take mode.text.length).map lower = mode.text.map lower &&
        input[mode.text.length]? = some 58
    match named with
    | some mode => (mode, input.drop (mode.text.length + 1))
    | none => (.auto, input)

def wifiCredentialsValid (ssid password : List UInt8) (security : Security) : Bool :=
  let length := password.length
  if ssid = [] || 32 < ssid.length || 64 < length then false
  else
    match security with
    | .open => length = 0
    | .auto => length = 0 || (8 ≤ length && length ≤ 63)
    | .wpa => 8 ≤ length && length ≤ 63
    | .wpa2 => 8 ≤ length && length ≤ 63
    | .wep => length = 5 || length = 13 || ((length = 10 || length = 26) && wifiHexKey password)

section Profile

/-- `fgets` into a buffer of `size` bytes: the line with its line feed, and the rest. -/
def fgets (size : Nat) (file : List UInt8) : Option (List UInt8 × List UInt8) :=
  if file = [] then none
  else
    let head := file.take (size - 1)
    let line := if 10 ∈ head then head.takeWhile (· ≠ 10) ++ [10] else head
    some (line, file.drop line.length)

/-- A line up to its end, as `strcspn` cuts it. -/
def cutLine (line : List UInt8) : List UInt8 :=
  line.takeWhile fun byte => byte ≠ 0 && byte ≠ 13 && byte ≠ 10

def securityOf (text : List UInt8) : Option Security :=
  [Security.auto, .open, .wep, .wpa, .wpa2].find? fun security => security.text = text

/-- The profile in a file, if there is a file and it holds one. -/
def wifiProfileLoad (file : Option (List UInt8)) : Option (Security × List UInt8 × List UInt8) := do
  let (header, rest) ← fgets 16 (← file)
  let (security, rest) ← fgets 16 rest
  let (ssid, rest) ← fgets 64 rest
  let (password, _) ← fgets 96 rest
  let security ← securityOf (cutLine security)
  if cutLine header ≠ ascii "ELKWIFI1" then none
  else if !wifiCredentialsValid (cutLine ssid) (cutLine password) security then none
  else some (security, cutLine ssid, cutLine password)

end Profile

/-- What the backend is created from: the variable that hides the hardware, the two delays, the
file at the profile path if a path is set, and the clock. -/
structure Config where
  wifiPresent : Option (List UInt8)
  associateDelayMs : UInt32
  dhcpDelayMs : UInt32
  profile : Option (Option (List UInt8))
  now : UInt64

/-- The WiFi part of `pi1mhz_net_backend_create`. -/
def wifiCreate (config : Config) : Wifi :=
  let absent := config.wifiPresent.any fun value => value = ascii "0" || value.map lower = ascii "no"
  let w : Wifi :=
    { ssid := [], password := [], security := .auto, profilePath := config.profile.isSome
      present := !absent, enabled := !absent, associated := false, hasAddress := false
      connecting := false, associateAtMs := 0, dhcpAtMs := 0
      associateDelayMs := config.associateDelayMs, dhcpDelayMs := config.dhcpDelayMs
      scanFields := 127 }
  match config.profile with
  | none =>
    { w with ssid := ascii "Pi1MHz-Fixture", associated := w.present, hasAddress := w.present }
  | some file =>
    match if w.present then wifiProfileLoad file else none with
    | some (security, ssid, password) => wifiStartJoin config.now { w with security, ssid, password }
    | none => w

/-- A command block with what the clock says when the command is begun and when it starts a join,
and whether the profile file can be written. -/
structure Control where
  command : Memory UInt8
  now : UInt64
  later : UInt64
  fileOk : Bool

structure Outcome where
  code : Code
  wifi : Wifi
  command : Memory UInt8

/-- The string of a command block at an offset, cut off at the size of its buffer. -/
def Control.string (c : Control) (offset size : Nat) : List UInt8 :=
  (c.command.read offset size).takeWhile (· ≠ 0)

def elkwifiResponse (c : Control) (w : Wifi) (response : List UInt8) : Outcome :=
  ⟨.ok, w, c.command.write 1 (response.take elkwifiTextMax ++ [0])⟩

def refuse (c : Control) (w : Wifi) (code : Code) : Outcome := ⟨code, w, c.command⟩

def wifiProfileSave (c : Control) (w : Wifi) : Bool := !w.profilePath || c.fileOk

def joinSsid (c : Control) : List UInt8 := c.string 2 ssidSize

def joinInput (c : Control) : List UInt8 := c.string (2 + (joinSsid c).length + 1) passwordSize

/-- The lengths that a join checks before it reads its credentials. -/
def joinFits (c : Control) : Bool :=
  joinSsid c ≠ [] && (joinSsid c).length < ssidSize && (joinInput c).length < passwordSize

/-- The case `ELKWIFI_CMD_JOIN` with operation 1. -/
def wifiJoin (c : Control) (w : Wifi) : Outcome :=
  if !joinFits c then refuse c w .param
  else
    let credentials := wifiParseCredentials (joinInput c)
    -- The security mode is stored before the credentials are checked.
    let w := { w with security := credentials.1 }
    if !wifiCredentialsValid (joinSsid c) credentials.2 credentials.1 then refuse c w .param
    else
      let w := { w with ssid := joinSsid c, password := credentials.2 }
      if !wifiProfileSave c w then refuse c w .io
      else
        let w := wifiStartJoin c.later w
        elkwifiResponse c w
          ((ascii "WIFI CONNECTING " ++ w.security.text ++ ascii "\r\n\r\nOK\r\n").take elkwifiTextMax)

/-- The case `ELKWIFI_CMD_JOIN`. -/
def elkwifiJoin (c : Control) (w : Wifi) : Outcome :=
  let operation := c.command 1
  if operation = 0 || operation = 63 then
    elkwifiResponse c w <|
      if w.connecting && !w.associated then ascii "WIFI CONNECTING\r\n\r\nOK\r\n"
      else if !w.associated then ascii "No AP\r\n\r\nOK\r\n"
      else (ascii "+CWJAP:\"" ++ w.ssid ++ ascii "\"\r\n\r\nOK\r\n").take elkwifiTextMax
  else if operation = 2 || operation = 3 then
    let w := { w with
      associated := false, hasAddress := false, connecting := false
      enabled := w.enabled && operation ≠ 3 }
    elkwifiResponse c w <|
      if operation = 3 then ascii "WIFI OFF\r\n\r\nOK\r\n" else ascii "WIFI DISCONNECT\r\n\r\nOK\r\n"
  else if operation = 1 then wifiJoin c w
  else refuse c w .param

/-- The switch of `do_elkwifi_control`. -/
def elkwifiCommand (c : Control) (w : Wifi) : Outcome :=
  let command := c.command 0
  if command = elkwifiCmdStatus then
    if !w.present then refuse c w .noWifi
    else elkwifiResponse c { w with enabled := true } (ascii "Pi1MHz ElkWiFi 0.1.59\r\n\r\nOK\r\n")
  else if command = elkwifiCmdRadio then
    if !w.present then refuse c w .noWifi
    else
      let w := { w with enabled := true }
      let w :=
        if w.ssid ≠ [] && !w.associated && !w.connecting then wifiStartJoin c.later w else w
      elkwifiResponse c w (ascii "OK\r\n")
  else if command = elkwifiCmdScan then
    if !w.present || !w.enabled then refuse c w .noWifi
    else
      elkwifiResponse c w <|
        if w.scanFields = 7 then ascii "+CWLAP:(3,\"Pi1MHz-Fixture\",-42)\r\n\r\nOK\r\n"
        else ascii "+CWLAP:(3,\"Pi1MHz-Fixture\",-42,\"02:00:00:00:00:01\",6)\r\n\r\nOK\r\n"
  else if command = elkwifiCmdJoin then elkwifiJoin c w
  else if command = elkwifiCmdIfcfg then
    elkwifiResponse c w
      (ascii "+CIFSR:STAIP,\"" ++ (if w.hasAddress then ascii "192.168.0.2" else ascii "0.0.0.0") ++
        ascii "\"\r\n+CIFSR:STAMAC,\"02:00:00:00:00:01\"\r\n\r\nOK\r\n")
  else if command = elkwifiCmdLapopt then
    if c.command 1 ≠ 7 && c.command 1 ≠ 127 then refuse c w .param
    else
      let w := { w with scanFields := c.command 1 }
      elkwifiResponse c w
        (ascii "+CWLAPOPT:" ++ ascii (toString w.scanFields.toNat) ++ ascii "\r\n\r\nOK\r\n")
  else if command = elkwifiCmdPing then
    elkwifiResponse c w (if w.hasAddress then ascii "+1\r\n" else ascii "ERROR\r\n")
  else if command = elkwifiCmdDatetime then
    elkwifiResponse c w (if c.command 1 ≠ 0 then ascii "12:00:00\r\n" else ascii "07-08-2026\r\n")
  else if command = elkwifiCmdCancel then elkwifiResponse c w (ascii "OK\r\n")
  else if command = elkwifiCmdOnline then
    elkwifiResponse c w <|
      if w.hasAddress then ascii "ONLINE 192.168.0.2\r\n"
      else if w.connecting || w.associated then ascii "OFFLINE CONNECTING\r\n"
      else if !w.enabled then ascii "OFFLINE WIFI OFF\r\n"
      else ascii "OFFLINE\r\n"
  else refuse c w .unknown

def doElkwifiControl (w : Wifi) (c : Control) : Outcome := elkwifiCommand c (wifiUpdate c.now w)

section LinkState
variable {w : Wifi} {c : Control}

/-- The flags as they belong together: an address comes with an association that is made, a radio
that is off has no link, and absent hardware has no radio. -/
structure LinkState (w : Wifi) : Prop where
  address : w.hasAddress = true → w.associated = true ∧ w.connecting = false
  off : w.enabled = false → w.associated = false ∧ w.connecting = false ∧ w.hasAddress = false
  absent : w.present = false →
    w.enabled = false ∧ w.associated = false ∧ w.connecting = false ∧ w.hasAddress = false

@[simp] theorem wifiUpdate_present (now : UInt64) : (wifiUpdate now w).present = w.present := by
  simp only [wifiUpdate]
  split
  · rfl
  · split <;> split <;> rfl

@[simp] theorem wifiUpdate_profilePath (now : UInt64) :
    (wifiUpdate now w).profilePath = w.profilePath := by
  simp only [wifiUpdate]
  split
  · rfl
  · split <;> split <;> rfl

theorem LinkState.startJoin (present : w.present = true) (now : UInt64) :
    LinkState (wifiStartJoin now w) where
  address held := by cases held
  off off := by cases off
  absent missing := by
    have same : (wifiStartJoin now w).present = w.present := rfl
    rw [same, present] at missing
    cases missing

/-- Time alone keeps the link state: a join in progress is one that was allowed. -/
theorem LinkState.update (state : LinkState w) (now : UInt64) : LinkState (wifiUpdate now w) := by
  simp only [wifiUpdate]
  split
  · exact state
  next joining =>
    have connecting : w.connecting = true := by simpa using joining
    have enabled : w.enabled = true := by
      by_contra off
      have nothing := (state.off (by simpa using off)).2.1
      rw [nothing] at connecting
      cases connecting
    have present : w.present = true := by
      by_contra missing
      have nothing := (state.absent (by simpa using missing)).1
      rw [nothing] at enabled
      cases enabled
    have allowed : ∀ v : Wifi, v.enabled = w.enabled → v.present = w.present →
        (v.hasAddress = true → v.associated = true ∧ v.connecting = false) → LinkState v := by
      intro v on here address
      refine ⟨address, fun off => ?_, fun missing => ?_⟩
      · rw [on, enabled] at off
        cases off
      · rw [here, present] at missing
        cases missing
    have unassigned : w.hasAddress = false := by
      by_contra held
      have done := (state.address (by simpa using held)).2
      rw [done] at connecting
      cases connecting
    split
    all_goals
      split
      next leased =>
        have associated := (Bool.and_eq_true _ _ ▸ leased : _ ∧ _).1
        exact allowed _ rfl rfl fun _ => ⟨associated, rfl⟩
      next => exact allowed _ rfl rfl fun held => by simp [unassigned] at held

/-- The lengths and the credentials of a join are in order, and its profile can be saved. -/
def joinAccepted (w : Wifi) (c : Control) : Bool :=
  joinFits c && wifiCredentialsValid (joinSsid c) (wifiParseCredentials (joinInput c)).2
    (wifiParseCredentials (joinInput c)).1 && wifiProfileSave c w

/-- How far a join gets: it stops at the lengths, at the credentials or at the profile, or it is
accepted. -/
theorem wifiJoin_steps :
    (joinFits c = false ∧ wifiJoin c w = refuse c w .param) ∨
    (joinFits c = true ∧ wifiCredentialsValid (joinSsid c) (wifiParseCredentials (joinInput c)).2
        (wifiParseCredentials (joinInput c)).1 = false ∧
      wifiJoin c w =
        refuse c { w with security := (wifiParseCredentials (joinInput c)).1 } .param) ∨
    (joinFits c = true ∧ wifiCredentialsValid (joinSsid c) (wifiParseCredentials (joinInput c)).2
        (wifiParseCredentials (joinInput c)).1 = true ∧ wifiProfileSave c w = false ∧
      wifiJoin c w = refuse c { w with
        security := (wifiParseCredentials (joinInput c)).1
        ssid := joinSsid c, password := (wifiParseCredentials (joinInput c)).2 } .io) ∨
    (joinAccepted w c = true ∧ (wifiJoin c w).code = .ok ∧
      (wifiJoin c w).wifi = wifiStartJoin c.later { w with
        security := (wifiParseCredentials (joinInput c)).1
        ssid := joinSsid c, password := (wifiParseCredentials (joinInput c)).2 }) := by
  cases fits : joinFits c with
  | false => exact .inl ⟨rfl, by simp [wifiJoin, fits]⟩
  | true =>
    refine .inr ?_
    cases valid : wifiCredentialsValid (joinSsid c) (wifiParseCredentials (joinInput c)).2
      (wifiParseCredentials (joinInput c)).1 with
    | false => exact .inl ⟨rfl, rfl, by simp [wifiJoin, fits, valid]⟩
    | true =>
      refine .inr ?_
      have same : ∀ ssid password security,
          wifiProfileSave c { w with ssid, password, security } = wifiProfileSave c w :=
        fun _ _ _ => rfl
      cases saved : wifiProfileSave c w with
      | false => exact .inl ⟨rfl, rfl, rfl, by simp [wifiJoin, fits, valid, same, saved]⟩
      | true =>
        refine .inr ⟨by simp [joinAccepted, fits, valid, saved], ?_, ?_⟩
        · simp [wifiJoin, fits, valid, same, saved, elkwifiResponse]
        · simp [wifiJoin, fits, valid, same, saved, elkwifiResponse]

/-- A join that is not accepted changes only the identity of the network. -/
theorem wifiJoin_cases :
    joinAccepted w c = false ∧
        (∃ ssid password security, (wifiJoin c w).wifi = { w with ssid, password, security }) ∨
      joinAccepted w c = true ∧
        ∃ ssid password security, (wifiJoin c w).wifi =
          wifiStartJoin c.later { w with ssid, password, security } := by
  rcases @wifiJoin_steps w c with ⟨unfit, stopped⟩ | ⟨fits, invalid, stopped⟩ |
    ⟨fits, valid, unsaved, stopped⟩ | ⟨accepted, -, joined⟩
  · have same : (wifiJoin c w).wifi = w := congrArg Outcome.wifi stopped
    exact .inl ⟨by simp [joinAccepted, unfit], w.ssid, w.password, w.security, same⟩
  · exact .inl ⟨by simp [joinAccepted, invalid], _, _, _, congrArg Outcome.wifi stopped⟩
  · exact .inl ⟨by simp [joinAccepted, unsaved], _, _, _, congrArg Outcome.wifi stopped⟩
  · exact .inr ⟨accepted, _, _, _, joined⟩

theorem doElkwifiControl_join (join : c.command 0 = elkwifiCmdJoin) :
    doElkwifiControl w c = elkwifiJoin c (wifiUpdate c.now w) := by
  simp only [doElkwifiControl, elkwifiCommand, join]
  rfl

theorem elkwifiJoin_one (operation : c.command 1 = 1) : elkwifiJoin c w = wifiJoin c w := by
  simp only [elkwifiJoin, operation]
  rfl

/-- A command that starts a join with a network of its own. -/
structure Joins (w : Wifi) (c : Control) : Prop where
  command : c.command 0 = elkwifiCmdJoin
  operation : c.command 1 = 1
  accepted : joinAccepted w c = true

theorem LinkState.identity (state : LinkState w) (ssid password : List UInt8) (security : Security) :
    LinkState { w with ssid, password, security } := ⟨state.address, state.off, state.absent⟩

/-- Disconnecting and switching off take the link down. -/
theorem LinkState.down (state : LinkState w) (stays : Bool) :
    LinkState { w with
      associated := false, hasAddress := false, connecting := false, enabled := w.enabled && stays } where
  address held := by cases held
  off _ := ⟨rfl, rfl, rfl⟩
  absent missing := by
    refine ⟨?_, rfl, rfl, rfl⟩
    simp [(state.absent missing).1]

theorem LinkState.join (state : LinkState w)
    (safe : c.command 1 = 1 → joinAccepted w c = true → w.present = true) :
    LinkState (elkwifiJoin c w).wifi := by
  simp only [elkwifiJoin]
  split
  · exact state
  split
  · exact state.down _
  split
  next operation =>
    obtain ⟨-, ssid, password, security, same⟩ | ⟨accepted, ssid, password, security, same⟩ :=
      @wifiJoin_cases w c
    · rw [same]
      exact state.identity ssid password security
    · rw [same]
      exact .startJoin (w := { w with ssid, password, security }) (safe operation accepted) c.later
  · exact state

/-- Switching the radio on needs hardware. -/
theorem LinkState.on (state : LinkState w) (present : w.present = true) :
    LinkState { w with enabled := true } where
  address := state.address
  off off := by cases off
  absent missing := by
    have same : w.present = false := missing
    rw [present] at same
    cases same

theorem joinAccepted_congr {v : Wifi} (same : v.profilePath = w.profilePath) :
    joinAccepted v c = joinAccepted w c := by
  simp only [joinAccepted, wifiProfileSave, same]

/-- The commands keep the link state, but for a join without hardware. -/
theorem LinkState.command (state : LinkState w)
    (safe : c.command 0 = elkwifiCmdJoin → c.command 1 = 1 → joinAccepted w c = true →
      w.present = true) : LinkState (elkwifiCommand c w).wifi := by
  have here : ¬(!w.present) = true → w.present = true := by simp
  dsimp only [elkwifiCommand]
  refine iteInduction (motive := fun o : Outcome => LinkState o.wifi) (fun _ => ?_) fun _ => ?_
  · split
    · exact state
    next present => exact state.on (here present)
  refine iteInduction (motive := fun o : Outcome => LinkState o.wifi) (fun _ => ?_) fun _ => ?_
  · split
    · exact state
    next present =>
      refine iteInduction (motive := LinkState) (fun _ => ?_) fun _ => state.on (here present)
      exact .startJoin (w := { w with enabled := true }) (here present) c.later
  refine iteInduction (motive := fun o : Outcome => LinkState o.wifi) (fun _ => ?_) fun _ => ?_
  · split
    · exact state
    · exact state
  refine iteInduction (motive := fun o : Outcome => LinkState o.wifi) (fun join => state.join (safe join)) fun _ => ?_
  refine iteInduction (motive := fun o : Outcome => LinkState o.wifi) (fun _ => state) fun _ => ?_
  refine iteInduction (motive := fun o : Outcome => LinkState o.wifi) (fun _ => ?_) fun _ => ?_
  · split
    · exact state
    · exact ⟨state.address, state.off, state.absent⟩
  refine iteInduction (motive := fun o : Outcome => LinkState o.wifi) (fun _ => state) fun _ => ?_
  refine iteInduction (motive := fun o : Outcome => LinkState o.wifi) (fun _ => state) fun _ => ?_
  refine iteInduction (motive := fun o : Outcome => LinkState o.wifi) (fun _ => state) fun _ => ?_
  exact iteInduction (motive := fun o : Outcome => LinkState o.wifi) (fun _ => state) fun _ => state

/-- A command keeps the link state unless it joins a network without hardware. -/
theorem LinkState.control (state : LinkState w) (safe : ¬(w.present = false ∧ Joins w c)) :
    LinkState (doElkwifiControl w c).wifi := by
  refine (state.update c.now).command fun command operation accepted => ?_
  rw [wifiUpdate_present]
  rw [joinAccepted_congr (wifiUpdate_profilePath c.now)] at accepted
  by_contra missing
  exact safe ⟨by simpa using missing, command, operation, accepted⟩

/-- A join without hardware brings up a radio that is not there. -/
theorem Joins.breaks (joins : Joins w c) (missing : w.present = false) :
    ¬LinkState (doElkwifiControl w c).wifi := by
  have same := @wifiUpdate_present w c.now
  have path := @wifiUpdate_profilePath w c.now
  have joined : doElkwifiControl w c = wifiJoin c (wifiUpdate c.now w) := by
    rw [doElkwifiControl_join joins.command, elkwifiJoin_one joins.operation]
  intro state
  obtain ⟨refused, -⟩ | ⟨-, ssid, password, security, started⟩ :=
    @wifiJoin_cases (wifiUpdate c.now w) c
  · rw [joinAccepted_congr path, joins.accepted] at refused
    cases refused
  · rw [joined, started] at state
    have on := (state.absent (same.trans missing)).1
    cases on

end LinkState

section Runs

/-- The WiFi fields after each command of a run. -/
def step (w : Wifi) (c : Control) : Wifi := (doElkwifiControl w c).wifi

/-- A command of a run does not join a network without hardware. -/
def JoinsPresent (w : Wifi) (c : Control) : Prop := w.present = false → ¬Joins w c

theorem linkState_create (config : Config) : LinkState (wifiCreate config) := by
  simp only [wifiCreate]
  split
  next fixture =>
    refine ⟨fun held => ⟨held, rfl⟩, fun off => ?_, fun missing => ?_⟩
    · exact ⟨off, rfl, off⟩
    · exact ⟨missing, missing, rfl, missing⟩
  next file stored =>
    have idle : ∀ {v : Wifi}, v.associated = false → v.connecting = false → v.hasAddress = false →
        v.enabled = v.present → LinkState v := by
      intro v associated connecting address on
      refine ⟨fun held => ?_, fun _ => ⟨associated, connecting, address⟩, fun missing => ?_⟩
      · rw [address] at held
        cases held
      · exact ⟨on.trans missing, associated, connecting, address⟩
    split
    next security ssid password loaded =>
      split at loaded
      next present => exact .startJoin present config.now
      next => cases loaded
    next => exact idle rfl rfl rfl rfl

/-- The link state holds after each command of a run exactly when no command of the run joins a
network without hardware. -/
theorem linkState_iff {w : Wifi} (state : LinkState w) (controls : List Control) :
    (∀ done, done <+: controls → LinkState (Conduit.run step w done)) ↔
      Conduit.Follows step JoinsPresent w controls := by
  induction controls generalizing w with
  | nil =>
    constructor
    · intro _
      trivial
    · intro _ done within
      rw [List.prefix_nil.mp within]
      exact state
  | cons c rest ih =>
    constructor
    · intro holds
      have next : LinkState (step w c) := holds [c] (by simp)
      refine ⟨fun missing joins => joins.breaks missing next, ?_⟩
      apply (ih next).mp
      intro done within
      exact holds (c :: done) (List.prefix_cons_inj c |>.mpr within)
    · rintro ⟨safe, later⟩ done within
      cases done with
      | nil => exact state
      | cons d done =>
        obtain ⟨rfl, inner⟩ := List.cons_prefix_cons.mp within
        have next : LinkState (step w d) := state.control fun both => safe both.1 both.2
        exact (ih next).mpr later done inner

/-- From any configuration and by any clock, the link state holds in every state reached exactly
when no network is joined without hardware. -/
theorem wifi_link_state_iff (config : Config) (controls : List Control) :
    (∀ done, done <+: controls → LinkState (Conduit.run step (wifiCreate config) done)) ↔
      Conduit.Follows step JoinsPresent (wifiCreate config) controls :=
  linkState_iff (linkState_create config) controls

/-- Hardware hidden by the environment, and a join with a password of eight bytes. -/
def hiddenConfig : Config := ⟨some (ascii "0"), 500, 500, none, 0⟩

def joinControl : Control where
  command := Memory.write (fun _ => 0) 0 (elkwifiCmdJoin :: 1 :: ascii "net" ++ 0 :: ascii "password")
  now := 1000
  later := 1000
  fileOk := true

theorem hidden_hardware_joins :
    ¬∀ config controls done, done <+: controls →
      LinkState (Conduit.run step (wifiCreate config) done) := by
  intro holds
  have state := holds hiddenConfig [joinControl] [joinControl] (List.prefix_refl _)
  have on := (state.absent (by decide +kernel)).1
  exact absurd on (by decide +kernel)

end Runs

end Pi1MHz.ElkWifi
