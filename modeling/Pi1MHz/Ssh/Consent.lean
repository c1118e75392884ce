import Pi1MHz.Ssh.Backend
import Pi1MHz.Ssh.Client
import Pi1MHz.Ssh.Pinning

/-! Whose keys `*SSH` trusts. Until the user has answered the question about a fingerprint with Y,
the file of known hosts stays as it is and no key is accepted that is not in it. -/
namespace Pi1MHz.Wolfssh

section Trust

variable {p : Provider}

theorem closeUnlessPending_active {out : Provider × Status}
    (active : (closeUnlessPending out).provider.stage ≠ .idle) :
    (closeUnlessPending out).provider = out.1 := by
  rw [closeUnlessPending] at active ⊢
  split at active
  · rw [if_pos (by assumption)]
  · exact absurd (idle_resetConnection out.1 false).stage active

theorem loadKeys_trust (o : Outside) : (loadKeys p o).1.trustUnknown = p.trustUnknown := by
  rw [loadKeys]
  split
  · rfl
  · dsimp only
    split
    · rfl
    · split <;> rfl

/-- A connection is begun with the trust it is asked for. -/
theorem beginTcp_trust (url username : List UInt8) (trust : Bool) (o : Outside)
    (pending : (beginTcp p url username trust o).2 = .pending) :
    (beginTcp p url username trust o).1.trustUnknown = trust := by
  revert pending
  rw [beginTcp]
  cases parseUrl url with
  | none => exact fun pending => by cases pending
  | some target =>
    dsimp only
    split
    · exact fun pending => by cases pending
    cases hostIdOf url with
    | none => exact fun pending => by cases pending
    | some hostId =>
      dsimp only
      have loaded := @loadKeys_trust { p with
        host := target.1
        username := username
        hostId := hostId
        trustUnknown := trust
        hostUnknown := false
        hostChanged := false
        fingerprint := [] } o
      generalize loadKeys _ o = keys at *
      generalize known : (if keys.2 = true then keys.1 else freeKeys keys.1) = ready
      have same : ready.trustUnknown = trust := by
        rw [← known]
        split <;> exact loaded
      split
      · exact fun pending => by cases pending
      cases o.addresses with
      | none => exact fun pending => by cases pending
      | some addresses =>
        dsimp only
        cases connectFirst addresses with
        | none => exact fun pending => by cases pending
        | some fd => exact fun _ => same

theorem startSsh_trust (o : Outside) : (startSsh p o).1.trustUnknown = p.trustUnknown := by
  rw [startSsh]
  split
  · rfl
  · dsimp only
    split
    · rfl
    · split <;> rfl

theorem hostkeyCalls_trust (calls : List HostkeyCall) (p : Provider) :
    (calls.foldl hostkeyCalled p).trustUnknown = p.trustUnknown := by
  induction calls generalizing p with
  | nil => rfl
  | cons call calls ih => exact ih (hostkeyCalled p call)

/-- A connection that is under way after an open trusts unknown keys if it did before, or if the
open began it and asked for that. -/
theorem openCall_trust (url username : List UInt8) (trust : Bool) (o : Outside)
    (active : (openCall p url username trust o).provider.stage ≠ .idle) :
    (openCall p url username trust o).provider.trustUnknown =
      if p.stage = .idle then trust else p.trustUnknown := by
  revert active
  rw [openCall]
  cases p.stage with
  | idle =>
    intro active
    have same := closeUnlessPending_active active
    have pending : (beginTcp p url username trust o).2 = .pending := by
      by_contra ended
      rw [closeUnlessPending, if_neg ended] at active
      exact active (idle_resetConnection _ false).stage
    rw [if_pos rfl, same]
    exact beginTcp_trust url username trust o pending
  | tcp =>
    intro active
    rw [closeUnlessPending_active active]
    exact startSsh_trust o
  | ssh =>
    have called := hostkeyCalls_trust o.hostkeyCalls p
    simp only [reduceCtorEq, if_false]
    rw [← called, connectSsh]
    generalize o.hostkeyCalls.foldl hostkeyCalled p = q
    dsimp only
    split
    · exact fun _ => rfl
    · split
      · exact fun _ => rfl
      · exact fun active => absurd (idle_resetConnection q _).stage active
  | resize =>
    simp only [reduceCtorEq, if_false]
    split
    · exact fun _ => rfl
    · split
      · exact fun _ => rfl
      · exact fun active => absurd (idle_resetConnection p false).stage active
  | up => exact fun _ => rfl

end Trust

end Pi1MHz.Wolfssh

namespace Pi1MHz.SshClient
open Dialogue Program HostTools
open Wolfssh hiding Call call
open FtpService (ascii)

section Guard

variable (encoding : KeyEncoding)

/-- The user answered the question about a fingerprint with Y or y. -/
def Consented (trace : List Event) : Prop :=
  ∃ before key after, trace = before ++ .printed acceptText :: .typed key :: after ∧
    key &&& 0xdf = 89

/-- The file has the key for its host. -/
def Recorded (file : List UInt8) (a : Accepted) : Prop :=
  ∃ type key, hostKey encoding a.publicKey = some (type, key) ∧
    checkKnownHost a.hostId type key file = .same

/-- The file is as it was, the keys accepted were in it, and no connection is under way that would
accept others. -/
structure Untouched (file : List UInt8) (b : Backend) : Prop where
  known : b.knownHosts = file
  accepted : ∀ a ∈ b.accepted, Recorded encoding file a
  trust : b.provider.stage ≠ .idle → b.provider.trustUnknown = false

def Guarded (file : List UInt8) (h : Host Backend) : Prop :=
  Consented h.trace ∨ Untouched encoding file h.service

variable {encoding} {file : List UInt8}

theorem Consented.append {trace : List Event} (consented : Consented trace) (more : List Event) :
    Consented (trace ++ more) := by
  obtain ⟨before, key, after, rfl, yes⟩ := consented
  exact ⟨before, key, after ++ more, by simp, yes⟩

theorem hostkey_untrusted (hostId publicKey : List UInt8) :
    (hostkey encoding hostId false publicKey file).2 = file ∧
      ((hostkey encoding hostId false publicKey file).1 = .accepted →
        Recorded encoding file ⟨hostId, publicKey, false⟩) := by
  rw [hostkey]
  cases found : hostKey encoding publicKey with
  | none => exact ⟨rfl, fun accepted => Verdict.noConfusion accepted⟩
  | some pair =>
    dsimp only
    cases known : checkKnownHost hostId pair.1 pair.2 file with
    | unknown => exact ⟨rfl, fun accepted => Verdict.noConfusion accepted⟩
    | same => exact ⟨rfl, fun _ => ⟨pair.1, pair.2, found, known⟩⟩
    | changed => exact ⟨rfl, fun accepted => Verdict.noConfusion accepted⟩

theorem present_untouched {b : Backend} (untouched : Untouched encoding file b)
    (trust : b.provider.trustUnknown = false) (keys : List (List UInt8 × Option (List UInt8))) :
    Untouched encoding file (present encoding b keys).1 ∧
      (present encoding b keys).1.provider = b.provider := by
  induction keys generalizing b with
  | nil => exact ⟨untouched, rfl⟩
  | cons key rest ih =>
    obtain ⟨same, recorded⟩ := @hostkey_untrusted encoding b.knownHosts b.provider.hostId key.1
    rw [present, trust]
    dsimp only
    rw [same]
    refine ih ⟨untouched.known, fun a member => ?_, untouched.trust⟩ trust
    split at member
    · rename_i accepted
      rw [List.mem_append, List.mem_singleton] at member
      rcases member with old | rfl
      · exact untouched.accepted a old
      · rw [← untouched.known]
        exact recorded accepted
    · exact untouched.accepted a member

/-- Commands other than an open that accepts unknown keys. -/
def Harmless : Call → Prop
  | .dispatch (.sshOpen flags) => flags &&& 1 = 0
  | _ => True

theorem secSshOpen_untouched {b : Backend} (untouched : Untouched encoding file b) {flags : UInt8}
    (harmless : flags &&& 1 = 0) (m : Meeting) :
    Untouched encoding file (secSshOpen encoding b flags m).1 := by
  rw [secSshOpen]
  generalize met : (if b.provider.stage = .ssh then present encoding b m.presented else (b, [])) = after
  have kept : Untouched encoding file after.1 ∧ after.1.provider = b.provider := by
    rw [← met]
    split
    · exact present_untouched untouched (untouched.trust (by simp_all)) m.presented
    · exact ⟨untouched, rfl⟩
  refine ⟨kept.1.known, kept.1.accepted, fun active => ?_⟩
  have trust := openCall_trust after.1.url after.1.username (flags &&& 1 != 0) _ active
  dsimp only
  rw [trust]
  split
  · simp [harmless]
  · exact kept.1.trust (by assumption)

theorem doSecure_untouched {b : Backend} (untouched : Untouched encoding file b) {command : Command}
    (harmless : Harmless (.dispatch command)) (m : Meeting) :
    Untouched encoding file (doSecure encoding b command m).1 := by
  cases command with
  | sshOpen flags => exact secSshOpen_untouched untouched harmless m
  | sshClose =>
    exact ⟨untouched.known, untouched.accepted,
      fun active => absurd (idle_resetConnection b.provider false).stage active⟩
  | sshPassword length =>
    rw [doSecure_sshPassword, secSshPassword]
    split
    · exact untouched
    · refine ⟨untouched.known, untouched.accepted, ?_⟩
      dsimp only
      rw [passwordCall]
      split
      · exact untouched.trust
      · exact untouched.trust
  | _ => exact untouched

theorem answers_guarded (h : Host Backend) (c : Call) (d : Choice Meeting) (harmless : Harmless c)
    (guarded : Guarded encoding file h) :
    Guarded encoding file (answers (sshService encoding) h c d).1 := by
  rcases guarded with consented | untouched
  · obtain ⟨more, trace⟩ := answers_trace (sshService encoding) h c d
    left
    rw [trace]
    exact consented.append more
  · right
    cases c with
    | dispatch command => exact doSecure_untouched untouched harmless d.service
    | store place bytes => cases place <;> exact ⟨untouched.known, untouched.accepted, untouched.trust⟩
    | osbyte a x y =>
      dsimp only [answers]
      split <;> exact untouched
    | _ => exact untouched

end Guard

section Asking

theorem sshPromptPassword_asks (p : Password) : (sshPromptPassword p).Asks Harmless := by
  simp [sshPromptPassword, osnewl, Harmless]

theorem secureSshPassword_asks (p : Password) : (secureSshPassword p).Asks Harmless := by
  simp [secureSshPassword, Harmless]

theorem probing_harmless : ∀ c, Probing c → Harmless c := by
  intro c probing
  cases c with
  | dispatch command =>
    have caps : command = .caps := probing
    rw [caps]
    trivial
  | _ => trivial

theorem session_harmless : ∀ c, InSession c → Harmless c := by
  intro c session
  cases c with
  | dispatch command =>
    cases command with
    | sshOpen => exact absurd session id
    | _ => trivial
  | _ => trivial

end Asking

section Main

variable {encoding : KeyEncoding} {file : List UInt8}

theorem guarded_of_asks {α : Type} {p : HostProgram α} (asks : p.Asks Harmless) :
    p.Keeps (answers (sshService encoding)) (Guarded encoding file) :=
  keeps_of_asks asks fun h c d => answers_guarded h c d

theorem Guarded.note {h : Host Backend} (guarded : Guarded encoding file h) (event : Event) :
    Guarded encoding file (h.note event) :=
  guarded.imp (·.append [event]) id

theorem sshConfirmHostKey_consents {h : Host Backend} (guarded : Guarded encoding file h) :
    sshConfirmHostKey.wp (answers (sshService encoding)) (Guarded encoding file)
      (fun yes h => Guarded encoding file h ∧ (yes = true → Consented h.trace)) h := by
  simp only [sshConfirmHostKey, osnewl, wp_bind, wp_print, wp_fingerprint, wp_osrdch, wp_pure]
  have asked := (guarded.note (.printed unknownHostText)).note
    (.printed ((sshService encoding).fingerprint (h.note (.printed unknownHostText)).service))
  have accept := asked.note (.printed acceptText)
  refine ⟨guarded, fun _ => ⟨guarded.note _, fun _ => ⟨guarded.note _, fun _ => ⟨asked, fun _ =>
    ⟨accept, fun d => ⟨accept.note (.typed d.key), fun _ => ⟨(accept.note _).note _, fun yes => ?_⟩⟩⟩⟩⟩⟩⟩
  have typed : d.key &&& 0xdf = 89 := by simpa using yes
  refine ⟨h.trace ++
    [.printed unknownHostText, .printed ((sshService encoding).fingerprint h.service)],
    d.key, [.printed [10, 13]], ?_, typed⟩
  simp [Host.note]

/-- Whatever follows consent, it stays given. -/
theorem consented_keeps {α : Type} (p : HostProgram α) {h : Host Backend}
    (consented : Consented h.trace) :
    p.wp (answers (sshService encoding)) (Guarded encoding file) (fun _ => Guarded encoding file) h := by
  apply wp_mono (fun _ _ => Or.inl)
  refine wp_of_asks (asks_true p) ?_ (fun _ => Or.inl) consented
  intro h c d _ consented
  obtain ⟨more, trace⟩ := answers_trace (sshService encoding) h c d
  rw [trace]
  exact consented.append more

theorem openAsking_guarded :
    openAsking.Keeps (answers (sshService encoding)) (Guarded encoding file) := by
  have first : (secureSshOpen 0).Asks Harmless := by simp [secureSshOpen, Harmless]
  apply (guarded_of_asks first).bind
  intro code
  split
  · exact keeps_done _
  · intro h guarded
    apply wp_mono _ (sshConfirmHostKey_consents guarded)
    rintro yes h ⟨guarded, consents⟩
    cases yes with
    | false => exact guarded
    | true => exact consented_keeps _ (consents rfl)

theorem sshTryPassword_guarded (features : UInt8) (p : Password) :
    (sshTryPassword features p).Keeps (answers (sshService encoding)) (Guarded encoding file) := by
  rw [sshTryPassword]
  split
  · exact keeps_done _
  · apply (guarded_of_asks (sshPromptPassword_asks p)).bind
    rintro ⟨length, p⟩
    cases length with
    | none => exact keeps_done _
    | some length =>
      apply (guarded_of_asks (secureSshPassword_asks p)).bind
      intro code
      split
      · exact keeps_done _
      · apply (guarded_of_asks (p := print passwordAuthText) trivial).bind
        exact fun _ => openAsking_guarded.bind fun _ => keeps_done _

theorem sshOpening_guarded (features : UInt8) (p : Password) :
    (sshOpening features p).Keeps (answers (sshService encoding)) (Guarded encoding file) := by
  apply openAsking_guarded.bind
  intro result
  cases result with
  | none => exact keeps_done _
  | some code =>
    dsimp only
    split
    · exact keeps_done _
    · split
      · exact keeps_done _
      · exact sshTryPassword_guarded features p

theorem ssh_guarded (target : Option Target) (p : Password) (host : UInt8 → UInt8) :
    (ssh target p host).Keeps (answers (sshService encoding)) (Guarded encoding file) := by
  intro h guarded
  apply ssh_wp (Guarded encoding file) fun _ => Guarded encoding file
  · exact fun h c d probing => answers_guarded h c d (probing_harmless c probing)
  · exact fun _ => id
  · exact fun _ => id
  · exact fun features h => sshOpening_guarded features p h
  · exact fun opening _ h => guarded_of_asks
      (asks_mono session_harmless (sshOpened_session host opening)) h
  · exact guarded

/-- In any run of `*SSH` that starts with no connection under way, at any moment: if the user has
not answered the question about a fingerprint with Y, then the file of known hosts is as it was, and
every key that was accepted for a host was recorded in it for that host. -/
theorem ssh_trusts_by_consent (target : Option Target) (p : Password) (host : UInt8 → UInt8)
    (h : Host Backend) (idle : h.service.provider.stage = .idle) (fresh : h.service.accepted = [])
    (passes : Nat) (choices : List (Choice Meeting)) :
    let last := ((ssh target p host).run (answers (sshService encoding)) passes (h, choices)).1.1
    ¬Consented last.trace → last.service.knownHosts = h.service.knownHosts ∧
      ∀ a ∈ last.service.accepted, Recorded encoding h.service.knownHosts a := by
  intro last withheld
  have untouched : Untouched encoding h.service.knownHosts h.service := {
    known := rfl
    accepted := by simp [fresh]
    trust := fun active => absurd idle active }
  have guarded : Guarded encoding h.service.knownHosts last :=
    run_always (ssh_guarded target p host h (.inr untouched))
  rcases guarded with consented | untouched
  · exact absurd consented withheld
  · exact ⟨untouched.known, untouched.accepted⟩

/-- The user answers `yes`, the keys of the client can be read and the server has a new key. -/
def unknownServer (answer : UInt8) : Choice Meeting where
  present := true
  key := answer
  polled := (0, 0xff)
  keyboardStatus := 0
  service := {
    outside := { newServer with
      -- The name of the public key ends in b.
      readKey := fun path => ⟨true, path.getLast? ≠ some 98, some [1]⟩ }
    presented := [(ed25519Blob 1, some (ascii "SHA256:new"))]
    streamed := .wantIo }

def freshBackend : Backend where
  provider := (create (ascii "/k") true).getD (close ⟨.idle, none, none, none, [], [], [], [], [],
    false, false, false, none, none, [], 0⟩)
  knownHosts := []
  url := []
  username := []
  window := []
  fingerprint := []
  accepted := []

def freshHost : Host Backend := ⟨⟨0, 0, 27, 0x20⟩, freshBackend, []⟩

def newServerTarget : Target := ⟨newServerUrl, ascii "me"⟩

/-- The user declines with N. -/
def declining : Run (Host Backend) (Choice Meeting) × Option Password :=
  (ssh (some newServerTarget) sshWipePassword fun _ => 0).run (answers (sshService rfc4648)) 9
    (freshHost, List.replicate 24 (unknownServer 78))

def keyTyped : Event → Option UInt8
  | .typed key => some key
  | _ => none

theorem declining_withheld : ¬Consented declining.1.1.trace := by
  rintro ⟨before, key, after, trace, yes⟩
  have keys : declining.1.1.trace.filterMap keyTyped = [78] := by decide +kernel
  have typed : key ∈ declining.1.1.trace.filterMap keyTyped := by simp [trace, keyTyped]
  rw [keys, List.mem_singleton] at typed
  rw [typed] at yes
  exact absurd yes (by decide)

theorem ssh_trusts_by_consent_declined :
    declining.2 = some sshWipePassword ∧ Event.printed hostDeclinedText ∈ declining.1.1.trace ∧
      declining.1.1.service.knownHosts = [] ∧
      ∀ a ∈ declining.1.1.service.accepted, Recorded rfc4648 [] a := by
  have trusted := @ssh_trusts_by_consent rfc4648 (some newServerTarget) sshWipePassword
    (fun _ => 0) freshHost (by decide +kernel) rfl 9 (List.replicate 24 (unknownServer 78))
    declining_withheld
  exact ⟨by decide +kernel, by decide +kernel, trusted⟩

end Main

end Pi1MHz.SshClient
