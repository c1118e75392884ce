import Pi1MHz.HostTools.Exit
import Pi1MHz.HostTools.Pipe
import Pi1MHz.Ssh.Consent

/-! What a whole run of `*SSH` and of `*TELNET` carries between the user and the other side. -/
namespace Pi1MHz.SshClient
open Dialogue Program HostTools
open Wolfssh hiding Call call
open FtpService (ascii)

section Pipe

variable {τ δ : Type} {s : Service τ δ}

theorem sshTerminal_wired : sshTerminal.Wired where
  read := rfl
  readWindow := rfl
  write := fun _ => rfl
  writeReads := fun _ => rfl
  returnKey := by decide

theorem sshOpened_settled (bounded : s.Bounded) (host : UInt8 → UInt8) (opening : Opening)
    {h : Host τ} (flow : Flow sshTerminal [] [] h.trace) :
    (sshOpened host opening).wp (answers s) (Piped sshTerminal)
      (fun _ h => Settled sshTerminal errorText h.trace) h := by
  have close : secureSshClose.Asks Aside := by
    simp [secureSshClose, Aside, Command.reads, Command.window]
  have shows : ∀ text, (print text >>= fun _ => secureSshClose).Asks Aside :=
    fun _ => ⟨trivial, fun _ => close⟩
  cases opening with
  | connected =>
    have setup : setupKeyboard.Asks Aside := by simp [setupKeyboard, Aside]
    have errors : ∀ code, sshEnding (.error code) = showError errorText code := fun _ => rfl
    have leaves : ∀ saved, (secureSshClose >>= fun _ => restoreKeyboard saved).Asks Aside :=
      fun saved => ⟨close, fun _ => by simp [restoreKeyboard, Aside]⟩
    apply flow.past setup
    intro saved h flow
    apply flow.past (p := print [4]) trivial
    intro _ h flow
    apply flow.past (p := vtInit) trivial
    intro _ h flow
    apply flow.past (p := print connectedText) trivial
    intro _ h flow
    apply wp_mono _ (terminalLoop_flow bounded sshTerminal_wired host flow)
    intro ending h ended
    apply wp_mono _ (ending_settled errors ⟨trivial, trivial⟩ ending ended)
    exact fun _ _ settled => settled_of_asks (leaves saved) settled
  | failed code =>
    apply wp_mono _ (showError_settled code flow)
    exact fun _ _ settled => settled_of_asks close settled
  | authFailed => exact settled_of_asks (shows _) (flow.settled _)
  | declined => exact settled_of_asks (shows _) (flow.settled _)

theorem probing_before : ∀ c, Probing c → Before c := by
  intro c probing
  cases c with
  | dispatch command =>
    have caps : command = .caps := probing
    rw [caps]
    trivial
  | fingerprint => trivial
  | osrdch => trivial
  | osbyte a x y => exact absurd probing id
  | vtInit => exact probing
  | vtProcess byte => exact probing
  | _ => trivial

theorem before_aside : ∀ c, Before c → Aside c := by
  intro c before
  cases c with
  | dispatch command =>
    cases command with
    | caps | sshOpen | sshPassword => exact ⟨rfl, rfl⟩
    | _ => exact absurd before id
  | osbyte a x y =>
    have frame : a = 19 := before
    rw [frame]
    exact (by decide : (19 : UInt8) ≠ 0x81)
  | vtProcess byte => exact before
  | _ => trivial

theorem ssh_settled (bounded : s.Bounded) (target : Option Target) (p : Password)
    (host : UInt8 → UInt8) {h : Host τ} (flow : Flow sshTerminal [] [] h.trace) :
    (ssh target p host).wp (answers s) (Piped sshTerminal)
      (fun _ h => Settled sshTerminal errorText h.trace) h := by
  apply ssh_wp (fun h => Flow sshTerminal [] [] h.trace) fun _ h => Flow sshTerminal [] [] h.trace
  · exact fun h c d probing => answers_aside (before_aside c (probing_before c probing)) h d
  · exact fun _ flow => ⟨[], [], flow⟩
  · exact fun _ flow => flow.settled errorText
  · exact fun features h => flow_of_asks (asks_mono before_aside (sshOpening_before features p))
  · exact fun opening _ _ => sshOpened_settled bounded host opening
  · exact flow

/-- In a run that is going on, the bytes rendered are the first of those delivered and the bytes
taken the first of those typed; when it has ended, everything delivered was rendered and everything
typed was taken, unless it showed an error. -/
def Carries (t : Terminal) (error : List UInt8) {α : Type} (h : Host τ) (result : Option α) : Prop :=
  rendered h.trace <+: delivered h.trace ∧ taken h.trace <+: keyed t h.trace ∧
    (result.isSome → rendered h.trace = delivered h.trace ∧
      (taken h.trace = keyed t h.trace ∨ .printed error ∈ h.trace))

theorem carries_of_meets {t : Terminal} {error : List UInt8} {δ α : Type}
    {out : Run (Host τ) δ × Option α}
    (meets : Meets (Piped t) (fun _ h => Settled t error h.trace) out) :
    Carries t error out.1.1 out.2 := by
  obtain ⟨⟨h, later⟩, result⟩ := out
  cases result with
  | none =>
    obtain ⟨waiting, unsent, flow⟩ := meets
    exact ⟨flow.prefixes.1, flow.prefixes.2, nofun⟩
  | some result =>
    obtain ⟨unsent, flow, shown⟩ := meets
    refine ⟨flow.prefixes.1, flow.prefixes.2, fun _ => ⟨by simpa using flow.shown.symm, ?_⟩⟩
    by_cases all : unsent = []
    · rw [all] at flow
      exact .inl (by simpa using flow.sent.symm)
    · exact .inr (shown all)

/-- Both terminal clients carry every byte once and in order, both ways, whatever the service
answers and wherever the run is cut. -/
theorem sessions_carry (bounded : s.Bounded) (target : Option Target) (p : Password)
    (url : Option (List UInt8)) (host : UInt8 → UInt8) (h : Host τ) (fresh : h.trace = [])
    (passes : Nat) (choices : List (Choice δ)) :
    let ssh := (ssh target p host).run (answers s) passes (h, choices)
    let telnet := (telnet url host).run (answers s) passes (h, choices)
    Carries sshTerminal errorText ssh.1.1 ssh.2 ∧
      Carries telnetTerminal netErrorText telnet.1.1 telnet.2 := by
  have flow : ∀ t, Flow t [] [] h.trace := by
    intro t
    rw [fresh]
    exact ⟨rfl, rfl⟩
  exact ⟨carries_of_meets (run_meets passes (h, choices) (ssh_settled bounded target p host (flow _))),
    carries_of_meets (run_meets passes (h, choices) (telnet_settled bounded url host (flow _)))⟩

theorem wr24_small {command : UInt8} {value : Nat} (small : value < 256) (code : UInt8)
    (rx : List UInt8) : (Reply.lengthLo ⟨code, wr24 command value, rx⟩).toNat = value ∧
      Reply.lengthHi ⟨code, wr24 command value, rx⟩ = 0 := by
  constructor
  · exact (UInt8.toNat_ofNat_of_lt' small)
  · have nothing : value / 256 = 0 := by omega
    simp [Reply.lengthHi, wr24, nothing]

theorem secSshRead_bounded (b : Backend) (m : Meeting) :
    (secSshRead b m).rx.length = (secSshRead b m).lengthLo.toNat ∧
      (secSshRead b m).lengthHi = 0 := by
  rw [secSshRead]
  split
  · exact ⟨rfl, rfl⟩
  · cases m.streamed with
    | moved bytes count =>
      have short : (bytes.take netIoMax).length < 256 :=
        Nat.lt_of_le_of_lt (List.length_take_le netIoMax bytes) (by decide)
      obtain ⟨low, high⟩ := @wr24_small 97 _ short 0 (bytes.take netIoMax)
      exact ⟨low.symm, high⟩
    | wantIo => exact ⟨rfl, rfl⟩
    | eof => exact ⟨rfl, rfl⟩
    | failed => exact ⟨rfl, rfl⟩

theorem secSshWrite_bounded (b : Backend) (bytes : List UInt8) (m : Meeting) :
    (secSshWrite b bytes m).lengthLo.toNat ≤ bytes.length := by
  rw [secSshWrite]
  split
  · exact Nat.zero_le _
  · cases m.streamed with
    | moved moved count =>
      have low : (min count bytes.length).toUInt8.toNat ≤ min count bytes.length := Nat.mod_le _ _
      exact Nat.le_trans low (Nat.min_le_right _ _)
    | wantIo => exact Nat.zero_le _
    | eof => exact Nat.zero_le _
    | failed => exact Nat.zero_le _

/-- The service of the emulator answers within its windows. -/
theorem sshService_bounded (encoding : KeyEncoding) : (sshService encoding).Bounded where
  read := by
    intro b command m reads ok
    cases command with
    | sshRead => exact secSshRead_bounded b m
    | urlRead => exact absurd ok (show netErrUnsupported ≠ netOk by decide)
    | _ => cases reads
  write := by
    intro b command m bytes written ok
    cases command with
    | sshWrite window =>
      cases written
      exact secSshWrite_bounded b _ m
    | urlWrite window => exact absurd ok (show netErrUnsupported ≠ netOk by decide)
    | _ => cases written

/-- Keys and server as before, with a handshake that succeeds and a channel that brings "hi". -/
def typing (key : UInt8) : Choice Meeting where
  present := true
  key := 78
  polled := (key, 0)
  keyboardStatus := 0
  service := {
    outside := { newServer with
      readKey := fun path => ⟨true, path.getLast? ≠ some 98, some [1]⟩
      connect := .success }
    presented := []
    streamed := .moved (ascii "hi") 1 }

/-- The up arrow, then Ctrl-]. -/
def arrowing : Run (Host Backend) (Choice Meeting) × Option Password :=
  (ssh (some newServerTarget) sshWipePassword fun _ => 0).run (answers (sshService rfc4648)) 9
    (freshHost, List.replicate 31 (typing 0x8b) ++ List.replicate 40 (typing 29))

theorem sessions_carry_arrow : arrowing.2 = some sshWipePassword ∧
    rendered arrowing.1.1.trace = ascii "hihi" ∧ taken arrowing.1.1.trace = ascii "\x1b[A" ∧
      Carries sshTerminal errorText arrowing.1.1 arrowing.2 := by
  have carries := sessions_carry (sshService_bounded rfc4648) (some newServerTarget) sshWipePassword
    none (fun _ => 0) freshHost rfl 9 (List.replicate 31 (typing 0x8b) ++ List.replicate 40 (typing 29))
  exact ⟨by decide +kernel, by decide +kernel, by decide +kernel, carries.1⟩

end Pipe

section Exit

variable {τ δ : Type} {s : Service τ δ}

/-- The keyboard as it was, CAPS LOCK too unless a key was asked for meanwhile. -/
structure LeftAsFound (before : Mos) (h : Host τ) : Prop where
  keys : before.SameKeys h.mos
  capsLock : h.mos.capsLock = before.capsLock ∨ ∃ key, .typed key ∈ h.trace

theorem answers_left {before : Mos} {c : Call} (known : Before c) (h : Host τ) (d : Choice δ)
    (left : LeftAsFound before h) : LeftAsFound before (answers s h c d).1 := by
  obtain ⟨more, trace⟩ := answers_trace s h c d
  have typed : (∃ key, .typed key ∈ h.trace) → ∃ key, .typed key ∈ (answers s h c d).1.trace := by
    rintro ⟨key, member⟩
    exact ⟨key, trace ▸ List.mem_append_left more member⟩
  cases c with
  | osrdch => exact ⟨⟨left.keys.1, left.keys.2, left.keys.3⟩, .inr ⟨d.key, by simp [answers, Host.note]⟩⟩
  | osbyte a x y =>
    have frame : a = 19 := known
    subst frame
    exact ⟨⟨left.keys.1, left.keys.2, left.keys.3⟩, left.capsLock.imp id typed⟩
  | vtInit => exact absurd known id
  | vtProcess byte => exact absurd known id
  | _ => exact ⟨⟨left.keys.1, left.keys.2, left.keys.3⟩, left.capsLock.imp id typed⟩

theorem sshOpened_leaves (host : UInt8 → UInt8) (opening : Opening) {before : Mos} {h : Host τ}
    (left : LeftAsFound before h) :
    (sshOpened host opening).wp (answers s) (fun _ => True) (fun _ later =>
      LeftAsFound before later ∧ Closed .sshClose later.trace) h := by
  have closes : ∀ later, LeftAsFound before later → secureSshClose.wp (answers s) (fun _ => True)
      (fun _ later => LeftAsFound before later ∧ Closed .sshClose later.trace) later := by
    intro later left
    apply wp_mono _ (netDispatchWait_last .sshClose later)
    rintro _ after ⟨last, extended, mos⟩
    refine ⟨⟨mos ▸ left.keys, ?_⟩, .inr last⟩
    rw [mos]
    exact left.capsLock.imp id fun ⟨key, member⟩ => ⟨key, extended.mem member⟩
  have shows : ∀ {p : HostProgram Unit} {later : Host τ}, p.Asks Before → LeftAsFound before later →
      (p >>= fun _ => secureSshClose).wp (answers s) (fun _ => True)
        (fun _ later => LeftAsFound before later ∧ Closed .sshClose later.trace) later :=
    fun asks left => wp_past asks (fun h c d known => answers_left known h d) (fun _ _ => trivial)
      left fun _ => closes
  cases opening with
  | failed code => exact shows (showError_asks (fun _ => trivial) errorText code) left
  | authFailed => exact shows (p := print authFailedText) trivial left
  | declined => exact shows (p := print hostDeclinedText) trivial left
  | connected =>
    have typed : ∀ {after : Host τ}, (∃ key, .typed key ∈ h.trace) → h.trace <+: after.trace →
        ∃ key, .typed key ∈ after.trace :=
      fun ⟨key, member⟩ extended => ⟨key, extended.mem member⟩
    apply wp_mono _ (setupKeyboard_saves h)
    rintro saved later ⟨rfl, trace⟩
    refine wp_anything fun _ _ one => wp_anything fun _ _ two => wp_anything fun _ _ three => ?_
    refine wp_anything fun _ _ four => wp_anything fun _ _ five => ?_
    have extended := one.trans (two.trans (three.trans (four.trans five)))
    rw [trace] at extended
    apply wp_mono _ (leaving_restores h.mos .sshClose _)
    rintro _ after ⟨⟨keys, caps, closed⟩, more⟩
    refine ⟨⟨?_, ?_⟩, closed⟩
    · exact ⟨keys.1.trans left.keys.1, keys.2.trans left.keys.2, keys.3.trans left.keys.3⟩
    · rw [caps]
      exact left.capsLock.imp id fun nonempty => typed nonempty (extended.trans more)

theorem ssh_leaves (target : Option Target) (p : Password) (host : UInt8 → UInt8) {h : Host τ}
    (fresh : h.trace = []) : (ssh target p host).wp (answers s) (fun _ => True) (fun _ later =>
      LeftAsFound h.mos later ∧ Closed .sshClose later.trace) h := by
  apply ssh_wp (fun later => later.mos = h.mos ∧
    ∀ command ∈ commands later.trace, command.opens = false) fun _ => LeftAsFound h.mos
  · rintro later c d probing ⟨same, unopened⟩
    cases c with
    | dispatch command =>
      have caps : command = .caps := probing
      subst caps
      refine ⟨same, fun command member => ?_⟩
      simp only [answers, Host.note, commands, List.filterMap_append, List.mem_append] at member
      rcases member with old | new
      · exact unopened command old
      · simp only [Event.command, List.filterMap_cons, List.filterMap_nil, List.mem_singleton] at new
        rw [new]
        rfl
    | print text =>
      refine ⟨same, ?_⟩
      simpa [answers, Host.note, commands, Event.command] using unopened
    | osbyte a x y => exact absurd probing id
    | osrdch => exact absurd probing id
    | fingerprint => exact absurd probing id
    | vtInit => exact absurd probing id
    | vtProcess byte => exact absurd probing id
    | _ => exact ⟨same, unopened⟩
  · exact fun _ _ => trivial
  · rintro later ⟨same, unopened⟩
    rw [← same]
    exact ⟨⟨⟨rfl, rfl, rfl⟩, .inl rfl⟩, .inl unopened⟩
  · rintro features later ⟨same, _⟩
    have left : LeftAsFound h.mos later := by
      rw [← same]
      exact ⟨⟨rfl, rfl, rfl⟩, .inl rfl⟩
    exact wp_of_asks (sshOpening_before features p) (fun h c d known => answers_left known h d)
      (fun _ _ => trivial) left
  · exact fun opening _ _ => sshOpened_leaves host opening
  · rw [fresh]
    exact ⟨rfl, by simp [commands]⟩

/-- Whatever the service answers, a run of `*SSH` or `*TELNET` that ends leaves the keyboard as it
found it and nothing open. -/
theorem sessions_leave (target : Option Target) (p : Password) (url : Option (List UInt8))
    (host : UInt8 → UInt8) (h : Host τ) (fresh : h.trace = []) (passes : Nat)
    (choices : List (Choice δ)) :
    let ssh := (ssh target p host).run (answers s) passes (h, choices)
    let telnet := (telnet url host).run (answers s) passes (h, choices)
    (ssh.2.isSome → LeftAsFound h.mos ssh.1.1 ∧ Closed .sshClose ssh.1.1.trace) ∧
      (telnet.2.isSome → h.mos.SameKeys telnet.1.1.mos ∧
        telnet.1.1.mos.capsLock = h.mos.capsLock ∧ Closed .urlClose telnet.1.1.trace) := by
  intro ssh telnet
  constructor
  · intro ended
    obtain ⟨result, same⟩ := Option.isSome_iff_exists.mp ended
    exact run_post (ssh_leaves target p host fresh) same
  · intro ended
    obtain ⟨result, same⟩ := Option.isSome_iff_exists.mp ended
    exact run_post (telnet_restores url host fresh) same

theorem sessions_leave_arrow : arrowing.2.isSome ∧ freshHost.mos.SameKeys arrowing.1.1.mos ∧
    (commands arrowing.1.1.trace).getLast? = some .sshClose := by
  have left := sessions_leave (s := sshService rfc4648) (some newServerTarget) sshWipePassword none
    (fun _ => 0) freshHost rfl 9 (List.replicate 31 (typing 0x8b) ++ List.replicate 40 (typing 29))
  exact ⟨by decide +kernel, (left.1 (by decide +kernel)).1.keys, by decide +kernel⟩

end Exit

end Pi1MHz.SshClient
