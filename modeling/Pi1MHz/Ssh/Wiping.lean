import Pi1MHz.HostTools.Exit
import Pi1MHz.Ssh.Consent

/-! What is left of a password when `*SSH` has ended: nothing in the host, in JIM or in the
provider. -/
namespace Pi1MHz.SshClient
open Dialogue Program HostTools
open Wolfssh hiding Call call

section Clean

/-- All of it is 0. -/
def Blank (bytes : List UInt8) : Prop := ∀ byte ∈ bytes, byte = 0

/-- No connection, no keys and no password in the provider, and none in JIM. -/
structure Clean (b : Backend) : Prop where
  idle : Idle b.provider
  erased : Erased b.provider
  window : Blank b.window

theorem blank_replicate (n : Nat) : Blank (List.replicate n 0) :=
  fun _ member => List.eq_of_mem_replicate member

theorem Blank.append {first second : List UInt8} (one : Blank first) (two : Blank second) :
    Blank (first ++ second) := by
  intro byte member
  rcases List.mem_append.mp member with member | member
  · exact one byte member
  · exact two byte member

theorem Blank.drop {bytes : List UInt8} (blank : Blank bytes) (n : Nat) : Blank (bytes.drop n) :=
  fun byte member => blank byte (List.mem_of_mem_drop member)

theorem Blank.drop_of_le {bytes : List UInt8} {m n : Nat} (blank : Blank (bytes.drop m)) (le : m ≤ n) :
    Blank (bytes.drop n) := by
  have split : bytes.drop n = (bytes.drop m).drop (n - m) := by
    rw [List.drop_drop]
    congr 1
    omega
  rw [split]
  exact blank.drop (n - m)

theorem blank_wiped {bytes : List UInt8} {n : Nat} (blank : Blank (bytes.drop n)) (k : Nat) :
    Blank ((List.replicate k 0 ++ bytes.drop k).drop n) := by
  rw [List.drop_append, List.drop_drop, List.length_replicate]
  apply ((blank_replicate k).drop n).append
  exact blank.drop_of_le (by omega)

end Clean

section Window

variable {encoding : KeyEncoding} {mid : Host Backend → Prop}

/-- The password window of JIM is blank from `n` on. -/
abbrev BlankFrom (n : Nat) (h : Host Backend) : Prop := Blank (h.service.window.drop n)

/-- All that puts no bytes of a password in JIM. -/
def Discreet : Call → Prop
  | .store place _ => place ≠ .password
  | _ => True

theorem present_window (b : Backend) (keys : List (List UInt8 × Option (List UInt8))) :
    (present encoding b keys).1.window = b.window := by
  induction keys generalizing b with
  | nil => rfl
  | cons key rest ih =>
    rw [present]
    exact ih _

theorem doSecure_blank {b : Backend} {n : Nat} (blank : Blank (b.window.drop n)) (command : Command)
    (m : Meeting) : Blank ((doSecure encoding b command m).1.window.drop n) := by
  cases command with
  | sshOpen flags =>
    have same : (secSshOpen encoding b flags m).1.window = b.window := by
      rw [secSshOpen]
      generalize met : (if b.provider.stage = .ssh then present encoding b m.presented
        else (b, [])) = after
      have kept : after.1.window = b.window := by
        rw [← met]
        split
        · exact present_window b m.presented
        · rfl
      exact kept
    rw [doSecure_sshOpen, same]
    exact blank
  | sshPassword length =>
    rw [doSecure_sshPassword, secSshPassword]
    split
    · exact blank
    · exact blank_wiped blank length.toNat
  | _ => exact blank

theorem answers_blank {n : Nat} (h : Host Backend) (c : Call) (d : Choice Meeting)
    (discreet : Discreet c) (blank : BlankFrom n h) :
    BlankFrom n (answers (sshService encoding) h c d).1 := by
  cases c with
  | dispatch command => exact doSecure_blank blank command d.service
  | store place bytes =>
    cases place with
    | password => exact absurd rfl discreet
    | url => exact blank
    | user => exact blank
  | osbyte a x y =>
    simp only [answers]
    split <;> exact blank
  | _ => exact blank

theorem blank_of_asks {α : Type} {p : HostProgram α} {n : Nat} (asks : p.Asks Discreet)
    {h : Host Backend} (blank : BlankFrom n h) :
    p.wp (answers (sshService encoding)) (fun _ => True) (fun _ => BlankFrom n) h :=
  wp_of_asks asks (fun h c d => answers_blank h c d) (fun _ _ => trivial) blank

/-- The copy to JIM is wiped behind the command. -/
theorem secureSshPassword_blank (p : Password) {h : Host Backend} (blank : BlankFrom 0 h) :
    (secureSshPassword p).wp (answers (sshService encoding)) (fun _ => True)
      (fun _ => BlankFrom 0) h := by
  refine ⟨trivial, fun _ => ?_⟩
  have dispatch : (netDispatchWait (.sshPassword p.length)).Asks Discreet := by simp [Discreet]
  have copied : Blank ((p.buffer.take p.length.toNat ++
      h.service.window.drop (p.buffer.take p.length.toNat).length).drop p.length.toNat) := by
    rw [List.drop_append, List.drop_eq_nil_of_le (List.length_take_le _ _)]
    exact ((Blank.drop blank _).drop _)
  apply wp_mono _ (blank_of_asks dispatch copied)
  intro reply later blank
  refine ⟨trivial, fun _ => ?_⟩
  have wiped := (blank_replicate p.length.toNat).append blank
  simpa [BlankFrom, answers, sshService, storeString] using wiped

theorem sshPromptPassword_blank (p : Password) {h : Host Backend} (blank : BlankFrom 0 h) :
    (sshPromptPassword p).wp (answers (sshService encoding)) (fun _ => True)
      (fun out later => BlankFrom 0 later ∧ (out.1 = none → Blank out.2.buffer)) h := by
  refine ⟨trivial, fun _ => ?_⟩
  apply wp_loop fun _ => BlankFrom 0
  · exact blank
  · exact fun _ _ _ => trivial
  · rintro ⟨count, typed⟩ later blank
    rw [wp_bind, wp_osrdch]
    refine ⟨trivial, fun d => ?_⟩
    have wiped : Blank sshWipePassword.buffer := blank_replicate 64
    split
    · refine ⟨trivial, fun _ => ?_⟩
      split
      · exact ⟨blank, fun _ => wiped⟩
      · exact ⟨blank, nofun⟩
    split
    · exact ⟨trivial, fun _ => ⟨blank, fun _ => wiped⟩⟩
    split
    · split <;> exact blank
    split <;> exact blank

end Window

section Main

theorem session_discreet : ∀ c, InSession c → Discreet c := by
  intro c session
  cases c with
  | store place bytes => exact absurd session id
  | _ => trivial

variable {encoding : KeyEncoding}

theorem openAsking_discreet : openAsking.Asks Discreet := by
  simp [openAsking, secureSshOpen, sshConfirmHostKey, osnewl, Discreet]

/-- The opening ends with JIM blank and, where a password was asked for, with its buffer blank. -/
theorem sshOpening_blank (features : UInt8) {p : Password} (clean : Blank p.buffer)
    {h : Host Backend} (blank : BlankFrom 0 h) :
    (sshOpening features p).wp (answers (sshService encoding)) (fun _ => True)
      (fun out later => BlankFrom 0 later ∧ Blank out.2.buffer) h := by
  have wiped : Blank sshWipePassword.buffer := blank_replicate 64
  apply wp_mono _ (blank_of_asks openAsking_discreet blank)
  rintro result h blank
  cases result with
  | none => exact ⟨blank, clean⟩
  | some code =>
    dsimp only
    split
    · exact ⟨blank, clean⟩
    split
    · exact ⟨blank, clean⟩
    rw [sshTryPassword]
    split
    · exact ⟨blank, clean⟩
    apply wp_mono _ (sshPromptPassword_blank p blank)
    rintro ⟨length, p⟩ h ⟨blank, cancelled⟩
    cases length with
    | none => exact ⟨blank, cancelled rfl⟩
    | some length =>
      apply wp_mono _ (secureSshPassword_blank p blank)
      intro code h blank
      dsimp only
      split
      · exact ⟨blank, wiped⟩
      · rw [wp_bind, wp_print]
        refine ⟨trivial, fun _ => ?_⟩
        have printed : BlankFrom 0 (h.note (.printed passwordAuthText)) := blank
        apply wp_mono _ (blank_of_asks openAsking_discreet printed)
        exact fun _ h blank => ⟨blank, wiped⟩

/-- The close leaves the provider as after `pi1mhz_wolfssh_close`. -/
theorem secureSshClose_clean {h : Host Backend} (blank : BlankFrom 0 h) :
    secureSshClose.wp (answers (sshService encoding)) (fun _ => True)
      (fun _ later => Clean later.service) h := by
  apply wp_loop fun _ => BlankFrom 0
  · exact blank
  · exact fun _ _ _ => trivial
  · intro waits h blank
    refine ⟨trivial, fun d => ?_⟩
    exact ⟨idle_resetConnection h.service.provider false, erased_close h.service.provider, blank⟩

theorem sshOpened_clean (host : UInt8 → UInt8) (opening : Opening) {h : Host Backend}
    (blank : BlankFrom 0 h) :
    (sshOpened host opening).wp (answers (sshService encoding)) (fun _ => True)
      (fun _ later => Clean later.service) h := by
  have shows : ∀ {p : HostProgram Unit} {later : Host Backend}, p.Asks Discreet → BlankFrom 0 later →
      (p >>= fun _ => secureSshClose).wp (answers (sshService encoding)) (fun _ => True)
        (fun _ later => Clean later.service) later := by
    intro p later asks blank
    apply wp_mono _ (blank_of_asks asks blank)
    exact fun _ _ => secureSshClose_clean
  cases opening with
  | failed code => exact shows (showError_asks (fun _ => trivial) errorText code) blank
  | authFailed => exact shows (p := print authFailedText) trivial blank
  | declined => exact shows (p := print hostDeclinedText) trivial blank
  | connected =>
    have restore : ∀ saved, (restoreKeyboard saved).Asks fun c => ∃ a x y, c = .osbyte a x y :=
      restoreKeyboard_asks fun a x y => ⟨a, x, y, rfl⟩
    apply wp_mono _ (blank_of_asks (asks_mono session_discreet (sshConnected_session host)) blank)
    intro saved later blank
    apply wp_mono _ (secureSshClose_clean blank)
    intro _ later clean
    refine wp_of_asks (restore saved) ?_ (fun _ _ => trivial) clean
    rintro later c d ⟨a, x, y, rfl⟩ clean
    simp only [answers]
    split <;> exact clean

theorem ssh_clean (target : Option Target) {p : Password} (host : UInt8 → UInt8) {h : Host Backend}
    (clean : Clean h.service) (blank : Blank p.buffer) :
    (ssh target p host).wp (answers (sshService encoding)) (fun _ => True)
      (fun p later => Clean later.service ∧ Blank p.buffer) h := by
  apply ssh_wp (fun later => Clean later.service) fun p later => BlankFrom 0 later ∧ Blank p.buffer
  · intro later c d probing clean
    cases c with
    | dispatch command =>
      have caps : command = .caps := probing
      rw [caps]
      exact ⟨clean.idle, clean.erased, clean.window⟩
    | store place bytes =>
      cases place with
      | password => exact absurd rfl probing
      | url => exact ⟨clean.idle, clean.erased, clean.window⟩
      | user => exact ⟨clean.idle, clean.erased, clean.window⟩
    | osbyte a x y => exact absurd probing id
    | _ => exact clean
  · exact fun _ _ => trivial
  · exact fun _ clean => ⟨clean, blank⟩
  · exact fun features later clean => sshOpening_blank features blank clean.window
  · rintro opening p later ⟨window, blank⟩
    apply wp_mono _ (sshOpened_clean host opening window)
    exact fun _ _ clean => ⟨clean, blank⟩
  · exact clean

/-- When a run of `*SSH` over the provider has ended, whatever came of it, the password is nowhere:
not in the host's buffer, not in JIM and not in the provider, which has no connection and no keys. -/
theorem ssh_forgets (target : Option Target) (p : Password) (host : UInt8 → UInt8)
    (h : Host Backend) (clean : Clean h.service) (blank : Blank p.buffer) (passes : Nat)
    (choices : List (Choice Meeting)) :
    let out := (ssh target p host).run (answers (sshService encoding)) passes (h, choices)
    ∀ q ∈ out.2, Clean out.1.1.service ∧ Blank q.buffer := by
  intro out q ended
  exact run_post (ssh_clean target host clean blank) ended

/-- The server takes no password, and the key pressed is `key`. -/
def refusing (key : UInt8) : Choice Meeting :=
  { unknownServer key with service.presented := [] }

/-- The password "hi" is typed at the prompt. -/
def guessing : Run (Host Backend) (Choice Meeting) × Option Password :=
  (ssh (some newServerTarget) sshWipePassword fun _ => 0).run (answers (sshService rfc4648)) 9
    (freshHost, List.replicate 13 (refusing 104) ++ refusing 105 :: List.replicate 20 (refusing 13))

theorem ssh_forgets_hi : guessing.2 = some sshWipePassword ∧
    .sshPassword 2 ∈ guessing.1.1.trace.filterMap Event.command ∧
      Clean guessing.1.1.service := by
  have ended : guessing.2 = some sshWipePassword := by decide +kernel
  have fresh : Clean freshBackend :=
    ⟨⟨by decide +kernel, by decide +kernel, by decide +kernel, by decide +kernel,
      by decide +kernel, by decide +kernel⟩, ⟨by decide +kernel, by decide +kernel⟩, nofun⟩
  have forgotten := @ssh_forgets rfc4648 (some newServerTarget) sshWipePassword (fun _ => 0)
    freshHost fresh (blank_replicate 64) 9
    (List.replicate 13 (refusing 104) ++ refusing 105 :: List.replicate 20 (refusing 13))
  exact ⟨ended, by decide +kernel, (forgotten sshWipePassword ended).1⟩

end Main

end Pi1MHz.SshClient
