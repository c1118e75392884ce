import Pi1MHz.Foundation.Conduit
import Pi1MHz.Ssh.Provider

/-! The password and the keys over every sequence of calls: where they may be, and what erases
them. -/
namespace Pi1MHz.Wolfssh

/-- The password buffer is all zero, with size 0. -/
structure Erased (p : Provider) : Prop where
  buffer : p.password = List.replicate passwordCapacity 0
  size : p.passwordSize = 0

structure Keyless (p : Provider) : Prop where
  privateKey : p.privateKey = none
  publicKey : p.publicKey = none

/-- Nothing of a connection is left. -/
structure Idle (p : Provider) : Prop where
  stage : p.stage = .idle
  socket : p.socketFd = none
  ctx : p.ctx = none
  session : p.ssh = none
  keys : Keyless p

/-- The connection is past the authentication. -/
def Authenticated (p : Provider) : Prop := p.stage = .resize ∨ p.stage = .up

/-- What one call may do with the secrets. -/
structure Careful (p : Provider) (c : Call) : Prop where
  authenticated : Authenticated (call p c) → Erased (call p c) ∧ Keyless (call p c)
  opened : ∀ url username trust o, c = .open url username trust o →
    (openCall p url username trust o).status ≠ .pending →
    (openCall p url username trust o).status ≠ .hostkeyUnknown →
    Erased (call p c) ∧ ((openCall p url username trust o).status ≠ .ok → Idle (call p c))
  retry : ∀ url username trust o, c = .open url username trust o →
    (openCall p url username trust o).status = .hostkeyUnknown →
    Idle (call p c) ∧ (call p c).password = p.password ∧ (call p c).passwordSize = p.passwordSize
  stored : (call p c).password ≠ p.password → Erased (call p c) ∨
    p.stage = .idle ∧ ∃ bytes, c = .password bytes

/-- Between calls: the buffer is zero behind the password, nothing of a connection is left in
`PROVIDER_IDLE`, and no secrets are left behind the authentication. -/
structure Kept (p : Provider) : Prop where
  size : p.passwordSize ≤ passwordCapacity
  buffer : ∃ bytes, bytes.length = p.passwordSize ∧
    p.password = bytes ++ List.replicate (passwordCapacity - p.passwordSize) 0
  idle : p.stage = .idle → Idle p
  authenticated : Authenticated p → p.passwordSize = 0 ∧ Keyless p

section Outcomes

variable {p next : Provider} {status : Status} {o : Outside}

/-- What an open comes to. -/
inductive Outcome (p : Provider) : Provider → Status → Prop
  /-- It failed, and the provider was closed. -/
  | failed (before : Provider) {status : Status} (ended : status ≠ .pending) (wrong : status ≠ .ok)
      (known : status ≠ .hostkeyUnknown) : Outcome p (close before) status
  /-- It is under way, with the password as it was. -/
  | waiting (next : Provider) (active : next.stage ≠ .idle) (same : next.password = p.password)
      (size : next.passwordSize = p.passwordSize) (stays : Authenticated next → next = p) :
      Outcome p next .pending
  /-- The server accepted the user. -/
  | accepted (before : Provider) :
      Outcome p { clearPassword (freeKeys before) with stage := .resize } .pending
  | up (authenticated : Authenticated p) : Outcome p { p with stage := .up } .ok
  /-- The host key is new, and the user is asked. -/
  | unknown (before : Provider) (same : before.password = p.password)
      (size : before.passwordSize = p.passwordSize) :
      Outcome p (resetConnection before true) .hostkeyUnknown

theorem loadKeys_password : (loadKeys p o).1.password = p.password ∧
    (loadKeys p o).1.passwordSize = p.passwordSize := by
  rw [loadKeys]
  split
  · exact ⟨rfl, rfl⟩
  · dsimp only
    split
    · exact ⟨rfl, rfl⟩
    · split <;> exact ⟨rfl, rfl⟩

/-- A step of an open that can be followed by another one. -/
inductive Attempted (p : Provider) : Provider × Status → Prop
  | refused (next : Provider) {status : Status} (ended : status ≠ .pending) (wrong : status ≠ .ok)
      (known : status ≠ .hostkeyUnknown) : Attempted p (next, status)
  | under (next : Provider) (active : next.stage ≠ .idle) (before : ¬Authenticated next)
      (same : next.password = p.password) (size : next.passwordSize = p.passwordSize) :
      Attempted p (next, .pending)

theorem beginTcp_attempted (url username : List UInt8) (trust : Bool) :
    Attempted p (beginTcp p url username trust o) := by
  rw [beginTcp]
  cases parseUrl url with
  | none => exact .refused _ (by decide) (by decide) (by decide)
  | some target =>
    dsimp only
    split
    · exact .refused _ (by decide) (by decide) (by decide)
    cases hostIdOf url with
    | none => exact .refused _ (by decide) (by decide) (by decide)
    | some hostId =>
      dsimp only
      obtain ⟨password, size⟩ := @loadKeys_password { p with
        host := target.1
        username := username
        hostId := hostId
        trustUnknown := trust
        hostUnknown := false
        hostChanged := false
        fingerprint := [] } o
      generalize loadKeys _ o = keys at *
      generalize loaded : (if keys.2 = true then keys.1 else freeKeys keys.1) = ready
      have same : ready.password = p.password ∧ ready.passwordSize = p.passwordSize := by
        rw [← loaded]
        split <;> exact ⟨password, size⟩
      split
      · exact .refused _ (by decide) (by decide) (by decide)
      cases o.addresses with
      | none => exact .refused _ (by decide) (by decide) (by decide)
      | some addresses =>
        dsimp only
        cases connectFirst addresses with
        | none => exact .refused _ (by decide) (by decide) (by decide)
        | some fd => exact .under _ (by simp) (by simp [Authenticated]) same.1 same.2

theorem startSsh_attempted (stage : p.stage = .tcp) : Attempted p (startSsh p o) := by
  rw [startSsh]
  split
  · by_cases connecting : o.socketError = .inProgress
    · rw [if_pos connecting]
      exact .under p (by simp [stage]) (by simp [Authenticated, stage]) rfl rfl
    · rw [if_neg connecting]
      exact .refused _ (by decide) (by decide) (by decide)
  · dsimp only
    split
    · exact .refused _ (by decide) (by decide) (by decide)
    split
    · exact .refused _ (by decide) (by decide) (by decide)
    · exact .under _ (by simp) (by simp [Authenticated]) rfl rfl

theorem Attempted.outcome {out : Provider × Status} (attempted : Attempted p out) :
    Outcome p (closeUnlessPending out).provider (closeUnlessPending out).status := by
  cases attempted with
  | refused next ended wrong known =>
    rw [closeUnlessPending, if_neg ended]
    exact .failed _ ended wrong known
  | under next active before same size =>
    exact .waiting next active same size fun authenticated => absurd authenticated before

/-- The calls of `hostkey_callback` change neither the stage nor the password. -/
theorem hostkeyCalls_keep (calls : List HostkeyCall) (p : Provider) :
    (calls.foldl hostkeyCalled p).stage = p.stage ∧
    (calls.foldl hostkeyCalled p).password = p.password ∧
    (calls.foldl hostkeyCalled p).passwordSize = p.passwordSize := by
  induction calls generalizing p with
  | nil => exact ⟨rfl, rfl, rfl⟩
  | cons call calls ih => exact ih (hostkeyCalled p call)

theorem connectSsh_outcome (stage : p.stage = .ssh) :
    Outcome p (connectSsh p o).provider (connectSsh p o).status := by
  obtain ⟨same, password, size⟩ := hostkeyCalls_keep o.hostkeyCalls p
  rw [connectSsh]
  generalize o.hostkeyCalls.foldl hostkeyCalled p = called at *
  dsimp only
  split
  · exact .accepted called
  split
  · refine .waiting called ?_ password size ?_
    · simp [same, stage]
    · simp [Authenticated, same, stage]
  · cases unknown : called.hostUnknown with
    | true => exact .unknown called password size
    | false =>
      cases changed : called.hostChanged with
      | true => exact @Outcome.failed p called .errProtocol (by decide) (by decide) (by decide)
      | false => exact @Outcome.failed p called .authFailed (by decide) (by decide) (by decide)

theorem openCall_outcome (url username : List UInt8) (trust : Bool) :
    Outcome p (openCall p url username trust o).provider (openCall p url username trust o).status := by
  rw [openCall]
  cases stage : p.stage with
  | idle => exact (beginTcp_attempted url username trust).outcome
  | tcp => exact (startSsh_attempted stage).outcome
  | ssh => exact connectSsh_outcome stage
  | resize =>
    dsimp only
    split
    · exact .up (.inl stage)
    split
    · exact .waiting p (by simp [stage]) rfl rfl fun _ => rfl
    · exact @Outcome.failed p p .errProtocol (by decide) (by decide) (by decide)
  | up =>
    have same : p = { p with stage := .up } := by rw [← stage]
    dsimp only
    conv => arg 2; rw [same]
    exact .up (.inr stage)

end Outcomes

section Erasure

variable (p : Provider)

theorem erased_close : Erased (close p) := ⟨rfl, rfl⟩

theorem idle_resetConnection (keep : Bool) : Idle (resetConnection p keep) := by
  rw [resetConnection]
  generalize (if keep = true then p.passwordSize else 0) = savedSize
  dsimp only
  split <;> exact ⟨rfl, rfl, rfl, rfl, rfl, rfl⟩

theorem erased_of_size_zero {p : Provider} (kept : Kept p) (zero : p.passwordSize = 0) : Erased p := by
  obtain ⟨bytes, length, buffer⟩ := kept.buffer
  rw [zero] at length buffer
  rw [List.length_eq_zero_iff.mp length] at buffer
  exact ⟨buffer, zero⟩

/-- The password survives a reset that is told to keep it. -/
theorem resetConnection_keeps {p before : Provider} (kept : Kept p) (same : before.password = p.password)
    (size : before.passwordSize = p.passwordSize) :
    (resetConnection before true).password = p.password ∧
      (resetConnection before true).passwordSize = p.passwordSize := by
  rw [resetConnection]
  simp only [if_true, same, size]
  split
  · rename_i zero
    have erased := erased_of_size_zero kept zero
    exact ⟨erased.buffer.symm, zero.symm⟩
  · obtain ⟨bytes, length, buffer⟩ := kept.buffer
    have taken : p.password.take p.passwordSize = bytes := by
      rw [buffer, ← length, List.take_left]
    simp only [copyPassword, clearPassword, taken, List.drop_replicate, length]
    exact ⟨buffer.symm, trivial⟩

end Erasure

section Calls

variable {p : Provider}

theorem kept_of_erased (erased : Erased p) (idle : p.stage = .idle → Idle p)
    (keys : Authenticated p → Keyless p) : Kept p := by
  refine ⟨by rw [erased.size]; exact Nat.zero_le _, ⟨[], by rw [erased.size]; rfl, ?_⟩, idle,
    fun authenticated => ⟨erased.size, keys authenticated⟩⟩
  rw [erased.size]
  exact erased.buffer

theorem not_authenticated_of_idle (idle : p.stage = .idle) : ¬Authenticated p := by
  simp [Authenticated, idle]

theorem kept_close (p : Provider) : Kept (close p) :=
  kept_of_erased (erased_close p) (fun _ => idle_resetConnection p false)
    fun _ => (idle_resetConnection p false).keys

theorem kept_of_same_password {next : Provider} (kept : Kept p) (same : next.password = p.password)
    (size : next.passwordSize = p.passwordSize) (idle : next.stage = .idle → Idle next)
    (authenticated : Authenticated next → next.passwordSize = 0 ∧ Keyless next) : Kept next := by
  refine ⟨by rw [size]; exact kept.size, ?_, idle, authenticated⟩
  rw [same, size]
  exact kept.buffer

theorem Outcome.kept {next : Provider} {status : Status} (outcome : Outcome p next status)
    (kept : Kept p) : Kept next := by
  cases outcome with
  | failed before ended wrong known => exact kept_close before
  | waiting next active same size stays =>
    refine kept_of_same_password kept same size (fun idle => absurd idle active) ?_
    intro authenticated
    obtain rfl := stays authenticated
    exact kept.authenticated authenticated
  | accepted before =>
    exact kept_of_erased ⟨rfl, rfl⟩ (fun idle => by cases idle) fun _ => ⟨rfl, rfl⟩
  | up authenticated =>
    have secrets := kept.authenticated authenticated
    exact kept_of_same_password kept rfl rfl (fun idle => by cases idle)
      fun _ => ⟨secrets.1, secrets.2.privateKey, secrets.2.publicKey⟩
  | unknown before same size =>
    have password := resetConnection_keeps kept same size
    have idle := idle_resetConnection before true
    exact kept_of_same_password kept password.1 password.2 (fun _ => idle)
      fun authenticated => absurd authenticated (not_authenticated_of_idle idle.stage)

theorem kept_passwordCall (bytes : List UInt8) (kept : Kept p) : Kept (passwordCall p bytes).1 := by
  rw [passwordCall]
  split
  · exact kept
  · rename_i accepted
    simp only [not_or, ne_eq, not_not, Nat.not_lt] at accepted
    obtain ⟨stage, _, fits⟩ := accepted
    have idle := kept.idle stage
    refine ⟨fits, ⟨bytes, rfl, ?_⟩, fun _ => ⟨stage, idle.socket, idle.ctx, idle.session,
      idle.keys.privateKey, idle.keys.publicKey⟩, ?_⟩
    · simp only [copyPassword, clearPassword, List.drop_replicate]
    · exact fun authenticated => absurd authenticated (not_authenticated_of_idle stage)

theorem kept_call (c : Call) (kept : Kept p) : Kept (call p c) := by
  cases c with
  | password bytes => exact kept_passwordCall bytes kept
  | «open» url username trust o => exact (openCall_outcome url username trust).kept kept
  | close => exact kept_close p

theorem Outcome.stored {next : Provider} {status : Status} (outcome : Outcome p next status)
    (kept : Kept p) : next.password = p.password ∨ Erased next := by
  cases outcome with
  | failed before ended wrong known => exact .inr (erased_close before)
  | waiting next active same size stays => exact .inl same
  | accepted before => exact .inr ⟨rfl, rfl⟩
  | up authenticated => exact .inl rfl
  | unknown before same size => exact .inl (resetConnection_keeps kept same size).1

theorem Outcome.opened {next : Provider} {status : Status} (outcome : Outcome p next status)
    (kept : Kept p) (ended : status ≠ .pending) (known : status ≠ .hostkeyUnknown) :
    Erased next ∧ (status ≠ .ok → Idle next) := by
  cases outcome with
  | failed before _ wrong _ => exact ⟨erased_close before, fun _ => idle_resetConnection before false⟩
  | waiting next active same size stays => exact absurd rfl ended
  | accepted before => exact absurd rfl ended
  | up authenticated =>
    have erased := erased_of_size_zero kept (kept.authenticated authenticated).1
    exact ⟨⟨erased.buffer, erased.size⟩, fun wrong => absurd rfl wrong⟩
  | unknown before same size => exact absurd rfl known

theorem Outcome.retry {next : Provider} (outcome : Outcome p next .hostkeyUnknown) (kept : Kept p) :
    Idle next ∧ next.password = p.password ∧ next.passwordSize = p.passwordSize := by
  cases outcome with
  | failed before ended wrong known => exact absurd rfl known
  | unknown before same size =>
    exact ⟨idle_resetConnection before true, resetConnection_keeps kept same size⟩

theorem passwordCall_refused (bytes : List UInt8) (busy : p.stage ≠ .idle) :
    passwordCall p bytes = (p, false) := by
  rw [passwordCall, if_pos (.inl busy)]

theorem careful_call (c : Call) (kept : Kept p) : Careful p c := by
  have after := kept_call c kept
  refine ⟨?_, ?_, ?_, ?_⟩
  · intro authenticated
    have secrets := after.authenticated authenticated
    exact ⟨erased_of_size_zero after secrets.1, secrets.2⟩
  · rintro url username trust o rfl ended known
    exact (openCall_outcome url username trust).opened kept ended known
  · rintro url username trust o rfl unknown
    have outcome := @openCall_outcome p o url username trust
    rw [unknown] at outcome
    exact outcome.retry kept
  · intro changed
    cases c with
    | password bytes =>
      refine .inr ⟨?_, bytes, rfl⟩
      by_contra busy
      rw [call, passwordCall_refused bytes busy] at changed
      exact changed rfl
    | «open» url username trust o =>
      exact .inl (((openCall_outcome url username trust).stored kept).resolve_left changed)
    | close => exact .inl (erased_close p)

end Calls

theorem kept_create {directory : List UInt8} {initialised : Bool} {p : Provider}
    (created : create directory initialised = some p) : Kept p := by
  rw [create] at created
  split at created
  · cases created
  · cases created
    exact kept_of_erased ⟨rfl, rfl⟩ (fun _ => ⟨rfl, rfl, rfl, rfl, rfl, rfl⟩) fun _ => ⟨rfl, rfl⟩

/-- In every run of calls, each one treats the secrets with care. -/
theorem secrets_careful {directory : List UInt8} {initialised : Bool} {p : Provider}
    (created : create directory initialised = some p) (calls : List Call) :
    Conduit.Follows call Careful p calls :=
  Conduit.Follows.imp_of_invariant (fun _ c kept _ => kept_call c kept)
    (fun _ c kept _ => careful_call c kept) (kept_create created) (Conduit.follows_true call p calls)

/-- Key files that cannot be read, a connection in progress, and a server with a new key. -/
def newServer : Outside where
  readKey := fun _ => ⟨false, false, none⟩
  addresses := some [⟨none, false⟩, ⟨some 3, false⟩, ⟨some 4, true⟩]
  getsockoptFails := false
  socketError := .none
  ctxNew := some 1
  sshNew := some 2
  setUsername := true
  setChannelType := true
  setFd := true
  hostkeyCalls := [⟨.unknown, none⟩]
  connect := .other
  changeTerminalSize := .success
  getError := .other

/-- `TCP://a:22`. -/
def newServerUrl : List UInt8 := tcpScheme ++ [97, 58, 50, 50]

theorem unknown_server_careful : ∃ p, create [47] true = some p ∧
    Conduit.Follows call Careful p
      [.password [115, 51], .open newServerUrl [112] false newServer, .open newServerUrl [112] false newServer,
        .open newServerUrl [112] false newServer, .open newServerUrl [112] true newServer, .close] :=
  ⟨_, rfl, @secrets_careful [47] true _ rfl _⟩

end Pi1MHz.Wolfssh
