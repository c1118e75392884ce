import Pi1MHz.Ftp.Opening

/-! Which address an `OPEN` connects to. lwIP may answer a lookup long after the session that
asked for it was reset; `ftp_dns_found` stores whatever address comes, for the lookup it was asked
for or for a later one. -/
namespace Pi1MHz.FtpService

section Lookups

/-- A lookup that was started: the number of the `OPEN` that asked, and the name. -/
structure Lookup where
  opening : Nat
  host : List UInt8
deriving DecidableEq, Repr

/-- The service beside the lookups lwIP still has to answer. The `OPEN`s are counted as they
begin, and `source` is the lookup whose address was stored last. -/
structure Resolver where
  service : Service
  openings : Nat
  waiting : List Lookup
  source : Option Lookup

/-- An event of the service, or the answer to one of the lookups. -/
inductive Incident
  | event (event : Event) (other : ∀ address, event ≠ .dnsFound address)
  | answered (index : Nat) (address : Option UInt32)

/-- What `dns_gethostbyname` returns during an event. -/
def Event.dnsAnswer : Event → DnsAnswer
  | .poll env => env.dns
  | _ => .failed

namespace Resolver

def note (answer : DnsAnswer) (w : Resolver) : Entry → Resolver
  | .began command _ =>
    if command = ftpCmdOpen then { w with openings := w.openings + 1 } else w
  | .did (.resolve host) =>
    match answer with
    | .found _ => { w with source := some ⟨w.openings, host⟩ }
    | .inProgress => { w with waiting := w.waiting ++ [⟨w.openings, host⟩] }
    | .failed => w
  | _ => w

def noteAll (answer : DnsAnswer) (w : Resolver) (trace : List Entry) : Resolver :=
  trace.foldl (note answer) w

/-- A lookup is answered at most once. -/
def step (w : Resolver) : Incident → Resolver × List Entry
  | .event event _ =>
    let after := w.service.step event
    ({ w.noteAll event.dnsAnswer after.2 with service := after.1 }, after.2)
  | .answered index address =>
    match w.waiting[index]? with
    | none => (w, [])
    | some lookup =>
      let after := w.service.step (.dnsFound address)
      ({ w with
          service := after.1, waiting := w.waiting.eraseIdx index
          source := if address.isSome then some lookup else w.source }, after.2)

def start (discRamBase : Nat) (jim : Memory UInt8) : Resolver :=
  ⟨ftpServiceInit discRamBase jim, 0, [], none⟩

/-- lwIP answers with an address of the name it was given. -/
def Honest (resolves : List UInt8 → UInt32 → Prop) (w : Resolver) : Incident → Prop
  | .event event _ => ∀ host address, .did (.resolve host) ∈ (w.service.step event).2 →
      event.dnsAnswer = .found address → resolves host address
  | .answered index address => ∀ lookup found, w.waiting[index]? = some lookup →
      address = some found → resolves lookup.host found

end Resolver

/-- An `OPEN` that has begun and has not connected yet. -/
def Service.Opening (s : Service) : Prop :=
  s.requestPending = true ∧ s.requestStarted = true ∧ s.requestCommand = ftpCmdOpen ∧
    (s.ftp.state = .closed ∨ s.ftp.state = .dns)

/-- No address of an earlier lookup arrives while an `OPEN` waits for its own. -/
def Resolver.Prompt (w : Resolver) : Incident → Prop
  | .event _ _ => True
  | .answered index address => ∀ lookup, w.waiting[index]? = some lookup →
      address.isSome = true → w.service.Opening → lookup.opening = w.openings

/-- The states of runs in which every incident is honest and prompt. -/
inductive PromptRun (resolves : List UInt8 → UInt32 → Prop) (discRamBase : Nat)
    (jim : Memory UInt8) : Resolver → Prop
  | start : PromptRun resolves discRamBase jim (.start discRamBase jim)
  | step {w : Resolver} (incident : Incident) (before : PromptRun resolves discRamBase jim w)
      (honest : w.Honest resolves incident) (prompt : w.Prompt incident) :
      PromptRun resolves discRamBase jim (w.step incident).1

end Lookups

section Names

variable {resolves : List UInt8 → UInt32 → Prop} {w : Resolver} {ftp : Ftp} {port : Nat} {env : Env}

/-- The name a session is to be opened with. -/
def Ftp.target (ftp : Ftp) : Option (List UInt8) := (ftpParseUrl ftp.request).map Prod.fst

/-- While an `OPEN` waits, its lookups are for its name, and the session holds no address but one
found for that name by a lookup of this `OPEN`. -/
structure Named (resolves : List UInt8 → UInt32 → Prop) (w : Resolver) (ftp : Ftp) (port : Nat) :
    Prop where
  own : ∀ lookup ∈ w.waiting, lookup.opening = w.openings → ftp.target = some lookup.host
  resolved : ftp.dnsOk = true → ∃ host, ftp.target = some host ∧
    w.source = some ⟨w.openings, host⟩ ∧ resolves host ftp.address
  port : ftp.state = .dns → (ftpParseUrl ftp.request).map Prod.snd = some port

/-- The connection is to an address found for the name of the request, by a lookup of the `OPEN`
that connects. -/
def Connects (resolves : List UInt8 → UInt32 → Prop) (w : Resolver) (request : List UInt8)
    (pcb : Pcb) : Prop :=
  ∃ lookup, w.source = some lookup ∧ lookup.opening = w.openings ∧
    ftpParseUrl request = some (lookup.host, pcb.port) ∧ resolves lookup.host pcb.address

/-- What a poll of a waiting `OPEN` leaves. -/
structure Polled (resolves : List UInt8 → UInt32 → Prop) (w : Resolver) (o : Outcome)
    (port : Nat) : Prop where
  named : o.ftp.state = .closed ∨ o.ftp.state = .dns → Named resolves w o.ftp port
  connects : ∀ pcb, .connectControl pcb ∈ o.actions → Connects resolves w o.ftp.request pcb

theorem Named.congr {after : Ftp} (named : Named resolves w ftp port)
    (request : after.request = ftp.request) (dnsOk : after.dnsOk = ftp.dnsOk)
    (address : after.address = ftp.address) (state : after.state = .dns → ftp.state = .dns) :
    Named resolves w after port where
  own := by
    rw [Ftp.target, request]
    exact named.own
  resolved := by
    rw [Ftp.target, request, dnsOk, address]
    exact named.resolved
  port := by
    rw [request]
    exact fun resolving => named.port (state resolving)

/-- The poll that finds the session resolving. -/
theorem polled_resolving (named : Named resolves w ftp port) (resolving : ftp.state = .dns) :
    Polled resolves w (openResolving env port ftp) port := by
  obtain ⟨result, after, quiet, rest⟩ | ⟨known, deadline, connected⟩ :=
    openResolving_cases env port ftp
  · rw [quiet]
    refine ⟨fun waits => ?_, fun pcb member => by cases member⟩
    rcases rest with rfl | failed
    · exact named
    · simp [failed] at waits
  · rw [connected]
    refine ⟨fun waits => by simp at waits, ?_⟩
    intro pcb member
    rw [List.mem_singleton] at member
    cases member
    obtain ⟨host, target, source, found⟩ := named.resolved known
    refine ⟨_, source, rfl, ?_, found⟩
    -- The name and the port are the two halves of one parse.
    have second := named.port resolving
    obtain ⟨⟨first, number⟩, parsed, rfl⟩ := Option.map_eq_some_iff.mp target
    rw [parsed] at second ⊢
    cases second
    rfl

theorem noteAll_openResolving (answer : DnsAnswer) :
    w.noteAll answer ((openResolving env port ftp).actions.map .did) = w := by
  obtain ⟨result, after, quiet, -⟩ | ⟨-, deadline, connected⟩ := openResolving_cases env port ftp
  · rw [quiet]
    rfl
  · rw [connected]
    rfl

/-- The lookup a poll starts is one of this `OPEN`, for its name. -/
theorem Named.found (named : Named resolves w ftp port) {host : List UInt8} {number : Nat}
    {address : UInt32} (parsed : ftpParseUrl ftp.request = some (host, number))
    (honest : resolves host address) {after : Ftp} (request : after.request = ftp.request)
    (stored : after.address = address) :
    Named resolves { w with source := some ⟨w.openings, host⟩ } after number := by
  have target : after.target = some host := by rw [Ftp.target, request, parsed]; rfl
  refine ⟨?_, ?_, ?_⟩
  · intro lookup member same
    have own := named.own lookup member same
    rw [Ftp.target, request]
    exact own
  · intro known
    rw [stored]
    exact ⟨host, target, rfl, honest⟩
  · intro resolving
    rw [request, parsed]
    rfl

theorem Named.asked (named : Named resolves w ftp port) {host : List UInt8} {number : Nat}
    (parsed : ftpParseUrl ftp.request = some (host, number)) {after : Ftp}
    (request : after.request = ftp.request) (dnsOk : after.dnsOk = ftp.dnsOk)
    (address : after.address = ftp.address) :
    Named resolves { w with waiting := w.waiting ++ [⟨w.openings, host⟩] } after number := by
  have target : ftp.target = some host := by rw [Ftp.target, parsed]; rfl
  refine ⟨?_, ?_, ?_⟩
  · intro lookup member same
    rw [Ftp.target, request]
    rcases List.mem_append.mp member with old | new
    · exact named.own lookup old same
    · cases List.mem_singleton.mp new
      exact target
  · rw [Ftp.target, request, dnsOk, address]
    exact named.resolved
  · intro resolving
    rw [request, parsed]
    rfl

/-- The actions of a poll that asked, with what follows them. -/
theorem Polled.asked {o : Outcome} (host : List UInt8)
    (polled : Polled resolves (w.note env.dns (.did (.resolve host))) o port)
    (quiet : ∀ v : Resolver, v.noteAll env.dns (o.actions.map .did) = v) :
    Polled resolves (w.noteAll env.dns ((Action.resolve host :: o.actions).map .did))
      { o with actions := .resolve host :: o.actions } port := by
  have noted : w.noteAll env.dns ((Action.resolve host :: o.actions).map .did) =
      w.note env.dns (.did (.resolve host)) := quiet _
  rw [noted]
  refine ⟨polled.named, ?_⟩
  intro pcb member
  exact polled.connects pcb ((List.mem_cons.mp member).resolve_left (by simp))

theorem polled_closed (named : Named resolves w ftp port) (closed : ftp.state = .closed)
    (honest : ∀ host address, .resolve host ∈ (ftpOpenPoll env port ftp).1.actions →
      env.dns = .found address → resolves host address) :
    Polled resolves (w.noteAll env.dns ((ftpOpenPoll env port ftp).1.actions.map .did))
      (ftpOpenPoll env port ftp).1 (ftpOpenPoll env port ftp).2 := by
  rcases ftpOpenPoll_closed env port ftp closed with
    ⟨result, after, number, polled, request, dnsOk, address, state⟩ |
    ⟨host, number, parsed, ⟨after, polled, state⟩ | ⟨after, polled, request, state, answered⟩⟩
  · rw [polled]
    refine ⟨fun _ => ?_, fun pcb member => by cases member⟩
    exact ⟨by rw [Ftp.target, request]; exact named.own,
      by rw [Ftp.target, request, dnsOk, address]; exact named.resolved,
      fun resolving => by simp [state] at resolving⟩
  · rw [polled]
    refine ⟨fun waits => by simp [state] at waits, ?_⟩
    intro pcb member
    simp at member
  · rw [polled] at honest ⊢
    refine Polled.asked host ?_ fun v => noteAll_openResolving _
    refine polled_resolving ?_ state
    rcases answered with ⟨address, answer, stored⟩ | ⟨answer, dnsOk, address⟩
    · have asked := honest host address (by simp) answer
      rw [answer]
      exact named.found parsed asked request stored
    · rw [answer]
      exact named.asked parsed request dnsOk address

/-- A poll of an `OPEN` in any state. -/
theorem polled_open (env : Env)
    (named : ftp.state = .closed ∨ ftp.state = .dns → Named resolves w ftp port)
    (honest : ∀ host address, .resolve host ∈ (ftpOpenPoll env port ftp).1.actions →
      env.dns = .found address → resolves host address) :
    Polled resolves (w.noteAll env.dns ((ftpOpenPoll env port ftp).1.actions.map .did))
      (ftpOpenPoll env port ftp).1 (ftpOpenPoll env port ftp).2 := by
  by_cases closed : ftp.state = .closed
  · exact polled_closed (named (.inl closed)) closed honest
  by_cases resolving : ftp.state = .dns
  · have polled : ftpOpenPoll env port ftp = (openResolving env port ftp, port) := by
      rw [ftpOpenPoll, resolving]
    rw [polled, noteAll_openResolving]
    exact polled_resolving (named (.inr resolving)) resolving
  · obtain ⟨quiet, state⟩ := ftpOpenPoll_later env port ftp closed resolving
    exact ⟨fun waits => absurd waits state, fun pcb member => absurd member (quiet pcb)⟩

end Names

section Runs

variable {resolves : List UInt8 → UInt32 → Prop} {w : Resolver} {s : Service}

/-- The invariant: every lookup is of an `OPEN` that has begun. -/
structure Bound (resolves : List UInt8 → UInt32 → Prop) (w : Resolver) : Prop where
  past : ∀ lookup ∈ w.waiting, lookup.opening ≤ w.openings
  named : w.service.Opening → Named resolves w w.service.ftp w.service.controlPort

theorem note_past (answer : DnsAnswer) (entry : Entry)
    (past : ∀ lookup ∈ w.waiting, lookup.opening ≤ w.openings) :
    ∀ lookup ∈ (w.note answer entry).waiting, lookup.opening ≤ (w.note answer entry).openings := by
  intro lookup member
  unfold Resolver.note at member ⊢
  split at member
  · split at member
    next opens =>
      rw [if_pos opens]
      exact Nat.le_succ_of_le (past lookup member)
    next other =>
      rw [if_neg other]
      exact past lookup member
  · cases answer with
    | found address => exact past lookup member
    | failed => exact past lookup member
    | inProgress =>
      rcases List.mem_append.mp member with old | new
      · exact past lookup old
      · cases List.mem_singleton.mp new
        exact Nat.le_refl _
  · exact past lookup member

theorem noteAll_past (answer : DnsAnswer) (trace : List Entry)
    (past : ∀ lookup ∈ w.waiting, lookup.opening ≤ w.openings) :
    ∀ lookup ∈ (w.noteAll answer trace).waiting,
      lookup.opening ≤ (w.noteAll answer trace).openings := by
  induction trace generalizing w with
  | nil => exact past
  | cons entry trace ih => exact ih (note_past answer entry past)

theorem noteAll_append (answer : DnsAnswer) (first second : List Entry) :
    w.noteAll answer (first ++ second) = (w.noteAll answer first).noteAll answer second :=
  List.foldl_append

/-- The session as a poll of an `OPEN` dispatches it. -/
theorem named_taken (env : Env) (bound : Bound resolves w)
    (isOpen : w.service.requestCommand = ftpCmdOpen) (pending : w.service.requestPending = true)
    (begun : w.service.requestStarted = false → (ftpBegin env w.service).1 = true)
    (waits : (w.service.taken env).ftp.state = .closed ∨ (w.service.taken env).ftp.state = .dns) :
    Named resolves (w.noteAll env.dns (w.service.mark env)) (w.service.taken env).ftp
      (w.service.taken env).controlPort := by
  cases started : w.service.requestStarted with
  | true =>
    have same : w.service.taken env = w.service := by simp [Service.taken, started]
    have unmarked : w.service.mark env = [] := by simp [Service.mark, started]
    rw [same] at waits ⊢
    rw [unmarked]
    exact bound.named ⟨pending, started, isOpen, waits⟩
  | false =>
    obtain ⟨closed, unknown⟩ := ftpBegin_open env isOpen (begun started)
    have ftp : (w.service.taken env).ftp = (ftpBegin env w.service).2 := by
      simp [Service.taken, started]
    have noted : w.noteAll env.dns (w.service.mark env) =
        { w with openings := w.openings + 1 } := by
      simp [Service.mark, started, Resolver.noteAll, Resolver.note, isOpen]
    rw [ftp, noted]
    refine ⟨?_, ?_, ?_⟩
    · -- No lookup is older than the `OPEN` that started it.
      intro lookup member same
      have old := bound.past lookup member
      simp only at same
      omega
    · intro known
      simp [unknown] at known
    · intro resolving
      simp [closed] at resolving

/-- A service in which no `OPEN` waits keeps the invariant. -/
theorem Bound.idle {v : Resolver}
    (past : ∀ lookup ∈ v.waiting, lookup.opening ≤ v.openings) (idle : ¬v.service.Opening) :
    Bound resolves v := ⟨past, fun waits => absurd waits idle⟩

/-- One poll keeps the invariant and connects only where it may. -/
theorem Bound.poll (bound : Bound resolves w) (env : Env)
    (honest : ∀ host address, .did (.resolve host) ∈ (ftpServicePoll env w.service).2 →
      env.dns = .found address → resolves host address) :
    let polled := ftpServicePoll env w.service
    let v := { w.noteAll env.dns polled.2 with service := polled.1 }
    Bound resolves v ∧ ∀ pcb, .did (.connectControl pcb) ∈ polled.2 →
      Connects resolves v v.service.ftp.request pcb := by
  intro polled v
  have past : ∀ lookup ∈ v.waiting, lookup.opening ≤ v.openings :=
    noteAll_past env.dns polled.2 bound.past
  rcases ftpServicePoll_cases env w.service with
    ⟨-, aborted⟩ | ⟨free, nothing⟩ | ⟨-, -, refused⟩ | ⟨running, pending, begun⟩
  · have settled : v.service.requestPending = false := by simp [v, polled, aborted, Service.answer]
    refine ⟨.idle past fun waits => by simp [waits.1] at settled, fun pcb member => ?_⟩
    simp [polled, aborted] at member
  · have settled : v.service.requestPending = false := by simp [v, polled, nothing, free]
    refine ⟨.idle past fun waits => by simp [waits.1] at settled, fun pcb member => ?_⟩
    simp [polled, nothing] at member
  · have settled : v.service.requestPending = false := by simp [v, polled, refused, Service.answer]
    refine ⟨.idle past fun waits => by simp [waits.1] at settled, fun pcb member => ?_⟩
    simp [polled, refused] at member
  · obtain ⟨rest, ending, trace, ftp, port, command⟩ :=
      ftpServicePoll_dispatched env running pending begun
    have unnoted : ∀ u : Resolver, u.noteAll env.dns rest = u := by
      intro u
      rcases ending with rfl | ⟨_, _, rfl⟩
      · rfl
      · rfl
    have silent : ∀ action, Entry.did action ∉ rest := by
      intro action member
      rcases ending with rfl | ⟨_, _, rfl⟩
      · cases member
      · simp at member
    obtain ⟨taken, fields⟩ := taken_fields env w.service
    have takenCommand : (w.service.taken env).requestCommand = w.service.requestCommand := by
      rw [fields]
    by_cases isOpen : w.service.requestCommand = ftpCmdOpen
    · rw [← takenCommand] at isOpen
      obtain ⟨openFtp, openPort, openTrace⟩ := ftpDispatch_open env isOpen
      rw [takenCommand] at isOpen
      have asked : ∀ host address,
          .resolve host ∈ (ftpOpenPoll env (w.service.taken env).controlPort
            (w.service.taken env).ftp).1.actions →
          env.dns = .found address → resolves host address := by
        intro host address member
        apply honest host address
        rw [trace, openTrace]
        exact List.mem_append_left _ (List.mem_append_right _ (List.mem_map_of_mem member))
      obtain ⟨named, connects⟩ := polled_open env (named_taken env bound isOpen pending begun) asked
      rw [← openFtp, ← openPort, ← openTrace] at named
      rw [← openFtp, ← openTrace] at connects
      have noted : w.noteAll env.dns polled.2 =
          (w.noteAll env.dns (w.service.mark env)).noteAll env.dns
            (ftpDispatch env (w.service.taken env)).trace := by
        rw [show polled.2 = _ from trace, noteAll_append, noteAll_append, unnoted]
      rw [← noted, ← ftp] at named connects
      rw [← port] at named
      refine ⟨⟨past, fun waits => ?_⟩, fun pcb member => ?_⟩
      · obtain ⟨own, resolved, number⟩ := named waits.2.2.2
        exact ⟨own, resolved, number⟩
      · rw [show polled.2 = _ from trace, openTrace] at member
        simp only [List.mem_append] at member
        rcases member with (marked | did) | ended
        · exact absurd marked (connectControl_mark env pcb)
        · obtain ⟨action, done, same⟩ := List.mem_map.mp did
          cases same
          exact connects pcb done
        · exact absurd ended (silent _)
    · have idle : ¬v.service.Opening := by
        intro waits
        have same : v.service.requestCommand = w.service.requestCommand := command
        exact isOpen (same.symm.trans waits.2.2.1)
      refine ⟨.idle past idle, fun pcb member => ?_⟩
      rw [show polled.2 = _ from trace] at member
      simp only [List.mem_append] at member
      rcases member with (marked | did) | ended
      · exact absurd marked (connectControl_mark env pcb)
      · exact absurd did (ftpDispatch_stays env _ (by rw [takenCommand]; exact isOpen) pcb)
      · exact absurd ended (silent _)

/-- What the waiting `OPEN` relies on, unchanged. -/
structure Untouched (s after : Service) : Prop where
  opening : s.Opening
  request : after.ftp.request = s.ftp.request
  dnsOk : after.ftp.dnsOk = s.ftp.dnsOk
  address : after.ftp.address = s.ftp.address
  state : after.ftp.state = s.ftp.state
  port : after.controlPort = s.controlPort

theorem Untouched.of_fields {after : Service} (waits : after.Opening)
    (pending : after.requestPending = s.requestPending)
    (started : after.requestStarted = s.requestStarted)
    (command : after.requestCommand = s.requestCommand)
    (request : after.ftp.request = s.ftp.request) (dnsOk : after.ftp.dnsOk = s.ftp.dnsOk)
    (address : after.ftp.address = s.ftp.address) (state : after.ftp.state = s.ftp.state)
    (port : after.controlPort = s.controlPort) : Untouched s after := by
  obtain ⟨isPending, isStarted, isOpen, waiting⟩ := waits
  rw [pending] at isPending
  rw [started] at isStarted
  rw [command] at isOpen
  rw [state] at waiting
  exact ⟨⟨isPending, isStarted, isOpen, waiting⟩, request, dnsOk, address, state, port⟩

theorem untouched_command (pointer : UInt32) (address : Nat)
    (waits : (ftpServiceCommand pointer address s).Opening) :
    Untouched s (ftpServiceCommand pointer address s) := by
  unfold ftpServiceCommand at waits ⊢
  dsimp only at waits ⊢
  split at waits
  next cancel =>
    rw [if_pos cancel]
    split at waits
    next idle =>
      have pending : s.requestPending = true := waits.1
      simp [pending] at idle
    next busy =>
      rw [if_neg busy]
      exact .of_fields waits rfl rfl rfl rfl rfl rfl rfl rfl
  next other =>
    rw [if_neg other]
    split at waits
    next busy =>
      rw [if_pos busy]
      exact .of_fields waits rfl rfl rfl rfl rfl rfl rfl rfl
    next =>
      -- A request that was just accepted has not begun.
      have started : false = true := waits.2.1
      cases started

/-- A callback of a connection either ends the wait or leaves what it relies on. -/
theorem untouched_ftp {ftp : Ftp} (waits : { s with ftp }.Opening)
    (ends : ¬(ftp.state = .closed ∨ ftp.state = .dns) ∨
      ftp.request = s.ftp.request ∧ ftp.dnsOk = s.ftp.dnsOk ∧ ftp.address = s.ftp.address ∧
        ftp.state = s.ftp.state) : Untouched s { s with ftp } := by
  rcases ends with settled | ⟨request, dnsOk, address, state⟩
  · exact absurd waits.2.2.2 settled
  · exact .of_fields waits rfl rfl rfl request dnsOk address state rfl

theorem untouched_onControl {callback : Ftp → Ftp} (waits : (s.onControl callback).Opening)
    (ends : ¬((callback s.ftp).state = .closed ∨ (callback s.ftp).state = .dns) ∨
      (callback s.ftp).request = s.ftp.request ∧ (callback s.ftp).dnsOk = s.ftp.dnsOk ∧
        (callback s.ftp).address = s.ftp.address ∧ (callback s.ftp).state = s.ftp.state) :
    Untouched s (s.onControl callback) := by
  unfold Service.onControl at waits ⊢
  split at waits
  next attached =>
    rw [if_pos attached]
    exact untouched_ftp waits ends
  next detached =>
    rw [if_neg detached]
    exact .of_fields waits rfl rfl rfl rfl rfl rfl rfl rfl

theorem untouched_onData {callback : Ftp → Ftp} (waits : (s.onData callback).Opening)
    (same : (callback s.ftp).request = s.ftp.request ∧ (callback s.ftp).dnsOk = s.ftp.dnsOk ∧
        (callback s.ftp).address = s.ftp.address ∧ (callback s.ftp).state = s.ftp.state) :
    Untouched s (s.onData callback) := by
  unfold Service.onData at waits ⊢
  split at waits
  next attached =>
    rw [if_pos attached]
    exact untouched_ftp waits (.inr same)
  next detached =>
    rw [if_neg detached]
    exact .of_fields waits rfl rfl rfl rfl rfl rfl rfl rfl

/-- Every event but a poll and an answer leaves a waiting `OPEN` as it was. -/
theorem untouched_step (event : Event) (notPoll : ∀ env, event ≠ .poll env)
    (notAnswer : ∀ address, event ≠ .dnsFound address) (waits : (s.step event).1.Opening) :
    Untouched s (s.step event).1 := by
  cases event with
  | poll env => exact absurd rfl (notPoll env)
  | dnsFound address => exact absurd rfl (notAnswer address)
  | command pointer address => exact untouched_command pointer address waits
  | host jim => exact .of_fields waits rfl rfl rfl rfl rfl rfl rfl rfl
  | init =>
    have pending : false = true := waits.1
    cases pending
  | controlError => exact untouched_onControl waits (.inl (by simp [ftpControlError]))
  | controlConnected ok =>
    refine untouched_onControl waits (.inl ?_)
    cases ok with
    | true => simp [ftpControlConnected]
    | false => simp [ftpControlConnected]
  | controlReceive received =>
    apply untouched_onControl waits
    cases received with
    | fault => exact .inl (by simp [ftpControlReceive])
    | eof => exact .inr ⟨rfl, rfl, rfl, rfl⟩
    | payload bytes =>
      simp only [ftpControlReceive]
      split
      · exact .inl (by simp)
      · exact .inr ⟨rfl, rfl, rfl, rfl⟩
  | dataError => exact untouched_onData waits ⟨rfl, rfl, rfl, rfl⟩
  | dataConnected ok =>
    apply untouched_onData waits
    cases ok with
    | true => exact ⟨rfl, rfl, rfl, rfl⟩
    | false => exact ⟨rfl, rfl, rfl, rfl⟩
  | dataReceive received =>
    apply untouched_onData waits
    cases received with
    | fault => exact ⟨rfl, rfl, rfl, rfl⟩
    | eof => exact ⟨rfl, rfl, rfl, rfl⟩
    | payload bytes =>
      simp only [ftpDataReceive]
      split
      · exact ⟨rfl, rfl, rfl, rfl⟩
      · exact ⟨rfl, rfl, rfl, rfl⟩

/-- Nothing is looked up or connected outside polls. -/
theorem step_quiet (event : Event) (notPoll : ∀ env, event ≠ .poll env) (answer : DnsAnswer) :
    w.noteAll answer (s.step event).2 = w ∧
      ∀ pcb, .did (.connectControl pcb) ∉ (s.step event).2 := by
  have nothing : ∀ trace : List Entry, trace = [] → w.noteAll answer trace = w ∧
      ∀ pcb, .did (.connectControl pcb) ∉ trace := by
    rintro trace rfl
    exact ⟨rfl, fun pcb => List.not_mem_nil⟩
  cases event with
  | poll env => exact absurd rfl (notPoll env)
  | dataConnected ok =>
    simp only [Service.step]
    split
    · cases s.ftp.data with
      | none => exact nothing _ rfl
      | some pcb => exact ⟨rfl, fun _ => by simp⟩
    · exact nothing _ rfl
  | _ => exact nothing _ rfl

theorem Bound.event (bound : Bound resolves w) (event : Event) (notPoll : ∀ env, event ≠ .poll env)
    (notAnswer : ∀ address, event ≠ .dnsFound address) :
    Bound resolves { w with service := (w.service.step event).1 } := by
  refine ⟨bound.past, fun waits => ?_⟩
  have same := untouched_step event notPoll notAnswer waits
  have named := bound.named same.opening
  have after := named.congr same.request same.dnsOk same.address fun resolving => by
    rw [← same.state]
    exact resolving
  rw [← same.port] at after
  exact ⟨after.own, after.resolved, after.port⟩

/-- The answer to a lookup, prompt if it brings an address. -/
theorem Bound.answered (bound : Bound resolves w) {index : Nat} {address : Option UInt32}
    (honest : w.Honest resolves (.answered index address))
    (prompt : w.Prompt (.answered index address)) :
    Bound resolves (w.step (.answered index address)).1 ∧
      (w.step (.answered index address)).2 = [] := by
  unfold Resolver.step
  dsimp only
  cases found : w.waiting[index]? with
  | none => exact ⟨bound, rfl⟩
  | some lookup =>
    have member : lookup ∈ w.waiting := List.mem_of_getElem? found
    refine ⟨⟨fun other kept => bound.past other (List.mem_of_mem_eraseIdx kept), ?_⟩, rfl⟩
    cases address with
    | none =>
      intro (waits : w.service.Opening)
      have named := bound.named waits
      refine ⟨?_, named.resolved, named.port⟩
      exact fun other kept => named.own other (List.mem_of_mem_eraseIdx kept)
    | some address =>
      intro (waits : w.service.Opening)
      have named := bound.named waits
      have current := prompt lookup found rfl waits
      have target := named.own lookup member current
      refine ⟨?_, ?_, named.port⟩
      · exact fun other kept => named.own other (List.mem_of_mem_eraseIdx kept)
      · intro known
        refine ⟨lookup.host, target, ?_, honest lookup address found rfl⟩
        rw [← current]
        rfl

/-- One honest and prompt incident. -/
theorem Bound.step (bound : Bound resolves w) {incident : Incident}
    (honest : w.Honest resolves incident) (prompt : w.Prompt incident) :
    Bound resolves (w.step incident).1 ∧
      ∀ pcb, .did (.connectControl pcb) ∈ (w.step incident).2 →
        Connects resolves (w.step incident).1 (w.step incident).1.service.ftp.request pcb := by
  cases incident with
  | answered index address =>
    obtain ⟨kept, nothing⟩ := bound.answered honest prompt
    refine ⟨kept, fun pcb member => ?_⟩
    rw [nothing] at member
    cases member
  | event event notAnswer =>
    by_cases isPoll : ∃ env, event = .poll env
    · obtain ⟨env, rfl⟩ := isPoll
      exact bound.poll env honest
    · have notPoll : ∀ env, event ≠ .poll env := fun env same => isPoll ⟨env, same⟩
      obtain ⟨unnoted, quiet⟩ := step_quiet (w := w) (s := w.service) event notPoll event.dnsAnswer
      refine ⟨?_, fun pcb member => absurd member (quiet pcb)⟩
      simp only [Resolver.step, unnoted]
      exact bound.event event notPoll notAnswer

theorem PromptRun.bound {discRamBase : Nat} {jim : Memory UInt8}
    (run : PromptRun resolves discRamBase jim w) : Bound resolves w := by
  induction run with
  | start =>
    refine ⟨?_, fun waits => ?_⟩
    · intro lookup member
      cases member
    · have pending : false = true := waits.1
      cases pending
  | step incident before honest prompt ih => exact (ih.step honest prompt).1

/-- In every run of honest and prompt answers, a control connection is made to an address that the
lookup of the `OPEN` in progress found for its host name. -/
theorem control_connects_to_own_host (resolves : List UInt8 → UInt32 → Prop) (discRamBase : Nat)
    (jim : Memory UInt8) (w : Resolver) (run : PromptRun resolves discRamBase jim w)
    (incident : Incident) (honest : w.Honest resolves incident) (prompt : w.Prompt incident)
    (pcb : Pcb) (connected : .did (.connectControl pcb) ∈ (w.step incident).2) :
    let after := (w.step incident).1
    ∃ lookup, after.source = some lookup ∧ lookup.opening = after.openings ∧
      ftpParseUrl after.service.ftp.request = some (lookup.host, pcb.port) ∧
      resolves lookup.host pcb.address :=
  (run.bound.step honest prompt).2 pcb connected

end Runs

section Answers

/-- Two hosts and their addresses. -/
def twoHosts (host : List UInt8) (address : UInt32) : Prop :=
  host = ascii "a" ∧ address = 1 ∨ host = ascii "b" ∧ address = 2

instance (host : List UInt8) (address : UInt32) : Decidable (twoHosts host address) :=
  inferInstanceAs (Decidable (_ ∨ _))

/-- lwIP has to ask a server for every name. -/
def slowEnv : Env := { roomyEnv with dns := .inProgress }

/-- A request put into memory and issued, with the poll that takes it up. -/
def issue (command : UInt8) (text : String) : List Incident :=
  [.event (.host (requestBlock command text)) (by simp), .event (.command 0xfff000 0) (by simp),
    .event (.poll slowEnv) (by simp)]

def Resolver.run (w : Resolver) (incidents : List Incident) : Resolver :=
  incidents.foldl (fun w incident => (w.step incident).1) w

/-- Every incident of a run is honest. -/
def HonestRun (resolves : List UInt8 → UInt32 → Prop) : Resolver → List Incident → Prop
  | _, [] => True
  | w, incident :: rest => w.Honest resolves incident ∧ HonestRun resolves (w.step incident).1 rest

theorem honest_event {resolves : List UInt8 → UInt32 → Prop} {w : Resolver} {event : Event}
    {other : ∀ address, event ≠ .dnsFound address}
    (slow : ∀ address, event.dnsAnswer ≠ .found address) :
    w.Honest resolves (.event event other) := by
  intro host address _ found
  exact absurd found (slow address)

/-- An `OPEN` whose lookup lwIP has not answered yet. -/
def askedWorld : Resolver := (Resolver.start 0 fun _ => 0).run (issue ftpCmdOpen "a")

theorem askedWorld_prompt : PromptRun twoHosts 0 (fun _ => 0) askedWorld :=
  .step _ (.step _ (.step _ .start (honest_event (by simp [Event.dnsAnswer])) trivial)
    (honest_event (by simp [Event.dnsAnswer])) trivial)
    (honest_event (by simp [Event.dnsAnswer, slowEnv])) trivial

theorem askedWorld_waiting : askedWorld.waiting = [⟨1, ascii "a"⟩] ∧ askedWorld.openings = 1 := by
  decide +kernel

/-- The answer that lookup was waiting for. -/
theorem askedWorld_answered :
    PromptRun twoHosts 0 (fun _ => 0) (askedWorld.step (.answered 0 (some 1))).1 := by
  refine .step _ askedWorld_prompt ?_ ?_
  · rintro lookup found first ⟨⟩
    rw [askedWorld_waiting.1] at first
    cases first
    exact .inl ⟨rfl, rfl⟩
  · intro lookup first _ _
    rw [askedWorld_waiting.1] at first
    cases first
    exact askedWorld_waiting.2.symm

theorem ownAnswer_connects :
    let w := (askedWorld.step (.answered 0 (some 1))).1
    PromptRun twoHosts 0 (fun _ => 0) w ∧
      ∃ lookup, (w.step (.event (.poll slowEnv) (by simp))).1.source = some lookup ∧
        twoHosts lookup.host 1 := by
  refine ⟨askedWorld_answered, ?_⟩
  obtain ⟨lookup, source, -, -, found⟩ := control_connects_to_own_host twoHosts 0 (fun _ => 0) _
    askedWorld_answered (.event (.poll slowEnv) (by simp))
    (honest_event (by simp [Event.dnsAnswer, slowEnv])) trivial ⟨1, 21⟩ (by decide +kernel)
  exact ⟨lookup, source, found⟩

/-- The lookup for `a` is cancelled, `b` is opened, and the address of `a` arrives. -/
def staleIncidents : List Incident :=
  issue ftpCmdOpen "a" ++ [.event (.host (requestBlock ftpCmdCancel "")) (by simp),
    .event (.command 0xfff000 0) (by simp), .event (.poll slowEnv) (by simp)] ++
    issue ftpCmdOpen "b" ++ [.answered 0 (some 1)]

/-- The world before that address arrives. -/
def staleWorld : Resolver := (Resolver.start 0 fun _ => 0).run staleIncidents.dropLast

theorem staleWorld_waiting :
    staleWorld.waiting = [⟨1, ascii "a"⟩, ⟨2, ascii "b"⟩] := by
  decide +kernel

theorem staleAnswer_connects_elsewhere :
    HonestRun twoHosts (.start 0 fun _ => 0) staleIncidents ∧
      let w := (Resolver.start 0 fun _ => 0).run staleIncidents
      let after := w.step (.event (.poll slowEnv) (by simp))
      .did (.connectControl ⟨1, 21⟩) ∈ after.2 ∧
        ftpParseUrl after.1.service.ftp.request = some (ascii "b", 21) ∧
        ¬twoHosts (ascii "b") 1 := by
  refine ⟨?_, by decide +kernel⟩
  have silent : ∀ {w : Resolver} {event : Event} {other : ∀ address, event ≠ .dnsFound address},
      (∀ env, event = .poll env → env = slowEnv) → w.Honest twoHosts (.event event other) := by
    intro w event other slow
    apply honest_event
    intro address
    cases event with
    | poll env =>
      rw [slow env rfl]
      simp [Event.dnsAnswer, slowEnv]
    | _ => simp [Event.dnsAnswer]
  refine ⟨silent (by simp), silent (by simp), silent (by simp), silent (by simp),
    silent (by simp), silent (by simp), silent (by simp), silent (by simp), silent (by simp),
    ?_, trivial⟩
  -- The answer is for the name it was asked for.
  change staleWorld.Honest twoHosts (.answered 0 (some 1))
  rintro lookup found first ⟨⟩
  rw [staleWorld_waiting] at first
  cases first
  exact .inl ⟨rfl, rfl⟩

end Answers

end Pi1MHz.FtpService
