import Pi1MHz.Ftp.Polls

/-! The life of a request, from the command that is accepted to the one status that ends it. A
ledger beside the service lists the requests accepted and the final statuses written. -/
namespace Pi1MHz.FtpService

section Ledgers

/-- A request as it was accepted. -/
structure Request where
  command : UInt8
  pointer : Nat
  address : Nat
deriving DecidableEq, Repr

/-- The request in progress, if there is one. -/
def Service.current (s : Service) : List Request :=
  if s.requestPending then [⟨s.requestCommand, s.requestPointer, s.requestStatusAddress⟩] else []

/-- What an event writes to status addresses. -/
def Service.statusWrites (s : Service) : Event → List (Nat × Result)
  | .command pointer address =>
    if s.jim (commandBlock s.discRamBase pointer) = ftpCmdCancel ∧ s.requestPending = false then
      [(address, .abort)]
    else [(address, .pending)]
  | .poll env => (ftpServicePoll env s).2.filterMap fun entry =>
      match entry with
      | .completed _ result => some (s.requestStatusAddress, result)
      | _ => none
  | _ => []

/-- The requests accepted and the final statuses polls have written, both in order. -/
structure Ledger where
  accepted : List Request
  answered : List (Request × Result)

def Ledger.note (l : Ledger) (s : Service) : Event → Ledger
  | .command pointer address =>
    let cp := commandBlock s.discRamBase pointer
    if s.jim cp ≠ ftpCmdCancel ∧ s.requestPending = false then
      { l with accepted := l.accepted ++ [⟨s.jim cp, cp, address⟩] }
    else l
  | .poll env => { l with
      answered := l.answered ++ (s.statusWrites (.poll env)).map fun written =>
        (⟨s.requestCommand, s.requestPointer, written.1⟩, written.2) }
  | _ => l

/-- A service and its ledger. -/
structure Desk where
  service : Service
  ledger : Ledger

namespace Desk

def start (discRamBase : Nat) (jim : Memory UInt8) : Desk :=
  ⟨ftpServiceInit discRamBase jim, ⟨[], []⟩⟩

def step (d : Desk) (event : Event) : Desk :=
  ⟨(d.service.step event).1, d.ledger.note d.service event⟩

def run (d : Desk) (events : List Event) : Desk := events.foldl step d

end Desk

end Ledgers

section Polls
variable (env : Env) (s : Service)

/-- Going on with a request changes the session and the shared memory and marks it started. -/
theorem ftpProcess_frame :
    (∃ ftp controlPort jim, (ftpProcess env s).service =
      { s with ftp, controlPort, jim, requestStarted := true }) ∧
      ∀ command result, .completed command result ∉ (ftpProcess env s).trace := by
  cases started : s.requestStarted with
  | true =>
    obtain ⟨ftp, controlPort, jim, actions, same, trace⟩ := ftpDispatch_frame env s
    rw [ftpProcess, if_pos started, same, trace]
    refine ⟨⟨ftp, controlPort, jim, by rw [← started]⟩, fun command result => ?_⟩
    simp
  | false =>
    rw [ftpProcess, if_neg (by simp [started])]
    dsimp only
    split
    · exact ⟨⟨_, _, _, rfl⟩, fun command result => by simp⟩
    · obtain ⟨ftp, controlPort, jim, actions, same, trace⟩ := ftpDispatch_frame env
        { s with ftp := (ftpBegin env s).2, requestStarted := true }
      dsimp only
      rw [same, trace]
      exact ⟨⟨ftp, controlPort, jim, rfl⟩, fun command result => by simp⟩

/-- A poll that ends the request in progress. -/
structure Finishes (result : Result) : Prop where
  final : result ≠ .pending
  own : result = if s.requestCancel then .abort else (ftpProcess env s).result
  writes : s.statusWrites (.poll env) = [(s.requestStatusAddress, result)]
  status : (ftpServicePoll env s).1.status =
    s.status.write s.requestStatusAddress [result.byte]
  pending : (ftpServicePoll env s).1.requestPending = false
  started : (ftpServicePoll env s).1.requestStarted = false
  cancel : (ftpServicePoll env s).1.requestCancel = false

/-- A poll that leaves the request in progress, or finds none. -/
structure Rests : Prop where
  writes : s.statusWrites (.poll env) = []
  status : (ftpServicePoll env s).1.status = s.status
  current : (ftpServicePoll env s).1.current = s.current
  pending : (ftpServicePoll env s).1.requestPending = s.requestPending
  cancel : (ftpServicePoll env s).1.requestCancel = s.requestCancel

theorem finishes_aborted (cancelled : s.requestCancel = true) : Finishes env s .abort := by
  have polled : ftpServicePoll env s =
      ({ s with
          ftp := ftpReset, requestPending := false, requestCancel := false
          requestStarted := false }.answer s.requestStatusAddress .abort,
        [.completed s.requestCommand .abort]) := by
    rw [ftpServicePoll, if_pos cancelled]
  refine ⟨by simp, by rw [if_pos cancelled], ?_, ?_, ?_, ?_, ?_⟩
  · simp [Service.statusWrites, polled]
  · rw [polled]
    rfl
  · rw [polled]
    rfl
  · rw [polled]
    rfl
  · rw [polled]
    rfl

/-- What a poll of a request in progress does, by the result of its process. -/
theorem poll_processed (running : s.requestCancel = false) (pending : s.requestPending = true) :
    (ftpProcess env s).result = .pending ∧ Rests env s ∨
      Finishes env s (ftpProcess env s).result := by
  obtain ⟨⟨ftp, controlPort, jim, same⟩, quiet⟩ := ftpProcess_frame env s
  have unended : (ftpProcess env s).trace.filterMap (fun entry => match entry with
      | .completed _ result => some (s.requestStatusAddress, result)
      | _ => none) = [] := by
    rw [List.filterMap_eq_nil_iff]
    intro entry member
    cases entry with
    | completed command result => exact absurd member (quiet command result)
    | _ => rfl
  by_cases unfinished : (ftpProcess env s).result = .pending
  · refine .inl ⟨unfinished, ?_⟩
    have polled : ftpServicePoll env s =
        ((ftpProcess env s).service, (ftpProcess env s).trace) := by
      rw [ftpServicePoll, if_neg (by simp [running]), if_neg (by simp [pending])]
      simp only [if_pos unfinished]
    refine ⟨?_, ?_, ?_, ?_, ?_⟩
    · rw [Service.statusWrites, polled]
      exact unended
    · rw [polled, same]
    · rw [polled, same]
      rfl
    · rw [polled, same]
    · rw [polled, same]
  · refine .inr ?_
    have polled : ftpServicePoll env s =
        ({ (ftpProcess env s).service with requestPending := false, requestStarted := false }.answer
            s.requestStatusAddress (ftpProcess env s).result,
          (ftpProcess env s).trace ++ [.completed s.requestCommand (ftpProcess env s).result]) := by
      rw [ftpServicePoll, if_neg (by simp [running]), if_neg (by simp [pending])]
      simp only [if_neg unfinished]
    refine ⟨unfinished, by simp [running], ?_, ?_, ?_, ?_, ?_⟩
    · rw [Service.statusWrites, polled]
      simp only [List.filterMap_append, unended]
      rfl
    · rw [polled, same]
      rfl
    · rw [polled]
      rfl
    · rw [polled]
      rfl
    · rw [polled, same]
      exact running

theorem poll_idle (running : s.requestCancel = false) (idle : s.requestPending = false) :
    Rests env s := by
  have polled : ftpServicePoll env s = (s, []) := by
    rw [ftpServicePoll, if_neg (by simp [running]), if_pos (by simp [idle])]
  refine ⟨?_, ?_, ?_, ?_, ?_⟩
  · rw [Service.statusWrites, polled]
    rfl
  · rw [polled]
  · rw [polled]
  · rw [polled]
  · rw [polled]

/-- A poll either ends the request in progress or leaves it as it is. -/
theorem poll_outcome : Rests env s ∨ ∃ result, Finishes env s result ∧
    (s.requestCancel = true ∨ s.requestPending = true) := by
  cases cancelled : s.requestCancel with
  | true => exact .inr ⟨.abort, finishes_aborted env s cancelled, .inl rfl⟩
  | false =>
    cases pending : s.requestPending with
    | false => exact .inl (poll_idle env s cancelled pending)
    | true =>
      rcases poll_processed env s cancelled pending with ⟨-, rests⟩ | finishes
      · exact .inl rests
      · exact .inr ⟨_, finishes, .inr rfl⟩

end Polls

section Commands
variable (s : Service) (pointer : UInt32) (address : Nat)

/-- A command issued while a request is in progress. -/
theorem command_busy (busy : s.requestPending = true)
    (other : s.jim (commandBlock s.discRamBase pointer) ≠ ftpCmdCancel) :
    ftpServiceCommand pointer address s = s.answer address .pending := by
  unfold commandBlock at other
  unfold ftpServiceCommand
  dsimp only
  rw [if_neg other, if_pos busy]

theorem command_accepted (idle : s.requestPending = false)
    (other : s.jim (commandBlock s.discRamBase pointer) ≠ ftpCmdCancel) :
    ftpServiceCommand pointer address s = { s with
      requestPointer := commandBlock s.discRamBase pointer, requestStatusAddress := address
      requestCommand := s.jim (commandBlock s.discRamBase pointer)
      requestStarted := false, requestPending := true }.answer address .pending := by
  unfold commandBlock at other ⊢
  unfold ftpServiceCommand
  dsimp only
  rw [if_neg other, if_neg (by simp [idle])]

theorem command_cancel (busy : s.requestPending = true)
    (cancel : s.jim (commandBlock s.discRamBase pointer) = ftpCmdCancel) :
    ftpServiceCommand pointer address s =
      { s with requestCancel := true }.answer address .pending := by
  unfold commandBlock at cancel
  unfold ftpServiceCommand
  dsimp only
  rw [if_pos cancel, if_neg (by simp [busy])]

theorem command_cancel_idle (idle : s.requestPending = false)
    (cancel : s.jim (commandBlock s.discRamBase pointer) = ftpCmdCancel) :
    ftpServiceCommand pointer address s = { s with ftp := ftpReset }.answer address .abort := by
  unfold commandBlock at cancel
  unfold ftpServiceCommand
  dsimp only
  rw [if_pos cancel, if_pos (by simp [idle])]

/-- A callback changes the session alone. -/
theorem onControl_fields (callback : Ftp → Ftp) :
    ∃ ftp, s.onControl callback = { s with ftp } := by
  unfold Service.onControl
  split
  · exact ⟨_, rfl⟩
  · exact ⟨s.ftp, rfl⟩

theorem onData_fields (callback : Ftp → Ftp) : ∃ ftp, s.onData callback = { s with ftp } := by
  unfold Service.onData
  split
  · exact ⟨_, rfl⟩
  · exact ⟨s.ftp, rfl⟩

theorem command_status : (ftpServiceCommand pointer address s).status =
    (s.statusWrites (.command pointer address)).foldl (fun status written =>
      status.write written.1 [written.2.byte]) s.status := by
  simp only [Service.statusWrites]
  cases busy : s.requestPending with
  | true =>
    rw [if_neg (by simp)]
    by_cases cancel : s.jim (commandBlock s.discRamBase pointer) = ftpCmdCancel
    · rw [command_cancel s pointer address busy cancel]
      rfl
    · rw [command_busy s pointer address busy cancel]
      rfl
  | false =>
    by_cases cancel : s.jim (commandBlock s.discRamBase pointer) = ftpCmdCancel
    · rw [if_pos ⟨cancel, rfl⟩, command_cancel_idle s pointer address busy cancel]
      rfl
    · rw [if_neg (by simp [cancel]), command_accepted s pointer address busy cancel]
      rfl

/-- Commands, polls and resets apart, an event touches neither latch nor status nor ledger. -/
theorem event_cases (event : Event) :
    (∃ pointer address, event = .command pointer address) ∨ (∃ env, event = .poll env) ∨
      event = .init ∨ (s.statusWrites event = [] ∧ (∀ l : Ledger, l.note s event = l) ∧
        ∃ ftp jim, (s.step event).1 = { s with ftp, jim }) := by
  cases event with
  | command pointer address => exact .inl ⟨pointer, address, rfl⟩
  | poll env => exact .inr (.inl ⟨env, rfl⟩)
  | init => exact .inr (.inr (.inl rfl))
  | host jim => exact .inr (.inr (.inr ⟨rfl, fun _ => rfl, s.ftp, jim, rfl⟩))
  | dnsFound address => exact .inr (.inr (.inr ⟨rfl, fun _ => rfl, _, s.jim, rfl⟩))
  | controlError =>
    obtain ⟨ftp, same⟩ := onControl_fields s ftpControlError
    exact .inr (.inr (.inr ⟨rfl, fun _ => rfl, ftp, s.jim, same⟩))
  | controlConnected ok =>
    obtain ⟨ftp, same⟩ := onControl_fields s (ftpControlConnected ok)
    exact .inr (.inr (.inr ⟨rfl, fun _ => rfl, ftp, s.jim, same⟩))
  | controlReceive received =>
    obtain ⟨ftp, same⟩ := onControl_fields s fun ftp => ftpControlReceive ftp received
    exact .inr (.inr (.inr ⟨rfl, fun _ => rfl, ftp, s.jim, same⟩))
  | dataError =>
    obtain ⟨ftp, same⟩ := onData_fields s ftpDataError
    exact .inr (.inr (.inr ⟨rfl, fun _ => rfl, ftp, s.jim, same⟩))
  | dataConnected ok =>
    obtain ⟨ftp, same⟩ := onData_fields s (ftpDataConnected ok)
    exact .inr (.inr (.inr ⟨rfl, fun _ => rfl, ftp, s.jim, same⟩))
  | dataReceive received =>
    obtain ⟨ftp, same⟩ := onData_fields s fun ftp => (ftpDataReceive ftp received).2
    exact .inr (.inr (.inr ⟨rfl, fun _ => rfl, ftp, s.jim, same⟩))

/-- Status bytes change by the writes of the event and no others. -/
theorem step_status (event : Event) : (s.step event).1.status =
    (s.statusWrites event).foldl (fun status written =>
      status.write written.1 [written.2.byte]) s.status := by
  rcases event_cases s event with ⟨pointer, address, rfl⟩ | ⟨env, rfl⟩ | rfl |
    ⟨writes, -, ftp, jim, same⟩
  · exact command_status s pointer address
  · rcases poll_outcome env s with rests | ⟨result, finishes, -⟩
    · rw [rests.writes]
      exact rests.status
    · rw [finishes.writes]
      exact finishes.status
  · rfl
  · rw [writes, same]
    rfl

end Commands

section Runs

/-- What holds between events: the final statuses are those of the requests accepted, in order and
one each, except for the request in progress. -/
structure Kept (d : Desk) : Prop where
  accounted : d.ledger.answered.map Prod.fst ++ d.service.current = d.ledger.accepted
  final : ∀ answer ∈ d.ledger.answered, answer.2 ≠ .pending
  cancel : d.service.requestCancel = true → d.service.requestPending = true

variable {d : Desk}

theorem current_busy {s : Service} (busy : s.requestPending = true) : s.current =
    [⟨s.requestCommand, s.requestPointer, s.requestStatusAddress⟩] := by
  rw [Service.current, if_pos busy]

theorem current_idle {s : Service} (idle : s.requestPending = false) : s.current = [] := by
  rw [Service.current, if_neg (by simp [idle])]

theorem Kept.start (discRamBase : Nat) (jim : Memory UInt8) : Kept (.start discRamBase jim) where
  accounted := rfl
  final := by
    intro answer member
    cases member
  cancel := by
    intro cancelled
    cases cancelled

theorem Kept.command (kept : Kept d) (pointer : UInt32) (address : Nat) :
    Kept (d.step (.command pointer address)) := by
  by_cases cancel : d.service.jim (commandBlock d.service.discRamBase pointer) = ftpCmdCancel
  · have noted : d.ledger.note d.service (.command pointer address) = d.ledger := by
      simp [Ledger.note, cancel]
    cases busy : d.service.requestPending with
    | true =>
      have after := command_cancel d.service pointer address busy cancel
      simp only [Desk.step, Service.step, noted, after]
      exact ⟨kept.accounted, kept.final, fun _ => busy⟩
    | false =>
      have after := command_cancel_idle d.service pointer address busy cancel
      simp only [Desk.step, Service.step, noted, after]
      exact ⟨kept.accounted, kept.final, kept.cancel⟩
  · cases busy : d.service.requestPending with
    | true =>
      have noted : d.ledger.note d.service (.command pointer address) = d.ledger := by
        simp [Ledger.note, busy]
      have after := command_busy d.service pointer address busy cancel
      simp only [Desk.step, Service.step, noted, after]
      exact ⟨kept.accounted, kept.final, kept.cancel⟩
    | false =>
      have noted : d.ledger.note d.service (.command pointer address) = { d.ledger with
          accepted := d.ledger.accepted ++ [⟨d.service.jim (commandBlock d.service.discRamBase
            pointer), commandBlock d.service.discRamBase pointer, address⟩] } := by
        simp [Ledger.note, busy, cancel]
      have after := command_accepted d.service pointer address busy cancel
      have accounted := kept.accounted
      rw [current_idle busy, List.append_nil] at accounted
      simp only [Desk.step, Service.step, noted, after]
      refine ⟨?_, kept.final, fun _ => rfl⟩
      rw [← accounted]
      rfl

theorem Kept.poll (kept : Kept d) (env : Env) : Kept (d.step (.poll env)) := by
  rcases poll_outcome env d.service with rests | ⟨result, finishes, taken⟩
  · have noted : d.ledger.note d.service (.poll env) = d.ledger := by
      simp [Ledger.note, rests.writes]
    simp only [Desk.step, Service.step, noted]
    refine ⟨?_, kept.final, ?_⟩
    · rw [rests.current]
      exact kept.accounted
    · rw [rests.cancel, rests.pending]
      exact kept.cancel
  · have busy : d.service.requestPending = true := taken.elim kept.cancel id
    have accounted := kept.accounted
    rw [current_busy busy] at accounted
    simp only [Desk.step, Service.step, Ledger.note, finishes.writes]
    refine ⟨?_, ?_, ?_⟩
    · rw [current_idle finishes.pending, ← accounted]
      simp
    · intro answer member
      rcases List.mem_append.mp member with old | new
      · exact kept.final answer old
      · cases List.mem_singleton.mp new
        exact finishes.final
    · rw [finishes.cancel]
      intro cancelled
      cases cancelled

theorem Kept.step (kept : Kept d) (event : Event) (notInit : event ≠ .init) :
    Kept (d.step event) := by
  rcases event_cases d.service event with ⟨pointer, address, rfl⟩ | ⟨env, rfl⟩ | rfl |
    ⟨-, noted, ftp, jim, same⟩
  · exact kept.command pointer address
  · exact kept.poll env
  · exact absurd rfl notInit
  · simp only [Desk.step, noted, same]
    exact ⟨kept.accounted, kept.final, kept.cancel⟩

theorem Kept.run (kept : Kept d) {events : List Event} (noInit : ∀ event ∈ events, event ≠ .init) :
    Kept (d.run events) := by
  induction events generalizing d with
  | nil => exact kept
  | cons event events ih =>
    rw [List.forall_mem_cons] at noInit
    exact ih (kept.step event noInit.1) noInit.2

/-- Over every run without a reset: the final statuses written are one for each request accepted,
in order and to its own address, but for the one in progress; a poll writes one final status, with
all flags down, or nothing; the status is `ABORT` when a cancel was noted, and else the result of
the request's own process as soon as it has one; a command that finds a request in progress writes
`PENDING` to its own address and at most notes a cancel; and a cancel is noted only for a request
in progress. -/
theorem request_lifecycle (discRamBase : Nat) (jim : Memory UInt8) (events : List Event)
    (noInit : ∀ event ∈ events, event ≠ .init) :
    let d := (Desk.start discRamBase jim).run events
    d.ledger.answered.map Prod.fst ++ d.service.current = d.ledger.accepted ∧
      (∀ answer ∈ d.ledger.answered, answer.2 ≠ .pending) ∧
      (d.service.requestCancel = true → d.service.requestPending = true) ∧
      (∀ env, Rests env d.service ∨
        d.service.requestPending = true ∧ ∃ result, Finishes env d.service result) ∧
      (∀ env, d.service.requestCancel = true → Finishes env d.service .abort) ∧
      (∀ env, d.service.requestCancel = false → d.service.requestPending = true →
        (ftpProcess env d.service).result = .pending ∧ Rests env d.service ∨
          Finishes env d.service (ftpProcess env d.service).result) ∧
      (∀ pointer address, d.service.requestPending = true →
        d.service.jim (commandBlock d.service.discRamBase pointer) ≠ ftpCmdCancel →
        ftpServiceCommand pointer address d.service = d.service.answer address .pending) ∧
      (∀ pointer address, d.service.requestPending = true →
        d.service.jim (commandBlock d.service.discRamBase pointer) = ftpCmdCancel →
        ftpServiceCommand pointer address d.service =
          { d.service with requestCancel := true }.answer address .pending) ∧
      ∀ event, (d.service.step event).1.status =
        (d.service.statusWrites event).foldl (fun status written =>
          status.write written.1 [written.2.byte]) d.service.status := by
  intro d
  have kept : Kept d := (Kept.start discRamBase jim).run noInit
  refine ⟨kept.accounted, kept.final, kept.cancel, fun env => ?_,
    fun env cancelled => finishes_aborted env d.service cancelled,
    fun env running busy => poll_processed env d.service running busy,
    fun pointer address busy other => command_busy d.service pointer address busy other,
    fun pointer address busy cancel => command_cancel d.service pointer address busy cancel,
    step_status d.service⟩
  rcases poll_outcome env d.service with rests | ⟨result, finishes, taken⟩
  · exact .inl rests
  · exact .inr ⟨taken.elim kept.cancel id, result, finishes⟩

/-- An `OPEN` answered, then a `GET` that a cancel finds waiting for its send buffer. -/
def cancelledRun : List Event :=
  openedRun ++ [.host (requestBlock ftpCmdExec "GET file"), .command 0xfff000 64,
    .poll { roomyEnv with sndbuf := 0 }, .host (requestBlock ftpCmdCancel ""),
    .command 0xfff000 128]

theorem cancelledRun_lifecycle :
    let d := (Desk.start 0 fun _ => 0).run cancelledRun
    (∀ event ∈ cancelledRun, event ≠ .init) ∧
      d.ledger.answered = [(⟨ftpCmdOpen, 0xf000, 0⟩, .ok)] ∧
      d.ledger.answered.map Prod.fst ++ d.service.current = d.ledger.accepted ∧
      d.service.current = [⟨ftpCmdExec, 0xf000, 64⟩] ∧
      Finishes roomyEnv d.service .abort := by
  have noInit : ∀ event ∈ cancelledRun, event ≠ .init := by simp [cancelledRun, openedRun]
  obtain ⟨accounted, -, -, -, aborted, -⟩ :=
    request_lifecycle 0 (fun _ => 0) cancelledRun noInit
  exact ⟨noInit, by decide +kernel, accounted, by decide +kernel,
    aborted roomyEnv (by decide +kernel)⟩

end Runs

end Pi1MHz.FtpService
