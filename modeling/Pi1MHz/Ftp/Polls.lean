import Pi1MHz.Ftp.Service

/-! What the functions of one poll can do, said once for each. -/
namespace Pi1MHz.FtpService

section Specs
variable (env : Env) (ftp : Ftp)

/-- A sending case either waits or writes its line and moves on. -/
theorem sendLine_cases (line : List UInt8) (next : Operation) :
    sendable env ftp line = false ∧ sendLine env ftp line next = waiting env ftp ∨
      sendable env ftp line = true ∧ ∃ deadline, sendLine env ftp line next =
        ⟨.pending, { ftp with operation := next, deadline }, [.wrote line]⟩ := by
  cases room : sendable env ftp line with
  | false =>
    have unsent : ftpSend env ftp line = none := by rw [ftpSend, room, if_neg Bool.false_ne_true]
    refine .inl ⟨rfl, ?_⟩
    rw [sendLine, unsent]
  | true =>
    have sent : ftpSend env ftp line = some { ftp with deadline := env.now + ftpTimeoutMs } := by
      rw [ftpSend, room, if_pos rfl, ftpSetDeadline]
    refine .inr ⟨rfl, env.now + ftpTimeoutMs, ?_⟩
    rw [sendLine, sent]

/-- A receiving case either waits or goes on with the reply it has taken. -/
theorem awaitReply_cases (next : Nat → Ftp → Outcome) :
    ftpReply ftp = none ∧ awaitReply env ftp next = waiting env ftp ∨
      ∃ code after, ftpReply ftp = some (code, after) ∧ awaitReply env ftp next =
        ⟨(next code after).result, (next code after).ftp,
          .replied code after.lastReply :: (next code after).actions⟩ := by
  cases found : ftpReply ftp with
  | none => simp [awaitReply, found]
  | some reply => exact .inr ⟨reply.1, reply.2, rfl, by simp [awaitReply, found]⟩

/-- Starting the data connection either fails or leaves it pending, and does nothing else. -/
theorem ftpStartData_cases :
    (∃ after, ftpStartData env ftp = ⟨.connect, after, []⟩) ∨
      ∃ deadline, ftpStartData env ftp = ⟨.pending, { ftp with
        data := some ⟨ftp.address, ftp.dataPort⟩
        dataConnected := false, dataEof := false, dataError := false
        ring := { ftp.ring with head := 0, tail := 0, count := 0 }
        deadline },
        [.connectData ⟨ftp.address, ftp.dataPort⟩]⟩ := by
  simp only [ftpStartData]
  split
  · exact .inl ⟨_, rfl⟩
  · split
    · exact .inl ⟨_, rfl⟩
    · exact .inr ⟨_, rfl⟩

theorem ftpReply_isSome :
    (ftpReply ftp).isSome = (scanReply ftp.controlText 0 0 0).isSome := Option.isSome_map

theorem ftpReply_fields {code : Nat} {after : Ftp} (found : ftpReply ftp = some (code, after)) :
    ∃ controlText lastReply, after = { ftp with controlText, lastReply } := by
  obtain ⟨reply, -, same⟩ := Option.map_eq_some_iff.mp found
  cases same
  exact ⟨_, _, rfl⟩

/-- An `EXEC` gets on only in the ready state. -/
theorem ftpExecPoll_ready (connected : (ftpExecPoll env ftp).result ≠ .connect) :
    ftp.state = .ready := by
  by_contra other
  rw [ftpExecPoll, if_pos other] at connected
  exact connected rfl

/-- The end of a transfer waits for its final reply. -/
theorem ftpTransferReply_spec :
    (ftpTransferReply env ftp).ftp.ring = ftp.ring ∧ (ftpTransferReply env ftp).result ≠ .ok ∧
      ((ftpTransferReply env ftp).result = .eof ↔ (ftpReply ftp).isSome = true) := by
  rw [ftpTransferReply]
  obtain ⟨missing, waits⟩ | ⟨code, after, found, replied⟩ := awaitReply_cases env ftp
    fun _ ftp => ⟨.eof, { ftp with operation := .none, transfer := .none }, []⟩
  · rw [waits, missing]
    simp only [waiting, true_and]
    split <;> simp
  · rw [replied, found]
    obtain ⟨text, reply, rfl⟩ := ftpReply_fields ftp found
    simp

end Specs

section Dispatch
variable (env : Env) (s : Service)

/-- A poll changes the session and the shared memory, never the request latch. -/
theorem ftpDispatch_frame : ∃ ftp controlPort jim, ∃ actions : List Action,
    (ftpDispatch env s).service = { s with ftp, controlPort, jim } ∧
      (ftpDispatch env s).trace = actions.map .did := by
  simp only [ftpDispatch]
  split
  · exact ⟨_, _, _, _, rfl, rfl⟩
  · split
    · exact ⟨_, _, _, _, rfl, rfl⟩
    · split
      · exact ⟨_, _, _, _, rfl, rfl⟩
      · split
        · exact ⟨_, _, _, _, rfl, rfl⟩
        · split <;> exact ⟨_, _, _, _, rfl, rfl⟩

theorem ftpDispatch_exec (exec : s.requestCommand = ftpCmdExec) :
    ftpDispatch env s = ⟨(ftpExecPoll env s.ftp).result,
      { s with
        ftp := (ftpExecPoll env s.ftp).ftp
        jim := if (ftpExecPoll env s.ftp).result = .pending then s.jim
          else ftpResponse s.requestPointer (ftpExecPoll env s.ftp).ftp s.jim },
      (ftpExecPoll env s.ftp).actions.map .did⟩ := by
  have other : ¬s.requestCommand = ftpCmdOpen := by
    rw [exec]
    decide
  simp only [ftpDispatch, if_neg other, if_pos exec]

/-- What `FTP_OP_NONE` leaves for a transfer: its line, and `EPSV` to go on with. -/
theorem ftpPrepare_transfer {ftp : Ftp} {line : List UInt8} (accepted : (ftpPrepare ftp).1 = true)
    (built : transferLine ftp.request = some line) :
    (ftpPrepare ftp).2.transferCommand = line ∧ (ftpPrepare ftp).2.operation = .epsvSend ∧
      (ftpPrepare ftp).2.control = ftp.control := by
  obtain ⟨⟨transfer, verb⟩, found, rfl⟩ := Option.map_eq_some_iff.mp built
  simp only [ftpPrepare, found] at accepted ⊢
  split at accepted
  · cases accepted
  next valid =>
    rw [if_neg valid]
    simp only [storeLine] at accepted ⊢
    split at accepted
    · cases accepted
    next fits =>
      rw [if_neg fits]
      refine ⟨?_, rfl, rfl⟩
      apply List.take_of_length_le
      simp only [transferCommandSize, ftpTextMax] at fits ⊢
      omega

/-- The first poll of an `EXEC` changes the request text and the operation. -/
theorem ftpBegin_exec (exec : s.requestCommand = ftpCmdExec) (begun : (ftpBegin env s).1 = true) :
    ∃ request deadline,
      (ftpBegin env s).2 = { s.ftp with request, operation := .none, deadline } := by
  simp only [ftpBegin, exec, or_true, if_true, show ¬ftpCmdExec = ftpCmdOpen by decide, if_false]
    at begun ⊢
  split at begun
  next refused => simp [begun] at refused
  next accepted =>
    rw [if_neg accepted]
    simp only [ftpCopyRequest] at accepted ⊢
    split at accepted
    · simp at accepted
    next short =>
      rw [if_neg short]
      exact ⟨_, _, rfl⟩

/-- The service as a poll dispatches it, taken up at the first poll. -/
def Service.taken : Service :=
  if s.requestStarted then s else { s with ftp := (ftpBegin env s).2, requestStarted := true }

theorem taken_fields : ∃ ftp, s.taken env = { s with ftp, requestStarted := true } := by
  unfold Service.taken
  split
  next started => exact ⟨s.ftp, by rw [← started]⟩
  next => exact ⟨_, rfl⟩

/-- The first poll of a request without a text only sets the deadline. -/
theorem ftpBegin_plain (notOpen : s.requestCommand ≠ ftpCmdOpen)
    (notExec : s.requestCommand ≠ ftpCmdExec) :
    ftpBegin env s = (true, ftpSetDeadline env s.ftp) := by
  simp [ftpBegin, notOpen, notExec]

theorem taken_plain (notOpen : s.requestCommand ≠ ftpCmdOpen)
    (notExec : s.requestCommand ≠ ftpCmdExec) : ∃ deadline,
    s.taken env = { s with ftp := { s.ftp with deadline }, requestStarted := true } := by
  cases started : s.requestStarted with
  | true =>
    refine ⟨s.ftp.deadline, ?_⟩
    rw [Service.taken, if_pos started, ← started]
  | false =>
    refine ⟨env.now + ftpTimeoutMs, ?_⟩
    rw [Service.taken, if_neg (by simp [started]), ftpBegin_plain env s notOpen notExec]
    rfl

/-- The mark of a request taken up. -/
def Service.mark : List Entry :=
  if s.requestStarted then [] else [.began s.requestCommand (ftpBegin env s).2.request]

/-- A poll dispatches the request, unless its text was refused. -/
theorem ftpProcess_taken (begun : s.requestStarted = false → (ftpBegin env s).1 = true) :
    ftpProcess env s = { ftpDispatch env (s.taken env) with
      trace := s.mark env ++ (ftpDispatch env (s.taken env)).trace } := by
  cases started : s.requestStarted with
  | true => simp [ftpProcess, Service.taken, Service.mark, started]
  | false => simp [ftpProcess, Service.taken, Service.mark, started, begun started]

/-- Nothing completes within a dispatch. -/
theorem completed_not_mem (command : UInt8) (result : Result) :
    .completed command result ∉ s.mark env ++ (ftpDispatch env (s.taken env)).trace := by
  obtain ⟨-, -, -, actions, -, trace⟩ := ftpDispatch_frame env (s.taken env)
  rw [trace, Service.mark]
  split <;> simp

/-- A poll of a request in progress leaves it pending or completes it. -/
theorem ftpServicePoll_taken (running : s.requestCancel = false) (pending : s.requestPending = true)
    (begun : s.requestStarted = false → (ftpBegin env s).1 = true) :
    (ftpDispatch env (s.taken env)).result = .pending ∧
        ftpServicePoll env s = ((ftpDispatch env (s.taken env)).service,
          s.mark env ++ (ftpDispatch env (s.taken env)).trace) ∨
      (ftpDispatch env (s.taken env)).result ≠ .pending ∧
        ftpServicePoll env s =
          ({ (ftpDispatch env (s.taken env)).service with
              requestPending := false, requestStarted := false }.answer s.requestStatusAddress
            (ftpDispatch env (s.taken env)).result,
          s.mark env ++ (ftpDispatch env (s.taken env)).trace ++
            [.completed s.requestCommand (ftpDispatch env (s.taken env)).result]) := by
  rw [ftpServicePoll, if_neg (by simp [running]), if_neg (by simp [pending])]
  simp only [ftpProcess_taken env s begun]
  split
  next unfinished => exact .inl ⟨unfinished, rfl⟩
  next done => exact .inr ⟨done, rfl⟩

/-- A poll that goes on with a request leaves what its dispatch leaves, up to the bookkeeping of the
request, and at most completes it behind the dispatch. -/
theorem ftpServicePoll_leaves (running : s.requestCancel = false) (pending : s.requestPending = true)
    (begun : s.requestStarted = false → (ftpBegin env s).1 = true) :
    ∃ status requestPending requestStarted, ∃ rest : List Entry,
      (rest = [] ∨ ∃ command result, rest = [.completed command result]) ∧
      (requestPending = true → (ftpDispatch env (s.taken env)).result = .pending) ∧
      ftpServicePoll env s =
        ({ (ftpDispatch env (s.taken env)).service with status, requestPending, requestStarted },
          s.mark env ++ (ftpDispatch env (s.taken env)).trace ++ rest) := by
  obtain ⟨unfinished, polled⟩ | ⟨-, polled⟩ := ftpServicePoll_taken env s running pending begun
  · let after := (ftpDispatch env (s.taken env)).service
    refine ⟨after.status, after.requestPending, after.requestStarted, [], .inl rfl,
      fun _ => unfinished, ?_⟩
    rw [polled, List.append_nil]
  · exact ⟨_, false, false, _, .inr ⟨_, _, rfl⟩, nofun, polled⟩

/-- What a poll finds: a cancelled request, none, one whose text is refused, or one to go on
with. -/
theorem ftpServicePoll_cases :
    (s.requestCancel = true ∧ ftpServicePoll env s =
      ({ s with
          ftp := ftpReset, requestPending := false, requestCancel := false
          requestStarted := false }.answer s.requestStatusAddress .abort,
        [.completed s.requestCommand .abort])) ∨
    (s.requestPending = false ∧ ftpServicePoll env s = (s, [])) ∨
    (s.requestCancel = false ∧ s.requestPending = true ∧ ftpServicePoll env s =
      ({ s with
          ftp := (ftpBegin env s).2, requestPending := false
          requestStarted := false }.answer s.requestStatusAddress .param,
        [.began s.requestCommand (ftpBegin env s).2.request,
          .completed s.requestCommand .param])) ∨
    (s.requestCancel = false ∧ s.requestPending = true ∧
      (s.requestStarted = false → (ftpBegin env s).1 = true)) := by
  cases cancelled : s.requestCancel with
  | true => exact .inl ⟨rfl, by rw [ftpServicePoll, if_pos cancelled]⟩
  | false =>
    refine .inr ?_
    cases pending : s.requestPending with
    | false =>
      refine .inl ⟨rfl, ?_⟩
      rw [ftpServicePoll, if_neg (by simp [cancelled]), if_pos (by simp [pending])]
    | true =>
      refine .inr ?_
      by_cases begun : s.requestStarted = false → (ftpBegin env s).1 = true
      · exact .inr ⟨rfl, rfl, begun⟩
      · refine .inl ⟨rfl, rfl, ?_⟩
        obtain ⟨fresh, refused⟩ := Classical.not_imp.mp begun
        rw [ftpServicePoll, if_neg (by simp [cancelled]), if_neg (by simp [pending])]
        simp [ftpProcess, fresh, refused, cancelled]

/-- What completes is the request in progress. -/
theorem ftpServicePoll_completed (running : s.requestCancel = false)
    (pending : s.requestPending = true)
    (begun : s.requestStarted = false → (ftpBegin env s).1 = true) (command : UInt8)
    (result : Result) : .completed command result ∈ (ftpServicePoll env s).2 ↔
      command = s.requestCommand ∧ result = (ftpDispatch env (s.taken env)).result ∧
        result ≠ .pending := by
  have quiet := completed_not_mem env s command result
  obtain ⟨unfinished, polled⟩ | ⟨done, polled⟩ := ftpServicePoll_taken env s running pending begun
  · rw [polled]
    simp only [quiet, false_iff]
    rintro ⟨-, rfl, finished⟩
    exact finished unfinished
  · rw [polled, List.mem_append, or_iff_right quiet, List.mem_singleton]
    constructor
    · rintro ⟨⟩
      exact ⟨rfl, rfl, done⟩
    · rintro ⟨rfl, rfl, -⟩
      rfl

/-- A request ends otherwise than aborted or refused only if the poll went on with it. -/
theorem completed_taken {command : UInt8} {result : Result}
    (ended : .completed command result ∈ (ftpServicePoll env s).2) (notAbort : result ≠ .abort)
    (notParam : result ≠ .param) : s.requestCancel = false ∧ s.requestPending = true ∧
      (s.requestStarted = false → (ftpBegin env s).1 = true) := by
  rcases ftpServicePoll_cases env s with ⟨-, polled⟩ | ⟨-, polled⟩ | ⟨-, -, polled⟩ | taken
  · rw [polled, List.mem_singleton] at ended
    cases ended
    contradiction
  · rw [polled] at ended
    cases ended
  · rw [polled] at ended
    simp only [List.mem_cons, List.not_mem_nil, reduceCtorEq, or_false, false_or] at ended
    cases ended
    contradiction
  · exact taken

end Dispatch

inductive Event.IsCallback : Event → Prop
  | controlError : IsCallback .controlError
  | controlConnected (ok : Bool) : IsCallback (.controlConnected ok)
  | controlReceive (received : Received) : IsCallback (.controlReceive received)
  | dataError : IsCallback .dataError
  | dataConnected (ok : Bool) : IsCallback (.dataConnected ok)
  | dataReceive (received : Received) : IsCallback (.dataReceive received)
  | dnsFound (address : Option UInt32) : IsCallback (.dnsFound address)

theorem run_append (s : Service) (left right : List Event) :
    s.run (left ++ right) =
      (((s.run left).1.run right).1, (s.run left).2 ++ ((s.run left).1.run right).2) := by
  induction left generalizing s with
  | nil => rfl
  | cons event left ih => simp [Service.run, ih, List.append_assoc]

/-- The address of a request block, from the command pointer. -/
def commandBlock (discRamBase : Nat) (pointer : UInt32) : Nat :=
  (pointer - (0xff0000 : UInt32) + discRamBase.toUInt32).toNat

section Sessions

/-- A request block where the command pointer `&FFF000` finds it. -/
def requestBlock (command : UInt8) (text : String) : Memory UInt8 :=
  Memory.write (fun _ => 0) 0xf000 (command :: ascii text)

def roomyEnv : Env := ⟨0, true, .found 0x0A000001, true, true, true, 1460, true⟩

def openedRun : List Event :=
  [.host (requestBlock ftpCmdOpen "host"), .command 0xfff000 0, .poll roomyEnv,
    .controlConnected true, .controlReceive (.payload (ascii "220 ready\r\n")), .poll roomyEnv]

/-- A `GET` whose first poll finds the send buffer full, up to its transfer line. -/
def negotiatedRun : List Event :=
  [.host (requestBlock ftpCmdExec "GET file"), .command 0xfff000 0,
    .poll { roomyEnv with sndbuf := 0 }, .poll roomyEnv,
    .controlReceive (.payload (ascii "229 passive (|||4000|)\r\n")), .poll roomyEnv,
    .dataConnected true, .poll roomyEnv]

end Sessions

end Pi1MHz.FtpService
