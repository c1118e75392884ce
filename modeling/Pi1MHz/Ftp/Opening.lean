import Pi1MHz.Ftp.Polls

/-! What a poll of an `OPEN` can do: wait, ask for the address, or connect to the one it holds. No
other request makes a control connection. -/
namespace Pi1MHz.FtpService

section Elsewhere
variable (env : Env) (ftp : Ftp)

/-- No control connection is made. -/
def Outcome.Stays (o : Outcome) : Prop := ∀ pcb, .connectControl pcb ∉ o.actions

theorem waiting_stays : (waiting env ftp).Stays := by
  intro pcb
  simp [waiting]

theorem sendLine_stays (line : List UInt8) (next : Operation) :
    (sendLine env ftp line next).Stays := by
  intro pcb
  obtain ⟨-, waits⟩ | ⟨-, deadline, sent⟩ := sendLine_cases env ftp line next
  · rw [waits]
    exact waiting_stays env ftp pcb
  · rw [sent]
    simp

theorem awaitReply_stays {next : Nat → Ftp → Outcome} (stays : ∀ code ftp, (next code ftp).Stays) :
    (awaitReply env ftp next).Stays := by
  intro pcb
  obtain ⟨-, waits⟩ | ⟨code, after, -, replied⟩ := awaitReply_cases env ftp next
  · rw [waits]
    exact waiting_stays env ftp pcb
  · rw [replied]
    have rest := stays code after pcb
    simpa using rest

theorem ftpStartData_stays : (ftpStartData env ftp).Stays := by
  intro pcb
  obtain ⟨after, failed⟩ | ⟨deadline, started⟩ := ftpStartData_cases env ftp
  · rw [failed]
    simp
  · rw [started]
    simp

theorem stays_of_nil {o : Outcome} (nothing : o.actions = []) : o.Stays := by
  intro pcb
  rw [nothing]
  exact List.not_mem_nil

theorem ftpExecPoll_stays : (ftpExecPoll env ftp).Stays := by
  unfold ftpExecPoll
  split
  · exact stays_of_nil rfl
  · split
    case h_1 =>
      dsimp only
      split
      · exact stays_of_nil rfl
      · exact sendLine_stays _ _ _ _
    case h_2 => exact sendLine_stays _ _ _ _
    case h_3 => exact awaitReply_stays env ftp fun _ _ => stays_of_nil rfl
    case h_4 => exact sendLine_stays _ _ _ _
    case h_5 =>
      refine awaitReply_stays env ftp fun code ftp => ?_
      split
      · exact ftpStartData_stays _ _
      · split
        · exact stays_of_nil rfl
        · exact stays_of_nil rfl
    case h_6 => exact sendLine_stays _ _ _ _
    case h_7 =>
      refine awaitReply_stays env ftp fun code ftp => ?_
      split
      · exact ftpStartData_stays _ _
      · exact stays_of_nil rfl
    case h_8 =>
      split
      · exact stays_of_nil rfl
      · split
        · exact waiting_stays _ _
        · exact sendLine_stays _ _ _ _
    case h_9 => exact sendLine_stays _ _ _ _
    case h_10 =>
      refine awaitReply_stays env ftp fun code ftp => ?_
      split
      · exact stays_of_nil rfl
      · exact stays_of_nil rfl
    case h_11 => exact stays_of_nil rfl

theorem ftpTransferReply_stays : (ftpTransferReply env ftp).Stays :=
  awaitReply_stays env ftp fun _ _ => stays_of_nil rfl

theorem ftpReadPoll_stays (scratch cp : Nat) (jim : Memory UInt8) :
    (ftpReadPoll env scratch cp ftp jim).1.Stays := by
  unfold ftpReadPoll
  dsimp only
  generalize (if (jim (cp + 1)).toNat < ftp.ring.count then (jim (cp + 1)).toNat
    else ftp.ring.count % 256) = count
  split_ifs
  · exact stays_of_nil rfl
  · exact stays_of_nil rfl
  · exact stays_of_nil rfl
  · exact waiting_stays _ _
  · exact ftpTransferReply_stays _ _

theorem ftpWritePoll_stays (scratch cp : Nat) (jim : Memory UInt8) :
    (ftpWritePoll env scratch cp ftp jim).Stays := by
  unfold ftpWritePoll
  dsimp only
  split_ifs
  · exact ftpTransferReply_stays _ _
  · exact stays_of_nil rfl
  · exact waiting_stays _ _
  · exact stays_of_nil rfl
  · exact waiting_stays _ _
  · exact stays_of_nil rfl
  · intro pcb
    simp

theorem ftpClose_stays : (ftpClose env ftp).Stays := by
  intro pcb
  unfold ftpClose
  dsimp only
  split
  · simp
  · simp

/-- Only an `OPEN` makes control connections. -/
theorem ftpDispatch_stays (s : Service) (other : s.requestCommand ≠ ftpCmdOpen) (pcb : Pcb) :
    .did (.connectControl pcb) ∉ (ftpDispatch env s).trace := by
  have lifted : ∀ o : Outcome, o.Stays → .did (.connectControl pcb) ∉ o.actions.map Entry.did := by
    intro o stays member
    rw [List.mem_map] at member
    obtain ⟨action, done, same⟩ := member
    cases same
    exact stays pcb done
  unfold ftpDispatch
  dsimp only
  rw [if_neg other]
  split
  · exact lifted _ (ftpExecPoll_stays _ _)
  · split
    · exact lifted _ (ftpReadPoll_stays _ _ _ _ _)
    · split
      · exact lifted _ (ftpWritePoll_stays _ _ _ _ _)
      · split
        · exact lifted _ (ftpClose_stays _ _)
        · exact lifted ⟨.param, s.ftp, []⟩ (stays_of_nil rfl)

end Elsewhere

section Opening
variable (env : Env) (port : Nat) (ftp : Ftp)

/-- Resolving either makes no connection, and stays or fails, or connects to the address it
holds. -/
theorem openResolving_cases :
    (∃ result after, openResolving env port ftp = ⟨result, after, []⟩ ∧
      (after = ftp ∨ after.state = .error)) ∨
    ftp.dnsOk = true ∧ ∃ deadline, openResolving env port ftp =
      ⟨.pending, { ftp with control := some ⟨ftp.address, port⟩, state := .connecting, deadline },
        [.connectControl ⟨ftp.address, port⟩]⟩ := by
  unfold openResolving openWaiting ftpError ftpStartControl
  split_ifs with unanswered expired failed noPcb refused
  · exact .inl ⟨_, _, rfl, .inr rfl⟩
  · exact .inl ⟨_, _, rfl, .inl rfl⟩
  · exact .inl ⟨_, _, rfl, .inr rfl⟩
  · exact .inl ⟨_, _, rfl, .inr rfl⟩
  · exact .inl ⟨_, _, rfl, .inr rfl⟩
  · exact .inr ⟨by simpa using failed, _, rfl⟩

/-- A poll that finds the session closed waits for the network, or asks for the address. -/
theorem ftpOpenPoll_closed (closed : ftp.state = .closed) :
    (∃ result after number, ftpOpenPoll env port ftp = (⟨result, after, []⟩, number) ∧
      after.request = ftp.request ∧ after.dnsOk = ftp.dnsOk ∧ after.address = ftp.address ∧
      after.state = .closed) ∨
    ∃ host number, ftpParseUrl ftp.request = some (host, number) ∧
      ((∃ after, ftpOpenPoll env port ftp = (⟨.dns, after, [.resolve host]⟩, number) ∧
        after.state = .error) ∨
      ∃ after, ftpOpenPoll env port ftp = ({ openResolving env number after with
          actions := .resolve host :: (openResolving env number after).actions }, number) ∧
        after.request = ftp.request ∧ after.state = .dns ∧
        ((∃ address, env.dns = .found address ∧ after.address = address) ∨
          env.dns = .inProgress ∧ after.dnsOk = ftp.dnsOk ∧ after.address = ftp.address)) := by
  simp only [ftpOpenPoll, closed]
  cases parsed : ftpParseUrl ftp.request with
  | none => exact .inl ⟨_, _, _, rfl, rfl, rfl, rfl, closed⟩
  | some target =>
    obtain ⟨host, number⟩ := target
    dsimp only
    split
    next => exact .inl ⟨_, _, _, rfl, rfl, rfl, rfl, rfl⟩
    next =>
      refine .inr ⟨host, number, rfl, ?_⟩
      cases answer : env.dns with
      | found address => exact .inr ⟨_, rfl, rfl, rfl, .inl ⟨address, rfl, rfl⟩⟩
      | inProgress => exact .inr ⟨_, rfl, rfl, rfl, .inr ⟨rfl, rfl, rfl⟩⟩
      | failed => exact .inl ⟨_, rfl, rfl⟩

/-- Once it has connected, an `OPEN` makes no other connection and does not look up again. -/
theorem ftpOpenPoll_later (notClosed : ftp.state ≠ .closed) (notDns : ftp.state ≠ .dns) :
    (ftpOpenPoll env port ftp).1.Stays ∧
      ¬((ftpOpenPoll env port ftp).1.ftp.state = .closed ∨
        (ftpOpenPoll env port ftp).1.ftp.state = .dns) := by
  unfold ftpOpenPoll
  cases state : ftp.state with
  | closed => exact absurd state notClosed
  | dns => exact absurd state notDns
  | error => exact ⟨stays_of_nil rfl, by simp [state]⟩
  | connecting =>
    dsimp only [openWaiting]
    split
    · exact ⟨stays_of_nil rfl, by simp [ftpError]⟩
    · exact ⟨stays_of_nil rfl, by simp [state]⟩
  | ready => exact ⟨stays_of_nil rfl, by simp [state]⟩
  | greeting =>
    dsimp only
    cases found : ftpReply ftp with
    | none =>
      dsimp only [openWaiting]
      split
      · exact ⟨stays_of_nil rfl, by simp [ftpError]⟩
      · exact ⟨stays_of_nil rfl, by simp [state]⟩
    | some reply =>
      obtain ⟨code, after⟩ := reply
      dsimp only
      refine ⟨fun pcb => by simp, ?_⟩
      split
      · simp [ftpError]
      · simp

end Opening

section Requests
variable {s : Service}

/-- The first poll of an `OPEN` starts a new session. -/
theorem ftpBegin_open (env : Env) (isOpen : s.requestCommand = ftpCmdOpen)
    (begun : (ftpBegin env s).1 = true) :
    (ftpBegin env s).2.state = .closed ∧ (ftpBegin env s).2.dnsOk = false := by
  simp only [ftpBegin, isOpen, true_or, if_true] at begun ⊢
  split at begun
  next refused => simp [begun] at refused
  next accepted =>
    rw [if_neg accepted]
    exact ⟨rfl, rfl⟩

theorem ftpDispatch_open (env : Env) (isOpen : s.requestCommand = ftpCmdOpen) :
    (ftpDispatch env s).service.ftp = (ftpOpenPoll env s.controlPort s.ftp).1.ftp ∧
      (ftpDispatch env s).service.controlPort = (ftpOpenPoll env s.controlPort s.ftp).2 ∧
      (ftpDispatch env s).trace =
        (ftpOpenPoll env s.controlPort s.ftp).1.actions.map Entry.did := by
  unfold ftpDispatch
  dsimp only
  rw [if_pos isOpen]
  exact ⟨rfl, rfl, rfl⟩

/-- A poll that goes on with a request leaves the session as its dispatch does. -/
theorem ftpServicePoll_dispatched (env : Env) (running : s.requestCancel = false)
    (pending : s.requestPending = true)
    (begun : s.requestStarted = false → (ftpBegin env s).1 = true) :
    ∃ rest : List Entry, (rest = [] ∨ ∃ command result, rest = [.completed command result]) ∧
      (ftpServicePoll env s).2 = s.mark env ++ (ftpDispatch env (s.taken env)).trace ++ rest ∧
      (ftpServicePoll env s).1.ftp = (ftpDispatch env (s.taken env)).service.ftp ∧
      (ftpServicePoll env s).1.controlPort = (ftpDispatch env (s.taken env)).service.controlPort ∧
      (ftpServicePoll env s).1.requestCommand = s.requestCommand := by
  obtain ⟨ftp, taken⟩ := taken_fields env s
  obtain ⟨_, _, _, _, same, -⟩ := ftpDispatch_frame env (s.taken env)
  have command : (ftpDispatch env (s.taken env)).service.requestCommand = s.requestCommand := by
    rw [same, taken]
  obtain ⟨_, _, _, rest, ending, -, polled⟩ := ftpServicePoll_leaves env s running pending begun
  rw [polled]
  exact ⟨rest, ending, rfl, rfl, rfl, command⟩

theorem connectControl_mark (env : Env) (pcb : Pcb) :
    .did (.connectControl pcb) ∉ s.mark env := by
  unfold Service.mark
  split <;> simp

end Requests

end Pi1MHz.FtpService
