import Mathlib.Data.List.TakeWhile
import Pi1MHz.Ftp.Session

/-! Which reply an `EXEC` of a simple command returns. -/
namespace Pi1MHz.FtpService

/-- The exchange of an `EXEC` past its first poll: a simple command has sent nothing yet or its
one line, and read no reply. -/
structure Exchanging (ftp : Ftp) (server : Server) : Prop where
  begun : ftp.operation ≠ .none
  simple : ftpIsTransfer ftp.request = none →
    ftp.operation = .simpleSend ∨ ftp.operation = .simpleReply
  sending : ftp.operation = .simpleSend →
    server.owed = server.leftover ∧ server.lines = server.mark
  sent : ftp.operation = .simpleReply → server.lines = server.mark + 1 ∧
    ∃ replies, server.owed = server.leftover ++ replies ∧
      ∀ owed ∈ replies, owed.line = server.lines

section Exchanging
variable {env : Env} {ftp after : Ftp} {server : Server} {answer : List UInt8 → List Reply}

/-- The operations of a negotiation. -/
theorem exchanging_transfer (transfer : ftpIsTransfer ftp.request ≠ none)
    (begun : ftp.operation ≠ .none) (notSend : ftp.operation ≠ .simpleSend)
    (notReply : ftp.operation ≠ .simpleReply) : Exchanging ftp server :=
  ⟨begun, fun simple => absurd simple transfer, fun at_ => absurd at_ notSend,
    fun at_ => absurd at_ notReply⟩

/-- The one line of a simple command has been sent. -/
theorem exchanging_sent (answer : List UInt8 → List Reply) (line : List UInt8)
    (operation : after.operation = .simpleReply) (owed : server.owed = server.leftover)
    (lines : server.lines = server.mark) :
    Exchanging after (server.observe answer (.did (.wrote line))) := by
  refine ⟨by rw [operation]; decide, fun _ => .inr operation, fun at_ => ?_, fun _ => ?_⟩
  · rw [operation] at at_
    cases at_
  · refine ⟨?_, (answer line).map fun reply => ⟨server.lines + 1, reply⟩, ?_, ?_⟩
    · simp [Server.observe, Server.send, lines]
    · simp [Server.observe, Server.send, owed]
    · intro owed member
      obtain ⟨reply, -, rfl⟩ := List.mem_map.mp member
      rfl

/-- What `FTP_OP_NONE` goes on with. -/
theorem ftpPrepare_operation (accepted : (ftpPrepare ftp).1 = true) :
    (ftpPrepare ftp).2.operation = .simpleSend ∨
      (ftpPrepare ftp).2.operation = .epsvSend ∧
        ftpIsTransfer (ftpPrepare ftp).2.request ≠ none := by
  cases found : ftpIsTransfer (ftpUpperWord ftp.request) with
  | some transfer =>
    simp only [ftpPrepare, storeLine, found] at accepted ⊢
    split at accepted
    · cases accepted
    next valid =>
      rw [if_neg valid]
      split at accepted
      · cases accepted
      next fits =>
        rw [if_neg fits]
        exact .inr ⟨rfl, by simp [found]⟩
  | none =>
    simp only [ftpPrepare, storeLine, found] at accepted ⊢
    by_cases fits : transferCommandSize ≤ (ftpMakeCommand (ftpUpperWord ftp.request)).length
    · rw [if_pos fits] at accepted
      cases accepted
    · rw [if_neg fits]
      exact .inl rfl

/-- The first poll of an `EXEC`. -/
theorem exchanging_first (fresh : ftp.operation = .none) (owed : server.owed = server.leftover)
    (lines : server.lines = server.mark) (unfinished : (ftpExecPoll env ftp).result = .pending) :
    Exchanging (ftpExecPoll env ftp).ftp
      (server.observeAll answer ((ftpExecPoll env ftp).actions.map .did)) := by
  have ready := ftpExecPoll_ready env ftp (by simp [unfinished])
  rw [ftpExecPoll, if_neg (not_not.mpr ready), fresh] at unfinished ⊢
  simp only at unfinished ⊢
  cases accepted : (ftpPrepare ftp).1 with
  | false =>
    rw [accepted] at unfinished
    cases unfinished
  | true =>
    simp only [Bool.not_true, Bool.false_eq_true, if_false]
    obtain ⟨-, blocked⟩ | ⟨-, deadline, sent⟩ :=
      sendLine_cases env (ftpPrepare ftp).2 (ftpPrepare ftp).2.transferCommand .simpleReply
    · rw [blocked]
      rcases ftpPrepare_operation accepted with simple | ⟨operation, transfer⟩
      · refine ⟨?_, fun _ => .inl simple, fun _ => ⟨owed, lines⟩, fun at_ => ?_⟩
        · simp [waiting, simple]
        · simp [waiting, simple] at at_
      · apply exchanging_transfer transfer
        all_goals simp [operation]
    · rw [sent]
      exact exchanging_sent answer _ rfl owed lines

/-- A sending case of the negotiation. -/
theorem Exchanging.send (exchanging : Exchanging ftp server) {line : List UInt8} {next : Operation}
    (transfer : ftpIsTransfer ftp.request ≠ none) (begun : next ≠ .none)
    (notSend : next ≠ .simpleSend) (notReply : next ≠ .simpleReply) :
    Exchanging (sendLine env ftp line next).ftp
      (server.observeAll answer ((sendLine env ftp line next).actions.map .did)) := by
  obtain ⟨-, blocked⟩ | ⟨-, deadline, sent⟩ := sendLine_cases env ftp line next
  · rw [blocked]
    exact exchanging
  · rw [sent]
    exact exchanging_transfer transfer begun notSend notReply

/-- A receiving case of the negotiation. -/
theorem Exchanging.await (exchanging : Exchanging ftp server) {next : Nat → Ftp → Outcome}
    (moved : ∀ code text reply (server : Server),
      let o := next code { ftp with controlText := text, lastReply := reply }
      o.result = .pending → Exchanging o.ftp (server.observeAll answer (o.actions.map .did)))
    (unfinished : (awaitReply env ftp next).result = .pending) :
    Exchanging (awaitReply env ftp next).ftp
      (server.observeAll answer ((awaitReply env ftp next).actions.map .did)) := by
  obtain ⟨-, waits⟩ | ⟨code, after, found, replied⟩ := awaitReply_cases env ftp next
  · rw [waits]
    exact exchanging
  · rw [replied] at unfinished ⊢
    obtain ⟨text, reply, rfl⟩ := ftpReply_fields ftp found
    exact moved code text reply _ unfinished

theorem exchanging_startData (transfer : ftpIsTransfer ftp.request ≠ none)
    (operation : ftp.operation = .dataConnect)
    (unfinished : (ftpStartData env ftp).result = .pending) :
    Exchanging (ftpStartData env ftp).ftp
      (server.observeAll answer ((ftpStartData env ftp).actions.map .did)) := by
  obtain ⟨after, failed⟩ | ⟨deadline, started⟩ := ftpStartData_cases env ftp
  · rw [failed] at unfinished
    cases unfinished
  · rw [started]
    refine exchanging_transfer ?_ ?_ ?_ ?_
    · exact transfer
    all_goals simp [operation]

/-- A later poll of an `EXEC`. -/
theorem Exchanging.exec (exchanging : Exchanging ftp server)
    (unfinished : (ftpExecPoll env ftp).result = .pending) :
    Exchanging (ftpExecPoll env ftp).ftp
      (server.observeAll answer ((ftpExecPoll env ftp).actions.map .did)) := by
  have ready := ftpExecPoll_ready env ftp (by simp [unfinished])
  rw [ftpExecPoll, if_neg (not_not.mpr ready)] at unfinished ⊢
  have transfer (notSend : ftp.operation ≠ .simpleSend) (notReply : ftp.operation ≠ .simpleReply) :
      ftpIsTransfer ftp.request ≠ none := by
    intro simple
    rcases exchanging.simple simple with at_ | at_
    · exact notSend at_
    · exact notReply at_
  cases at_ : ftp.operation with
  | none => exact absurd at_ exchanging.begun
  | simpleSend =>
    obtain ⟨owed, lines⟩ := exchanging.sending at_
    obtain ⟨-, blocked⟩ | ⟨-, deadline, sent⟩ :=
      sendLine_cases env ftp ftp.transferCommand .simpleReply
    · simp only [blocked]
      exact exchanging
    · simp only [sent]
      exact exchanging_sent answer _ rfl owed lines
  | simpleReply =>
    rw [at_] at unfinished
    refine exchanging.await ?_ unfinished
    intro code text reply server o done
    cases done
  | epsvReply =>
    have transfer := transfer (by simp [at_]) (by simp [at_])
    rw [at_] at unfinished
    refine exchanging.await ?_ unfinished
    intro code text reply server
    simp only
    split
    · exact fun unfinished => exchanging_startData transfer rfl unfinished
    · split
      · exact fun _ => exchanging_transfer transfer (by simp) (by simp) (by simp)
      · intro done
        cases done
  | pasvReply =>
    have transfer := transfer (by simp [at_]) (by simp [at_])
    rw [at_] at unfinished
    refine exchanging.await ?_ unfinished
    intro code text reply server
    simp only
    split
    · exact fun unfinished => exchanging_startData transfer rfl unfinished
    · intro done
      cases done
  | dataConnect =>
    have transfer := transfer (by simp [at_]) (by simp [at_])
    rw [at_] at unfinished
    simp only at unfinished ⊢
    split at unfinished
    · cases unfinished
    next fine =>
      rw [if_neg fine]
      split at unfinished
      next waits =>
        rw [if_pos waits]
        exact exchanging
      next connected =>
        rw [if_neg connected]
        have moved : Exchanging { ftp with operation := .transferSend } server :=
          exchanging_transfer transfer (by simp) (by simp) (by simp)
        exact moved.send transfer (by simp) (by simp) (by simp)
  | transferReply =>
    rw [at_] at unfinished
    refine exchanging.await ?_ unfinished
    intro code text reply server
    simp only
    split
    · intro done
      cases done
    · intro done
      cases done
  | epsvSend =>
    exact exchanging.send (transfer (by simp [at_]) (by simp [at_])) (by simp) (by simp) (by simp)
  | pasvSend =>
    exact exchanging.send (transfer (by simp [at_]) (by simp [at_])) (by simp) (by simp) (by simp)
  | transferSend =>
    exact exchanging.send (transfer (by simp [at_]) (by simp [at_])) (by simp) (by simp) (by simp)
  | _ =>
    rw [at_] at unfinished
    cases unfinished

end Exchanging

theorem Exchanging.congr {ftp after : Ftp} {server : Server} (exchanging : Exchanging ftp server)
    (operation : after.operation = ftp.operation) (request : after.request = ftp.request)
    (wire : List UInt8) : Exchanging after { server with wire } := by
  refine ⟨?_, ?_, ?_, ?_⟩
  · rw [operation]
    exact exchanging.begun
  · rw [operation, request]
    exact exchanging.simple
  · rw [operation]
    exact exchanging.sending
  · rw [operation]
    exact exchanging.sent

/-- What holds in every state of a session. -/
structure Correlated (x : Session) : Prop where
  linked : Linked x.service.ftp x.server
  numbered : x.server.Numbered
  exec : x.service.requestPending = true → x.service.requestStarted = true →
    x.service.requestCommand = ftpCmdExec → x.service.ftp.state = .ready →
    Exchanging x.service.ftp x.server

namespace Correlated
variable {x : Session}

/-- A poll of an `EXEC` that stays pending. -/
theorem exec_pending (correlated : Correlated x) {env : Env} {answer : List UInt8 → List Reply}
    (pending : x.service.requestPending = true)
    (begun : x.service.requestStarted = false → (ftpBegin env x.service).1 = true)
    (isExec : x.service.requestCommand = ftpCmdExec)
    (unfinished : (ftpDispatch env (x.service.taken env)).result = .pending) :
    Exchanging (ftpDispatch env (x.service.taken env)).service.ftp
      (x.server.observeAll answer
        (x.service.mark env ++ (ftpDispatch env (x.service.taken env)).trace)) := by
  cases started : x.service.requestStarted with
  | true =>
    have taken : x.service.taken env = x.service := by rw [Service.taken, if_pos started]
    have mark : x.service.mark env = [] := by rw [Service.mark, if_pos started]
    rw [taken, mark, List.nil_append]
    rw [taken] at unfinished
    have dispatched := ftpDispatch_exec env x.service isExec
    rw [dispatched] at unfinished ⊢
    have execUnfinished : (ftpExecPoll env x.service.ftp).result = .pending := unfinished
    have ready := ftpExecPoll_ready env x.service.ftp (by simp [execUnfinished])
    exact (correlated.exec pending started isExec ready).exec execUnfinished
  | false =>
    have taken : x.service.taken env =
        { x.service with ftp := (ftpBegin env x.service).2, requestStarted := true } := by
      rw [Service.taken, if_neg (by simp [started])]
    have mark : x.service.mark env =
        [.began x.service.requestCommand (ftpBegin env x.service).2.request] := by
      rw [Service.mark, if_neg (by simp [started])]
    have dispatched := (congrArg (ftpDispatch env) taken).trans (ftpDispatch_exec env _ isExec)
    rw [dispatched] at unfinished ⊢
    obtain ⟨text, deadline, record⟩ := ftpBegin_exec env x.service isExec (begun started)
    have fresh : (ftpBegin env x.service).2.operation = .none := by rw [record]
    rw [mark, observeAll_append]
    exact exchanging_first fresh rfl rfl unfinished

theorem poll (correlated : Correlated x) (env : Env) (answer : List UInt8 → List Reply) :
    Correlated (x.step (.poll env answer)) := by
  refine ⟨links_poll correlated.linked, correlated.numbered.observeAll _, ?_⟩
  intro pending' started' isExec' ready'
  simp only [Session.step] at pending' started' isExec' ready' ⊢
  rcases ftpServicePoll_cases env x.service with
    ⟨-, polled⟩ | ⟨idle, polled⟩ | ⟨-, -, polled⟩ | ⟨running, pending, begun⟩
  · rw [polled] at pending'
    cases pending'
  · rw [polled, idle] at pending'
    cases pending'
  · rw [polled] at pending'
    cases pending'
  obtain ⟨unfinished, polled⟩ | ⟨-, polled⟩ := ftpServicePoll_taken env x.service running pending begun
  · simp only [polled] at isExec' ⊢
    obtain ⟨ftp, controlPort, jim, actions, service, -⟩ := ftpDispatch_frame env (x.service.taken env)
    have isExec : x.service.requestCommand = ftpCmdExec := by
      rw [service] at isExec'
      rw [← isExec', Service.taken]
      split <;> rfl
    exact correlated.exec_pending pending begun isExec unfinished
  · rw [polled] at pending'
    cases pending'

/-- A change of the session record that keeps the operation and the request. -/
theorem callback (correlated : Correlated x) {ftp : Ftp} (linked : Linked ftp x.server)
    (operation : ftp.operation = x.service.ftp.operation)
    (request : ftp.request = x.service.ftp.request)
    (state : ftp.state = .ready → x.service.ftp.state = .ready) :
    Correlated { x with service := { x.service with ftp } } := by
  refine ⟨linked, correlated.numbered, fun pending started isExec ready => ?_⟩
  exact (correlated.exec pending started isExec (state ready)).congr operation request x.server.wire

theorem onControl (correlated : Correlated x) (callback : Ftp → Ftp)
    (linked : Linked (callback x.service.ftp) x.server)
    (operation : (callback x.service.ftp).operation = x.service.ftp.operation)
    (request : (callback x.service.ftp).request = x.service.ftp.request)
    (state : (callback x.service.ftp).state = .ready → x.service.ftp.state = .ready) :
    Correlated { x with service := x.service.onControl callback } := by
  rw [Service.onControl]
  split
  · exact correlated.callback linked operation request state
  · exact correlated

/-- A callback of the data connection leaves the control connection alone. -/
theorem onData (correlated : Correlated x) (callback : Ftp → Ftp)
    (same : ∀ ftp, (callback ftp).state = ftp.state ∧ (callback ftp).control = ftp.control ∧
      (callback ftp).controlConnected = ftp.controlConnected ∧
      (callback ftp).controlText = ftp.controlText ∧ (callback ftp).operation = ftp.operation ∧
      (callback ftp).request = ftp.request) :
    Correlated { x with service := x.service.onData callback } := by
  obtain ⟨state, control, connected, text, operation, request⟩ := same x.service.ftp
  rw [Service.onData]
  split
  · refine correlated.callback (correlated.linked.congr state control connected text) operation
      request ?_
    rw [state]
    exact id
  · exact correlated

theorem command (correlated : Correlated x) (pointer : UInt32) (address : Nat) :
    Correlated { x with service := ftpServiceCommand pointer address x.service } := by
  simp only [ftpServiceCommand]
  split
  · split
    next idle =>
      refine ⟨linked_reset [] [] 0 _, correlated.numbered, fun pending => ?_⟩
      have busy : x.service.requestPending = true := pending
      simp [busy] at idle
    next => exact ⟨correlated.linked, correlated.numbered, correlated.exec⟩
  · split
    · exact ⟨correlated.linked, correlated.numbered, correlated.exec⟩
    · refine ⟨correlated.linked, correlated.numbered, fun _ started => ?_⟩
      cases started

theorem aside (correlated : Correlated x) {event : Event} (isAside : event.Aside) :
    Correlated (x.step (.event event isAside)) := by
  have failing (ftp : Ftp) (state : ftp.state = .error) :
      ftp.state = .ready → x.service.ftp.state = .ready := by
    rw [state]
    intro same
    cases same
  cases isAside with
  | command pointer address => exact correlated.command pointer address
  | host jim => exact ⟨correlated.linked, correlated.numbered, correlated.exec⟩
  | init =>
    refine ⟨correlated.linked, correlated.numbered, fun pending => ?_⟩
    cases pending
  | controlError =>
    refine correlated.onControl _ ?_ rfl rfl (failing _ rfl)
    exact correlated.linked.fail rfl (fun attached => by cases attached) rfl rfl
  | controlRefused =>
    refine correlated.onControl _ ?_ rfl rfl (failing _ rfl)
    exact correlated.linked.fail rfl (fun attached => by cases attached) rfl rfl
  | controlFault =>
    refine correlated.onControl (fun ftp => ftpControlReceive ftp .fault) ?_ rfl rfl (failing _ rfl)
    exact correlated.linked.fail rfl id rfl rfl
  | controlEof =>
    refine correlated.onControl (fun ftp => ftpControlReceive ftp .eof) ?_ rfl rfl id
    exact correlated.linked.congr rfl rfl rfl rfl
  | dataError => exact correlated.onData _ fun _ => ⟨rfl, rfl, rfl, rfl, rfl, rfl⟩
  | dataConnected ok =>
    cases ok <;> exact correlated.onData _ fun _ => ⟨rfl, rfl, rfl, rfl, rfl, rfl⟩
  | dataReceive received =>
    refine correlated.onData (fun ftp => (ftpDataReceive ftp received).2) fun ftp => ?_
    cases received with
    | fault => exact ⟨rfl, rfl, rfl, rfl, rfl, rfl⟩
    | eof => exact ⟨rfl, rfl, rfl, rfl, rfl, rfl⟩
    | payload bytes =>
      simp only [ftpDataReceive]
      split <;> exact ⟨rfl, rfl, rfl, rfl, rfl, rfl⟩
  | dnsFound address =>
    cases address <;>
      exact correlated.callback (correlated.linked.congr rfl rfl rfl rfl) rfl rfl id

/-- The connection is there: the greeting is all that is owed. -/
theorem connected (correlated : Correlated x) (greeting : List Reply) :
    Correlated (x.step (.connected greeting)) := by
  simp only [Session.step]
  split
  next absent =>
    simp only [Bool.and_eq_true, Bool.not_eq_true'] at absent
    obtain ⟨text, wire, owed⟩ := correlated.linked.quiet absent.1 absent.2
    simp only [Service.step, Service.onControl, absent.1, if_true, ftpControlConnected]
    refine ⟨⟨?_, fun _ unconnected => ?_, fun _ => rfl, fun _ => ?_⟩, ⟨?_, ?_⟩, ?_⟩
    · rintro (state | state) <;> cases state
    · cases unconnected
    · simp [Server.send, text, wire, owed, Function.comp_def]
    · intro found member
      simp only [Server.send, owed, List.nil_append, List.mem_map] at member ⊢
      obtain ⟨reply, -, rfl⟩ := member
      exact Nat.le_refl _
    · exact correlated.numbered.leftover
    · intro _ _ _ ready
      cases ready
  · exact correlated

/-- Text arrives in pieces of any size. -/
theorem arrive (correlated : Correlated x) (count : Nat) : Correlated (x.step (.arrive count)) := by
  simp only [Session.step]
  split
  next live =>
    simp only [Bool.and_eq_true] at live
    simp only [Service.step, Service.onControl, live.1, if_true, ftpControlReceive]
    split
    · refine ⟨⟨?_, fun _ unconnected => ?_, ?_, ?_⟩, ⟨correlated.numbered.owed,
        correlated.numbered.leftover⟩, ?_⟩
      · rintro (state | state) <;> cases state
      · rw [live.2] at unconnected
        cases unconnected
      · rintro (state | state) <;> cases state
      · rintro (state | state) <;> cases state
      · intro _ _ _ ready
        cases ready
    · refine ⟨⟨fun state => ?_, fun _ unconnected => ?_, correlated.linked.connected,
        fun state => ?_⟩, ⟨correlated.numbered.owed, correlated.numbered.leftover⟩, ?_⟩
      · have detached := (correlated.linked.detached state).1
        rw [detached] at live
        cases live.1
      · rw [live.2] at unconnected
        cases unconnected
      · have stream := correlated.linked.stream state
        simpa using stream
      · intro pending started isExec ready
        apply (correlated.exec pending started isExec ready).congr
        · rfl
        · rfl
  · exact correlated

theorem step (correlated : Correlated x) (move : Move) : Correlated (x.step move) := by
  cases move with
  | poll env answer => exact correlated.poll env answer
  | connected greeting => exact correlated.connected greeting
  | arrive count => exact correlated.arrive count
  | event event isAside => exact correlated.aside isAside

theorem run (correlated : Correlated x) (moves : List Move) : Correlated (x.run moves) := by
  induction moves generalizing x with
  | nil => exact correlated
  | cons move moves ih => exact ih (correlated.step move)

theorem start (discRamBase : Nat) (jim : Memory UInt8) : Correlated (Session.start discRamBase jim) := by
  refine ⟨linked_reset [] [] 0 _,
    ⟨by simp [Session.start, Server.fresh], by simp [Session.start, Server.fresh]⟩, fun pending => ?_⟩
  cases pending

end Correlated

/-- The text that the host finds after its request. -/
def Service.response (s : Service) : List UInt8 :=
  (s.jim.read (s.requestPointer + 2) (ftpTextMax + 1)).takeWhile (· ≠ 0)

/-- The host reads back the last reply. -/
theorem ftpResponse_text (cp : Nat) (ftp : Ftp) (jim : Memory UInt8)
    (clean : ∀ byte ∈ ftp.lastReply, byte ≠ 0) (fits : ftp.lastReply.length ≤ ftpTextMax) :
    ((ftpResponse cp ftp jim).read (cp + 2) (ftpTextMax + 1)).takeWhile (· ≠ 0) =
      ftp.lastReply := by
  have whole : (ftp.lastReply.takeWhile (· ≠ 0)).take ftpTextMax = ftp.lastReply := by
    rw [List.takeWhile_eq_self_iff.mpr (by simpa using clean), List.take_of_length_le fits]
  simp only [ftpResponse, whole]
  have size : ftpTextMax + 1 = (ftp.lastReply.length + 1) + (ftpTextMax - ftp.lastReply.length) := by
    omega
  rw [size, Memory.read_add, show cp + 2 = cp + 1 + 1 from rfl, Memory.read_write_inside]
  · have stop : (ftp.lastReply ++ [0]).take (ftp.lastReply.length + 1) = ftp.lastReply ++ [0] :=
      List.take_of_length_le (by simp)
    rw [List.drop_one, List.tail_cons, stop, List.append_assoc,
      List.takeWhile_append_of_pos (by simpa using clean)]
    simp
  · simp
    omega

/-- The first poll of an `EXEC` does not end it well. -/
theorem ftpExecPoll_fresh (env : Env) {ftp : Ftp} (fresh : ftp.operation = .none) :
    (ftpExecPoll env ftp).result ≠ .ok := by
  rw [ftpExecPoll]
  split
  · simp
  · rw [fresh]
    simp only
    split
    · simp
    · obtain ⟨-, blocked⟩ | ⟨-, deadline, sent⟩ :=
        sendLine_cases env (ftpPrepare ftp).2 (ftpPrepare ftp).2.transferCommand .simpleReply
      · rw [blocked, waiting]
        split <;> simp
      · rw [sent]
        simp

/-- A simple command ends well with a reply read. -/
theorem Exchanging.exec_ok {env : Env} {ftp : Ftp} {server : Server}
    (exchanging : Exchanging ftp server) (simple : ftpIsTransfer ftp.request = none)
    (ok : (ftpExecPoll env ftp).result = .ok) :
    ftp.operation = .simpleReply ∧ ∃ code after, ftpReply ftp = some (code, after) ∧
      (ftpExecPoll env ftp).ftp.lastReply = after.lastReply := by
  have ready := ftpExecPoll_ready env ftp (by simp [ok])
  rw [ftpExecPoll, if_neg (not_not.mpr ready)] at ok ⊢
  rcases exchanging.simple simple with at_ | at_
  · rw [at_] at ok
    obtain ⟨-, blocked⟩ | ⟨-, deadline, sent⟩ :=
      sendLine_cases env ftp ftp.transferCommand .simpleReply
    · simp only [blocked, waiting] at ok
      split at ok <;> cases ok
    · simp only [sent] at ok
      cases ok
  · rw [at_] at ok ⊢
    refine ⟨rfl, ?_⟩
    obtain ⟨-, waits⟩ | ⟨code, after, found, replied⟩ := awaitReply_cases env ftp
      fun _ ftp => ⟨.ok, { ftp with operation := .none }, []⟩
    · simp only [waits, waiting] at ok
      split at ok <;> cases ok
    · exact ⟨code, after, found, by simp only [replied]⟩

/-- A completed `EXEC` of a simple command returns the oldest reply owed, and that is the reply to
the line it sent exactly if no other reply was owed when it was taken up. -/
theorem Correlated.exec_ok {x : Session} (correlated : Correlated x) {env : Env}
    (ended : .completed ftpCmdExec .ok ∈ (ftpServicePoll env x.service).2)
    (simple : ftpIsTransfer x.service.ftp.request = none) :
    ∃ first others, x.server.owed = first :: others ∧ x.server.lines = x.server.mark + 1 ∧
      (ftpServicePoll env x.service).1.response = first.reply.encode.take ftpTextMax ∧
      (first.line = x.server.mark + 1 ↔ x.server.leftover = []) := by
  obtain ⟨running, pending, begun⟩ := completed_taken env x.service ended (by simp) (by simp)
  obtain ⟨isExec, ok, -⟩ :=
    (ftpServicePoll_completed env x.service running pending begun _ _).mp ended
  have started : x.service.requestStarted = true := by
    by_contra notStarted
    have taken : x.service.taken env =
        { x.service with ftp := (ftpBegin env x.service).2, requestStarted := true } := by
      rw [Service.taken, if_neg notStarted]
    have dispatched := (congrArg (ftpDispatch env) taken).trans (ftpDispatch_exec env _ isExec.symm)
    obtain ⟨text, deadline, record⟩ :=
      ftpBegin_exec env x.service isExec.symm (begun (by simpa using notStarted))
    have fresh : (ftpBegin env x.service).2.operation = .none := by rw [record]
    rw [dispatched] at ok
    exact ftpExecPoll_fresh env fresh ok.symm
  have taken : x.service.taken env = x.service := by rw [Service.taken, if_pos started]
  have dispatched := ftpDispatch_exec env x.service isExec.symm
  obtain ⟨unfinished, -⟩ | ⟨-, polled⟩ := ftpServicePoll_taken env x.service running pending begun
  · rw [← ok] at unfinished
    cases unfinished
  rw [taken, dispatched] at ok polled
  have fine : (ftpExecPoll env x.service.ftp).result = .ok := ok.symm
  have ready := ftpExecPoll_ready env x.service.ftp (by simp [fine])
  have exchanging := correlated.exec pending started isExec.symm ready
  obtain ⟨sent, code, after, found, kept⟩ := exchanging.exec_ok simple fine
  obtain ⟨first, others, owed, text⟩ := correlated.linked.oldest ready found
  obtain ⟨lines, replies, queue, own⟩ := exchanging.sent sent
  refine ⟨first, others, owed, lines, ?_, ?_⟩
  · have reply := kept.trans text
    have clean : ∀ byte ∈ (ftpExecPoll env x.service.ftp).ftp.lastReply, byte ≠ 0 := by
      rw [reply]
      exact fun byte member => first.reply.encode_ne_zero byte (List.mem_of_mem_take member)
    have fits : (ftpExecPoll env x.service.ftp).ftp.lastReply.length ≤ ftpTextMax := by
      rw [reply]
      exact List.length_take_le _ _
    have finished : ¬(ftpExecPoll env x.service.ftp).result = .pending := by simp [fine]
    simp only [polled, Service.response, Service.answer, if_neg finished]
    rw [ftpResponse_text _ _ _ clean fits, reply]
  · rw [owed] at queue
    cases left : x.server.leftover with
    | nil =>
      rw [left, List.nil_append] at queue
      have fromOwn := own first (by rw [← queue]; exact List.mem_cons_self)
      simp [fromOwn, lines]
    | cons old rest =>
      rw [left, List.cons_append] at queue
      obtain ⟨rfl, -⟩ := List.cons.inj queue
      have earlier := correlated.numbered.leftover first (by simp [left])
      simp only [reduceCtorEq, iff_false]
      omega

theorem exec_returns_own_reply_iff (discRamBase : Nat) (jim : Memory UInt8) (moves : List Move)
    (env : Env) :
    let x := (Session.start discRamBase jim).run moves
    .completed ftpCmdExec .ok ∈ (ftpServicePoll env x.service).2 →
    ftpIsTransfer x.service.ftp.request = none →
    ∃ first others, x.server.owed = first :: others ∧ x.server.lines = x.server.mark + 1 ∧
      (ftpServicePoll env x.service).1.response = first.reply.encode.take ftpTextMax ∧
      (first.line = x.server.mark + 1 ↔ x.server.leftover = []) := by
  intro x ended simple
  have correlated : Correlated x := (Correlated.start discRamBase jim).run moves
  exact correlated.exec_ok ended simple

section Sessions

def isTransferLine (line : List UInt8) : Bool :=
  line.take 4 = ascii "RETR" || line.take 4 = ascii "STOR" || line.take 4 = ascii "LIST" ||
    line.take 4 = ascii "NLST"

/-- One final reply to each line, after a preliminary one to a transfer. -/
def Conforming (answer : List UInt8 → List Reply) : Prop :=
  ∀ line, ∃ final : Reply, 200 ≤ final.code ∧
    if isTransferLine line then
      ∃ preliminary : Reply, preliminary.code < 200 ∧ answer line = [preliminary, final]
    else answer line = [final]

def Move.Conforms : Move → Prop
  | .poll _ answer => Conforming answer
  | .connected greeting => ∃ ready : Reply, ready.code = 220 ∧ greeting = [ready]
  | _ => True

def readyReply : Reply := .single 220 (ascii "ready") (by decide) (by decide +kernel)
def pwdReply : Reply := .single 257 (ascii "current") (by decide) (by decide +kernel)
def systReply : Reply := .single 215 (ascii "UNIX") (by decide) (by decide +kernel)
def openingReply : Reply := .single 150 (ascii "opening") (by decide) (by decide +kernel)
def doneReply : Reply := .single 226 (ascii "done") (by decide) (by decide +kernel)

def plainAnswer (line : List UInt8) : List Reply :=
  if isTransferLine line then [openingReply, doneReply]
  else if line = ascii "PWD\r\n" then [pwdReply]
  else [systReply]

theorem plainAnswer_conforming : Conforming plainAnswer := by
  intro line
  simp only [plainAnswer]
  split
  · exact ⟨doneReply, by decide, openingReply, by decide, rfl⟩
  · split
    · exact ⟨pwdReply, by decide, rfl⟩
    · exact ⟨systReply, by decide, rfl⟩

def requestMoves (command : UInt8) (text : String) : List Move :=
  [.event (.host (requestBlock command text)) (.host _),
    .event (.command 0xfff000 0) (.command _ _)]

/-- A session that is open, with a `PWD` sent. -/
def askedMoves : List Move :=
  requestMoves ftpCmdOpen "host" ++
    [.poll roomyEnv plainAnswer, .connected [readyReply], .arrive 100, .poll roomyEnv plainAnswer] ++
    requestMoves ftpCmdExec "PWD" ++ [.poll roomyEnv plainAnswer]

theorem promptMoves_return_own_reply :
    let x := (Session.start 0 fun _ => 0).run (askedMoves ++ [.arrive 100])
    x.server.leftover = [] ∧ ∃ first others, x.server.owed = first :: others ∧
      first.line = x.server.mark + 1 ∧
      (ftpServicePoll roomyEnv x.service).1.response = first.reply.encode.take ftpTextMax := by
  have unowed : ((Session.start 0 fun _ => 0).run (askedMoves ++ [.arrive 100])).server.leftover = [] :=
    List.isEmpty_iff.mp (by decide +kernel)
  obtain ⟨first, others, owed, -, text, own⟩ := exec_returns_own_reply_iff 0 (fun _ => 0)
    (askedMoves ++ [.arrive 100]) roomyEnv (by decide +kernel) (by decide +kernel)
  exact ⟨unowed, first, others, owed, own.mpr unowed, text⟩

def lateEnv : Env := { roomyEnv with now := 40000 }

/-- The `PWD` times out, its reply arrives, and a `SYST` is sent. -/
def staleMoves : List Move :=
  askedMoves ++ [.poll lateEnv plainAnswer, .arrive 100] ++ requestMoves ftpCmdExec "SYST" ++
    [.poll lateEnv plainAnswer]

theorem staleMoves_return_earlier_reply :
    (∀ move ∈ staleMoves, move.Conforms) ∧
      let x := (Session.start 0 fun _ => 0).run staleMoves
      .completed ftpCmdExec .ok ∈ (ftpServicePoll lateEnv x.service).2 ∧
        x.service.ftp.request = ascii "SYST" ∧ ftpIsTransfer x.service.ftp.request = none ∧
        x.server.owed.map Owed.line = [1, 2] ∧ x.server.mark = 1 ∧
        ∀ owed ∈ x.server.owed, owed.line = x.server.mark + 1 →
          (ftpServicePoll lateEnv x.service).1.response ≠ owed.reply.encode.take ftpTextMax := by
  refine ⟨?_, ?_⟩
  · simp only [staleMoves, askedMoves, requestMoves, List.cons_append, List.nil_append,
      List.forall_mem_cons, Move.Conforms, plainAnswer_conforming, true_and]
    exact ⟨⟨readyReply, rfl, rfl⟩, by simp⟩
  · decide +kernel

end Sessions

end Pi1MHz.FtpService
