import Pi1MHz.Ftp.Polls
import Pi1MHz.Ftp.Replies

/-! The service and an FTP server that answers its lines in order, with the replies underway for
any time. -/
namespace Pi1MHz.FtpService

/-- A reply with the number of the line it answers, 0 for the greeting. -/
structure Owed where
  line : Nat
  reply : Reply

/-- The server's side of the control connection. `owed` are the replies that the service has
not read yet and `wire` is the part of them that has not arrived. `mark` and `leftover` are the
lines received and the replies owed when the request in progress was taken up. -/
structure Server where
  lines : Nat
  owed : List Owed
  wire : List UInt8
  mark : Nat
  leftover : List Owed

namespace Server

/-- A new connection. -/
def fresh : Server := ⟨0, [], [], 0, []⟩

def send (server : Server) (replies : List Reply) : Server :=
  { server with
    owed := server.owed ++ replies.map fun reply => ⟨server.lines, reply⟩
    wire := server.wire ++ encodeAll replies }

/-- What an entry of the trace means to the server, which answers a line with `answer`. -/
def observe (answer : List UInt8 → List Reply) (server : Server) : Entry → Server
  | .began _ _ => { server with mark := server.lines, leftover := server.owed }
  | .did (.connectControl _) => fresh
  | .did (.wrote line) => { server with lines := server.lines + 1 }.send (answer line)
  | .did (.replied _ _) => { server with owed := server.owed.tail }
  | _ => server

def observeAll (answer : List UInt8 → List Reply) (server : Server) (trace : List Entry) : Server :=
  trace.foldl (observe answer) server

end Server

structure Session where
  service : Service
  server : Server

/-- The events that bring nothing from the server. -/
inductive Event.Aside : Event → Prop
  | command (pointer : UInt32) (address : Nat) : Aside (.command pointer address)
  | host (jim : Memory UInt8) : Aside (.host jim)
  | init : Aside .init
  | controlError : Aside .controlError
  | controlRefused : Aside (.controlConnected false)
  | controlFault : Aside (.controlReceive .fault)
  | controlEof : Aside (.controlReceive .eof)
  | dataError : Aside .dataError
  | dataConnected (ok : Bool) : Aside (.dataConnected ok)
  | dataReceive (received : Received) : Aside (.dataReceive received)
  | dnsFound (address : Option UInt32) : Aside (.dnsFound address)

/-- What happens in a session. A poll comes with the answers to a line it may write, an arrival
with the number of bytes it brings. -/
inductive Move
  | poll (env : Env) (answer : List UInt8 → List Reply)
  | connected (greeting : List Reply)
  | arrive (count : Nat)
  | event (event : Event) (aside : event.Aside)

namespace Session

def start (discRamBase : Nat) (jim : Memory UInt8) : Session :=
  ⟨ftpServiceInit discRamBase jim, .fresh⟩

/-- lwIP reports a connection once, and delivers on it only afterwards. -/
def step (x : Session) : Move → Session
  | .poll env answer =>
    let polled := ftpServicePoll env x.service
    ⟨polled.1, x.server.observeAll answer polled.2⟩
  | .connected greeting =>
    if x.service.ftp.control.isSome && !x.service.ftp.controlConnected then
      ⟨(x.service.step (.controlConnected true)).1, x.server.send greeting⟩
    else x
  | .arrive count =>
    if x.service.ftp.control.isSome && x.service.ftp.controlConnected then
      ⟨(x.service.step (.controlReceive (.payload (x.server.wire.take count)))).1,
        { x.server with wire := x.server.wire.drop count }⟩
    else x
  | .event event _ => { x with service := (x.service.step event).1 }

def run (x : Session) (moves : List Move) : Session := moves.foldl step x

end Session

/-- The session of the service is at one with the connection: as long as it is usable, the text
received and the text underway are the replies owed. -/
structure Linked (ftp : Ftp) (server : Server) : Prop where
  detached : ftp.state = .closed ∨ ftp.state = .dns →
    ftp.control = none ∧ ftp.controlConnected = false ∧ ftp.controlText = []
  quiet : ftp.control.isSome = true → ftp.controlConnected = false →
    ftp.controlText = [] ∧ server.wire = [] ∧ server.owed = []
  connected : ftp.state = .greeting ∨ ftp.state = .ready → ftp.controlConnected = true
  stream : ftp.state = .greeting ∨ ftp.state = .ready →
    ftp.controlText ++ server.wire = encodeAll (server.owed.map Owed.reply)

/-- Replies are owed for lines received, and leftovers for those received before the request. -/
structure Server.Numbered (server : Server) : Prop where
  owed : ∀ owed ∈ server.owed, owed.line ≤ server.lines
  leftover : ∀ owed ∈ server.leftover, owed.line ≤ server.mark

section Linked
variable {ftp after : Ftp} {server : Server}

theorem linked_reset (request lastReply : List UInt8) (deadline : UInt32) (server : Server) :
    Linked { ftpReset with request, lastReply, deadline } server := by
  refine ⟨fun _ => ⟨rfl, rfl, rfl⟩, fun attached => ?_, ?_, ?_⟩
  · cases attached
  · rintro (state | state) <;> cases state
  · rintro (state | state) <;> cases state

/-- A session that is looking up its host has no connection yet. -/
theorem linked_resolving (state : ftp.state = .dns) (control : ftp.control = none)
    (connected : ftp.controlConnected = false) (text : ftp.controlText = []) : Linked ftp server := by
  refine ⟨fun _ => ⟨control, connected, text⟩, fun attached => ?_, ?_, ?_⟩
  · rw [control] at attached
    cases attached
  · rw [state]
    rintro (same | same) <;> cases same
  · rw [state]
    rintro (same | same) <;> cases same

/-- The link depends on four fields of the session. -/
theorem Linked.congr (linked : Linked ftp server) (state : after.state = ftp.state)
    (control : after.control = ftp.control)
    (connected : after.controlConnected = ftp.controlConnected)
    (text : after.controlText = ftp.controlText) : Linked after server := by
  refine ⟨?_, ?_, ?_, ?_⟩
  · rw [state, control, connected, text]
    exact linked.detached
  · rw [control, connected, text]
    exact linked.quiet
  · rw [state, connected]
    exact linked.connected
  · rw [state, text]
    exact linked.stream

theorem Linked.deadline (linked : Linked ftp server) (env : Env) :
    Linked (ftpSetDeadline env ftp) server := by
  rw [ftpSetDeadline]
  exact linked.congr rfl rfl rfl rfl

/-- A session that fails keeps nothing to rely on. -/
theorem Linked.fail (linked : Linked ftp server) (state : after.state = .error)
    (control : after.control.isSome = true → ftp.control.isSome = true)
    (connected : after.controlConnected = ftp.controlConnected)
    (text : after.controlText = ftp.controlText) : Linked after server := by
  refine ⟨?_, ?_, ?_, ?_⟩
  · rw [state]
    rintro (same | same) <;> cases same
  · rw [connected, text]
    exact fun attached => linked.quiet (control attached)
  · rw [state]
    rintro (same | same) <;> cases same
  · rw [state]
    rintro (same | same) <;> cases same

/-- A line written is answered. -/
theorem Linked.wrote (linked : Linked ftp server) (ready : ftp.state = .ready)
    (answer : List UInt8 → List Reply) (line : List UInt8) :
    Linked ftp (server.observe answer (.did (.wrote line))) := by
  have live := linked.connected (.inr ready)
  have stream := linked.stream (.inr ready)
  refine ⟨linked.detached, fun _ absent => ?_, linked.connected, fun _ => ?_⟩
  · rw [live] at absent
    cases absent
  · simp only [Server.observe, Server.send, ← List.append_assoc, stream]
    simp [encodeAll, Function.comp_def, List.flatMap_append]

/-- A reply read is the oldest one owed. -/
theorem Linked.replied (linked : Linked ftp server) {code : Nat}
    (found : ftpReply ftp = some (code, after)) (answer : List UInt8 → List Reply)
    (text : List UInt8) : Linked after (server.observe answer (.did (.replied code text))) := by
  obtain ⟨⟨code', length⟩, scanned, same⟩ := Option.map_eq_some_iff.mp found
  cases same
  have nonempty : ftp.controlText ≠ [] := by
    intro empty
    rw [empty, scanReply] at scanned
    simp at scanned
  refine ⟨fun state => ?_, fun attached absent => ?_, linked.connected, fun state => ?_⟩
  · exact absurd (linked.detached state).2.2 nonempty
  · exact absurd (linked.quiet attached absent).1 nonempty
  · obtain ⟨first, others, split, -, -, left⟩ := scanReply_stream (linked.stream state) scanned
    simp only [Server.observe, List.map_tail, split, List.tail_cons]
    exact left

/-- The text kept of a reply read is that of the oldest one owed. -/
theorem Linked.oldest (linked : Linked ftp server) (ready : ftp.state = .ready) {code : Nat}
    (found : ftpReply ftp = some (code, after)) :
    ∃ first others, server.owed = first :: others ∧
      after.lastReply = first.reply.encode.take ftpTextMax := by
  obtain ⟨⟨code', length⟩, scanned, same⟩ := Option.map_eq_some_iff.mp found
  cases same
  obtain ⟨reply, replies, split, -, taken, -⟩ :=
    scanReply_stream (linked.stream (.inr ready)) scanned
  obtain ⟨first, others, owed, rfl, -⟩ := List.map_eq_cons_iff.mp split
  exact ⟨first, others, owed, by rw [taken]⟩

end Linked

section Polls
variable {env : Env} {ftp : Ftp} {server : Server} {answer : List UInt8 → List Reply}

/-- The link after an outcome, when the server has seen its actions. -/
def Outcome.Links (o : Outcome) (server : Server) (answer : List UInt8 → List Reply) : Prop :=
  Linked o.ftp (server.observeAll answer (o.actions.map .did))

theorem links_sendLine (linked : Linked ftp server) (ready : ftp.state = .ready) (line : List UInt8)
    (next : Operation) : (sendLine env ftp line next).Links server answer := by
  obtain ⟨-, blocked⟩ | ⟨-, deadline, sent⟩ := sendLine_cases env ftp line next
  · rw [blocked]
    exact linked
  · rw [sent]
    exact (linked.wrote ready answer line).congr rfl rfl rfl rfl

theorem links_awaitReply (linked : Linked ftp server) {next : Nat → Ftp → Outcome}
    (rest : ∀ code after server, Linked after server → (next code after).Links server answer) :
    (awaitReply env ftp next).Links server answer := by
  obtain ⟨-, waits⟩ | ⟨code, after, found, replied⟩ := awaitReply_cases env ftp next
  · rw [waits]
    exact linked
  · rw [replied]
    exact rest code after _ (linked.replied found answer after.lastReply)

theorem links_startData (linked : Linked ftp server) : (ftpStartData env ftp).Links server answer := by
  simp only [ftpStartData]
  split
  · exact linked.congr rfl rfl rfl rfl
  · split
    · exact linked.congr rfl rfl rfl rfl
    · exact linked.congr rfl rfl rfl rfl

theorem ftpPrepare_congr (ftp : Ftp) : (ftpPrepare ftp).2.state = ftp.state ∧
    (ftpPrepare ftp).2.control = ftp.control ∧
    (ftpPrepare ftp).2.controlConnected = ftp.controlConnected ∧
    (ftpPrepare ftp).2.controlText = ftp.controlText := by
  simp only [ftpPrepare, storeLine]
  split
  · split
    · exact ⟨rfl, rfl, rfl, rfl⟩
    · split <;> exact ⟨rfl, rfl, rfl, rfl⟩
  · split
    · exact ⟨rfl, rfl, rfl, rfl⟩
    · split <;> exact ⟨rfl, rfl, rfl, rfl⟩

theorem links_exec (linked : Linked ftp server) : (ftpExecPoll env ftp).Links server answer := by
  by_cases ready : ftp.state = .ready
  swap
  · rw [ftpExecPoll, if_pos ready]
    exact linked
  rw [ftpExecPoll, if_neg (not_not.mpr ready)]
  cases at_ : ftp.operation with
  | none =>
    obtain ⟨state, control, connected, text⟩ := ftpPrepare_congr ftp
    have prepared := linked.congr state control connected text
    simp only
    split
    · exact prepared
    · exact links_sendLine prepared (state.trans ready) _ _
  | simpleReply => exact links_awaitReply linked fun _ _ _ linked => linked.congr rfl rfl rfl rfl
  | epsvReply =>
    apply links_awaitReply linked
    intro code after server linked
    split
    · exact links_startData (linked.congr rfl rfl rfl rfl)
    · split
      · exact linked.congr rfl rfl rfl rfl
      · exact linked
  | pasvReply =>
    apply links_awaitReply linked
    intro code after server linked
    split
    · exact links_startData (linked.congr rfl rfl rfl rfl)
    · exact linked
  | dataConnect =>
    simp only
    split
    · exact linked
    · split
      · exact linked
      · have moved : Linked { ftp with operation := .transferSend } server :=
          linked.congr rfl rfl rfl rfl
        exact links_sendLine moved ready _ _
  | transferReply =>
    apply links_awaitReply linked
    intro code after server linked
    split <;> exact linked.congr rfl rfl rfl rfl
  | simpleSend => exact links_sendLine linked ready _ _
  | epsvSend => exact links_sendLine linked ready _ _
  | pasvSend => exact links_sendLine linked ready _ _
  | transferSend => exact links_sendLine linked ready _ _
  | _ => exact linked

theorem links_openWaiting (linked : Linked ftp server) :
    (openWaiting env ftp).Links server answer := by
  rw [openWaiting]
  split
  · exact linked.fail rfl id rfl rfl
  · exact linked

/-- Resolving ends with the new connection, on which nothing has been sent yet. -/
theorem links_openResolving (linked : Linked ftp server) (resolving : ftp.state = .dns) (port : Nat) :
    (openResolving env port ftp).Links server answer := by
  obtain ⟨control, connected, text⟩ := linked.detached (.inr resolving)
  rw [openResolving]
  split
  · exact links_openWaiting linked
  · split
    · exact linked.fail rfl id rfl rfl
    · rw [ftpStartControl]
      split
      · exact linked.fail rfl (fun attached => by cases attached) rfl rfl
      · split
        · exact linked.fail rfl (fun attached => by cases attached) rfl rfl
        · refine ⟨?_, fun _ _ => ⟨text, rfl, rfl⟩, ?_, ?_⟩
          all_goals rintro (state | state) <;> cases state

theorem links_open (linked : Linked ftp server) (port : Nat) :
    (ftpOpenPoll env port ftp).1.Links server answer := by
  rw [ftpOpenPoll]
  split
  · exact linked
  next closed =>
    obtain ⟨control, connected, text⟩ := linked.detached (.inl closed)
    split
    · exact linked
    · simp only
      split
      · exact linked.congr rfl rfl rfl rfl
      · split
        · refine links_openResolving ?_ rfl _
          exact linked_resolving rfl control connected text
        · refine links_openResolving ?_ rfl _
          exact linked_resolving rfl control connected text
        · exact linked.fail rfl id rfl rfl
  next dns => exact links_openResolving linked dns port
  · exact links_openWaiting linked
  next greeting =>
    split
    · exact links_openWaiting linked
    next code after found =>
      have popped := linked.replied found answer after.lastReply
      simp only
      split
      · exact popped.fail rfl id rfl rfl
      · obtain ⟨text, reply, record⟩ := ftpReply_fields ftp found
        have state : after.state = .greeting := by rw [record]; exact greeting
        refine ⟨?_, popped.quiet, fun _ => popped.connected (.inl state),
          fun _ => popped.stream (.inl state)⟩
        rintro (same | same) <;> cases same
  · exact linked

theorem links_transferReply (linked : Linked ftp server) :
    (ftpTransferReply env ftp).Links server answer :=
  links_awaitReply linked fun _ _ _ linked => linked.congr rfl rfl rfl rfl

theorem links_read (linked : Linked ftp server) (scratch cp : Nat) (jim : Memory UInt8) :
    (ftpReadPoll env scratch cp ftp jim).1.Links server answer := by
  have drained : ∀ ring, Linked { ftp with ring } server := fun _ => linked.congr rfl rfl rfl rfl
  simp only [ftpReadPoll]
  generalize (if (jim (cp + 1)).toNat < ftp.ring.count then (jim (cp + 1)).toNat
    else ftp.ring.count % 256) = count
  split
  · exact linked
  · split
    · exact (drained _).deadline env
    · split
      · exact drained _
      · split
        · exact drained _
        · refine links_transferReply ?_
          exact linked.congr rfl rfl rfl rfl

theorem links_write (linked : Linked ftp server) (scratch cp : Nat) (jim : Memory UInt8) :
    (ftpWritePoll env scratch cp ftp jim).Links server answer := by
  simp only [ftpWritePoll]
  split
  · exact links_transferReply linked
  · split
    · exact linked
    · split
      · split
        · exact linked
        · have closing : Linked { ftp with data := none, operation := .writeFinish } server :=
            linked.congr rfl rfl rfl rfl
          exact closing.deadline env
      · split
        · exact linked
        · split
          · exact linked
          · exact linked.deadline env

theorem links_close : (ftpClose env ftp).Links server answer := by
  rw [ftpClose]
  split
  · exact linked_reset _ _ _ _
  · exact linked_reset _ _ _ _

end Polls

section Server
variable {server : Server} {answer : List UInt8 → List Reply}

theorem observeAll_append (left right : List Entry) :
    server.observeAll answer (left ++ right) =
      (server.observeAll answer left).observeAll answer right := List.foldl_append

theorem Server.Numbered.observe (numbered : server.Numbered) (entry : Entry) :
    (server.observe answer entry).Numbered := by
  cases entry with
  | began command request => exact ⟨numbered.owed, numbered.owed⟩
  | completed command result => exact numbered
  | did action =>
    cases action with
    | connectControl pcb => exact ⟨by simp [Server.observe, fresh], by simp [Server.observe, fresh]⟩
    | wrote line =>
      refine ⟨?_, numbered.leftover⟩
      intro owed member
      simp only [Server.observe, send, List.mem_append, List.mem_map] at member ⊢
      rcases member with earlier | ⟨reply, -, rfl⟩
      · exact (numbered.owed owed earlier).trans (Nat.le_succ _)
      · exact Nat.le_refl _
    | replied code text =>
      exact ⟨fun owed member => numbered.owed owed (List.mem_of_mem_tail member), numbered.leftover⟩
    | _ => exact numbered

theorem Server.Numbered.observeAll (numbered : server.Numbered) (trace : List Entry) :
    (server.observeAll answer trace).Numbered := by
  induction trace generalizing server with
  | nil => exact numbered
  | cons entry trace ih => exact ih (numbered.observe entry)

end Server

section ServiceLinks
variable {env : Env} {s : Service} {server : Server} {answer : List UInt8 → List Reply}

theorem links_dispatch (linked : Linked s.ftp server) :
    Linked (ftpDispatch env s).service.ftp (server.observeAll answer (ftpDispatch env s).trace) := by
  simp only [ftpDispatch]
  split
  · exact links_open linked _
  · split
    · exact links_exec linked
    · split
      · exact links_read linked _ _ _
      · split
        · exact links_write linked _ _ _
        · split
          · exact links_close
          · exact linked

theorem links_begin (linked : Linked s.ftp server) : Linked (ftpBegin env s).2 server := by
  have copied : Linked (if s.requestCommand = ftpCmdOpen ∨ s.requestCommand = ftpCmdExec then
      ftpCopyRequest s.requestPointer s.jim s.ftp else (true, s.ftp)).2 server := by
    split
    · rw [ftpCopyRequest]
      split
      · exact linked
      · exact linked.congr rfl rfl rfl rfl
    · exact linked
  simp only [ftpBegin]
  generalize (if s.requestCommand = ftpCmdOpen ∨ s.requestCommand = ftpCmdExec then
    ftpCopyRequest s.requestPointer s.jim s.ftp else (true, s.ftp)) = copy at copied ⊢
  split
  · exact copied
  · split
    · exact linked_reset _ _ _ _
    · split
      · have reset : Linked { copy.2 with operation := .none } server :=
          copied.congr rfl rfl rfl rfl
        exact reset.deadline env
      · exact copied.deadline env

/-- The mark of a request changes neither what is owed nor what is underway. -/
theorem Linked.began {ftp : Ftp} (linked : Linked ftp server) (command : UInt8)
    (request : List UInt8) : Linked ftp (server.observe answer (.began command request)) :=
  ⟨linked.detached, linked.quiet, linked.connected, linked.stream⟩

theorem links_process (linked : Linked s.ftp server) :
    Linked (ftpProcess env s).service.ftp (server.observeAll answer (ftpProcess env s).trace) := by
  rw [ftpProcess]
  split
  · exact links_dispatch linked
  · have begun : Linked (ftpBegin env s).2
        (server.observe answer (.began s.requestCommand (ftpBegin env s).2.request)) :=
      (links_begin linked).began _ _
    simp only
    split
    · exact begun
    · exact links_dispatch begun

theorem links_poll (linked : Linked s.ftp server) :
    Linked (ftpServicePoll env s).1.ftp (server.observeAll answer (ftpServicePoll env s).2) := by
  rw [ftpServicePoll]
  split
  · exact linked_reset [] [] 0 _
  · split
    · exact linked
    · have processed : Linked _ (server.observeAll answer (ftpProcess env s).trace) :=
        links_process linked
      simp only
      split
      · exact processed
      · rw [observeAll_append]
        exact processed

end ServiceLinks

end Pi1MHz.FtpService
