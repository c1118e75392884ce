import Pi1MHz.Foundation.Conduit
import Pi1MHz.Ftp.Polls

/-! An upload: blocks are queued on the data connection by `WRITE` requests, which are polled
again after every refusal. -/
namespace Pi1MHz.FtpService

section WritePoll
variable (env : Env) (scratch cp : Nat) (ftp : Ftp) (jim : Memory UInt8)

/-- The bytes that a `WRITE` asks for. -/
def writeBlock : List UInt8 := jim.read scratch (jim (cp + 1)).toNat

/-- The poll calls `altcp_close` on the data connection, and lwIP accepts. -/
def closesData : Bool :=
  ftp.operation = .write && ftp.transfer = .write && ftp.data.isSome && jim (cp + 1) = 0 && env.closeOk

/-- A poll of a `WRITE` queues nothing, or queues the block and is done, or takes the final reply. -/
theorem ftpWritePoll_cases :
    (∃ result after, ftpWritePoll env scratch cp ftp jim = ⟨result, after, []⟩ ∧
      result ≠ .ok ∧ result ≠ .eof ∧
      (after.operation = ftp.operation ∨
        after.operation = .writeFinish ∧ closesData env cp ftp jim = true)) ∨
    (∃ after, ftpWritePoll env scratch cp ftp jim =
      ⟨.ok, after, [.wroteData (writeBlock scratch cp jim)]⟩ ∧ after.operation = ftp.operation) ∨
    (∃ after code text, ftpWritePoll env scratch cp ftp jim = ⟨.eof, after, [.replied code text]⟩ ∧
      ftp.operation = .writeFinish ∧ after.operation = .none) := by
  have waits : ∃ result, waiting env ftp = ⟨result, ftp, []⟩ ∧ result ≠ .ok ∧ result ≠ .eof := by
    refine ⟨_, by rw [waiting], ?_⟩
    split <;> simp
  obtain ⟨result, waits, notOk, notEof⟩ := waits
  by_cases finish : ftp.operation = .writeFinish
  · rw [ftpWritePoll, if_pos finish, ftpTransferReply]
    obtain ⟨-, waiting⟩ | ⟨code, after, found, replied⟩ := awaitReply_cases env ftp
      fun _ ftp => ⟨.eof, { ftp with operation := .none, transfer := .none }, []⟩
    · rw [waiting, waits]
      exact .inl ⟨result, ftp, rfl, notOk, notEof, .inl rfl⟩
    · rw [replied]
      exact .inr (.inr ⟨_, code, after.lastReply, rfl, finish, rfl⟩)
  rw [ftpWritePoll, if_neg finish]
  by_cases refused : ftp.operation ≠ .write ∨ ftp.transfer ≠ .write ∨ ftp.data = none
  · rw [if_pos refused]
    exact .inl ⟨_, ftp, rfl, by simp, by simp, .inl rfl⟩
  rw [if_neg refused]
  simp only [not_or, not_not] at refused
  obtain ⟨writes, uploads, attached⟩ := refused
  by_cases empty : (jim (cp + 1)).toNat = 0
  · rw [if_pos empty]
    cases closed : env.closeOk with
    | false =>
      rw [Bool.not_false, if_pos rfl, waits]
      exact .inl ⟨result, ftp, rfl, notOk, notEof, .inl rfl⟩
    | true =>
      rw [Bool.not_true, if_neg Bool.false_ne_true]
      refine .inl ⟨_, _, rfl, by simp, by simp, .inr ⟨by rw [ftpSetDeadline], ?_⟩⟩
      have zero : jim (cp + 1) = 0 := UInt8.toNat_inj.mp empty
      simp [closesData, writes, uploads, Option.isSome_iff_ne_none.mpr attached, zero, closed]
  rw [if_neg empty]
  by_cases full : env.sndbuf < (jim (cp + 1)).toNat
  · rw [if_pos full, waits]
    exact .inl ⟨result, ftp, rfl, notOk, notEof, .inl rfl⟩
  rw [if_neg full]
  cases wrote : env.writeOk with
  | false =>
    rw [Bool.not_false, if_pos rfl]
    exact .inl ⟨_, ftp, rfl, by simp, by simp, .inl rfl⟩
  | true =>
    rw [Bool.not_true, if_neg Bool.false_ne_true]
    exact .inr (.inl ⟨_, rfl, by rw [ftpSetDeadline]⟩)

end WritePoll

section ServicePoll
variable (env : Env) (s : Service)

/-- The bytes queued on the data connection along a trace. -/
def queuedIn (trace : List Entry) : List (List UInt8) :=
  trace.filterMap fun
    | .did (.wroteData bytes) => some bytes
    | _ => none

/-- What a poll of a `WRITE` leaves behind, by the outcome of `ftp_write_poll`. -/
structure WritePolled (o : Outcome) : Prop where
  ftp : (ftpServicePoll env s).1.ftp = o.ftp
  base : (ftpServicePoll env s).1.discRamBase = s.discRamBase
  pointer : (ftpServicePoll env s).1.requestPointer = s.requestPointer
  command : (ftpServicePoll env s).1.requestCommand = s.requestCommand
  running : (ftpServicePoll env s).1.requestCancel = s.requestCancel
  pending : (ftpServicePoll env s).1.requestPending = true → o.result = .pending
  jim : o.result = .pending → (ftpServicePoll env s).1.jim = s.jim
  queued : queuedIn (ftpServicePoll env s).2 = queuedIn (o.actions.map .did)
  replied : ∀ code text, .replied code text ∈ o.actions →
    .did (.replied code text) ∈ (ftpServicePoll env s).2
  completed : ∀ result, .completed ftpCmdWrite result ∈ (ftpServicePoll env s).2 ↔
    result = o.result ∧ result ≠ .pending

theorem ftpDispatch_write (isWrite : s.requestCommand = ftpCmdWrite) :
    ftpDispatch env s =
      ⟨(ftpWritePoll env s.scratch s.requestPointer s.ftp s.jim).result,
        { s with
          ftp := (ftpWritePoll env s.scratch s.requestPointer s.ftp s.jim).ftp
          jim := if (ftpWritePoll env s.scratch s.requestPointer s.ftp s.jim).result = .eof then
              ftpResponse s.requestPointer
                (ftpWritePoll env s.scratch s.requestPointer s.ftp s.jim).ftp s.jim
            else s.jim },
        (ftpWritePoll env s.scratch s.requestPointer s.ftp s.jim).actions.map .did⟩ := by
  have notOpen : s.requestCommand ≠ ftpCmdOpen := by rw [isWrite]; decide
  have notExec : s.requestCommand ≠ ftpCmdExec := by rw [isWrite]; decide
  have notRead : s.requestCommand ≠ ftpCmdRead := by rw [isWrite]; decide
  simp only [ftpDispatch, if_neg notOpen, if_neg notExec, if_neg notRead, if_pos isWrite]

theorem queuedIn_append (left right : List Entry) :
    queuedIn (left ++ right) = queuedIn left ++ queuedIn right := List.filterMap_append

theorem queuedIn_mark : queuedIn (s.mark env) = [] := by
  rw [Service.mark]
  split <;> rfl

theorem ftpServicePoll_write (running : s.requestCancel = false) (pending : s.requestPending = true)
    (isWrite : s.requestCommand = ftpCmdWrite) : ∃ deadline,
    WritePolled env s (ftpWritePoll env s.scratch s.requestPointer { s.ftp with deadline } s.jim) := by
  have notOpen : s.requestCommand ≠ ftpCmdOpen := by rw [isWrite]; decide
  have notExec : s.requestCommand ≠ ftpCmdExec := by rw [isWrite]; decide
  obtain ⟨deadline, record⟩ := taken_plain env s notOpen notExec
  refine ⟨deadline, ?_⟩
  have begun : s.requestStarted = false → (ftpBegin env s).1 = true := by
    intro _
    rw [ftpBegin_plain env s notOpen notExec]
  have dispatched := (congrArg (ftpDispatch env) record).trans (ftpDispatch_write env _ isWrite)
  have completes := ftpServicePoll_completed env s running pending begun
  obtain ⟨_, _, _, rest, ending, unfinished, polled⟩ :=
    ftpServicePoll_leaves env s running pending begun
  have unqueued : queuedIn rest = [] := by
    rcases ending with rfl | ⟨_, _, rfl⟩
    · rfl
    · rfl
  constructor
  · rw [polled]
    exact congrArg (fun p => p.service.ftp) dispatched
  · rw [polled]
    exact congrArg (fun p => p.service.discRamBase) dispatched
  · rw [polled]
    exact congrArg (fun p => p.service.requestPointer) dispatched
  · rw [polled]
    exact congrArg (fun p => p.service.requestCommand) dispatched
  · rw [polled]
    exact congrArg (fun p => p.service.requestCancel) dispatched
  · intro still
    rw [polled] at still
    exact (congrArg (fun p => p.result) dispatched).symm.trans (unfinished still)
  · intro waits
    rw [polled, dispatched]
    exact if_neg fun ended => absurd (waits.symm.trans ended) (by decide)
  · rw [polled, dispatched]
    rw [queuedIn_append, queuedIn_append, queuedIn_mark, unqueued, List.append_nil]
    rfl
  · intro code text member
    rw [polled, dispatched]
    exact List.mem_append_left _ (List.mem_append_right _ (List.mem_map_of_mem member))
  · intro result
    rw [completes, dispatched]
    exact and_iff_right isWrite.symm

end ServicePoll

section Callbacks
variable (s : Service) {callback : Ftp → Ftp}

theorem onControl_operation (keeps : ∀ ftp, (callback ftp).operation = ftp.operation) :
    ∃ ftp, s.onControl callback = { s with ftp } ∧ ftp.operation = s.ftp.operation := by
  rw [Service.onControl]
  split
  · exact ⟨_, rfl, keeps _⟩
  · exact ⟨_, rfl, rfl⟩

theorem onData_operation (keeps : ∀ ftp, (callback ftp).operation = ftp.operation) :
    ∃ ftp, s.onData callback = { s with ftp } ∧ ftp.operation = s.ftp.operation := by
  rw [Service.onData]
  split
  · exact ⟨_, rfl, keeps _⟩
  · exact ⟨_, rfl, rfl⟩

theorem ftpControlReceive_operation (ftp : Ftp) (received : Received) :
    (ftpControlReceive ftp received).operation = ftp.operation := by
  cases received with
  | fault => rfl
  | eof => rfl
  | payload bytes =>
    rw [ftpControlReceive]
    split <;> rfl

theorem ftpDataReceive_operation (ftp : Ftp) (received : Received) :
    (ftpDataReceive ftp received).2.operation = ftp.operation := by
  cases received with
  | fault => rfl
  | eof => rfl
  | payload bytes =>
    rw [ftpDataReceive]
    split <;> rfl

/-- A callback changes only the session, and never its operation. -/
theorem callback_operation {event : Event} (isCallback : event.IsCallback) :
    ∃ ftp, (s.step event).1 = { s with ftp } ∧ ftp.operation = s.ftp.operation := by
  cases isCallback with
  | controlError => exact onControl_operation s fun _ => rfl
  | controlConnected ok => exact onControl_operation s fun _ => by cases ok <;> rfl
  | controlReceive received =>
    exact onControl_operation s fun ftp => ftpControlReceive_operation ftp received
  | dataError => exact onData_operation s fun _ => rfl
  | dataConnected ok => exact onData_operation s fun _ => by cases ok <;> rfl
  | dataReceive received => exact onData_operation s fun ftp => ftpDataReceive_operation ftp received
  | dnsFound address => exact ⟨_, rfl, by cases address <;> rfl⟩

end Callbacks

/-- What happens during an upload: the host fills its memory and makes `WRITE` requests, and the
service is polled between callbacks of lwIP. -/
inductive UploadStep
  | host (jim : Memory UInt8)
  | write (pointer : UInt32) (address : Nat)
  | poll (env : Env)
  | callback (event : Event) (isCallback : event.IsCallback)

/-- An upload with the block of the latest request, the blocks acknowledged with `OK`, the bytes
queued on the data connection, and whether its close was accepted. -/
structure Upload where
  service : Service
  block : List UInt8
  acknowledged : List (List UInt8)
  queued : List UInt8
  closed : Bool

namespace Upload

def start (s : Service) : Upload := ⟨s, [], [], [], false⟩

def step (u : Upload) : UploadStep → Upload
  | .host jim => { u with service := (u.service.step (.host jim)).1 }
  | .write pointer address =>
    { u with
      service := (u.service.step (.command pointer address)).1
      block :=
        if u.service.requestPending then u.block
        else writeBlock u.service.scratch (commandBlock u.service.discRamBase pointer) u.service.jim }
  | .poll env =>
    let polled := u.service.step (.poll env)
    { u with
      service := polled.1
      acknowledged :=
        if .completed ftpCmdWrite .ok ∈ polled.2 then u.acknowledged ++ [u.block] else u.acknowledged
      queued := u.queued ++ (queuedIn polled.2).flatten
      closed := u.closed || u.service.requestPending &&
        closesData env u.service.requestPointer u.service.ftp u.service.jim }
  | .callback event _ => { u with service := (u.service.step event).1 }

/-- The host makes no request but `WRITE`s and leaves a pending one as it is. -/
def Admits (u : Upload) : UploadStep → Prop
  | .host jim => u.service.requestPending = true →
      jim (u.service.requestPointer + 1) = u.service.jim (u.service.requestPointer + 1) ∧
        ∀ i < 256, jim (u.service.scratch + i) = u.service.jim (u.service.scratch + i)
  | .write pointer _ =>
      u.service.jim (commandBlock u.service.discRamBase pointer) = ftpCmdWrite
  | .poll _ => True
  | .callback _ _ => True

/-- What a poll may do: it queues the block of a request exactly when it completes it with `OK`,
and ends the upload only after the close of the data connection, with a reply. -/
def Faithful (u : Upload) : UploadStep → Prop
  | .poll env =>
      let trace := (u.service.step (.poll env)).2
      (.completed ftpCmdWrite .ok ∈ trace → queuedIn trace = [u.block]) ∧
      (.completed ftpCmdWrite .ok ∉ trace → queuedIn trace = []) ∧
      (.completed ftpCmdWrite .eof ∈ trace →
        u.closed = true ∧ ∃ code text, .did (.replied code text) ∈ trace)
  | _ => True

/-- The invariant of an upload. -/
structure Sound (u : Upload) : Prop where
  running : u.service.requestCancel = false
  request : u.service.requestPending = true → u.service.requestCommand = ftpCmdWrite ∧
    u.block = writeBlock u.service.scratch u.service.requestPointer u.service.jim
  finishing : u.service.ftp.operation = .writeFinish → u.closed = true
  once : u.queued = u.acknowledged.flatten

theorem sound_start {s : Service} (writes : s.ftp.operation = .write)
    (idle : s.requestPending = false) (running : s.requestCancel = false) : Sound (start s) where
  running := running
  request pending := by rw [start, idle] at pending; cases pending
  finishing finish := by rw [start, writes] at finish; cases finish
  once := rfl

variable {u : Upload}

/-- A poll of a `WRITE`, by its outcome. -/
theorem Sound.polled (sound : Sound u) {env : Env} {o : Outcome} (polled : WritePolled env u.service o)
    (pending : u.service.requestPending = true)
    (queued : queuedIn (o.actions.map .did) = if o.result = .ok then [u.block] else [])
    (finish : o.ftp.operation = .writeFinish → (u.step (.poll env)).closed = true)
    (ended : o.result = .eof → u.closed = true ∧ ∃ code text, .replied code text ∈ o.actions) :
    Sound (u.step (.poll env)) ∧ Faithful u (.poll env) := by
  obtain ⟨isWrite, block⟩ := sound.request pending
  have acknowledges : .completed ftpCmdWrite .ok ∈ (u.service.step (.poll env)).2 ↔ o.result = .ok := by
    rw [Service.step, polled.completed]
    exact ⟨fun found => found.1.symm, fun ok => ⟨ok.symm, by decide⟩⟩
  have traced : queuedIn (u.service.step (.poll env)).2 = if o.result = .ok then [u.block] else [] :=
    polled.queued.trans queued
  constructor
  · constructor
    · exact polled.running.trans sound.running
    · intro still
      have kept := polled.jim (polled.pending still)
      refine ⟨polled.command.trans isWrite, ?_⟩
      have scratch : (u.step (.poll env)).service.scratch = u.service.scratch :=
        congrArg (· + ftpScratchOffset) polled.base
      have pointer : (u.step (.poll env)).service.requestPointer = u.service.requestPointer :=
        polled.pointer
      have jim : (u.step (.poll env)).service.jim = u.service.jim := kept
      rw [scratch, pointer, jim]
      exact block
    · intro finishes
      exact finish ((congrArg Ftp.operation polled.ftp).symm.trans finishes)
    · simp only [step, acknowledges, traced]
      split
      · simp [sound.once]
      · simp [sound.once]
  · refine ⟨?_, ?_, ?_⟩
    · intro ok
      rw [traced, if_pos (acknowledges.mp ok)]
    · intro other
      rw [traced, if_neg fun ok => other (acknowledges.mpr ok)]
    · intro eof
      have result : o.result = .eof := (((polled.completed _).mp eof).1).symm
      obtain ⟨closed, code, text, replied⟩ := ended result
      exact ⟨closed, code, text, polled.replied code text replied⟩

/-- One poll keeps the invariant and is faithful. -/
theorem Sound.poll (sound : Sound u) (env : Env) :
    Sound (u.step (.poll env)) ∧ Faithful u (.poll env) := by
  cases pending : u.service.requestPending with
  | false =>
    have quiet : u.service.step (.poll env) = (u.service, []) := by
      simp [Service.step, ftpServicePoll, sound.running, pending]
    have same : u.step (.poll env) = u := by
      simp [step, quiet, queuedIn, pending]
    refine ⟨by rw [same]; exact sound, ?_⟩
    simp [Faithful, quiet, queuedIn]
  | true =>
    obtain ⟨isWrite, block⟩ := sound.request pending
    obtain ⟨deadline, polled⟩ := ftpServicePoll_write env u.service sound.running pending isWrite
    have kept : u.closed = true → (u.step (.poll env)).closed = true := by
      intro closed
      simp [step, closed]
    obtain ⟨result, after, outcome, notOk, notEof, operation⟩ | ⟨after, outcome, operation⟩ |
      ⟨after, code, text, outcome, finish, operation⟩ := ftpWritePoll_cases env u.service.scratch
        u.service.requestPointer { u.service.ftp with deadline } u.service.jim
    all_goals rw [outcome] at polled
    · refine sound.polled polled pending (by rw [if_neg notOk]; rfl) ?_ fun eof => absurd eof notEof
      intro finishes
      rcases operation with same | ⟨-, closes⟩
      · exact kept (sound.finishing (same.symm.trans finishes))
      · have accepted : closesData env u.service.requestPointer u.service.ftp u.service.jim = true := closes
        simp [step, pending, accepted]
    · refine sound.polled polled pending ?_ ?_ fun eof => by cases eof
      · rw [if_pos rfl, block]
        rfl
      · intro finishes
        exact kept (sound.finishing (operation.symm.trans finishes))
    · refine sound.polled polled pending (by rw [if_neg (by simp)]; rfl) ?_ ?_
      · intro finishes
        rw [operation] at finishes
        cases finishes
      · intro _
        exact ⟨sound.finishing finish, code, text, by simp⟩

/-- A callback leaves the upload alone. -/
theorem Sound.callback (sound : Sound u) {event : Event} (isCallback : event.IsCallback) :
    Sound (u.step (.callback event isCallback)) := by
  obtain ⟨ftp, same, operation⟩ := callback_operation u.service isCallback
  have stepped : u.step (.callback event isCallback) = { u with service := { u.service with ftp } } := by
    rw [step, same]
  rw [stepped]
  exact ⟨sound.running, sound.request, fun finish => sound.finishing (operation.symm.trans finish),
    sound.once⟩

theorem Sound.host (sound : Sound u) {jim : Memory UInt8} (admits : u.Admits (.host jim)) :
    Sound (u.step (.host jim)) where
  running := sound.running
  request pending := by
    obtain ⟨isWrite, block⟩ := sound.request pending
    obtain ⟨count, page⟩ := admits pending
    refine ⟨isWrite, block.trans ?_⟩
    have small := (u.service.jim (u.service.requestPointer + 1)).toNat_lt
    have own : (jim (u.service.requestPointer + 1)).toNat =
        (u.service.jim (u.service.requestPointer + 1)).toNat := congrArg UInt8.toNat count
    show writeBlock u.service.scratch u.service.requestPointer u.service.jim =
      writeBlock u.service.scratch u.service.requestPointer jim
    rw [writeBlock, writeBlock, own]
    exact Memory.read_ext fun i bound => (page i (by omega)).symm
  finishing := sound.finishing
  once := sound.once

theorem Sound.write (sound : Sound u) {pointer : UInt32} {address : Nat}
    (admits : u.Admits (.write pointer address)) : Sound (u.step (.write pointer address)) := by
  have isWrite : u.service.jim (commandBlock u.service.discRamBase pointer) = ftpCmdWrite := admits
  have notCancel : ¬u.service.jim (commandBlock u.service.discRamBase pointer) = ftpCmdCancel := by
    rw [isWrite]
    decide
  rw [commandBlock] at isWrite notCancel
  cases pending : u.service.requestPending with
  | true =>
    have same : (u.service.step (.command pointer address)).1 = u.service.answer address .pending := by
      simp only [Service.step, ftpServiceCommand, if_neg notCancel, pending, if_true]
    have stepped : u.step (.write pointer address) =
        { u with service := u.service.answer address .pending } := by
      simp only [step, same, pending, if_true]
    rw [stepped]
    exact ⟨sound.running, sound.request, sound.finishing, sound.once⟩
  | false =>
    have begun : (u.service.step (.command pointer address)).1 =
        { u.service with
          requestPointer := commandBlock u.service.discRamBase pointer, requestStatusAddress := address
          requestCommand := ftpCmdWrite, requestStarted := false
          requestPending := true }.answer address .pending := by
      simp only [Service.step, ftpServiceCommand, pending, isWrite]
      rfl
    have stepped : u.step (.write pointer address) =
        { u with
          service := { u.service with
            requestPointer := commandBlock u.service.discRamBase pointer, requestStatusAddress := address
            requestCommand := ftpCmdWrite, requestStarted := false
            requestPending := true }.answer address .pending
          block := writeBlock u.service.scratch (commandBlock u.service.discRamBase pointer)
            u.service.jim } := by
      simp only [step, begun, pending]
      rfl
    rw [stepped]
    exact ⟨sound.running, fun _ => ⟨rfl, rfl⟩, sound.finishing, sound.once⟩

theorem Sound.step (sound : Sound u) (next : UploadStep) (admits : u.Admits next) :
    Sound (u.step next) ∧ Faithful u next := by
  cases next with
  | host jim => exact ⟨sound.host admits, trivial⟩
  | write pointer address => exact ⟨sound.write admits, trivial⟩
  | poll env => exact sound.poll env
  | callback event isCallback => exact ⟨sound.callback isCallback, trivial⟩

end Upload

/-- From a state in which an upload waits for its blocks, whatever is polled, refused and tried
again: every poll is faithful to the request it polls, and the bytes queued are the blocks
acknowledged with `OK`, in the order of the requests, each once. -/
theorem upload_queues_once {s : Service} (writes : s.ftp.operation = .write)
    (idle : s.requestPending = false) (running : s.requestCancel = false) {steps : List UploadStep}
    (admits : Conduit.Follows Upload.step Upload.Admits (.start s) steps) :
    Conduit.Follows Upload.step Upload.Faithful (.start s) steps ∧
      (Conduit.run Upload.step (.start s) steps).queued =
        (Conduit.run Upload.step (.start s) steps).acknowledged.flatten := by
  have start := Upload.sound_start writes idle running
  have keeps : ∀ u next, Upload.Sound u → u.Admits next → Upload.Sound (u.step next) :=
    fun u next sound admits => (sound.step next admits).1
  refine ⟨?_, (Conduit.run_invariant keeps start admits).once⟩
  exact Conduit.Follows.imp_of_invariant keeps (fun u next sound admits => (sound.step next admits).2)
    start admits

/-- An upload of one block of two bytes: its first polls meet a full send buffer and a failing
write, its close is refused once, and the final reply arrives late. -/
def uploadStart : Service :=
  { ftpServiceInit 0 (fun _ => 0) with
    ftp := { ftpReset with
      state := .ready, operation := .write, transfer := .write
      control := some ⟨1, 21⟩, data := some ⟨1, 4000⟩ } }

def uploadMemory (count : UInt8) : Memory UInt8 :=
  (Memory.write (fun _ => 0) 0xf000 [ftpCmdWrite, count]).write ftpScratchOffset [7, 8]

def lateReply : Event := .controlReceive (.payload (ascii "226 done\r\n"))

theorem lateReply_isCallback : lateReply.IsCallback := .controlReceive _

def uploadSteps : List UploadStep :=
  [.host (uploadMemory 2), .write 0xfff000 0, .poll { roomyEnv with sndbuf := 1 },
    .poll { roomyEnv with writeOk := false }, .poll roomyEnv, .host (uploadMemory 0),
    .write 0xfff000 0, .poll { roomyEnv with closeOk := false }, .poll roomyEnv, .poll roomyEnv,
    .callback lateReply lateReply_isCallback, .poll roomyEnv]

theorem upload_queues_once_sample :
    Conduit.Follows Upload.step Upload.Faithful (.start uploadStart) uploadSteps ∧
      (Conduit.run Upload.step (.start uploadStart) uploadSteps).queued = [7, 8] ∧
      .completed ftpCmdWrite .eof ∈
        ((Conduit.run Upload.step (.start uploadStart) uploadSteps.dropLast).service.step
          (.poll roomyEnv)).2 := by
  have admits : Conduit.Follows Upload.step Upload.Admits (.start uploadStart) uploadSteps := by
    simp only [uploadSteps, Conduit.Follows, Upload.Admits, and_true, true_and]
    decide +kernel
  obtain ⟨faithful, queued⟩ := upload_queues_once rfl rfl rfl admits
  exact ⟨faithful, by rw [queued]; decide +kernel, by decide +kernel⟩

end Pi1MHz.FtpService
