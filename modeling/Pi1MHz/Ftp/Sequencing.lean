import Pi1MHz.Ftp.Polls

/-! The order of the lines on the control connection within one `EXEC`. -/
namespace Pi1MHz.FtpService

def Entry.isBegan : Entry → Bool
  | .began .. => true
  | _ => false

/-- The lines written and the replies read. -/
def exchange (trace : List Entry) : List Action :=
  trace.filterMap fun
    | .did (.wrote line) => some (.wrote line)
    | .did (.replied code text) => some (.replied code text)
    | _ => none

/-- The exchanges that agree on a data port: `EPSV`, or `PASV` once `EPSV` was refused. -/
inductive Agreed (port : Nat) : List Action → Prop
  | epsv {text : List UInt8} : ftpParseEpsv text = some port →
      Agreed port [.wrote (ascii "EPSV\r\n"), .replied 229 text]
  | pasv {code : Nat} {refusal text : List UInt8} : 400 ≤ code → ftpParsePasv text = some port →
      Agreed port [.wrote (ascii "EPSV\r\n"), .replied code refusal,
        .wrote (ascii "PASV\r\n"), .replied 227 text]

/-- A port was agreed on, the connection to it was then reported, and nothing was exchanged
since. -/
def Negotiated (segment : List Entry) : Prop :=
  ∃ port before after, segment = before ++ .did (.connected port) :: after ∧
    Agreed port (exchange before) ∧ exchange after = []

/-- Within an `EXEC`, the line of a transfer follows its negotiation. -/
def Sequenced (trace : List Entry) : Prop :=
  ∀ before request segment line after,
    trace = before ++ .began ftpCmdExec request :: (segment ++ .did (.wrote line) :: after) →
    (∀ entry ∈ segment, entry.isBegan = false) → transferLine request = some line →
    Negotiated segment

/-- The first poll of a transfer, about to send `line`. -/
structure OpensTransfer (env : Env) (s : Service) (line : List UInt8) : Prop where
  running : s.requestCancel = false
  pending : s.requestPending = true
  fresh : s.requestStarted = false
  command : s.requestCommand = ftpCmdExec
  ready : s.ftp.state = .ready
  begun : (ftpBegin env s).1 = true
  accepted : (ftpPrepare (ftpBegin env s).2).1 = true
  transfer : transferLine (ftpBegin env s).2.request = some line

@[simp] theorem exchange_nil : exchange [] = [] := rfl

@[simp] theorem exchange_append (left right : List Entry) :
    exchange (left ++ right) = exchange left ++ exchange right := List.filterMap_append

theorem Negotiated.append {segment trace : List Entry} (negotiated : Negotiated segment)
    (quiet : exchange trace = []) : Negotiated (segment ++ trace) := by
  obtain ⟨port, before, after, rfl, agreed, silent⟩ := negotiated
  exact ⟨port, before, after ++ trace, by simp, agreed, by simp [silent, quiet]⟩

/-- Where a trace has got to: the request of the `EXEC` being run and its entries so far. -/
structure Cursor where
  request : Option (List UInt8)
  segment : List Entry

namespace Cursor

def next (c : Cursor) : Entry → Cursor
  | .began command request => ⟨if command = ftpCmdExec then some request else none, []⟩
  | entry => { c with segment := c.segment ++ [entry] }

/-- `Sequenced` for an entry to come. -/
def Permits (c : Cursor) (entry : Entry) : Prop :=
  ∀ request line, c.request = some request → entry = .did (.wrote line) →
    transferLine request = some line → Negotiated c.segment

/-- Every entry of the trace is permitted where it stands. -/
def Sound (c : Cursor) : List Entry → Prop
  | [] => True
  | entry :: trace => c.Permits entry ∧ (c.next entry).Sound trace

variable {c : Cursor} {left right : List Entry}

theorem sound_append :
    c.Sound (left ++ right) ↔ c.Sound left ∧ (left.foldl next c).Sound right := by
  induction left generalizing c with
  | nil => simp [Sound]
  | cons entry left ih => simp [Sound, ih, and_assoc]

theorem foldl_next (quiet : ∀ entry ∈ left, entry.isBegan = false) :
    left.foldl next c = { c with segment := c.segment ++ left } := by
  induction left generalizing c with
  | nil => simp
  | cons entry left ih =>
    have first : c.next entry = { c with segment := c.segment ++ [entry] } := by
      have := quiet entry (by simp)
      cases entry with
      | began => cases this
      | _ => rfl
    simp [first, ih fun entry member => quiet entry (by simp [member])]

theorem foldl_next_did (actions : List Action) :
    (actions.map Entry.did).foldl next c =
      { c with segment := c.segment ++ actions.map Entry.did } := by
  apply foldl_next
  intro entry member
  obtain ⟨action, -, rfl⟩ := List.mem_map.mp member
  rfl

theorem sequenced_of_sound {trace : List Entry} (sound : c.Sound trace) : Sequenced trace := by
  intro before request segment line after split quiet built
  subst split
  rw [sound_append] at sound
  have inside := sound.2.2
  rw [sound_append, foldl_next quiet] at inside
  have permitted := inside.2.1 request line (by simp [next]) rfl built
  simpa [next] using permitted

/-- Outside a transfer nothing is restricted. -/
theorem sound_of_unrestricted
    (unrestricted : ∀ request, c.request = some request → transferLine request = none)
    (actions : List Action) : c.Sound (actions.map Entry.did) := by
  induction actions generalizing c with
  | nil => trivial
  | cons action actions ih =>
    refine ⟨?_, ih unrestricted⟩
    intro request line running same built
    rw [unrestricted request running] at built
    cases built

/-- Actions that write nothing are permitted. -/
theorem sound_of_silent {actions : List Action} (silent : ∀ line, .wrote line ∉ actions) :
    c.Sound (actions.map Entry.did) := by
  induction actions generalizing c with
  | nil => trivial
  | cons action actions ih =>
    refine ⟨?_, ih fun line member => silent line (by simp [member])⟩
    rintro request line - same
    cases same
    exact absurd (by simp) (silent line)

end Cursor

/-- How far the negotiation has come, by the operation the next poll resumes in. -/
def Stage (ftp : Ftp) (segment : List Entry) : Prop :=
  match ftp.operation with
  | .epsvSend => exchange segment = []
  | .epsvReply => exchange segment = [.wrote (ascii "EPSV\r\n")]
  | .pasvSend => ∃ code refusal, 400 ≤ code ∧
      exchange segment = [.wrote (ascii "EPSV\r\n"), .replied code refusal]
  | .pasvReply => ∃ code refusal, 400 ≤ code ∧
      exchange segment = [.wrote (ascii "EPSV\r\n"), .replied code refusal,
        .wrote (ascii "PASV\r\n")]
  | .dataConnect => ∃ port, Agreed port (exchange segment) ∧
      (∀ pcb, ftp.data = some pcb → pcb.port = port) ∧
      (ftp.dataConnected = true → Negotiated segment)
  | .transferSend => Negotiated segment
  | .transferReply => True
  | _ => False

/-- A transfer in negotiation, with its line kept for the end. -/
structure Staged (ftp : Ftp) (line : List UInt8) (segment : List Entry) : Prop where
  command : ftp.transferCommand = line
  stage : Stage ftp segment

/-- A transfer line is none of the negotiation's own. -/
theorem transferLine_verb {request line : List UInt8} (built : transferLine request = some line) :
    line.take 4 ∈ [ascii "RETR", ascii "STOR", ascii "LIST", ascii "NLST"] := by
  obtain ⟨⟨transfer, verb⟩, found, rfl⟩ := Option.map_eq_some_iff.mp built
  have four : verb ∈ [ascii "RETR", ascii "STOR", ascii "LIST", ascii "NLST"] := by
    simp only [ftpIsTransfer] at found
    split at found
    · cases found; simp
    · split at found
      · cases found; simp
      · split at found
        · cases found; simp
        · split at found
          · cases found; simp
          · cases found
  have lengths : ∀ word ∈ [ascii "RETR", ascii "STOR", ascii "LIST", ascii "NLST"],
      word.length = 4 := by decide
  have length := lengths verb four
  have taken : (verb ++ argumentOf (ftpUpperWord request) ++ crlf).take 4 = verb := by
    rw [List.append_assoc, ← length, List.take_left]
  rwa [taken]

theorem transferLine_ne_epsv {request line : List UInt8} (built : transferLine request = some line) :
    line ≠ ascii "EPSV\r\n" ∧ line ≠ ascii "PASV\r\n" := by
  have verb := transferLine_verb built
  constructor
  · rintro rfl
    revert verb
    decide
  · rintro rfl
    revert verb
    decide

section Staged
variable {ftp after : Ftp} {line request : List UInt8} {segment : List Entry}

/-- The stage depends on four fields of the record. -/
theorem Staged.congr (staged : Staged ftp line segment)
    (command : after.transferCommand = ftp.transferCommand)
    (operation : after.operation = ftp.operation)
    (data : ∀ pcb, after.data = some pcb → ftp.data = some pcb)
    (connected : after.dataConnected = true → ftp.dataConnected = true) :
    Staged after line segment := by
  refine ⟨command.trans staged.command, ?_⟩
  have stage := staged.stage
  rw [Stage] at stage ⊢
  rw [operation]
  cases at_ : ftp.operation with
  | dataConnect =>
    rw [at_] at stage
    obtain ⟨port, agreed, target, negotiated⟩ := stage
    exact ⟨port, agreed, fun pcb found => target pcb (data pcb found),
      fun reported => negotiated (connected reported)⟩
  | _ =>
    rw [at_] at stage
    exact stage

/-- The data connection is reported. -/
theorem Staged.connected (staged : Staged ftp line segment) {pcb : Pcb}
    (data : ftp.data = some pcb) :
    Staged { ftp with dataConnected := true } line (segment ++ [.did (.connected pcb.port)]) := by
  have quiet : exchange [.did (.connected pcb.port)] = [] := rfl
  have same : exchange (segment ++ [.did (.connected pcb.port)]) = exchange segment := by
    rw [exchange_append, quiet, List.append_nil]
  refine ⟨staged.command, ?_⟩
  have stage := staged.stage
  rw [Stage] at stage
  simp only [Stage, same]
  cases at_ : ftp.operation with
  | dataConnect =>
    rw [at_] at stage
    obtain ⟨port, agreed, target, -⟩ := stage
    obtain rfl := target pcb data
    exact ⟨pcb.port, agreed, target, fun _ => ⟨pcb.port, segment, [], rfl, agreed, rfl⟩⟩
  | transferSend =>
    rw [at_] at stage
    exact Negotiated.append stage quiet
  | _ =>
    rw [at_] at stage
    exact stage

/-- A line is permitted if it is not that of the transfer or comes after the negotiation. -/
theorem sound_wrote (built : transferLine request = some line) {written : List UInt8}
    (allowed : written = line → Negotiated segment) :
    (⟨some request, segment⟩ : Cursor).Sound [.did (.wrote written)] := by
  refine ⟨?_, trivial⟩
  rintro _ _ ⟨⟩ ⟨⟩ same
  exact allowed (Option.some.inj (same.symm.trans built))

/-- What a poll of a negotiating `EXEC` must show for its outcome. -/
def Outcome.Continues (o : Outcome) (request line : List UInt8) (segment : List Entry) : Prop :=
  (⟨some request, segment⟩ : Cursor).Sound (o.actions.map .did) ∧
    (o.result = .pending → Staged o.ftp line (segment ++ o.actions.map .did))

theorem continues_waiting (env : Env) (staged : Staged ftp line segment) :
    (waiting env ftp).Continues request line segment :=
  ⟨trivial, fun _ => by simpa [waiting] using staged⟩

theorem continues_sendLine (env : Env) (built : transferLine request = some line)
    (staged : Staged ftp line segment) {written : List UInt8} {next : Operation}
    (allowed : written = line → Negotiated segment)
    (moved : ∀ deadline, Staged { ftp with operation := next, deadline } line
      (segment ++ [.did (.wrote written)])) :
    (sendLine env ftp written next).Continues request line segment := by
  obtain ⟨-, blocked⟩ | ⟨-, deadline, sent⟩ := sendLine_cases env ftp written next
  · rw [blocked]
    exact continues_waiting env staged
  · rw [sent]
    exact ⟨sound_wrote built allowed, fun _ => moved deadline⟩

theorem continues_awaitReply (env : Env) (staged : Staged ftp line segment)
    {next : Nat → Ftp → Outcome}
    (silent : ∀ code after written, .wrote written ∉ (next code after).actions)
    (moved : ∀ code text reply,
      let o := next code { ftp with controlText := text, lastReply := reply }
      o.result = .pending →
        Staged o.ftp line (segment ++ .did (.replied code reply) :: o.actions.map .did)) :
    (awaitReply env ftp next).Continues request line segment := by
  obtain ⟨-, waits⟩ | ⟨code, after, found, replied⟩ := awaitReply_cases env ftp next
  · rw [waits]
    exact continues_waiting env staged
  · rw [replied]
    obtain ⟨text, reply, rfl⟩ := ftpReply_fields ftp found
    refine ⟨Cursor.sound_of_silent ?_, moved code text reply⟩
    intro written member
    rcases List.mem_cons.mp member with same | member
    · cases same
    · exact silent code _ written member

/-- The port of the reply just read is agreed on and the connection to it started. -/
theorem continues_startData (env : Env) {code : Nat} {reply : List UInt8}
    (command : ftp.transferCommand = line) (operation : ftp.operation = .dataConnect)
    (agreed : Agreed ftp.dataPort (exchange segment ++ [.replied code reply])) :
    (ftpStartData env ftp).result = .pending →
      Staged (ftpStartData env ftp).ftp line
        (segment ++ .did (.replied code reply) :: (ftpStartData env ftp).actions.map .did) := by
  intro pending
  obtain ⟨after, failed⟩ | ⟨deadline, started⟩ := ftpStartData_cases env ftp
  · rw [failed] at pending
    cases pending
  · rw [started]
    refine ⟨command, ?_⟩
    simp only [Stage, operation]
    refine ⟨ftp.dataPort, ?_, ?_, fun reported => by cases reported⟩
    · simpa [exchange] using agreed
    · rintro _ ⟨⟩
      rfl

theorem ftpStartData_silent (env : Env) (written : List UInt8) :
    .wrote written ∉ (ftpStartData env ftp).actions := by
  obtain ⟨after, failed⟩ | ⟨deadline, started⟩ := ftpStartData_cases env ftp
  · simp [failed]
  · simp [started]

/-- The reply to `EPSV` agrees on a port, or is refused and `PASV` comes next. -/
theorem continues_epsvReply (env : Env) (staged : Staged ftp line segment)
    (ready : ftp.state = .ready) (waits : ftp.operation = .epsvReply) :
    (ftpExecPoll env ftp).Continues request line segment := by
  obtain ⟨command, stage⟩ := id staged
  rw [Stage, waits] at stage
  rw [ftpExecPoll, if_neg (not_not.mpr ready)]
  simp only [waits]
  apply continues_awaitReply env staged
  · intro code after written
    split
    · exact ftpStartData_silent env written
    · split <;> simp
  · intro code text reply
    simp only
    split
    next port found =>
      obtain ⟨parsed, isCode⟩ := Option.filter_eq_some_iff.mp found
      have passive : code = 229 := of_decide_eq_true isCode
      subst passive
      refine continues_startData env ?_ ?_ ?_
      · exact command
      · rfl
      · rw [stage]
        exact .epsv parsed
    next =>
      split
      next refused =>
        rintro -
        refine ⟨command, code, reply, refused, ?_⟩
        simp only [exchange_append, stage]
        rfl
      next => simp

/-- The reply to `PASV` agrees on a port. -/
theorem continues_pasvReply (env : Env) (staged : Staged ftp line segment)
    (ready : ftp.state = .ready) (waits : ftp.operation = .pasvReply) :
    (ftpExecPoll env ftp).Continues request line segment := by
  obtain ⟨command, stage⟩ := id staged
  rw [Stage, waits] at stage
  obtain ⟨first, refusal, refused, sofar⟩ := stage
  rw [ftpExecPoll, if_neg (not_not.mpr ready)]
  simp only [waits]
  apply continues_awaitReply env staged
  · intro code after written
    split
    · exact ftpStartData_silent env written
    · simp
  · intro code text reply
    simp only
    split
    next port found =>
      obtain ⟨parsed, isCode⟩ := Option.filter_eq_some_iff.mp found
      have passive : code = 227 := of_decide_eq_true isCode
      subst passive
      refine continues_startData env ?_ ?_ ?_
      · exact command
      · rfl
      · rw [sofar]
        exact .pasv refused parsed
    next => simp

/-- The transfer line is written once the data connection is there. -/
theorem continues_dataConnect (env : Env) (built : transferLine request = some line)
    (staged : Staged ftp line segment) (ready : ftp.state = .ready)
    (waits : ftp.operation = .dataConnect) :
    (ftpExecPoll env ftp).Continues request line segment := by
  obtain ⟨command, stage⟩ := id staged
  rw [Stage, waits] at stage
  obtain ⟨port, agreed, target, negotiated⟩ := stage
  rw [ftpExecPoll, if_neg (not_not.mpr ready)]
  simp only [waits]
  split
  · exact ⟨trivial, fun pending => by cases pending⟩
  · split
    · exact continues_waiting env staged
    next connected =>
      have done := negotiated (by simpa using connected)
      apply continues_sendLine env built
      · exact ⟨command, done⟩
      · exact fun _ => done
      · exact fun _ => ⟨command, trivial⟩

/-- A poll that resumes a negotiation writes the transfer line only at its end. -/
theorem continues_exec (env : Env) (built : transferLine request = some line)
    (staged : Staged ftp line segment) :
    (ftpExecPoll env ftp).Continues request line segment := by
  obtain ⟨command, stage⟩ := id staged
  have own := transferLine_ne_epsv built
  by_cases ready : ftp.state = .ready
  swap
  · rw [ftpExecPoll, if_pos ready]
    exact ⟨trivial, fun pending => by cases pending⟩
  rw [Stage] at stage
  cases at_ : ftp.operation with
  | epsvSend =>
    rw [at_] at stage
    rw [ftpExecPoll, if_neg (not_not.mpr ready)]
    simp only [at_]
    apply continues_sendLine env built staged
    · exact fun same => absurd same.symm own.1
    · intro deadline
      refine ⟨command, ?_⟩
      simp only [Stage, exchange_append, stage]
      rfl
  | epsvReply => exact continues_epsvReply env staged ready at_
  | pasvSend =>
    rw [at_] at stage
    obtain ⟨code, refusal, refused, sofar⟩ := stage
    rw [ftpExecPoll, if_neg (not_not.mpr ready)]
    simp only [at_]
    apply continues_sendLine env built staged
    · exact fun same => absurd same.symm own.2
    · intro deadline
      refine ⟨command, code, refusal, refused, ?_⟩
      simp only [exchange_append, sofar]
      rfl
  | pasvReply => exact continues_pasvReply env staged ready at_
  | dataConnect => exact continues_dataConnect env built staged ready at_
  | transferSend =>
    rw [at_] at stage
    rw [ftpExecPoll, if_neg (not_not.mpr ready)]
    simp only [at_]
    exact continues_sendLine env built staged (fun _ => stage) fun _ => ⟨command, trivial⟩
  | transferReply =>
    rw [ftpExecPoll, if_neg (not_not.mpr ready)]
    simp only [at_]
    apply continues_awaitReply env staged
    · intro code after written
      split <;> simp
    · intro code text reply
      simp only
      split <;> simp
  | _ => simp [at_] at stage

end Staged

/-- A first poll that cannot send leaves the transfer to be negotiated. -/
theorem continues_first (env : Env) {ftp : Ftp} {line : List UInt8} (fresh : ftp.operation = .none)
    (built : transferLine ftp.request = some line)
    (blocked : ftp.state = .ready → (ftpPrepare ftp).1 = true → sendable env ftp line = false) :
    (ftpExecPoll env ftp).Continues ftp.request line [] := by
  by_cases ready : ftp.state = .ready
  swap
  · rw [ftpExecPoll, if_pos ready]
    exact ⟨trivial, fun pending => by cases pending⟩
  rw [ftpExecPoll, if_neg (not_not.mpr ready), fresh]
  simp only
  cases accepted : (ftpPrepare ftp).1 with
  | false => exact ⟨trivial, fun pending => by cases pending⟩
  | true =>
    obtain ⟨kept, operation, control⟩ := ftpPrepare_transfer accepted built
    have full := blocked ready accepted
    simp only [Bool.not_true, Bool.false_eq_true, if_false, kept]
    obtain ⟨-, waits⟩ | ⟨room, -⟩ := sendLine_cases env (ftpPrepare ftp).2 line .simpleReply
    · rw [waits]
      exact continues_waiting env ⟨kept, by simp [Stage, operation]⟩
    · simp only [sendable, control] at room full
      simp [room] at full

/-- The cursor follows the request in progress. -/
structure Aligned (s : Service) (c : Cursor) : Prop where
  other : s.requestPending = true → s.requestStarted = true → s.requestCommand ≠ ftpCmdExec →
    c.request = none
  exec : s.requestPending = true → s.requestStarted = true → s.requestCommand = ftpCmdExec →
    ∃ request, c.request = some request ∧
      ∀ line, transferLine request = some line → Staged s.ftp line c.segment

namespace Aligned
variable {s : Service} {c : Cursor}

theorem of_not_pending (idle : s.requestPending = false) : Aligned s c := by
  constructor
  · intro pending
    simp [idle] at pending
  · intro pending
    simp [idle] at pending

theorem of_fresh (fresh : s.requestStarted = false) : Aligned s c := by
  constructor
  · intro _ started
    simp [fresh] at started
  · intro _ started
    simp [fresh] at started

/-- A change of the session that keeps what the stage depends on. -/
theorem congr (aligned : Aligned s c) {ftp : Ftp}
    (keeps : ∀ line, Staged s.ftp line c.segment → Staged ftp line c.segment) :
    Aligned { s with ftp } c := by
  refine ⟨aligned.other, ?_⟩
  intro pending started isExec
  obtain ⟨request, current, staged⟩ := aligned.exec pending started isExec
  exact ⟨request, current, fun line built => keeps line (staged line built)⟩

/-- A poll of an `EXEC`, whose own function settles it if the request is a transfer. -/
theorem dispatch_exec (env : Env) (s : Service) (c : Cursor) {request : List UInt8}
    (isExec : s.requestCommand = ftpCmdExec)
    (current : c.request = some request)
    (continues : ∀ line, transferLine request = some line →
      (ftpExecPoll env s.ftp).Continues request line c.segment) :
    c.Sound (ftpDispatch env s).trace ∧
      ((ftpDispatch env s).result = .pending →
        Aligned (ftpDispatch env s).service ((ftpDispatch env s).trace.foldl Cursor.next c)) := by
  obtain ⟨_, segment⟩ := c
  subst current
  rw [ftpDispatch_exec env s isExec]
  simp only [Cursor.foldl_next_did]
  cases built : transferLine request with
  | none =>
    refine ⟨Cursor.sound_of_unrestricted ?_ _, fun _ => ⟨fun _ _ other => ?_, fun _ _ _ => ?_⟩⟩
    · rintro _ ⟨⟩
      exact built
    · exact absurd isExec other
    · refine ⟨request, rfl, ?_⟩
      intro line same
      rw [built] at same
      cases same
  | some line =>
    obtain ⟨sound, stays⟩ := continues line built
    refine ⟨sound, fun unfinished => ⟨fun _ _ other => absurd isExec other, fun _ _ _ => ?_⟩⟩
    refine ⟨request, rfl, ?_⟩
    intro line' same
    cases built.symm.trans same
    exact stays unfinished

/-- A poll of another request. -/
theorem dispatch_other (env : Env) (s : Service) (c : Cursor)
    (isOther : s.requestCommand ≠ ftpCmdExec) (current : c.request = none) :
    c.Sound (ftpDispatch env s).trace ∧
      ((ftpDispatch env s).result = .pending →
        Aligned (ftpDispatch env s).service ((ftpDispatch env s).trace.foldl Cursor.next c)) := by
  obtain ⟨ftp, controlPort, jim, actions, service, trace⟩ := ftpDispatch_frame env s
  rw [service, trace, Cursor.foldl_next_did]
  refine ⟨Cursor.sound_of_unrestricted ?_ _, fun _ => ⟨fun _ _ _ => current, fun _ _ same => ?_⟩⟩
  · intro request running
    rw [current] at running
    cases running
  · exact absurd same isOther

/-- A poll of a request in progress, or its first poll with a transfer unable to send. -/
theorem process (env : Env) (aligned : Aligned s c) (pending : s.requestPending = true)
    (blocked : s.requestStarted = false → s.requestCommand = ftpCmdExec → s.ftp.state = .ready →
      (ftpBegin env s).1 = true → (ftpPrepare (ftpBegin env s).2).1 = true →
      ∀ line, transferLine (ftpBegin env s).2.request = some line →
        sendable env s.ftp line = false) :
    c.Sound (ftpProcess env s).trace ∧
      ((ftpProcess env s).result = .pending →
        Aligned (ftpProcess env s).service ((ftpProcess env s).trace.foldl Cursor.next c)) := by
  cases started : s.requestStarted with
  | true =>
    rw [ftpProcess, if_pos started]
    by_cases isExec : s.requestCommand = ftpCmdExec
    · obtain ⟨request, current, staged⟩ := aligned.exec pending started isExec
      exact dispatch_exec env s c isExec current fun line built =>
        continues_exec env built (staged line built)
    · exact dispatch_other env s c isExec (aligned.other pending started isExec)
  | false =>
    rw [ftpProcess, if_neg (by simp [started])]
    simp only
    cases begun : (ftpBegin env s).1 with
    | false => exact ⟨⟨by rintro _ _ _ ⟨⟩, trivial⟩, fun unfinished => by cases unfinished⟩
    | true =>
      simp only [Bool.not_true, Bool.false_eq_true, if_false, List.foldl_cons, Cursor.Sound]
      let taken : Service := { s with ftp := (ftpBegin env s).2, requestStarted := true }
      let marked := c.next (.began s.requestCommand (ftpBegin env s).2.request)
      have settled : marked.Sound (ftpDispatch env taken).trace ∧
          ((ftpDispatch env taken).result = .pending → Aligned (ftpDispatch env taken).service
            ((ftpDispatch env taken).trace.foldl Cursor.next marked)) := by
        by_cases isExec : s.requestCommand = ftpCmdExec
        · have current : marked.request = some (ftpBegin env s).2.request := by
            simp [marked, Cursor.next, isExec]
          apply dispatch_exec env taken marked isExec current
          intro line built
          obtain ⟨text, deadline, record⟩ := ftpBegin_exec env s isExec begun
          have fresh : (ftpBegin env s).2.operation = .none := by rw [record]
          have first := continues_first env fresh built ?_
          · simpa [marked, Cursor.next] using first
          · intro ready accepted
            have full := blocked started isExec (by simpa [record] using ready) begun accepted
              line built
            simpa [record, sendable] using full
        · exact dispatch_other env taken marked isExec (by simp [marked, Cursor.next, isExec])
      exact ⟨⟨by rintro _ _ _ ⟨⟩, settled.1⟩, settled.2⟩

/-- A poll writes the line of a transfer only where it is permitted. -/
theorem poll (env : Env) (aligned : Aligned s c)
    (blocked : ∀ line, OpensTransfer env s line → sendable env s.ftp line = false) :
    c.Sound (ftpServicePoll env s).2 ∧
      Aligned (ftpServicePoll env s).1 ((ftpServicePoll env s).2.foldl Cursor.next c) := by
  rw [ftpServicePoll]
  split
  · exact ⟨⟨by rintro _ _ _ ⟨⟩, trivial⟩, of_not_pending rfl⟩
  next running =>
    split
    next idle => exact ⟨trivial, of_not_pending (by simpa using idle)⟩
    next busy =>
      have pending : s.requestPending = true := by simpa using busy
      obtain ⟨sound, stays⟩ := aligned.process env pending
        fun fresh command ready begun accepted line transfer =>
          blocked line ⟨by simpa using running, pending, fresh, command, ready, begun, accepted,
            transfer⟩
      simp only
      split
      next unfinished => exact ⟨sound, stays unfinished⟩
      next => exact ⟨Cursor.sound_append.mpr ⟨sound, by rintro _ _ _ ⟨⟩, trivial⟩, of_not_pending rfl⟩

theorem command (aligned : Aligned s c) (pointer : UInt32) (address : Nat) :
    Aligned (ftpServiceCommand pointer address s) c := by
  simp only [ftpServiceCommand]
  split
  · split
    next idle =>
      have quiet : s.requestPending = false := by simpa using idle
      exact of_not_pending quiet
    next => exact ⟨aligned.other, aligned.exec⟩
  · split
    · exact ⟨aligned.other, aligned.exec⟩
    · exact of_fresh rfl

/-- A callback of the control connection. -/
theorem onControl (aligned : Aligned s c) (callback : Ftp → Ftp)
    (keeps : ∀ line segment, Staged s.ftp line segment → Staged (callback s.ftp) line segment) :
    Aligned (s.onControl callback) c := by
  rw [Service.onControl]
  split
  · exact aligned.congr fun line => keeps line c.segment
  · exact aligned

theorem onData (aligned : Aligned s c) (callback : Ftp → Ftp)
    (keeps : ∀ line segment, Staged s.ftp line segment → Staged (callback s.ftp) line segment) :
    Aligned (s.onData callback) c := by
  rw [Service.onData]
  split
  · exact aligned.congr fun line => keeps line c.segment
  · exact aligned

theorem dataConnected (aligned : Aligned s c) :
    c.Sound (s.step (.dataConnected true)).2 ∧ Aligned (s.step (.dataConnected true)).1
      ((s.step (.dataConnected true)).2.foldl Cursor.next c) := by
  cases attached : s.ftp.data with
  | none => simpa [Service.step, Service.onData, attached, Cursor.Sound] using aligned
  | some pcb =>
    have trace : (s.step (.dataConnected true)).2 = [.did (.connected pcb.port)] := by
      simp [Service.step, attached]
    have service : (s.step (.dataConnected true)).1 =
        { s with ftp := { s.ftp with dataConnected := true } } := by
      simp [Service.step, Service.onData, attached, ftpDataConnected]
    rw [trace, service]
    refine ⟨⟨by rintro _ _ _ ⟨⟩, trivial⟩, aligned.other, ?_⟩
    intro pending started isExec
    obtain ⟨request, current, staged⟩ := aligned.exec pending started isExec
    exact ⟨request, current, fun line built => (staged line built).connected attached⟩

/-- One event. -/
theorem step (aligned : Aligned s c) (event : Event)
    (blocked : ∀ env line, event = .poll env → OpensTransfer env s line →
      sendable env s.ftp line = false) :
    c.Sound (s.step event).2 ∧ Aligned (s.step event).1 ((s.step event).2.foldl Cursor.next c) := by
  cases event with
  | command pointer address => exact ⟨trivial, aligned.command pointer address⟩
  | poll env => exact aligned.poll env fun line => blocked env line rfl
  | host jim => exact ⟨trivial, aligned.other, aligned.exec⟩
  | init => exact ⟨trivial, of_not_pending rfl⟩
  | controlError =>
    exact ⟨trivial, aligned.onControl _ fun _ _ staged => staged.congr rfl rfl (fun _ => id) id⟩
  | controlConnected ok =>
    refine ⟨trivial, aligned.onControl _ fun _ _ staged => ?_⟩
    cases ok with
    | false => exact staged.congr rfl rfl (fun _ => id) id
    | true => exact staged.congr rfl rfl (fun _ => id) id
  | controlReceive received =>
    let callback ftp := ftpControlReceive ftp received
    refine ⟨trivial, aligned.onControl callback fun _ _ staged => ?_⟩
    simp only [callback]
    cases received with
    | fault => exact staged.congr rfl rfl (fun _ => id) id
    | eof => exact staged.congr rfl rfl (fun _ => id) id
    | payload bytes =>
      simp only [ftpControlReceive]
      split <;> exact staged.congr rfl rfl (fun _ => id) id
  | dataError =>
    refine ⟨trivial, aligned.onData _ fun _ _ staged => staged.congr rfl rfl ?_ id⟩
    rintro _ ⟨⟩
  | dataConnected ok =>
    cases ok with
    | false =>
      refine ⟨trivial, aligned.onData _ fun _ _ staged => staged.congr rfl rfl ?_ id⟩
      rintro _ ⟨⟩
    | true => exact aligned.dataConnected
  | dataReceive received =>
    let callback ftp := (ftpDataReceive ftp received).2
    refine ⟨trivial, aligned.onData callback fun _ _ staged => ?_⟩
    simp only [callback]
    cases received with
    | fault => exact staged.congr rfl rfl (fun _ => id) id
    | eof => exact staged.congr rfl rfl (fun _ => id) id
    | payload bytes =>
      simp only [ftpDataReceive]
      split
      · exact staged
      · exact staged.congr rfl rfl (fun _ => id) id
  | dnsFound address =>
    refine ⟨trivial, aligned.congr fun _ staged => ?_⟩
    cases address with
    | none => exact staged.congr rfl rfl (fun _ => id) id
    | some address => exact staged.congr rfl rfl (fun _ => id) id

end Aligned

/-- Every first poll of a transfer in the run finds no room to send. -/
def FirstSendsBlocked (s : Service) (events : List Event) : Prop :=
  ∀ before env after, events = before ++ .poll env :: after →
    ∀ line, OpensTransfer env (s.run before).1 line → sendable env (s.run before).1.ftp line = false

theorem FirstSendsBlocked.cons {s : Service} {event : Event} {events : List Event}
    (blocked : FirstSendsBlocked s (event :: events)) :
    (∀ env line, event = .poll env → OpensTransfer env s line → sendable env s.ftp line = false) ∧
      FirstSendsBlocked (s.step event).1 events := by
  constructor
  · rintro env line rfl
    exact blocked [] env events rfl line
  · rintro before env after rfl
    exact blocked (event :: before) env after rfl

/-- A run in which no transfer can send at its first poll. -/
theorem Aligned.run {s : Service} {c : Cursor} (aligned : Aligned s c) {events : List Event}
    (blocked : FirstSendsBlocked s events) : c.Sound (s.run events).2 := by
  induction events generalizing s c with
  | nil => trivial
  | cons event events ih =>
    obtain ⟨first, rest⟩ := blocked.cons
    obtain ⟨sound, next⟩ := aligned.step event first
    exact Cursor.sound_append.mpr ⟨sound, ih next rest⟩

/-- With room to send, the first poll of a transfer writes its line at once. -/
theorem OpensTransfer.writes {env : Env} {s : Service} {line : List UInt8}
    (opens : OpensTransfer env s line) (room : sendable env s.ftp line = true) :
    (ftpServicePoll env s).2 =
      [.began ftpCmdExec (ftpBegin env s).2.request, .did (.wrote line)] := by
  obtain ⟨text, deadline, record⟩ := ftpBegin_exec env s opens.command opens.begun
  have ready : (ftpBegin env s).2.state = .ready := by rw [record]; exact opens.ready
  have fresh : (ftpBegin env s).2.operation = .none := by rw [record]
  obtain ⟨kept, -, control⟩ := ftpPrepare_transfer opens.accepted opens.transfer
  have attached : (ftpPrepare (ftpBegin env s).2).2.control = s.ftp.control := by
    rw [control, record]
  have space : sendable env (ftpPrepare (ftpBegin env s).2).2 line = true := by
    simpa only [sendable, attached] using room
  obtain ⟨full, -⟩ | ⟨-, deadline, sent⟩ :=
    sendLine_cases env (ftpPrepare (ftpBegin env s).2).2 line .simpleReply
  · rw [space] at full
    cases full
  have polled : ftpExecPoll env (ftpBegin env s).2 = ⟨.pending,
      { (ftpPrepare (ftpBegin env s).2).2 with operation := .simpleReply, deadline },
      [.wrote line]⟩ := by
    rw [ftpExecPoll, if_neg (not_not.mpr ready), fresh]
    simp only [opens.accepted, Bool.not_true, Bool.false_eq_true, if_false, kept, sent]
  let taken : Service := { s with ftp := (ftpBegin env s).2, requestStarted := true }
  have dispatched := ftpDispatch_exec env taken opens.command
  have stays : (ftpProcess env s).result = .pending := by
    rw [ftpProcess, if_neg (by simp [opens.fresh])]
    simp only [opens.begun, Bool.not_true, Bool.false_eq_true, if_false]
    rw [dispatched, polled]
  rw [ftpServicePoll, if_neg (by simp [opens.running]), if_neg (by simp [opens.pending])]
  simp only [stays, if_true]
  rw [ftpProcess, if_neg (by simp [opens.fresh])]
  simp only [opens.begun, Bool.not_true, Bool.false_eq_true, if_false]
  rw [dispatched, polled, opens.command]
  rfl

/-- A trace is in order exactly when no transfer could send at its first poll: that poll falls
through to the sending case of the simple commands. -/
theorem sequenced_iff_first_sends_blocked (discRamBase : Nat) (jim : Memory UInt8)
    (events : List Event) :
    Sequenced ((ftpServiceInit discRamBase jim).run events).2 ↔
      FirstSendsBlocked (ftpServiceInit discRamBase jim) events := by
  constructor
  · rintro sequenced before env after rfl line opens
    by_contra unblocked
    have room : sendable env ((ftpServiceInit discRamBase jim).run before).1.ftp line = true := by
      simpa using unblocked
    have written := opens.writes room
    rw [run_append] at sequenced
    simp only [Service.run, Service.step, written] at sequenced
    obtain ⟨port, left, right, split, -, -⟩ :=
      sequenced _ _ [] line _ rfl (by simp) opens.transfer
    simp at split
  · intro blocked
    have aligned : Aligned (ftpServiceInit discRamBase jim) ⟨none, []⟩ := Aligned.of_not_pending rfl
    exact Cursor.sequenced_of_sound (aligned.run blocked)

/-- A `GET` once the send buffer is full, which then goes by the book. -/
example : ((ftpServiceInit 0 fun _ => 0).run (openedRun ++ negotiatedRun)).2.drop 5 =
    [.began ftpCmdExec (ascii "GET file"), .did (.wrote (ascii "EPSV\r\n")),
      .did (.replied 229 (ascii "229 passive (|||4000|)\r\n")),
      .did (.connectData ⟨0x0A000001, 4000⟩), .did (.connected 4000),
      .did (.wrote (ascii "RETR file\r\n"))] := by
  decide +kernel

/-- A `GET` with room in the send buffer. -/
def eagerRun : List Event :=
  openedRun ++ [.host (requestBlock ftpCmdExec "GET file"), .command 0xfff000 0, .poll roomyEnv]

theorem eagerRun_not_sequenced :
    ¬Sequenced ((ftpServiceInit 0 fun _ => 0).run eagerRun).2 := by
  have trace : ((ftpServiceInit 0 fun _ => 0).run eagerRun).2 =
      ((ftpServiceInit 0 fun _ => 0).run openedRun).2 ++
        .began ftpCmdExec (ascii "GET file") ::
          ([] ++ .did (.wrote (ascii "RETR file\r\n")) :: []) := by
    decide +kernel
  intro sequenced
  obtain ⟨port, left, right, split, -, -⟩ :=
    sequenced _ _ [] _ [] trace (by simp) (by decide +kernel)
  simp at split

end Pi1MHz.FtpService
