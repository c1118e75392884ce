import Pi1MHz.Ftp.Polls

/-! A download: payloads enter the ring as lwIP delivers them and leave it through `READ`
requests. -/
namespace Pi1MHz.FtpService

section ReadPoll
variable (env : Env) (scratch cp : Nat) (ftp : Ftp) (jim : Memory UInt8)

/-- How many bytes a poll moves. -/
def readCount : Nat := min (jim (cp + 1)).toNat ftp.ring.count

/-- A poll that is not for a download in progress changes nothing. -/
theorem ftpReadPoll_refused (refused : ftp.operation ≠ .read ∨ ftp.transfer = .write) :
    ftpReadPoll env scratch cp ftp jim = (⟨.param, ftp, []⟩, jim) := by
  simp only [ftpReadPoll]
  rw [if_pos refused]

theorem readCount_eq : (if (jim (cp + 1)).toNat < ftp.ring.count then (jim (cp + 1)).toNat
    else ftp.ring.count % 256) = readCount cp ftp jim := by
  have small := (jim (cp + 1)).toNat_lt
  rw [readCount]
  split
  · omega
  · rw [Nat.mod_eq_of_lt (by omega)]
    omega

/-- A poll that finds bytes delivers them. -/
theorem ftpReadPoll_delivered (accepted : ¬(ftp.operation ≠ .read ∨ ftp.transfer = .write))
    (held : readCount cp ftp jim ≠ 0) :
    ∃ deadline, ftpReadPoll env scratch cp ftp jim =
      (⟨.ok, { ftp with
          ring := (ftp.ring.drain ftpDataCapacity (readCount cp ftp jim)).2, deadline }, []⟩,
        (jim.write scratch (ftp.ring.drain ftpDataCapacity (readCount cp ftp jim)).1).write (cp + 1)
          [(readCount cp ftp jim).toUInt8]) := by
  refine ⟨env.now + ftpTimeoutMs, ?_⟩
  simp only [ftpReadPoll, readCount_eq, if_neg accepted, if_pos held]
  rfl

/-- A poll that moves nothing only writes the count of zero. -/
theorem ftpReadPoll_empty (accepted : ¬(ftp.operation ≠ .read ∨ ftp.transfer = .write))
    (empty : readCount cp ftp jim = 0) :
    ftpReadPoll env scratch cp ftp jim =
      (if ftp.dataError then ⟨.connect, ftp, []⟩
        else if !ftp.dataEof then waiting env ftp
        else ftpTransferReply env { ftp with data := none },
      (jim.write scratch []).write (cp + 1) [0]) := by
  simp only [ftpReadPoll, readCount_eq, if_neg accepted, empty, ne_eq, not_true_eq_false, if_false,
    RingBuffer.drain]
  split
  · rfl
  · split <;> rfl

/-- It ends the download only at the end of the stream, once the final reply is there. -/
theorem ftpReadPoll_empty_result (accepted : ¬(ftp.operation ≠ .read ∨ ftp.transfer = .write))
    (empty : readCount cp ftp jim = 0) :
    (ftpReadPoll env scratch cp ftp jim).1.ftp.ring = ftp.ring ∧
      (ftpReadPoll env scratch cp ftp jim).1.result ≠ .ok ∧
      ((ftpReadPoll env scratch cp ftp jim).1.result = .eof ↔
        ftp.dataError = false ∧ ftp.dataEof = true ∧ (ftpReply ftp).isSome = true) := by
  rw [ftpReadPoll_empty env scratch cp ftp jim accepted empty]
  simp only
  split
  next failed => simp [failed]
  next fine =>
    split
    next open_ =>
      have unfinished : ftp.dataEof = false := by simpa using open_
      simp only [waiting, unfinished, Bool.false_eq_true, false_and, and_false, iff_false, true_and]
      split <;> simp
    next ended =>
      obtain ⟨ring, notOk, eof⟩ := ftpTransferReply_spec env { ftp with data := none }
      refine ⟨ring, notOk, eof.trans ?_⟩
      rw [ftpReply_isSome, ftpReply_isSome]
      simp at fine ended
      simp [fine, ended]

end ReadPoll

section ServicePoll
variable (env : Env) (s : Service)

theorem read_command (isRead : s.requestCommand = ftpCmdRead) :
    ¬ s.requestCommand = ftpCmdOpen ∧ ¬ s.requestCommand = ftpCmdExec := by
  rw [isRead]
  decide

theorem ftpDispatch_read (isRead : s.requestCommand = ftpCmdRead) :
    ftpDispatch env s =
      ⟨(ftpReadPoll env s.scratch s.requestPointer s.ftp s.jim).1.result,
        { s with
          ftp := (ftpReadPoll env s.scratch s.requestPointer s.ftp s.jim).1.ftp
          jim := if (ftpReadPoll env s.scratch s.requestPointer s.ftp s.jim).1.result = .eof then
              ftpResponse s.requestPointer
                (ftpReadPoll env s.scratch s.requestPointer s.ftp s.jim).1.ftp
                (ftpReadPoll env s.scratch s.requestPointer s.ftp s.jim).2
            else (ftpReadPoll env s.scratch s.requestPointer s.ftp s.jim).2 },
        (ftpReadPoll env s.scratch s.requestPointer s.ftp s.jim).1.actions.map .did⟩ := by
  obtain ⟨notOpen, notExec⟩ := read_command s isRead
  simp only [ftpDispatch, if_neg notOpen, if_neg notExec, if_pos isRead]

/-- What a poll of a `READ` leaves behind, by the outcome of `ftp_read_poll`. -/
structure ReadPolled (o : Outcome × Memory UInt8) : Prop where
  ftp : (ftpServicePoll env s).1.ftp = o.1.ftp
  base : (ftpServicePoll env s).1.discRamBase = s.discRamBase
  pointer : (ftpServicePoll env s).1.requestPointer = s.requestPointer
  command : (ftpServicePoll env s).1.requestCommand = s.requestCommand
  jim : o.1.result ≠ .eof → (ftpServicePoll env s).1.jim = o.2
  completed : ∀ result, .completed ftpCmdRead result ∈ (ftpServicePoll env s).2 ↔
    result = o.1.result ∧ result ≠ .pending

theorem ftpServicePoll_read (running : s.requestCancel = false) (pending : s.requestPending = true)
    (isRead : s.requestCommand = ftpCmdRead) : ∃ deadline,
    ReadPolled env s (ftpReadPoll env s.scratch s.requestPointer { s.ftp with deadline } s.jim) := by
  obtain ⟨notOpen, notExec⟩ := read_command s isRead
  obtain ⟨deadline, record⟩ := taken_plain env s notOpen notExec
  refine ⟨deadline, ?_⟩
  have begun : s.requestStarted = false → (ftpBegin env s).1 = true := by
    intro _
    rw [ftpBegin_plain env s notOpen notExec]
  have dispatched := (congrArg (ftpDispatch env) record).trans (ftpDispatch_read env _ isRead)
  have completes := ftpServicePoll_completed env s running pending begun
  obtain ⟨_, _, _, _, -, -, polled⟩ := ftpServicePoll_leaves env s running pending begun
  constructor
  · rw [polled]
    exact congrArg (fun p => p.service.ftp) dispatched
  · rw [polled]
    exact congrArg (fun p => p.service.discRamBase) dispatched
  · rw [polled]
    exact congrArg (fun p => p.service.requestPointer) dispatched
  · rw [polled]
    exact congrArg (fun p => p.service.requestCommand) dispatched
  · intro notEof
    rw [polled, dispatched]
    exact if_neg notEof
  · intro result
    rw [completes, dispatched]
    exact and_iff_right isRead.symm

end ServicePoll

/-- A request block whose count byte is not on the scratch page. -/
def OffScratch (discRamBase cp : Nat) : Prop :=
  cp + 1 < discRamBase + ftpScratchOffset ∨ discRamBase + ftpScratchOffset + 255 ≤ cp + 1

instance (discRamBase cp : Nat) : Decidable (OffScratch discRamBase cp) :=
  inferInstanceAs (Decidable (_ ∨ _))

/-- A `READ` request as the host makes it. -/
structure ReadRequest (discRamBase : Nat) where
  pointer : UInt32
  address : Nat
  maximum : UInt8
  positive : maximum ≠ 0
  apart : OffScratch discRamBase (commandBlock discRamBase pointer)

/-- What happens during a download. -/
inductive DownloadStep (discRamBase : Nat)
  | read (request : ReadRequest discRamBase)
  | poll (env : Env)
  | callback (event : Event) (isCallback : event.IsCallback)

/-- A download with the bytes accepted from the connection and those returned to the host. -/
structure Download where
  service : Service
  accepted : List UInt8
  returned : List UInt8

/-- The bytes a callback puts into the ring. -/
def acceptedBy (s : Service) : Event → List UInt8
  | .dataReceive (.payload bytes) =>
    if s.ftp.data.isSome && (ftpDataReceive s.ftp (.payload bytes)).1 then bytes else []
  | _ => []

/-- The bytes a host finds after a poll that completes its `READ`. -/
def returnedBy (after : Service) (trace : List Entry) : List UInt8 :=
  if .completed ftpCmdRead .ok ∈ trace then
    after.jim.read after.scratch (after.jim (after.requestPointer + 1)).toNat
  else []

namespace Download

/-- The host waits for a request to complete before it makes the next. -/
def step {discRamBase : Nat} (d : Download) : DownloadStep discRamBase → Download
  | .read request =>
    if d.service.requestPending then d
    else
      let block := commandBlock discRamBase request.pointer
      let written := { d.service with
        jim := d.service.jim.write block [ftpCmdRead, request.maximum] }
      { d with service := ftpServiceCommand request.pointer request.address written }
  | .poll env =>
    let polled := d.service.step (.poll env)
    ⟨polled.1, d.accepted, d.returned ++ returnedBy polled.1 polled.2⟩
  | .callback event _ =>
    ⟨(d.service.step event).1, d.accepted ++ acceptedBy d.service event, d.returned⟩

def run {discRamBase : Nat} (d : Download) (steps : List (DownloadStep discRamBase)) : Download :=
  steps.foldl step d

end Download

/-- A state to download from: nothing in the ring, and no request in progress but a `READ`. -/
structure Downloading (s : Service) : Prop where
  operation : s.ftp.operation = .read
  ring : s.ftp.ring.WellFormed ftpDataCapacity
  empty : s.ftp.ring.count = 0
  request : s.requestPending = true →
    s.requestCommand = ftpCmdRead ∧ OffScratch s.discRamBase s.requestPointer

/-- A poll of a `READ` at the end of the stream, with its maximum cleared although the ring
holds bytes. -/
structure Truncates (s : Service) : Prop where
  running : s.requestCancel = false
  pending : s.requestPending = true
  operation : s.ftp.operation = .read
  transfer : s.ftp.transfer ≠ .write
  cleared : s.jim (s.requestPointer + 1) = 0
  held : 0 < s.ftp.ring.count
  sound : s.ftp.dataError = false
  ended : s.ftp.dataEof = true
  replied : (ftpReply s.ftp).isSome = true

namespace Download
variable {discRamBase : Nat} {d : Download}

/-- Every byte accepted has been returned or is in the ring, in order. -/
structure Consistent (discRamBase : Nat) (d : Download) : Prop where
  base : d.service.discRamBase = discRamBase
  ring : d.service.ftp.ring.WellFormed ftpDataCapacity
  request : d.service.requestPending = true → d.service.requestCommand = ftpCmdRead ∧
    OffScratch discRamBase d.service.requestPointer
  within : d.returned <+: d.accepted
  live : d.service.ftp.operation = .read →
    d.accepted = d.returned ++ d.service.ftp.ring.contents ftpDataCapacity

/-- The host finds the delivered bytes on the scratch page and their count in its block. -/
theorem read_delivered (jim : Memory UInt8) {scratch cp : Nat} {bytes : List UInt8}
    (short : bytes.length ≤ 255) (apart : cp + 1 < scratch ∨ scratch + 255 ≤ cp + 1) :
    let after := (jim.write scratch bytes).write (cp + 1) [bytes.length.toUInt8]
    after.read scratch (after (cp + 1)).toNat = bytes := by
  intro after
  have count : (after (cp + 1)).toNat = bytes.length := by
    have cell : after (cp + 1) = bytes.length.toUInt8 := by
      simpa using Memory.write_inside (jim.write scratch bytes) (cp + 1) [bytes.length.toUInt8] 0
        (by simp)
    rw [cell]
    simp only [Nat.toUInt8_eq, UInt8.toNat_ofNat']
    omega
  rw [count]
  have same : after.read scratch bytes.length = (jim.write scratch bytes).read scratch bytes.length := by
    apply Memory.read_ext
    intro i bound
    apply Memory.write_outside
    simp only [List.length_singleton]
    omega
  rw [same, Memory.read_write]

/-- A poll that delivers takes the oldest bytes of the ring. -/
theorem Consistent.delivered (consistent : d.Consistent discRamBase) {env : Env} {deadline : UInt32}
    (polled : ReadPolled env d.service (ftpReadPoll env d.service.scratch d.service.requestPointer
      { d.service.ftp with deadline } d.service.jim))
    (pending : d.service.requestPending = true)
    (accepted : ¬(d.service.ftp.operation ≠ .read ∨ d.service.ftp.transfer = .write))
    (held : readCount d.service.requestPointer d.service.ftp d.service.jim ≠ 0) :
    Consistent discRamBase (d.step (.poll env : DownloadStep discRamBase)) := by
  obtain ⟨deadline', outcome⟩ := ftpReadPoll_delivered env d.service.scratch
    d.service.requestPointer { d.service.ftp with deadline } d.service.jim accepted held
  rw [outcome] at polled
  have enough : readCount d.service.requestPointer d.service.ftp d.service.jim ≤
      d.service.ftp.ring.count := Nat.min_le_right _ _
  have short : readCount d.service.requestPointer d.service.ftp d.service.jim ≤ 255 := by
    have byte := (d.service.jim (d.service.requestPointer + 1)).toNat_lt
    have bound := Nat.min_le_left (d.service.jim (d.service.requestPointer + 1)).toNat
      d.service.ftp.ring.count
    rw [readCount]
    omega
  obtain ⟨ring, taken, left, -⟩ := consistent.ring.drain enough
  have length : (d.service.ftp.ring.drain ftpDataCapacity
      (readCount d.service.requestPointer d.service.ftp d.service.jim)).1.length =
      readCount d.service.requestPointer d.service.ftp d.service.jim := by
    rw [taken, List.length_take, RingBuffer.contents_length]
    omega
  have request := consistent.request pending
  have reading : d.service.ftp.operation = .read := by
    simp only [not_or, not_not] at accepted
    exact accepted.1
  have scratch : (ftpServicePoll env d.service).1.scratch = d.service.scratch := by
    rw [Service.scratch, polled.base, Service.scratch]
  have found : returnedBy (ftpServicePoll env d.service).1 (ftpServicePoll env d.service).2 =
      (d.service.ftp.ring.contents ftpDataCapacity).take
        (readCount d.service.requestPointer d.service.ftp d.service.jim) := by
    rw [returnedBy, if_pos ((polled.completed .ok).mpr ⟨rfl, by simp⟩), scratch, polled.pointer,
      polled.jim (by simp), ← taken]
    have apart : d.service.requestPointer + 1 < d.service.scratch ∨
        d.service.scratch + 255 ≤ d.service.requestPointer + 1 := by
      rw [Service.scratch, consistent.base]
      exact request.2
    have delivered := read_delivered d.service.jim (short.trans' length.le) apart
    rwa [length] at delivered
  have accounts : d.accepted = d.returned ++ returnedBy (ftpServicePoll env d.service).1
      (ftpServicePoll env d.service).2 ++ (d.service.ftp.ring.contents ftpDataCapacity).drop
        (readCount d.service.requestPointer d.service.ftp d.service.jim) := by
    rw [found, consistent.live reading, List.append_assoc, List.take_append_drop]
  constructor
  · exact polled.base.trans consistent.base
  · simp only [step, Service.step, polled.ftp]
    exact ring
  · intro _
    simp only [step, Service.step, polled.command, polled.pointer]
    exact request
  · exact ⟨_, accounts.symm⟩
  · intro _
    simp only [step, Service.step, polled.ftp]
    refine accounts.trans (congrArg _ ?_)
    exact left.symm

/-- A poll that leaves the ring and the accounts as they are. -/
theorem Consistent.kept (consistent : d.Consistent discRamBase) {env : Env} {deadline : UInt32}
    (polled : ReadPolled env d.service (ftpReadPoll env d.service.scratch d.service.requestPointer
      { d.service.ftp with deadline } d.service.jim))
    (pending : d.service.requestPending = true)
    (ring : (ftpReadPoll env d.service.scratch d.service.requestPointer
      { d.service.ftp with deadline } d.service.jim).1.ftp.ring = d.service.ftp.ring)
    (notOk : (ftpReadPoll env d.service.scratch d.service.requestPointer
      { d.service.ftp with deadline } d.service.jim).1.result ≠ .ok)
    (reading : (ftpReadPoll env d.service.scratch d.service.requestPointer
      { d.service.ftp with deadline } d.service.jim).1.ftp.operation = .read →
        d.service.ftp.operation = .read) :
    Consistent discRamBase (d.step (.poll env : DownloadStep discRamBase)) ∧
      (d.step (.poll env : DownloadStep discRamBase)).returned = d.returned := by
  have nothing : returnedBy (ftpServicePoll env d.service).1 (ftpServicePoll env d.service).2 = [] := by
    rw [returnedBy, if_neg]
    intro done
    exact notOk ((polled.completed .ok).mp done).1.symm
  have same : (d.step (.poll env : DownloadStep discRamBase)).returned = d.returned := by
    simp only [step, Service.step, nothing, List.append_nil]
  refine ⟨⟨polled.base.trans consistent.base, ?_, ?_, ?_, ?_⟩, same⟩
  · simp only [step, Service.step, polled.ftp, ring]
    exact consistent.ring
  · intro _
    simp only [step, Service.step, polled.command, polled.pointer]
    exact consistent.request pending
  · rw [same]
    exact consistent.within
  · intro still
    simp only [step, Service.step, polled.ftp, ring, nothing, List.append_nil] at still ⊢
    exact consistent.live (reading still)

/-- The ring after a reset. -/
theorem wellFormed_reset : ftpReset.ring.WellFormed ftpDataCapacity := ⟨by decide, rfl, by decide⟩

/-- A poll of a `READ`. -/
theorem Consistent.poll_read (consistent : d.Consistent discRamBase) (env : Env)
    (running : d.service.requestCancel = false) (pending : d.service.requestPending = true) :
    Consistent discRamBase (d.step (.poll env : DownloadStep discRamBase)) := by
  have request := consistent.request pending
  obtain ⟨deadline, polled⟩ := ftpServicePoll_read env d.service running pending request.1
  by_cases refused : d.service.ftp.operation ≠ .read ∨ d.service.ftp.transfer = .write
  · have outcome := ftpReadPoll_refused env d.service.scratch d.service.requestPointer
      { d.service.ftp with deadline } d.service.jim refused
    refine (consistent.kept polled pending ?_ ?_ ?_).1
    · rw [outcome]
    · rw [outcome]
      simp
    · rw [outcome]
      exact id
  · by_cases empty : readCount d.service.requestPointer d.service.ftp d.service.jim = 0
    · have outcome := ftpReadPoll_empty_result env d.service.scratch d.service.requestPointer
        { d.service.ftp with deadline } d.service.jim refused empty
      refine (consistent.kept polled pending outcome.1 outcome.2.1 fun _ => ?_).1
      simp only [not_or, not_not] at refused
      exact refused.1
    · exact consistent.delivered polled pending refused empty

theorem Consistent.poll (consistent : d.Consistent discRamBase) (env : Env) :
    Consistent discRamBase (d.step (.poll env : DownloadStep discRamBase)) := by
  rcases ftpServicePoll_cases env d.service with
    ⟨-, polled⟩ | ⟨-, polled⟩ | ⟨running, pending, -⟩ | ⟨running, pending, -⟩
  · simp only [step, Service.step, polled]
    refine ⟨consistent.base, wellFormed_reset, fun pending => ?_, ?_, fun reading => ?_⟩
    · cases pending
    · simpa [returnedBy] using consistent.within
    · cases reading
  · simpa [step, Service.step, polled, returnedBy] using consistent
  · exact consistent.poll_read env running pending
  · exact consistent.poll_read env running pending

/-- A poll that ends the download has returned everything, unless it truncates it. -/
theorem Consistent.eof (consistent : d.Consistent discRamBase) {env : Env}
    (ended : .completed ftpCmdRead .eof ∈ (ftpServicePoll env d.service).2) :
    (d.step (.poll env : DownloadStep discRamBase)).returned =
        (d.step (.poll env : DownloadStep discRamBase)).accepted ↔ ¬Truncates d.service := by
  obtain ⟨running, pending, -⟩ := completed_taken env d.service ended (by simp) (by simp)
  have request := consistent.request pending
  obtain ⟨deadline, polled⟩ := ftpServicePoll_read env d.service running pending request.1
  have result := ((polled.completed .eof).mp ended).1
  have accepted : ¬(d.service.ftp.operation ≠ .read ∨ d.service.ftp.transfer = .write) := by
    intro refused
    rw [ftpReadPoll_refused env _ _ { d.service.ftp with deadline } _ refused] at result
    cases result
  have empty : readCount d.service.requestPointer d.service.ftp d.service.jim = 0 := by
    by_contra held
    obtain ⟨_, outcome⟩ := ftpReadPoll_delivered env d.service.scratch d.service.requestPointer
      { d.service.ftp with deadline } d.service.jim accepted held
    rw [outcome] at result
    cases result
  obtain ⟨ring, notOk, eof⟩ := ftpReadPoll_empty_result env d.service.scratch
    d.service.requestPointer { d.service.ftp with deadline } d.service.jim accepted empty
  have returned : (d.step (.poll env : DownloadStep discRamBase)).returned = d.returned :=
    (consistent.kept polled pending ring notOk fun _ => by
      simp only [not_or, not_not] at accepted
      exact accepted.1).2
  simp only [not_or, not_not] at accepted
  have accounts : d.accepted = _ := consistent.live accepted.1
  have whole : d.returned = d.accepted ↔ d.service.ftp.ring.count = 0 := by
    rw [accounts, List.self_eq_append_right, RingBuffer.contents_eq_nil]
  rw [returned]
  refine whole.trans ?_
  constructor
  · intro nothing truncates
    have := truncates.held
    omega
  · intro fine
    by_contra held
    obtain ⟨noError, atEnd, replied⟩ := eof.mp result.symm
    refine fine ⟨running, pending, accepted.1, accepted.2, ?_, by omega, noError, atEnd, ?_⟩
    · have cleared : (d.service.jim (d.service.requestPointer + 1)).toNat = 0 := by
        rw [readCount] at empty
        omega
      exact UInt8.toNat_inj.mp cleared
    · rwa [ftpReply_isSome] at replied ⊢

/-- A poll that truncates a download ends it. -/
theorem Consistent.truncated (consistent : d.Consistent discRamBase) (env : Env)
    (truncates : Truncates d.service) :
    .completed ftpCmdRead .eof ∈ (ftpServicePoll env d.service).2 := by
  have request := consistent.request truncates.pending
  obtain ⟨deadline, polled⟩ :=
    ftpServicePoll_read env d.service truncates.running truncates.pending request.1
  have accepted : ¬(d.service.ftp.operation ≠ .read ∨ d.service.ftp.transfer = .write) := by
    simp [truncates.operation, truncates.transfer]
  have empty : readCount d.service.requestPointer d.service.ftp d.service.jim = 0 := by
    rw [readCount, truncates.cleared]
    simp
  obtain ⟨-, -, eof⟩ := ftpReadPoll_empty_result env d.service.scratch d.service.requestPointer
    { d.service.ftp with deadline } d.service.jim accepted empty
  have replied : (ftpReply { d.service.ftp with deadline }).isSome = true := by
    have := truncates.replied
    rwa [ftpReply_isSome] at this ⊢
  exact (polled.completed .eof).mpr
    ⟨(eof.mpr ⟨truncates.sound, truncates.ended, replied⟩).symm, by simp⟩

/-- A callback that does not touch the ring. -/
theorem Consistent.quiet (consistent : d.Consistent discRamBase) {ftp : Ftp}
    (ring : ftp.ring = d.service.ftp.ring) (operation : ftp.operation = d.service.ftp.operation) :
    Consistent discRamBase { d with service := { d.service with ftp }, accepted := d.accepted ++ [] } := by
  rw [List.append_nil]
  refine ⟨consistent.base, ?_, consistent.request, consistent.within, ?_⟩
  · simpa only [ring] using consistent.ring
  · simpa only [ring, operation] using consistent.live

theorem Consistent.onControl (consistent : d.Consistent discRamBase) (callback : Ftp → Ftp)
    (ring : (callback d.service.ftp).ring = d.service.ftp.ring)
    (operation : (callback d.service.ftp).operation = d.service.ftp.operation) :
    Consistent discRamBase
      { d with service := d.service.onControl callback, accepted := d.accepted ++ [] } := by
  rw [Service.onControl]
  split
  · exact consistent.quiet ring operation
  · exact consistent.quiet rfl rfl

theorem Consistent.onData (consistent : d.Consistent discRamBase) (callback : Ftp → Ftp)
    (ring : (callback d.service.ftp).ring = d.service.ftp.ring)
    (operation : (callback d.service.ftp).operation = d.service.ftp.operation) :
    Consistent discRamBase
      { d with service := d.service.onData callback, accepted := d.accepted ++ [] } := by
  rw [Service.onData]
  split
  · exact consistent.quiet ring operation
  · exact consistent.quiet rfl rfl

/-- A payload is refused whole or queued whole. -/
theorem Consistent.payload (consistent : d.Consistent discRamBase) (bytes : List UInt8) :
    Consistent discRamBase ⟨(d.service.step (.dataReceive (.payload bytes))).1,
      d.accepted ++ acceptedBy d.service (.dataReceive (.payload bytes)), d.returned⟩ := by
  simp only [Service.step, Service.onData, acceptedBy]
  cases attached : d.service.ftp.data.isSome with
  | false =>
    simp only [Bool.false_eq_true, if_false, Bool.false_and]
    exact consistent.quiet rfl rfl
  | true =>
    simp only [if_true, Bool.true_and, ftpDataReceive]
    split
    next full =>
      simp only [Bool.false_eq_true, if_false]
      exact consistent.quiet rfl rfl
    next room =>
      have bound := consistent.ring.count_le
      obtain ⟨ring, contents⟩ := consistent.ring.append bytes (by omega)
      refine ⟨consistent.base, ring, consistent.request, ?_, ?_⟩
      · exact consistent.within.trans (List.prefix_append _ _)
      · intro reading
        simp only [if_true, contents, ← List.append_assoc]
        rw [consistent.live reading]

theorem Consistent.callback (consistent : d.Consistent discRamBase) {event : Event}
    (isCallback : event.IsCallback) :
    Consistent discRamBase (d.step (.callback event isCallback : DownloadStep discRamBase)) := by
  cases isCallback with
  | controlError => exact consistent.onControl _ rfl rfl
  | controlConnected ok => cases ok <;> exact consistent.onControl _ rfl rfl
  | controlReceive received =>
    let callback ftp := ftpControlReceive ftp received
    have kept : (callback d.service.ftp).ring = d.service.ftp.ring ∧
        (callback d.service.ftp).operation = d.service.ftp.operation := by
      cases received with
      | fault => exact ⟨rfl, rfl⟩
      | eof => exact ⟨rfl, rfl⟩
      | payload bytes =>
        simp only [callback, ftpControlReceive]
        split <;> exact ⟨rfl, rfl⟩
    exact consistent.onControl callback kept.1 kept.2
  | dataError => exact consistent.onData _ rfl rfl
  | dataConnected ok => cases ok <;> exact consistent.onData _ rfl rfl
  | dataReceive received =>
    cases received with
    | fault => exact consistent.onData (fun ftp => (ftpDataReceive ftp .fault).2) rfl rfl
    | eof => exact consistent.onData (fun ftp => (ftpDataReceive ftp .eof).2) rfl rfl
    | payload bytes => exact consistent.payload bytes
  | dnsFound address => cases address <;> exact consistent.quiet rfl rfl

theorem Consistent.read (consistent : d.Consistent discRamBase) (request : ReadRequest discRamBase) :
    Consistent discRamBase (d.step (.read request)) := by
  simp only [step]
  split
  · exact consistent
  next idle =>
    let block := commandBlock discRamBase request.pointer
    have command : (d.service.jim.write block [ftpCmdRead, request.maximum]) block = ftpCmdRead := by
      simpa using Memory.write_inside d.service.jim block [ftpCmdRead, request.maximum] 0 (by simp)
    have notCancel : ¬ftpCmdRead = ftpCmdCancel := by decide
    simp only [ftpServiceCommand, consistent.base, ← commandBlock.eq_1]
    rw [command, if_neg notCancel, if_neg idle]
    exact ⟨rfl, consistent.ring, fun _ => ⟨rfl, request.apart⟩, consistent.within, consistent.live⟩

theorem Consistent.step (consistent : d.Consistent discRamBase) (next : DownloadStep discRamBase) :
    (d.step next).Consistent discRamBase := by
  cases next with
  | read request => exact consistent.read request
  | poll env => exact consistent.poll env
  | callback event isCallback => exact consistent.callback isCallback

theorem Consistent.run (consistent : d.Consistent discRamBase)
    (steps : List (DownloadStep discRamBase)) : (d.run steps).Consistent discRamBase := by
  induction steps generalizing d with
  | nil => exact consistent
  | cons next steps ih => exact ih (consistent.step next)

/-- Whenever a `READ` of the run ends with `EOF`, every accepted byte has been returned. -/
def CompleteAtEof (d : Download) (steps : List (DownloadStep discRamBase)) : Prop :=
  ∀ before env after, steps = before ++ .poll env :: after →
    .completed ftpCmdRead .eof ∈ (ftpServicePoll env (d.run before).service).2 →
    (d.run (before ++ [.poll env])).returned = (d.run (before ++ [.poll env])).accepted

/-- No poll of the run truncates the download. -/
def NeverTruncates (d : Download) (steps : List (DownloadStep discRamBase)) : Prop :=
  ∀ before env after, steps = before ++ .poll env :: after → ¬Truncates (d.run before).service

end Download

/-- A refused payload leaves the session as it was. -/
theorem ftpDataReceive_refused {ftp : Ftp} {bytes : List UInt8}
    (refused : (ftpDataReceive ftp (.payload bytes)).1 = false) :
    (ftpDataReceive ftp (.payload bytes)).2 = ftp := by
  simp only [ftpDataReceive] at refused ⊢
  split at refused
  next full => rw [if_pos full]
  next => cases refused

/-- A download delivers a prefix of what was accepted, within the capacity of the ring, and it
ends with everything delivered exactly if no poll of a `READ` at the end of the stream finds its
maximum cleared by an earlier poll while the ring holds bytes. -/
theorem download_delivers {s : Service} (start : Downloading s)
    (steps : List (DownloadStep s.discRamBase)) :
    let d := (Download.mk s [] []).run steps
    d.service.ftp.ring.count ≤ ftpDataCapacity ∧ d.returned <+: d.accepted ∧
      (∀ bytes, (ftpDataReceive d.service.ftp (.payload bytes)).1 = false →
        (ftpDataReceive d.service.ftp (.payload bytes)).2.ring = d.service.ftp.ring) ∧
      ((Download.mk s [] []).CompleteAtEof steps ↔ (Download.mk s [] []).NeverTruncates steps) := by
  have initial : (Download.mk s [] []).Consistent s.discRamBase := by
    refine ⟨rfl, start.ring, start.request, List.prefix_rfl, fun _ => ?_⟩
    rw [List.nil_append, RingBuffer.contents_eq_nil.mpr start.empty]
  have reached := initial.run steps
  refine ⟨reached.ring.count_le, reached.within, ?_, ?_⟩
  · intro bytes refused
    rw [ftpDataReceive_refused refused]
  · constructor
    · intro complete before env after split truncates
      have sofar := initial.run before
      have ended := sofar.truncated env truncates
      have whole := complete before env after split ended
      simp only [Download.run, List.foldl_append, List.foldl_cons, List.foldl_nil] at whole
      exact (sofar.eof ended).mp whole truncates
    · intro never before env after split ended
      have sofar := initial.run before
      simp only [Download.run, List.foldl_append, List.foldl_cons, List.foldl_nil]
      exact (sofar.eof ended).mpr (never before env after split)

/-- The `READ` of the host program, with the maximum it always asks for. -/
def hostRead : ReadRequest 0 := ⟨0xfff000, 0, 240, by decide, by decide⟩

/-- A download just started, on an otherwise idle board. -/
def promptStart : Service :=
  { ftpServiceInit 0 (fun _ => 0) with
    ftp := { ftpReset with
      state := .ready, operation := .read, transfer := .read
      control := some ⟨1, 21⟩, data := some ⟨1, 4000⟩ } }

/-- A payload that is there before the `READ` that asks for it. -/
def promptSteps : List (DownloadStep 0) :=
  [.callback (.dataReceive (.payload [1, 2, 3])) (.dataReceive _), .read hostRead, .poll roomyEnv]

theorem promptStart_delivers : Downloading promptStart ∧
    ((Download.mk promptStart [] []).run promptSteps).returned = [1, 2, 3] ∧
    ((Download.mk promptStart [] []).run promptSteps).returned <+:
      ((Download.mk promptStart [] []).run promptSteps).accepted ∧
    ((Download.mk promptStart [] []).CompleteAtEof promptSteps ↔
      (Download.mk promptStart [] []).NeverTruncates promptSteps) := by
  have start : Downloading promptStart :=
    ⟨rfl, Download.wellFormed_reset, rfl, fun pending => by cases pending⟩
  obtain ⟨-, within, -, complete⟩ := download_delivers start promptSteps
  exact ⟨start, by decide +kernel, within, complete⟩

/-- A download reached from the start of the service. -/
def fetching : Service :=
  ((ftpServiceInit 0 fun _ => 0).run (openedRun ++ negotiatedRun ++
    [.controlReceive (.payload (ascii "150 here it comes\r\n")), .poll roomyEnv])).1

/-- A `READ` polled before the payload, the end of the stream and the final reply arrive. -/
def hastySteps : List (DownloadStep 0) :=
  [.read hostRead, .poll roomyEnv,
    .callback (.dataReceive (.payload [1, 2, 3])) (.dataReceive _),
    .callback (.dataReceive .eof) (.dataReceive _),
    .callback (.controlReceive (.payload (ascii "226 done\r\n"))) (.controlReceive _)]

theorem hastySteps_not_complete : Downloading fetching ∧
    ¬(Download.mk fetching [] []).CompleteAtEof (hastySteps ++ [.poll roomyEnv]) := by
  constructor
  · refine ⟨by decide +kernel, ⟨by decide +kernel, by decide +kernel, by decide +kernel⟩,
      by decide +kernel, fun pending => ?_⟩
    have idle : fetching.requestPending = false := by decide +kernel
    simp [idle] at pending
  · intro complete
    have whole := complete hastySteps roomyEnv [] rfl (by decide +kernel)
    revert whole
    decide +kernel

end Pi1MHz.FtpService
