import Mathlib.Data.List.TakeWhile
import Pi1MHz.Media.Agreement
import Pi1MHz.Media.Isolation

/-! READ streams of one service: what the replies to the READs of an entry carry, over any
run of commands. A ghost, the bytes delivered since the last end of file, says which reply is
due. -/
namespace Pi1MHz.MediaService
open UefRepair MediaCatalogue

structure Request where
  command : UInt8
  argument : UInt8
  capacity : Nat

def dispatched (service : Service) (stream : Stream) (request : Request) : Outcome :=
  mediaServiceDispatch service stream request.command request.argument request.capacity

def Request.reads (index : UInt8) (request : Request) : Bool :=
  isRead request.command && request.argument == index

/-- What a READ returns. -/
structure Reading where
  status : Status
  reply : List UInt8
deriving DecidableEq

/-- The replies to the READs of entry `index`, in order. -/
def readings (index : UInt8) (service : Service) (stream : Stream) :
    List Request → List Reading
  | [] => []
  | request :: rest =>
    let outcome := dispatched service stream request
    (if request.reads index then [⟨outcome.status, outcome.reply⟩] else []) ++
      readings index outcome.service outcome.stream rest

/-- The command has nothing to do with the stream. -/
def quiet (command : UInt8) : Bool :=
  match Command.ofByte command with
  | some .open => true
  | some .cat => true
  | some .info => true
  | _ => false

theorem dispatched_read {request : Request} (read : isRead request.command = true)
    (service : Service) (stream : Stream) :
    dispatched service stream request =
      dispatchRead service stream request.argument (clipped request.capacity) :=
  dispatch_read service stream request.argument request.capacity read

theorem dispatched_kept {request : Request} (service : Service)
    (other : Command.ofByte request.command ≠ some .read)
    (stays : Command.ofByte request.command ≠ some .close) :
    ∃ status reply cursor, ∀ stream, dispatched service stream request =
      ⟨status, reply, { service with catCursor := cursor }, stream⟩ :=
  dispatch_kept service request.argument request.capacity other stays

theorem quiet_command {command : UInt8} (still : quiet command = true) :
    Command.ofByte command ≠ some .read ∧ Command.ofByte command ≠ some .close := by
  simp only [quiet] at still
  constructor
  · intro named
    rw [named] at still
    cases still
  · intro named
    rw [named] at still
    cases still

section Delivery

/-- The bytes of the entry a reply carries. -/
def Reading.window (reading : Reading) : List UInt8 := reading.reply.drop 4

/-- The length in the first three bytes. -/
def Reading.remaining (reading : Reading) : Nat :=
  (reading.reply.getD 0 0).toNat + 0x100 * (reading.reply.getD 1 0).toNat +
    0x10000 * (reading.reply.getD 2 0).toNat

/-- An end of file starts the delivery over. -/
def advance (delivered : List UInt8) (reading : Reading) : List UInt8 :=
  if reading.status = .eof then [] else delivered ++ reading.window

/-- What the readings have delivered since the last end of file. -/
def delivered (readings : List Reading) : List UInt8 := readings.foldl advance []

/-- The reading that is due when `done` has been delivered of `bytes`: a window with its
header, or the end of the file. -/
inductive Due (bytes done : List UInt8) : Reading → Prop
  | window {reading : Reading} (ok : reading.status = .ok) (header : 4 ≤ reading.reply.length)
      (remaining : reading.remaining = bytes.length - done.length)
      (size : (reading.reply.getD 3 0).toNat = reading.window.length) (nonempty : reading.window ≠ [])
      (next : done ++ reading.window <+: bytes) : Due bytes done reading
  | eof (all : done = bytes) : Due bytes done ⟨.eof, []⟩

/-- Each of the readings was due. -/
def AllDue (bytes : List UInt8) : List UInt8 → List Reading → Prop
  | _, [] => True
  | done, reading :: rest => Due bytes done reading ∧ AllDue bytes (advance done reading) rest

variable {bytes done : List UInt8}

theorem AllDue.due {before after : List Reading} {reading : Reading}
    (due : AllDue bytes done (before ++ reading :: after)) :
    Due bytes (before.foldl advance done) reading := by
  induction before generalizing done with
  | nil => exact due.1
  | cons first rest ih => exact ih due.2

theorem AllDue.later {before after : List Reading} (due : AllDue bytes done (before ++ after)) :
    AllDue bytes (before.foldl advance done) after := by
  induction before generalizing done with
  | nil => exact due
  | cons first rest ih => exact ih due.2

theorem Due.shorter {reading : Reading} (due : Due bytes done reading) :
    (advance done reading).length ≤ bytes.length := by
  cases due with
  | window ok header remaining size nonempty next =>
    rw [advance, if_neg (by simp [ok])]
    exact next.length_le
  | eof all => exact Nat.zero_le _

theorem AllDue.shorter {before after : List Reading} (short : done.length ≤ bytes.length)
    (due : AllDue bytes done (before ++ after)) :
    (before.foldl advance done).length ≤ bytes.length := by
  induction before generalizing done with
  | nil => exact short
  | cons first rest ih => exact ih due.1.shorter due.2

/-- Windows are not empty, so only so many of them come before an end of file. -/
theorem AllDue.windows_length {pass after : List Reading} (short : done.length ≤ bytes.length)
    (due : AllDue bytes done (pass ++ after)) (windows : ∀ reading ∈ pass, reading.status ≠ .eof) :
    done.length + pass.length ≤ bytes.length := by
  induction pass generalizing done with
  | nil => exact short
  | cons first rest ih =>
    have here := due.1.shorter
    have later := ih here due.2 fun reading member => windows reading (List.mem_cons_of_mem _ member)
    have running := windows first List.mem_cons_self
    cases due.1 with
    | window ok header remaining size nonempty next =>
      have positive := List.length_pos_iff.mpr nonempty
      rw [advance, if_neg running, List.length_append] at later
      simp only [List.length_cons]
      omega
    | eof all => exact absurd rfl running

theorem foldl_advance_windows {pass : List Reading} (windows : ∀ reading ∈ pass, reading.status ≠ .eof) :
    pass.foldl advance done = done ++ pass.flatMap Reading.window := by
  induction pass generalizing done with
  | nil => simp
  | cons first rest ih =>
    rw [List.foldl_cons, ih fun reading member => windows reading (List.mem_cons_of_mem _ member),
      advance, if_neg (windows first List.mem_cons_self), List.flatMap_cons, List.append_assoc]

/-- More readings than bytes contain a whole pass over the file: windows that make up its
bytes, then one end of file, and what follows starts over. -/
theorem AllDue.whole_pass {replies : List Reading} (due : AllDue bytes [] replies)
    (enough : bytes.length < replies.length) :
    ∃ pass rest, replies = pass ++ ⟨.eof, []⟩ :: rest ∧ (∀ reading ∈ pass, reading.status = .ok) ∧
      pass.flatMap Reading.window = bytes ∧ AllDue bytes [] rest := by
  let pass := replies.takeWhile (·.status ≠ .eof)
  have windows : ∀ reading ∈ pass, reading.status ≠ .eof := by
    intro reading member
    simpa using List.mem_takeWhile_imp member
  have split : replies = pass ++ replies.dropWhile (·.status ≠ .eof) :=
    List.takeWhile_append_dropWhile.symm
  have bound := AllDue.windows_length (Nat.zero_le _) (split ▸ due) windows
  cases tail : replies.dropWhile (·.status ≠ .eof) with
  | nil =>
    rw [split, tail, List.append_nil] at enough
    simp only [List.length_nil] at bound
    omega
  | cons last rest =>
    have ended : last.status = .eof := by
      have head := List.head?_dropWhile_not (·.status ≠ .eof) replies
      rw [tail] at head
      simpa using head
    rw [tail] at split
    rw [split] at due
    have final := due.due
    have over_ := due.later
    rw [foldl_advance_windows windows, List.nil_append] at final over_
    cases final with
    | window ok => rw [ok] at ended; cases ended
    | eof all =>
      refine ⟨pass, rest, split, ?_, all, over_.2⟩
      intro reading member
      obtain ⟨front, back, place⟩ := List.append_of_mem member
      rw [place, List.append_assoc, List.cons_append] at due
      cases due.due with
      | window ok => exact ok
      | eof => exact absurd rfl (windows _ member)

end Delivery

section Invariant

/-- The stream has the entry's bytes, and the offset says how many are delivered. -/
structure Flowing (bytes done : List UInt8) (service : Service) (stream : Stream) : Prop where
  length : stream.length = bytes.length
  data : stream.data.read 0 bytes.length = bytes
  offset : service.readOffset ≤ bytes.length
  done_eq : done = bytes.take service.readOffset

/-- Between commands: the service is open on its image, and entry `index` is not being
streamed or `done` of it has been delivered. -/
structure Paused (bytes done : List UInt8) (index : UInt8) (service : Service) (stream : Stream) :
    Prop where
  opened : service.opened = true
  listed : index.toNat < service.summary.count
  extraction : mediaExtract service.image service.kind index.toNat streamCapacity = ⟨.ok, bytes⟩
  idle : live service stream index.toNat = false → done = []
  running : live service stream index.toNat = true → Flowing bytes done service stream

variable {bytes done : List UInt8} {index : UInt8} {service : Service} {stream : Stream}

theorem header_remaining {count : Nat} (small : count ≤ 65536) (rest : List UInt8) (window : UInt8) :
    (Reading.mk .ok ([count.toUInt8, (count / 0x100).toUInt8, (count / 0x10000).toUInt8, window] ++
      rest)).remaining = count := by
  simp only [Reading.remaining, List.cons_append, List.getD_cons_zero, List.getD_cons_succ, Nat.toUInt8_eq,
    UInt8.toNat_ofNat']
  omega

/-- A window of a flowing stream is the reading that is due, and the stream flows on. -/
theorem Flowing.window {capacity : Nat}
    (flowing : Flowing bytes done service stream) (small : bytes.length ≤ streamCapacity)
    (room : 5 ≤ capacity) (moved : service.readOffset < bytes.length) :
    ∃ count, service.readOffset + count ≤ bytes.length ∧
      (streamWindow service stream capacity).status = .ok ∧
      (streamWindow service stream capacity).service =
        { service with readOffset := service.readOffset + count } ∧
      (streamWindow service stream capacity).stream = stream ∧
      Due bytes done ⟨(streamWindow service stream capacity).status,
        (streamWindow service stream capacity).reply⟩ ∧
      Reading.window ⟨(streamWindow service stream capacity).status,
        (streamWindow service stream capacity).reply⟩ = (bytes.drop service.readOffset).take count := by
  simp only [streamCapacity] at small
  have inside := windowSize_le (bytes.length - service.readOffset) capacity
  have positive := windowSize_pos (show 0 < bytes.length - service.readOffset by omega) room
  rw [streamWindow_eq, flowing.length, if_neg (by omega)]
  dsimp only
  generalize windowSize (bytes.length - service.readOffset) capacity = count at inside positive ⊢
  have payload : stream.data.read service.readOffset count =
      (bytes.drop service.readOffset).take count := by
    conv => rhs; rw [← flowing.data]
    rw [Memory.read_drop, Memory.read_take, Nat.min_eq_left (by omega), Nat.zero_add]
  refine ⟨count, by omega, rfl, rfl, rfl, ?_, payload⟩
  have doneLength : done.length = service.readOffset := by
    rw [flowing.done_eq, List.length_take, Nat.min_eq_left flowing.offset]
  refine .window rfl (by simp) ?_ ?_ ?_ ?_
  · rw [doneLength]
    exact header_remaining (by omega) _ _
  · simp [Reading.window]
    omega
  · rw [← List.length_pos_iff]
    simpa [Reading.window] using positive
  · have joined : done ++ (bytes.drop service.readOffset).take count =
        bytes.take (service.readOffset + count) := by
      rw [flowing.done_eq, List.take_add]
    change done ++ stream.data.read service.readOffset count <+: bytes
    rw [payload, joined]
    exact List.take_prefix _ _

/-- A READ of a live stream. -/
theorem Flowing.read {capacity : Nat} (flowing : Flowing bytes done service stream) (opened : service.opened = true)
    (listed : index.toNat < service.summary.count)
    (extraction : mediaExtract service.image service.kind index.toNat streamCapacity = ⟨.ok, bytes⟩)
    (found : live service stream index.toNat = true) (small : bytes.length ≤ streamCapacity)
    (room : 5 ≤ capacity) :
    let outcome := streamWindow service stream capacity
    Due bytes done ⟨outcome.status, outcome.reply⟩ ∧
      Paused bytes (advance done ⟨outcome.status, outcome.reply⟩) index outcome.service
        outcome.stream := by
  intro outcome
  by_cases moved : service.readOffset < bytes.length
  · obtain ⟨count, inside, ok, after, kept, due, window⟩ := flowing.window small room moved
    refine ⟨due, ?_⟩
    have running : outcome.status ≠ .eof := by
      simp [outcome, ok]
    have still : live outcome.service outcome.stream index.toNat = true := by
      simp only [outcome, after, kept]
      exact found
    have next : Flowing bytes (advance done ⟨outcome.status, outcome.reply⟩) outcome.service
        outcome.stream := by
      rw [after, kept, advance, if_neg running, window, flowing.done_eq]
      exact ⟨flowing.length, flowing.data, inside, (List.take_add).symm⟩
    refine ⟨?_, ?_, ?_, ?_, fun _ => next⟩
    · rw [after]
      exact opened
    · rw [after]
      exact listed
    · rw [after]
      exact extraction
    · intro stopped
      rw [still] at stopped
      cases stopped
  · have ended : outcome =
        ⟨.eof, [], { service with readOffset := 0 }, { stream with valid := false }⟩ := by
      simp only [outcome]
      rw [streamWindow_eq, flowing.length, if_pos (by omega)]
    have all : done = bytes := by
      rw [flowing.done_eq, List.take_of_length_le (by omega)]
    rw [ended]
    refine ⟨.eof all, opened, listed, extraction, fun _ => rfl, fun still => ?_⟩
    simp [live] at still

theorem startedStream_flowing {entry : Nat}
    (extraction : mediaExtract service.image service.kind entry streamCapacity = ⟨.ok, bytes⟩)
    (stream : Stream) :
    Flowing bytes [] { service with readIndex := entry, readOffset := 0 }
      (startedStream service stream entry) := by
  refine ⟨?_, ?_, Nat.zero_le _, rfl⟩
  · simp only [startedStream, extraction]
    rfl
  · simp only [startedStream, extraction]
    exact Memory.read_write stream.data 0 bytes

/-- A READ of the entry returns what is due. -/
theorem Paused.read {request : Request} (paused : Paused bytes done index service stream)
    (small : bytes.length ≤ streamCapacity) (reads : request.reads index = true)
    (room : 5 ≤ request.capacity) :
    let outcome := dispatched service stream request
    Due bytes done ⟨outcome.status, outcome.reply⟩ ∧
      Paused bytes (advance done ⟨outcome.status, outcome.reply⟩) index outcome.service
        outcome.stream := by
  intro outcome
  simp only [Request.reads, Bool.and_eq_true, beq_iff_eq] at reads
  have enough : 5 ≤ clipped request.capacity := by
    have replyMax : mediaSvcReplyMax = 240 := rfl
    simp only [clipped]
    split <;> omega
  have room : 4 ≤ clipped request.capacity := by omega
  have asked := dispatchRead_asked paused.opened paused.listed room stream
  have shape : outcome = dispatchRead service stream index (clipped request.capacity) := by
    rw [← reads.2]
    exact dispatched_read reads.1 service stream
  rw [shape, asked]
  cases found : live service stream index.toNat with
  | true =>
    rw [if_pos rfl]
    exact (paused.running found).read paused.opened paused.listed paused.extraction found small enough
  | false =>
    have good : (mediaExtract service.image service.kind index.toNat streamCapacity).status = .ok := by
      rw [paused.extraction]
    rw [if_neg (by simp), if_pos good, paused.idle found]
    refine (startedStream_flowing paused.extraction stream).read paused.opened paused.listed
      paused.extraction ?_ small enough
    simp [live, startedStream]

/-- Commands that are neither READs nor CLOSE change nothing about it. -/
theorem Paused.quiet {request : Request} (paused : Paused bytes done index service stream)
    (still : quiet request.command = true) :
    Paused bytes done index (dispatched service stream request).service
      (dispatched service stream request).stream := by
  obtain ⟨other, stays⟩ := quiet_command still
  obtain ⟨status, reply, cursor, same⟩ := dispatched_kept service other stays
  rw [same stream]
  refine ⟨paused.opened, paused.listed, paused.extraction, paused.idle, fun found => ?_⟩
  obtain ⟨length, data, offset, done_eq⟩ := paused.running found
  exact ⟨length, data, offset, done_eq⟩

/-- READs of the entry with room for a byte, and commands that leave the stream alone. -/
def Allowed (index : UInt8) (request : Request) : Prop :=
  (request.reads index = true ∧ 5 ≤ request.capacity) ∨ quiet request.command = true

/-- Every run of allowed commands returns what is due. -/
theorem Paused.run {requests : List Request} (paused : Paused bytes done index service stream)
    (small : bytes.length ≤ streamCapacity) (allowed : ∀ request ∈ requests, Allowed index request) :
    AllDue bytes done (readings index service stream requests) := by
  induction requests generalizing done service stream with
  | nil => trivial
  | cons request rest ih =>
    have others : ∀ request ∈ rest, Allowed index request :=
      fun other member => allowed other (List.mem_cons_of_mem _ member)
    simp only [readings]
    rcases allowed request List.mem_cons_self with ⟨reads, room⟩ | still
    · obtain ⟨due, after⟩ := paused.read small reads room
      rw [if_pos reads]
      exact ⟨due, ih after others⟩
    · rw [if_neg (by simp [Request.reads, isRead, (quiet_command still).1])]
      exact ih (paused.quiet still) others

end Invariant

theorem mediaServiceOpen_ok {image : List UInt8} {service : Service}
    (opened : mediaServiceOpen image = (.ok, service)) :
    service.image = image ∧ service.kind ≠ .unknown ∧ service.opened = true := by
  simp only [mediaServiceOpen] at opened
  split at opened
  · cases opened
  split at opened
  · cases opened
  rename_i known
  split at opened
  · cases opened
  · cases opened
    exact ⟨rfl, known, rfl⟩

/-- At any time after an image was opened, and with no live stream of an entry that can be
extracted and fits the stream buffer: over any run of READs of the entry with room for a byte,
between any OPEN, CAT and INFO commands, every READ returns the window that is due with the
exact remaining length and the window's size, or the end of the file when all of it has been
delivered; a pass ends after at most as many READs as the entry has bytes, and the READ after
its end starts the next pass. -/
theorem read_streams_entry {image : List UInt8} {bound : Service} {stream : Stream} {index : UInt8}
    {limit catCursor readIndex readOffset : Nat} {requests : List Request}
    (opened : mediaServiceOpen image = (.ok, bound)) (listed : index.toNat < bound.summary.count)
    (extracted : (mediaExtract image bound.kind index.toNat limit).status = .ok)
    (fits : (mediaExtract image bound.kind index.toNat limit).outLength ≤ 65536)
    (idle : live { bound with catCursor, readIndex, readOffset } stream index.toNat = false)
    (allowed : ∀ request ∈ requests, Allowed index request) :
    let bytes := (mediaExtract image bound.kind index.toNat limit).written
    let replies := readings index { bound with catCursor, readIndex, readOffset } stream requests
    (∀ before reading after, replies = before ++ reading :: after →
        Due bytes (delivered before) reading) ∧
      (∀ before pass after, replies = before ++ (pass ++ after) →
        (∀ reading ∈ pass, reading.status ≠ .eof) →
        (delivered before).length + pass.length ≤ bytes.length) ∧
      (bytes.length < replies.length →
        ∃ pass rest, replies = pass ++ ⟨.eof, []⟩ :: rest ∧
          (∀ reading ∈ pass, reading.status = .ok) ∧ pass.flatMap Reading.window = bytes ∧
          ∀ next later, rest = next :: later → Due bytes [] next) := by
  intro bytes replies
  obtain ⟨same, known, isOpen⟩ := mediaServiceOpen_ok opened
  rw [Extraction.outLength, if_pos extracted] at fits
  have extraction : mediaExtract bound.image bound.kind index.toNat streamCapacity = ⟨.ok, bytes⟩ := by
    have again := mediaExtract_capacity known extracted (show _ ≤ streamCapacity from fits)
    rw [same, again, ← extracted]
  have paused : Paused bytes [] index { bound with catCursor, readIndex, readOffset } stream :=
    ⟨isOpen, listed, extraction, fun _ => rfl, fun found => by rw [idle] at found; cases found⟩
  have due : AllDue bytes [] replies := paused.run fits allowed
  refine ⟨?_, ?_, ?_⟩
  · intro before reading after split
    exact (split ▸ due).due
  · intro before pass after split windows
    have later := (split ▸ due).later
    exact AllDue.windows_length ((split ▸ due).shorter (Nat.zero_le _)) later windows
  · intro enough
    obtain ⟨pass, rest, split, windows, whole, again⟩ := due.whole_pass enough
    refine ⟨pass, rest, split, windows, whole, ?_⟩
    rintro next later rfl
    exact again.1

def mediaCmdOpen : UInt8 := 120

/-- The two bytes of a file one by one, the end of it, and both again, with other commands
between. -/
def twoPasses : List Request :=
  [⟨mediaCmdRead, 1, 5⟩, ⟨mediaCmdOpen, 0, 0⟩, ⟨121, 0, 240⟩, ⟨mediaCmdRead, 1, 5⟩,
    ⟨mediaCmdRead, 1, 240⟩, ⟨122, 0, 60⟩, ⟨mediaCmdRead, 1, 240⟩]

def pairedService : Service := (mediaServiceOpen pairedTape).2

theorem twoPasses_stream_entry :
    let service := { pairedService with catCursor := 1, readIndex := 0, readOffset := 7 }
    readings 1 service World.start.stream twoPasses =
        [⟨.ok, [2, 0, 0, 1, 8]⟩, ⟨.ok, [1, 0, 0, 1, 9]⟩, ⟨.eof, []⟩, ⟨.ok, [2, 0, 0, 2, 8, 9]⟩] ∧
      ∀ before reading after,
        readings 1 service World.start.stream twoPasses = before ++ reading :: after →
          Due (mediaExtract pairedTape pairedService.kind (UInt8.toNat 1) 2).written
            (delivered before) reading := by
  have opened : mediaServiceOpen pairedTape = (.ok, pairedService) :=
    Prod.ext (by decide +kernel) rfl
  have allowed : ∀ request ∈ twoPasses, Allowed 1 request := by
    simp only [twoPasses, List.forall_mem_cons, List.not_mem_nil, false_imp_iff, implies_true,
      and_true]
    exact ⟨.inl (by decide), .inr (by decide), .inr (by decide), .inl (by decide), .inl (by decide),
      .inr (by decide), .inl (by decide)⟩
  refine ⟨by decide +kernel, ?_⟩
  exact (@read_streams_entry pairedTape pairedService World.start.stream 1 2 1 0 7 twoPasses opened
    (by decide +kernel) (by decide +kernel) (by decide +kernel) (by decide +kernel) allowed).1

end Pi1MHz.MediaService
