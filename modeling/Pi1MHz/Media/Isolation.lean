import Pi1MHz.Media.Service

/-! READ sessions of any number of services over the one stream buffer. A READ returns its
own service's data whenever a stream it finds live was started by that service, after the
service was last opened. -/
namespace Pi1MHz.MediaService
open UefRepair MediaCatalogue

/-- All services, and the statics they share. -/
structure World where
  services : Nat → Service
  stream : Stream

def World.start : World := ⟨fun _ => .reset, ⟨fun _ => 0, 0, 0, false⟩⟩

inductive Step
  | open (who : Nat) (image : List UInt8)
  | dispatch (who : Nat) (command argument : UInt8) (replyCapacity : Nat)

def World.set (w : World) (who : Nat) (service : Service) (stream : Stream) : World :=
  ⟨fun other => if other = who then service else w.services other, stream⟩

def World.outcome (w : World) (who : Nat) (command argument : UInt8) (replyCapacity : Nat) : Outcome :=
  mediaServiceDispatch (w.services who) w.stream command argument replyCapacity

def World.after (w : World) : Step → World
  | .open who image => w.set who (mediaServiceOpen image).2 w.stream
  | .dispatch who command argument replyCapacity =>
    let outcome := w.outcome who command argument replyCapacity
    w.set who outcome.service outcome.stream

def isRead (command : UInt8) : Bool := Command.ofByte command == some .read

/-- A READ of the entry since the service was last opened; the latest step comes first. -/
def readSince (who : Nat) (index : UInt8) : List Step → Bool
  | [] => false
  | .open other _ :: rest => if other = who then false else readSince who index rest
  | .dispatch other command argument _ :: rest =>
    (other == who && isRead command && argument == index) || readSince who index rest

/-- What a READ must return: bytes of the entry of the image its service has open, from the
start of the entry the first time. -/
def Isolated (history : List Step) (w : World) : Step → Prop
  | .open _ _ => True
  | .dispatch who command argument replyCapacity =>
    let outcome := w.outcome who command argument replyCapacity
    let service := w.services who
    let entry := mediaExtract service.image service.kind argument.toNat streamCapacity
    isRead command = true → outcome.status = .ok →
      service.opened = true ∧ entry.status = .ok ∧
        ∃ offset, outcome.reply.drop 4 = (entry.written.drop offset).take (outcome.reply.length - 4) ∧
          (readSince who argument history = false → offset = 0)

def AllIsolated : List Step → World → List Step → Prop
  | _, _, [] => True
  | history, w, step :: rest =>
    Isolated history w step ∧ AllIsolated (step :: history) (w.after step) rest

/-- The READ gets as far as asking for the stream. -/
def admitted (service : Service) (index : UInt8) (replyCapacity : Nat) : Bool :=
  service.opened && decide (index.toNat < service.summary.count) && decide (4 ≤ replyCapacity)

/-- A READ that finds the stream live is one of the service that started it. -/
def Own (owner : Option Nat) (w : World) : Step → Prop
  | .open _ _ => True
  | .dispatch who command argument replyCapacity =>
    isRead command = true → admitted (w.services who) argument replyCapacity = true →
      live (w.services who) w.stream argument.toNat = true → owner = some who

/-- The service whose READ last started the stream, if it has not been opened again. -/
def nextOwner (owner : Option Nat) (w : World) : Step → Option Nat
  | .open who _ => if owner = some who then none else owner
  | .dispatch who command argument replyCapacity =>
    let service := w.services who
    if isRead command && admitted service argument replyCapacity &&
        !live service w.stream argument.toNat &&
        (mediaExtract service.image service.kind argument.toNat streamCapacity).status == .ok then
      some who
    else owner

def AllOwn : Option Nat → World → List Step → Prop
  | _, _, [] => True
  | owner, w, step :: rest => Own owner w step ∧ AllOwn (nextOwner owner w step) (w.after step) rest

/-- The stream of an owner holds the owner's entry. -/
structure Holds (service : Service) (stream : Stream) : Prop where
  opened : service.opened = true
  status : (mediaExtract service.image service.kind stream.index streamCapacity).status = .ok
  length : stream.length =
    (mediaExtract service.image service.kind stream.index streamCapacity).written.length
  data : stream.data.read 0 stream.length =
    (mediaExtract service.image service.kind stream.index streamCapacity).written

structure Consistent (owner : Option Nat) (history : List Step) (w : World) : Prop where
  owned : ∀ who, owner = some who → w.stream.valid = true → w.stream.length ≠ 0 →
    Holds (w.services who) w.stream
  offset : ∀ who (index : UInt8), (w.services who).readIndex = index.toNat →
    (w.services who).readOffset ≠ 0 → readSince who index history = true

@[simp] theorem set_same (w : World) (who : Nat) (service : Service) (stream : Stream) :
    (w.set who service stream).services who = service := by
  simp [World.set]

theorem set_other (w : World) {who other : Nat} (service : Service) (stream : Stream)
    (different : other ≠ who) : (w.set who service stream).services other = w.services other := by
  simp [World.set, different]

/-- The stream a successful extraction starts. -/
def startedStream (service : Service) (stream : Stream) (index : Nat) : Stream where
  data := stream.data.write 0 (mediaExtract service.image service.kind index streamCapacity).written
  length := (mediaExtract service.image service.kind index streamCapacity).outLength
  index
  valid := true

/-- What a READ can do. -/
inductive ReadEffect (service : Service) (stream : Stream) (index : UInt8)
    (replyCapacity : Nat) : Outcome → Prop
  | refused {status} (failed : status ≠ .ok)
      (early : admitted service index replyCapacity = false) :
      ReadEffect service stream index replyCapacity ⟨status, [], service, stream⟩
  | served {capacity} (asked : admitted service index replyCapacity = true)
      (found : live service stream index.toNat = true) :
      ReadEffect service stream index replyCapacity (streamWindow service stream capacity)
  | started {capacity} (asked : admitted service index replyCapacity = true)
      (missing : live service stream index.toNat = false)
      (extracted : (mediaExtract service.image service.kind index.toNat streamCapacity).status = .ok) :
      ReadEffect service stream index replyCapacity
        (streamWindow { service with readIndex := index.toNat, readOffset := 0 }
          (startedStream service stream index.toNat) capacity)
  | failed {status} (error : status ≠ .ok) (asked : admitted service index replyCapacity = true)
      (missing : live service stream index.toNat = false)
      (refused : (mediaExtract service.image service.kind index.toNat streamCapacity).status ≠ .ok) :
      ReadEffect service stream index replyCapacity ⟨status, [], service,
        { stream with
          data := stream.data.write 0
            (mediaExtract service.image service.kind index.toNat streamCapacity).written
          length := 0 }⟩

/-- The capacity a command is given. -/
def clipped (replyCapacity : Nat) : Nat :=
  if mediaSvcReplyMax < replyCapacity then mediaSvcReplyMax else replyCapacity

theorem clipped_room (replyCapacity : Nat) : 4 ≤ clipped replyCapacity ↔ 4 ≤ replyCapacity := by
  have replyMax : mediaSvcReplyMax = 240 := rfl
  simp only [clipped]
  split <;> omega

theorem dispatch_read (service : Service) (stream : Stream) {command : UInt8} (argument : UInt8)
    (replyCapacity : Nat) (read : isRead command = true) :
    mediaServiceDispatch service stream command argument replyCapacity =
      dispatchRead service stream argument (clipped replyCapacity) := by
  have named : Command.ofByte command = some .read := by simpa [isRead] using read
  simp only [mediaServiceDispatch, named]
  rfl

/-- A READ that is let as far as the stream. -/
theorem dispatchRead_asked {service : Service} {index : UInt8} {capacity : Nat}
    (opened : service.opened = true) (listed : index.toNat < service.summary.count)
    (room : 4 ≤ capacity) (stream : Stream) :
    dispatchRead service stream index capacity =
      if live service stream index.toNat then streamWindow service stream capacity
      else if (mediaExtract service.image service.kind index.toNat streamCapacity).status = .ok then
        streamWindow { service with readIndex := index.toNat, readOffset := 0 }
          (startedStream service stream index.toNat) capacity
      else
        ⟨if (mediaExtract service.image service.kind index.toNat streamCapacity).status = .errRange then
            .errRange else .errFormat,
          [], service,
          { stream with
            data := stream.data.write 0
              (mediaExtract service.image service.kind index.toNat streamCapacity).written
            length := 0 }⟩ := by
  rw [dispatchRead, if_neg (by simp [opened]), if_neg (Nat.not_le.mpr listed),
    if_neg (Nat.not_lt.mpr room)]
  split
  · rfl
  · simp only [startStream, Extraction.outLength]
    cases status : (mediaExtract service.image service.kind index.toNat streamCapacity).status with
    | ok => simp only [if_true, startedStream, Extraction.outLength, status]
    | errParam => rfl
    | errFormat => rfl
    | errRange => rfl
    | errTruncated => rfl

theorem dispatchRead_effect (service : Service) (stream : Stream) (index : UInt8)
    (replyCapacity : Nat) :
    ReadEffect service stream index replyCapacity
      (dispatchRead service stream index (clipped replyCapacity)) := by
  by_cases opened : service.opened = true
  case neg =>
    rw [dispatchRead, if_pos (by simpa using opened)]
    exact .refused (by decide) (by simp [admitted, opened])
  by_cases listed : index.toNat < service.summary.count
  case neg =>
    rw [dispatchRead, if_neg (by simp [opened]), if_pos (Nat.not_lt.mp listed)]
    exact .refused (by decide) (by simp [admitted, listed])
  by_cases room : 4 ≤ clipped replyCapacity
  case neg =>
    rw [dispatchRead, if_neg (by simp [opened]), if_neg (Nat.not_le.mpr listed),
      if_pos (Nat.lt_of_not_le room)]
    exact .refused (by decide) (by simp [admitted, mt (clipped_room replyCapacity).mpr room])
  have asked : admitted service index replyCapacity = true := by
    simp [admitted, opened, listed, (clipped_room replyCapacity).mp room]
  rw [dispatchRead_asked opened listed room]
  split
  · rename_i found
    exact .served asked found
  rename_i missing
  simp only [Bool.not_eq_true] at missing
  split
  · rename_i extracted
    exact .started asked missing extracted
  · rename_i refused
    exact .failed (by split <;> decide) asked missing refused

theorem outcome_read (w : World) (who : Nat) {command : UInt8} (argument : UInt8) (replyCapacity : Nat)
    (read : isRead command = true) :
    ReadEffect (w.services who) w.stream argument replyCapacity
      (w.outcome who command argument replyCapacity) := by
  rw [World.outcome, dispatch_read _ _ _ _ read]
  exact dispatchRead_effect _ _ _ _

/-- A command other than READ and CLOSE moves the listing at most, whatever the stream is. -/
theorem dispatch_kept (service : Service) {command : UInt8} (argument : UInt8) (replyCapacity : Nat)
    (other : Command.ofByte command ≠ some .read) (stays : Command.ofByte command ≠ some .close) :
    ∃ status reply cursor, ∀ stream, mediaServiceDispatch service stream command argument replyCapacity =
      ⟨status, reply, { service with catCursor := cursor }, stream⟩ := by
  simp only [mediaServiceDispatch]
  generalize (if mediaSvcReplyMax < replyCapacity then mediaSvcReplyMax else replyCapacity) = capacity
  cases named : Command.ofByte command with
  | none => exact ⟨_, _, _, fun _ => rfl⟩
  | some kind =>
    cases kind with
    | read => exact absurd named other
    | close => exact absurd named stays
    | «open» =>
      simp only [dispatchOpen]
      split
      · exact ⟨_, _, _, fun _ => rfl⟩
      · split <;> exact ⟨_, _, _, fun _ => rfl⟩
    | cat =>
      simp only [dispatchCat]
      split
      · exact ⟨_, _, _, fun _ => rfl⟩
      · cases service.summary.entries[service.catCursor]? with
        | none => exact ⟨_, _, _, fun _ => rfl⟩
        | some entry =>
          simp only
          split
          · exact ⟨_, _, _, fun _ => rfl⟩
          · split <;> exact ⟨_, _, _, fun _ => rfl⟩
    | info =>
      simp only [dispatchInfo]
      split
      · exact ⟨_, _, _, fun _ => rfl⟩
      · cases service.summary.entries[argument.toNat]? with
        | none => exact ⟨_, _, _, fun _ => rfl⟩
        | some entry =>
          simp only
          split <;> exact ⟨_, _, _, fun _ => rfl⟩

/-- What the other commands can do. -/
inductive OtherEffect (service : Service) (stream : Stream) (outcome : Outcome) : Prop
  | kept (stream_ : outcome.stream = stream) (image : outcome.service.image = service.image)
      (kind : outcome.service.kind = service.kind) (opened : outcome.service.opened = service.opened)
      (index : outcome.service.readIndex = service.readIndex)
      (offset : outcome.service.readOffset = service.readOffset)
  | closed (service_ : outcome.service = .reset) (stream_ : outcome.stream.valid = false)

theorem outcome_other (w : World) (who : Nat) {command : UInt8} (argument : UInt8) (replyCapacity : Nat)
    (other : isRead command = false) :
    OtherEffect (w.services who) w.stream (w.outcome who command argument replyCapacity) := by
  by_cases close : Command.ofByte command = some .close
  · simp only [World.outcome, mediaServiceDispatch, close]
    exact .closed rfl rfl
  · have notRead : Command.ofByte command ≠ some .read := by simpa [isRead] using other
    obtain ⟨status, reply, cursor, same⟩ :=
      dispatch_kept (w.services who) argument replyCapacity notRead close
    rw [World.outcome, same]
    exact .kept rfl rfl rfl rfl rfl rfl

/-- The size of the next window of a stream. -/
def windowSize (remaining capacity : Nat) : Nat :=
  let window := if remaining < mediaSvcReadWindow then remaining else mediaSvcReadWindow
  if capacity < window + 4 then capacity - 4 else window

theorem windowSize_le (remaining capacity : Nat) :
    windowSize remaining capacity ≤ remaining ∧ windowSize remaining capacity ≤ 236 := by
  have windowMax : mediaSvcReadWindow = 236 := rfl
  simp only [windowSize]
  split <;> split <;> omega

theorem windowSize_pos {remaining capacity : Nat} (nonempty : 0 < remaining) (room : 5 ≤ capacity) :
    0 < windowSize remaining capacity := by
  have windowMax : mediaSvcReadWindow = 236 := rfl
  simp only [windowSize]
  split <;> split <;> omega

theorem streamWindow_eq (service : Service) (stream : Stream) (capacity : Nat) :
    streamWindow service stream capacity =
      if stream.length ≤ service.readOffset then
        ⟨.eof, [], { service with readOffset := 0 }, { stream with valid := false }⟩
      else
        let remaining := stream.length - service.readOffset
        let window := windowSize remaining capacity
        ⟨.ok,
          [remaining.toUInt8, (remaining / 0x100).toUInt8, (remaining / 0x10000).toUInt8,
            window.toUInt8] ++ stream.data.read service.readOffset window,
          { service with readOffset := service.readOffset + window }, stream⟩ := rfl

/-- A window of the stream, or its end. -/
inductive WindowEffect (service : Service) (stream : Stream) : Outcome → Prop
  | ended : WindowEffect service stream
      ⟨.eof, [], { service with readOffset := 0 }, { stream with valid := false }⟩
  | window {header : List UInt8} {count : Nat} (four : header.length = 4)
      (inside : service.readOffset + count ≤ stream.length)
      (more : service.readOffset < stream.length) :
      WindowEffect service stream
        ⟨.ok, header ++ stream.data.read service.readOffset count,
          { service with readOffset := service.readOffset + count }, stream⟩

theorem streamWindow_effect (service : Service) (stream : Stream) (capacity : Nat) :
    WindowEffect service stream (streamWindow service stream capacity) := by
  rw [streamWindow_eq]
  split
  · exact .ended
  · have inside := (windowSize_le (stream.length - service.readOffset) capacity).1
    exact .window rfl (by omega) (by omega)

theorem startedStream_holds {service : Service} (stream : Stream) {index : Nat} (offset : Nat)
    (opened : service.opened = true)
    (extracted : (mediaExtract service.image service.kind index streamCapacity).status = .ok) :
    Holds { service with readIndex := index, readOffset := offset }
      (startedStream service stream index) := by
  have length : (startedStream service stream index).length =
      (mediaExtract service.image service.kind index streamCapacity).written.length := by
    simp only [startedStream, Extraction.outLength, extracted, if_true]
  refine ⟨opened, extracted, length, ?_⟩
  rw [length]
  exact Memory.read_write stream.data 0 _

/-- The payload of a window is a window of the entry. -/
theorem Holds.window {service : Service} {stream : Stream} (holds : Holds service stream)
    {outcome : Outcome} (effect : WindowEffect service stream outcome) (good : outcome.status = .ok) :
    outcome.reply.drop 4 =
      ((mediaExtract service.image service.kind stream.index streamCapacity).written.drop
        service.readOffset).take (outcome.reply.length - 4) := by
  cases effect with
  | ended => cases good
  | window four inside more =>
    rw [← holds.data, Memory.read_drop, Memory.read_take, List.length_append, Memory.read_length, four,
      Nat.add_sub_cancel_left, Nat.min_eq_left (by omega), Nat.zero_add]
    exact List.drop_left' four

theorem WindowEffect.nonempty {service : Service} {stream : Stream} {outcome : Outcome}
    (effect : WindowEffect service stream outcome) (good : outcome.status = .ok) :
    stream.length ≠ 0 := by
  cases effect with
  | ended => cases good
  | window four inside more => omega

theorem admitted_opened {service : Service} {index : UInt8} {replyCapacity : Nat}
    (asked : admitted service index replyCapacity = true) : service.opened = true := by
  simp only [admitted, Bool.and_eq_true] at asked
  exact asked.1.1

theorem live_fields {service : Service} {stream : Stream} {index : Nat}
    (found : live service stream index = true) :
    stream.valid = true ∧ stream.index = index ∧ service.readIndex = index := by
  simp only [live, Bool.and_eq_true, beq_iff_eq] at found
  exact ⟨found.1.1, found.1.2, found.2⟩

theorem step_isolated {owner : Option Nat} {history : List Step} {w : World} {step : Step}
    (consistent : Consistent owner history w) (own : Own owner w step) :
    Isolated history w step := by
  cases step with
  | «open» who image => trivial
  | dispatch who command argument replyCapacity =>
    intro read good
    have effect := outcome_read w who argument replyCapacity read
    simp only [Own] at own
    revert good
    generalize w.outcome who command argument replyCapacity = outcome at effect ⊢
    intro good
    cases effect with
    | refused failed early => exact absurd good failed
    | failed error asked missing refused => exact absurd good error
    | served asked found =>
      obtain ⟨valid, index, reading⟩ := live_fields found
      have window := streamWindow_effect (w.services who) w.stream
      have holds := consistent.owned who (own read asked found) valid ((window _).nonempty good)
      have payload := holds.window (window _) good
      rw [index] at payload
      refine ⟨admitted_opened asked, index ▸ holds.status, _, payload, fun first => ?_⟩
      by_cases zero : (w.services who).readOffset = 0
      · exact zero
      · have seen := consistent.offset who argument reading zero
        rw [first] at seen
        cases seen
    | started asked missing extracted =>
      have holds := startedStream_holds w.stream 0 (admitted_opened asked) extracted
      have payload := holds.window (streamWindow_effect _ _ _) good
      exact ⟨admitted_opened asked, extracted, 0, payload, fun _ => rfl⟩

theorem readSince_dispatch {who other : Nat} {index command argument : UInt8} {replyCapacity : Nat}
    {history : List Step} (seen : readSince who index history = true) :
    readSince who index (.dispatch other command argument replyCapacity :: history) = true := by
  simp [readSince, seen]

theorem readSince_read {who : Nat} {index command : UInt8} {replyCapacity : Nat}
    {history : List Step} (read : isRead command = true) :
    readSince who index (.dispatch who command index replyCapacity :: history) = true := by
  simp [readSince, read]

/-- An owner's stream stays the owner's entry while the owner's image stays open. -/
theorem Holds.of_same {service service' : Service} {stream stream' : Stream}
    (holds : Holds service stream) (image : service'.image = service.image)
    (kind : service'.kind = service.kind) (opened : service'.opened = service.opened)
    (data : stream'.data = stream.data) (length : stream'.length = stream.length)
    (index : stream'.index = stream.index) : Holds service' stream' := by
  refine ⟨?_, ?_, ?_, ?_⟩
  · rw [opened, holds.opened]
  · rw [image, kind, index]
    exact holds.status
  · rw [image, kind, index, length]
    exact holds.length
  · rw [image, kind, index, length, data]
    exact holds.data

/-- A step that changes one service, seen from all of them. -/
theorem consistent_set {owner owner' : Option Nat} {history : List Step} {w : World} {who : Nat}
    {service : Service} {stream : Stream} {step : Step}
    (mine : owner' = some who → stream.valid = true → stream.length ≠ 0 → Holds service stream)
    (others : ∀ other, other ≠ who → owner' = some other → stream.valid = true →
      stream.length ≠ 0 → Holds (w.services other) stream)
    (offset : ∀ index : UInt8, service.readIndex = index.toNat → service.readOffset ≠ 0 →
      readSince who index (step :: history) = true)
    (kept : ∀ other (index : UInt8), other ≠ who → readSince other index history = true →
      readSince other index (step :: history) = true)
    (consistent : Consistent owner history w) :
    Consistent owner' (step :: history) (w.set who service stream) := by
  constructor
  · intro other chosen valid nonempty
    by_cases same : other = who
    · subst same
      rw [set_same]
      exact mine chosen valid nonempty
    · rw [set_other _ _ _ same]
      exact others other same chosen valid nonempty
  · intro other index reading moved
    by_cases same : other = who
    · subst same
      rw [set_same] at reading moved
      exact offset index reading moved
    · rw [set_other _ _ _ same] at reading moved
      exact kept other index same (consistent.offset other index reading moved)

theorem opened_offset (image : List UInt8) : (mediaServiceOpen image).2.readOffset = 0 := by
  simp only [mediaServiceOpen]
  split
  · rfl
  · split
    · rfl
    · split <;> rfl

/-- A dispatch forgets no READ. -/
theorem readSince_kept {who command argument replyCapacity} {history : List Step} :
    ∀ other (index : UInt8), other ≠ who → readSince other index history = true →
      readSince other index (.dispatch who command argument replyCapacity :: history) = true :=
  fun _ _ _ seen => readSince_dispatch seen

/-- An invalid stream belongs to nobody, and a service at offset 0 has read nothing. -/
theorem invalid_consistent {owner owner' : Option Nat} {history : List Step} {w : World} {who : Nat}
    {command argument : UInt8} {replyCapacity : Nat} {service : Service} {stream : Stream}
    (invalid : stream.valid = false) (start : service.readOffset = 0)
    (consistent : Consistent owner history w) :
    Consistent owner' (.dispatch who command argument replyCapacity :: history)
      (w.set who service stream) := by
  refine consistent_set ?_ ?_ ?_ readSince_kept consistent
  · intro _ valid
    rw [invalid] at valid
    cases valid
  · intro _ _ _ valid
    rw [invalid] at valid
    cases valid
  · intro _ _ moved
    exact absurd start moved

theorem other_consistent {owner : Option Nat} {history : List Step} {w : World} {who : Nat}
    {command : UInt8} (argument : UInt8) (replyCapacity : Nat) (other : isRead command = false)
    (consistent : Consistent owner history w) :
    Consistent owner (.dispatch who command argument replyCapacity :: history)
      (w.after (.dispatch who command argument replyCapacity)) := by
  have effect := outcome_other w who argument replyCapacity other
  simp only [World.after]
  generalize w.outcome who command argument replyCapacity = outcome at effect ⊢
  cases effect with
  | kept stream image kind opened index offset =>
    rw [stream]
    refine consistent_set ?_ ?_ ?_ readSince_kept consistent
    · intro chosen valid nonempty
      exact (consistent.owned who chosen valid nonempty).of_same image kind opened rfl rfl rfl
    · intro other _ chosen valid nonempty
      exact consistent.owned other chosen valid nonempty
    · intro entry reading moved
      rw [index] at reading
      rw [offset] at moved
      exact readSince_dispatch (consistent.offset who entry reading moved)
  | closed service invalid =>
    exact invalid_consistent invalid (by rw [service]; rfl) consistent

theorem read_consistent {owner : Option Nat} {history : List Step} {w : World} {who : Nat}
    {command : UInt8} (argument : UInt8) (replyCapacity : Nat) (read : isRead command = true)
    (consistent : Consistent owner history w) :
    Consistent (nextOwner owner w (.dispatch who command argument replyCapacity))
      (.dispatch who command argument replyCapacity :: history)
      (w.after (.dispatch who command argument replyCapacity)) := by
  have effect := outcome_read w who argument replyCapacity read
  simp only [World.after, nextOwner, read, Bool.true_and]
  generalize w.outcome who command argument replyCapacity = outcome at effect ⊢
  have again (index : UInt8) (reading : argument.toNat = index.toNat) :
      readSince who index (.dispatch who command argument replyCapacity :: history) = true := by
    rw [← UInt8.toNat.inj reading]
    exact readSince_read read
  cases effect with
  | refused failed early =>
    simp only [early, Bool.false_and, Bool.false_eq_true, if_false]
    refine consistent_set (consistent.owned who) (fun other _ => consistent.owned other) ?_
      readSince_kept consistent
    intro index reading moved
    exact readSince_dispatch (consistent.offset who index reading moved)
  | failed error asked missing refused =>
    simp only [beq_eq_false_iff_ne.mpr refused, Bool.and_false, Bool.false_eq_true, if_false]
    refine consistent_set ?_ ?_ ?_ readSince_kept consistent
    · intro _ _ nonempty
      exact absurd rfl nonempty
    · intro _ _ _ _ nonempty
      exact absurd rfl nonempty
    · intro index reading moved
      exact readSince_dispatch (consistent.offset who index reading moved)
  | @served capacity asked found =>
    simp only [found, Bool.not_true, Bool.and_false, Bool.false_and, Bool.false_eq_true, if_false]
    have window := streamWindow_effect (w.services who) w.stream capacity
    generalize streamWindow (w.services who) w.stream capacity = outcome at window ⊢
    cases window with
    | ended =>
      exact invalid_consistent rfl rfl consistent
    | window four inside more =>
      refine consistent_set ?_ (fun other _ => consistent.owned other) ?_ readSince_kept consistent
      · intro chosen valid nonempty
        exact (consistent.owned who chosen valid nonempty).of_same rfl rfl rfl rfl rfl rfl
      · intro index reading _
        exact again index ((live_fields found).2.2.symm.trans reading)
  | @started capacity asked missing extracted =>
    simp only [asked, missing, extracted, Bool.not_false, Bool.true_and, beq_self_eq_true, if_true]
    have window := streamWindow_effect
      { w.services who with readIndex := argument.toNat, readOffset := 0 }
      (startedStream (w.services who) w.stream argument.toNat) capacity
    generalize streamWindow _ _ capacity = outcome at window ⊢
    cases window with
    | ended =>
      exact invalid_consistent rfl rfl consistent
    | window four inside more =>
      refine consistent_set ?_ ?_ ?_ readSince_kept consistent
      · intro _ _ _
        exact startedStream_holds w.stream _ (admitted_opened asked) extracted
      · intro other different chosen
        exact absurd (Option.some.inj chosen).symm different
      · intro index reading _
        exact again index reading

theorem step_consistent {owner : Option Nat} {history : List Step} {w : World} (step : Step)
    (consistent : Consistent owner history w) :
    Consistent (nextOwner owner w step) (step :: history) (w.after step) := by
  cases step with
  | «open» who image =>
    refine consistent_set ?_ ?_ ?_ ?_ consistent
    · intro chosen
      simp only [nextOwner] at chosen
      split at chosen
      · cases chosen
      · contradiction
    · intro other different chosen valid nonempty
      simp only [nextOwner] at chosen
      split at chosen
      · cases chosen
      · exact consistent.owned other chosen valid nonempty
    · intro index _ moved
      exact absurd (opened_offset image) moved
    · intro other index different seen
      simp [readSince, Ne.symm different, seen]
  | dispatch who command argument replyCapacity =>
    cases read : isRead command with
    | true => exact read_consistent argument replyCapacity read consistent
    | false =>
      have same : nextOwner owner w (.dispatch who command argument replyCapacity) = owner := by
        simp [nextOwner, read]
      rw [same]
      exact other_consistent argument replyCapacity read consistent

theorem allOwn_isolated {owner : Option Nat} {history : List Step} {w : World} (steps : List Step)
    (consistent : Consistent owner history w) (own : AllOwn owner w steps) :
    AllIsolated history w steps := by
  induction steps generalizing owner history w with
  | nil => trivial
  | cons step rest ih =>
    obtain ⟨now, later⟩ := own
    exact ⟨step_isolated consistent now, ih (step_consistent step consistent) later⟩

theorem start_consistent : Consistent none [] World.start := by
  constructor
  · intro who chosen
    cases chosen
  · intro who index _ moved
    exact absurd rfl moved

/-- In every run in which each READ that finds a live stream belongs to the service that
started it and has not been opened again, every READ returns bytes of its own entry. -/
theorem reads_isolated (steps : List Step) (own : AllOwn none World.start steps) :
    AllIsolated [] World.start steps :=
  allOwn_isolated steps start_consistent own

/-- A tape of one file, `A`, of one byte. -/
def oneByteTape (byte : UInt8) : List UInt8 :=
  uefMagic ++ [10, 0] ++ [0x00, 0x01, 25, 0, 0, 0] ++
    [char '*', char 'A', 0, 0, 0x19, 0, 0, 0, 0x19, 0, 0, 0, 0, 1, 0, 0x80, 0, 0, 0, 0] ++
    [0, 0, byte, 0, 0]

def mediaCmdRead : UInt8 := 123

/-- A file read to its end before the service is opened on another tape. -/
def finishedRun : List Step :=
  [.open 0 (oneByteTape 0x41), .dispatch 0 mediaCmdRead 0 240, .dispatch 0 mediaCmdRead 0 240,
    .open 0 (oneByteTape 0x42), .dispatch 0 mediaCmdRead 0 240]

theorem reads_isolated_finished :
    AllOwn none World.start finishedRun ∧ AllIsolated [] World.start finishedRun := by
  have own : AllOwn none World.start finishedRun := by
    refine ⟨trivial, fun _ _ found => ?_, fun _ _ _ => ?_, trivial, fun _ _ found => ?_, trivial⟩
    · exact absurd found (by decide +kernel)
    · decide +kernel
    · exact absurd found (by decide +kernel)
  exact ⟨own, reads_isolated finishedRun own⟩

/-- The same without reading to the end. -/
def reopenedRun : List Step :=
  [.open 0 (oneByteTape 0x41), .dispatch 0 mediaCmdRead 0 240, .open 0 (oneByteTape 0x42),
    .dispatch 0 mediaCmdRead 0 240]

theorem reopened_reads_old_image : ¬ AllIsolated [] World.start reopenedRun := by
  rintro ⟨_, _, _, last, _⟩
  obtain ⟨_, _, offset, payload, first⟩ := last (by decide) (by decide +kernel)
  rw [first (by decide +kernel)] at payload
  exact absurd payload (by decide +kernel)

end Pi1MHz.MediaService
