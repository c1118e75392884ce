import Pi1MHz.Media.Streaming

/-! A READ that fails while another entry is being streamed. Its extraction goes into the
buffer of that stream and clears its length, and nothing marks the stream as gone. -/
namespace Pi1MHz.MediaService
open UefRepair MediaCatalogue

/-- Entry `index` is being streamed, at any offset. -/
structure Streaming (service : Service) (stream : Stream) (index : UInt8) : Prop where
  opened : service.opened = true
  listed : index.toNat < service.summary.count
  found : live service stream index.toNat = true

/-- Whatever follows, the READs of entry `index` return what they would have returned
without the failed one. -/
def Undisturbed (service : Service) (stream : Stream) (index : UInt8) (failed : Request) : Prop :=
  ∀ later, readings index (dispatched service stream failed).service
    (dispatched service stream failed).stream later = readings index service stream later

/-- Streams no command of the service can tell apart: equal as far as they are read, or both
at their end. -/
structure Alike (service : Service) (left right : Stream) : Prop where
  valid : left.valid = right.valid
  index : left.valid = true → left.index = right.index
  content : left.valid = true →
    (left.length = right.length ∧ left.data.read 0 left.length = right.data.read 0 left.length) ∨
      (left.length ≤ service.readOffset ∧ right.length ≤ service.readOffset)

/-- Outcomes that differ in indistinguishable streams only. -/
structure Same (left right : Outcome) : Prop where
  status : left.status = right.status
  reply : left.reply = right.reply
  service : left.service = right.service
  stream : Alike left.service left.stream right.stream

theorem Alike.of_invalid {left right : Stream} (service : Service) (gone : left.valid = false)
    (too : right.valid = false) : Alike service left right := by
  refine ⟨by rw [gone, too], ?_, ?_⟩
  · intro valid
    rw [gone] at valid
    cases valid
  · intro valid
    rw [gone] at valid
    cases valid

theorem Alike.live {service : Service} {left right : Stream} (alike : Alike service left right)
    (index : Nat) : live service left index = live service right index := by
  simp only [MediaService.live, ← alike.valid]
  cases valid : left.valid with
  | false => rfl
  | true => rw [alike.index valid]

theorem Alike.window {service : Service} {left right : Stream} (alike : Alike service left right)
    (valid : left.valid = true) (capacity : Nat) :
    Same (streamWindow service left capacity) (streamWindow service right capacity) := by
  rcases alike.content valid with ⟨length, data⟩ | ⟨ended, too⟩
  · rw [streamWindow_eq, streamWindow_eq, ← length]
    split
    · exact ⟨rfl, rfl, rfl, .of_invalid _ rfl rfl⟩
    · rename_i more
      have inside := windowSize_le (left.length - service.readOffset) capacity
      dsimp only
      generalize windowSize (left.length - service.readOffset) capacity = count at inside ⊢
      have window : left.data.read service.readOffset count =
          right.data.read service.readOffset count := by
        have cut := congrArg (fun cells => (cells.drop service.readOffset).take count) data
        simpa only [Memory.read_drop, Memory.read_take, Nat.zero_add, Nat.min_eq_left
          inside.1] using cut
      rw [window]
      exact ⟨rfl, rfl, rfl, alike.valid, alike.index, fun _ => .inl ⟨length, data⟩⟩
  · rw [streamWindow_eq, streamWindow_eq, if_pos ended, if_pos too]
    exact ⟨rfl, rfl, rfl, .of_invalid _ rfl rfl⟩

theorem Alike.read {service : Service} {left right : Stream} (alike : Alike service left right)
    (index : UInt8) (capacity : Nat) :
    Same (dispatchRead service left index capacity) (dispatchRead service right index capacity) := by
  by_cases opened : service.opened = true
  case neg => simp only [dispatchRead, opened]; exact ⟨rfl, rfl, rfl, alike⟩
  by_cases listed : index.toNat < service.summary.count
  case neg =>
    simp only [dispatchRead, opened, Nat.not_lt.mp listed, if_true]
    exact ⟨rfl, rfl, rfl, alike⟩
  by_cases room : 4 ≤ capacity
  case neg =>
    simp only [dispatchRead, opened, Nat.not_le.mpr listed, Nat.not_le.mp room, if_true, if_false]
    exact ⟨rfl, rfl, rfl, alike⟩
  rw [dispatchRead_asked opened listed room, dispatchRead_asked opened listed room, ← alike.live]
  split
  · rename_i found
    exact alike.window (live_fields found).1 capacity
  split
  · -- Both streams start over with the same extraction.
    rename_i good
    have started : Alike { service with readIndex := index.toNat, readOffset := 0 }
        (startedStream service left index.toNat) (startedStream service right index.toNat) := by
      refine ⟨rfl, fun _ => rfl, fun _ => .inl ⟨rfl, ?_⟩⟩
      have length : (startedStream service left index.toNat).length =
          (mediaExtract service.image service.kind index.toNat streamCapacity).written.length := by
        simp only [startedStream, Extraction.outLength, good, if_true]
      rw [length]
      exact (Memory.read_write left.data 0 _).trans (Memory.read_write right.data 0 _).symm
    exact started.window rfl capacity
  · exact ⟨rfl, rfl, rfl, alike.valid, alike.index, fun _ => .inr ⟨Nat.zero_le _, Nat.zero_le _⟩⟩

/-- No command tells such streams apart. -/
theorem Alike.dispatched {service : Service} {left right : Stream} (alike : Alike service left right)
    (request : Request) :
    Same (dispatched service left request) (dispatched service right request) := by
  by_cases read : Command.ofByte request.command = some .read
  · have reads : isRead request.command = true := by simp [isRead, read]
    rw [dispatched_read reads, dispatched_read reads]
    exact alike.read _ _
  by_cases close : Command.ofByte request.command = some .close
  · simp only [MediaService.dispatched, mediaServiceDispatch, close]
    exact ⟨rfl, rfl, rfl, .of_invalid _ rfl rfl⟩
  · obtain ⟨status, reply, cursor, same⟩ := dispatched_kept service read close
    rw [same, same]
    exact ⟨rfl, rfl, rfl, alike.valid, alike.index, alike.content⟩

theorem Alike.readings {service : Service} {left right : Stream} (alike : Alike service left right)
    (index : UInt8) (later : List Request) :
    readings index service left later = readings index service right later := by
  induction later generalizing service left right with
  | nil => rfl
  | cons request rest ih =>
    obtain ⟨status, reply, sameService, stream⟩ := alike.dispatched request
    simp only [MediaService.readings]
    rw [ih stream, status, reply, sameService]

theorem streamWindow_status (service : Service) (stream : Stream) (capacity : Nat) :
    (streamWindow service stream capacity).status = .ok ∨
      (streamWindow service stream capacity).status = .eof := by
  rw [streamWindow_eq]
  split
  · exact .inr rfl
  · exact .inl rfl

/-- A READ that fails did so before its extraction, or the extraction failed in the buffer. -/
theorem failed_read {service : Service} {stream : Stream} {failed : Request}
    (opened : service.opened = true) (read : isRead failed.command = true)
    (error : (dispatched service stream failed).status = .errRange ∨
      (dispatched service stream failed).status = .errFormat) :
    ((service.summary.count ≤ failed.argument.toNat ∨ failed.capacity < 4) ∧
        (dispatched service stream failed).service = service ∧
        (dispatched service stream failed).stream = stream) ∨
      (¬ (service.summary.count ≤ failed.argument.toNat ∨ failed.capacity < 4) ∧
        (dispatched service stream failed).service = service ∧
        ∃ data, (dispatched service stream failed).stream = { stream with data, length := 0 }) := by
  rw [dispatched_read read] at error ⊢
  by_cases beyond : service.summary.count ≤ failed.argument.toNat
  · refine .inl ⟨.inl beyond, ?_⟩
    rw [dispatchRead, if_neg (by simp [opened]), if_pos beyond]
    exact ⟨rfl, rfl⟩
  by_cases small : failed.capacity < 4
  · have cut : clipped failed.capacity < 4 := by
      have room := clipped_room failed.capacity
      omega
    refine .inl ⟨.inr small, ?_⟩
    rw [dispatchRead, if_neg (by simp [opened]), if_neg beyond, if_pos cut]
    exact ⟨rfl, rfl⟩
  refine .inr ⟨not_or.mpr ⟨beyond, small⟩, ?_⟩
  have room := (clipped_room failed.capacity).mpr (by omega)
  have asked := dispatchRead_asked opened (Nat.lt_of_not_le beyond) room stream
  rw [asked] at error ⊢
  -- A window is never an error, so the last branch was taken.
  split at error
  · rcases streamWindow_status service stream (clipped failed.capacity) with ok | eof
    · simp [ok] at error
    · simp [eof] at error
  rename_i missing
  split at error
  · rcases streamWindow_status { service with readIndex := failed.argument.toNat, readOffset := 0 }
      (startedStream service stream failed.argument.toNat) (clipped failed.capacity) with ok | eof
    · simp [ok] at error
    · simp [eof] at error
  rename_i refused
  rw [if_neg missing, if_neg refused]
  exact ⟨rfl, _, rfl⟩

/-- One more READ of the entry, with all the room there is. -/
def readOn (index : UInt8) : Request := ⟨mediaCmdRead, index, mediaSvcReplyMax⟩

theorem readOn_reading {service : Service} {stream : Stream} {index : UInt8}
    (streaming : Streaming service stream index) :
    readings index service stream [readOn index] =
      [⟨(streamWindow service stream mediaSvcReplyMax).status,
        (streamWindow service stream mediaSvcReplyMax).reply⟩] := by
  have read : isRead mediaCmdRead = true := by decide
  have room : 4 ≤ clipped mediaSvcReplyMax := by decide
  have reads : (readOn index).reads index = true := by
    simp [Request.reads, readOn, read]
  have asked : dispatched service stream (readOn index) =
      streamWindow service stream mediaSvcReplyMax := by
    rw [dispatched_read (show isRead (readOn index).command = true from read)]
    exact (dispatchRead_asked streaming.opened streaming.listed room stream).trans
      (if_pos streaming.found)
  simp only [readings, reads, if_true, asked, List.append_nil]

/-- A READ that fails leaves the stream of another entry undisturbed exactly when it is
refused before its extraction, or when nothing of that stream is left to deliver. -/
theorem undisturbed_iff {service : Service} {stream : Stream} {index : UInt8} {failed : Request}
    (streaming : Streaming service stream index) (read : isRead failed.command = true)
    (error : (dispatched service stream failed).status = .errRange ∨
      (dispatched service stream failed).status = .errFormat) :
    Undisturbed service stream index failed ↔
      service.summary.count ≤ failed.argument.toNat ∨ failed.capacity < 4 ∨
        stream.length ≤ service.readOffset := by
  rcases failed_read streaming.opened read error with ⟨early, sameService, sameStream⟩ |
    ⟨late, sameService, data, cleared⟩
  · constructor
    · intro _
      exact early.imp id Or.inl
    · intro _ later
      rw [sameService, sameStream]
  · rw [not_or] at late
    simp only [Undisturbed, sameService, cleared, late.1, late.2, false_or]
    constructor
    · intro undisturbed
      have still : Streaming service { stream with data, length := 0 } index :=
        ⟨streaming.opened, streaming.listed, streaming.found⟩
      have same := undisturbed [readOn index]
      rw [readOn_reading still, readOn_reading streaming, streamWindow_eq, streamWindow_eq,
        if_pos (Nat.zero_le _)] at same
      by_contra more
      rw [if_neg more] at same
      simp at same
    · intro ended later
      have alike : Alike service { stream with data, length := 0 } stream :=
        ⟨rfl, fun _ => rfl, fun _ => .inr ⟨Nat.zero_le _, ended⟩⟩
      exact alike.readings index later

/-- A disc of three sectors with a file of two bytes and one that starts behind its end. -/
def cutDisc : List UInt8 :=
  List.replicate 8 0x20 ++ [char 'A', 0x20, 0x20, 0x20, 0x20, 0x20, 0x20, char '$'] ++
    [char 'B', 0x20, 0x20, 0x20, 0x20, 0x20, 0x20, char '$'] ++ List.replicate 232 0 ++
    [0x20, 0x20, 0x20, 0x20, 0, 16, 0, 3] ++ [0, 0, 0, 0, 2, 0, 0, 2] ++ [0, 0, 0, 0, 1, 0, 0, 3] ++
    List.replicate 232 0 ++ [0x11, 0x22] ++ List.replicate 254 0

/-- The first file has been started: one of its two bytes is delivered. -/
def startedFile : Outcome :=
  dispatched (mediaServiceOpen cutDisc).2 World.start.stream ⟨mediaCmdRead, 0, 5⟩

theorem startedFile_streaming : Streaming startedFile.service startedFile.stream 0 :=
  ⟨by decide +kernel, by decide +kernel, by decide +kernel⟩

/-- The failed READ of the second file ends the stream of the first. -/
theorem cutDisc_disturbs :
    Streaming startedFile.service startedFile.stream 0 ∧
      (dispatched startedFile.service startedFile.stream ⟨mediaCmdRead, 1, 240⟩).status = .errFormat ∧
      ¬ Undisturbed startedFile.service startedFile.stream 0 ⟨mediaCmdRead, 1, 240⟩ := by
  refine ⟨startedFile_streaming, by decide +kernel, ?_⟩
  intro undisturbed
  have same := undisturbed [⟨mediaCmdRead, 0, 240⟩]
  exact absurd same (by decide +kernel)

/-- A READ of a file the disc does not have is refused in time. -/
theorem missing_undisturbed :
    (dispatched startedFile.service startedFile.stream ⟨mediaCmdRead, 2, 240⟩).status = .errRange ∧
      Undisturbed startedFile.service startedFile.stream 0 ⟨mediaCmdRead, 2, 240⟩ := by
  have error : (dispatched startedFile.service startedFile.stream ⟨mediaCmdRead, 2, 240⟩).status =
      .errRange := by decide +kernel
  refine ⟨error, ?_⟩
  exact (undisturbed_iff startedFile_streaming (by decide) (.inl error)).mpr (.inl (by decide +kernel))

end Pi1MHz.MediaService
