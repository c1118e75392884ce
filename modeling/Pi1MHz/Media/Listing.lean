import Pi1MHz.Media.Confinement
import Pi1MHz.Media.Streaming

/-! The listing of an image: how it depends on the room for its entries, and how the service shows
it line by line. -/
namespace Pi1MHz.MediaCatalogue
open UefRepair (char)

/-- The listing with room for `m` entries against one with more room. -/
structure Shorter (m n : Nat) (short long : MediaStatus × Catalogue) : Prop where
  status : short.1 = long.1
  kind : short.2.kind = long.2.kind
  title : short.2.title = long.2.title
  bootOption : short.2.bootOption = long.2.bootOption
  total : short.2.total = long.2.total
  issues : short.2.issues = long.2.issues
  count : short.2.count = min m short.2.total
  countLong : long.2.count = min n long.2.total
  entries : short.2.entries = long.2.entries.take short.2.count

variable {image : List UInt8} {m n : Nat}

/-- A kind that is not given is the one the image is found to be. -/
theorem mediaCatalogue_identified (image : List UInt8) (entries : Option Nat) :
    mediaCatalogue image .unknown entries = mediaCatalogue image (mediaIdentify image) entries := by
  cases found : mediaIdentify image with
  | unknown => rfl
  | uef => simp [mediaCatalogue, found]
  | ssd => simp [mediaCatalogue, found]

/-- With any room the listing takes the first entries of one list, and all else is the same. -/
structure Takes (image : List UInt8) (kind : MediaKind) (status : MediaStatus) (summary : Catalogue)
    (all : List MediaEntry) : Prop where
  total : summary.total = all.length
  listing : ∀ room, 1 ≤ room →
    mediaCatalogue image kind (some room) = (status, { summary with entries := all.take room })

theorem uef_takes (image : List UInt8) :
    Takes image .uef (if (uefListing image).1 = .errFormat then .errFormat else .ok)
      { Catalogue.empty .uef with
        total := (tapeFiles image).length, issues := (uefListing image).2.2 }
      ((tapeFiles image).map fileEntry) where
  total := (List.length_map _).symm
  listing room positive := by rw [mediaCatalogue_uef image (by omega), List.map_take]

theorem ssd_takes (image : List UInt8) : ∃ status summary all, Takes image .ssd status summary all := by
  have array : ∀ room, 1 ≤ room → some room ≠ some 0 := by
    intro room positive
    simpa using (by omega : room ≠ 0)
  cases disc : dfsPlausible image with
  | false =>
    refine ⟨.errFormat, .empty .ssd, [], rfl, fun room positive => ?_⟩
    simp [mediaCatalogue, array room positive, dfsCatalogue, disc, Catalogue.empty]
  | true =>
    refine ⟨.ok, (dfsCatalogue image 0 (.empty .ssd)).2, dfsEntries image, ?_,
      fun room positive => ?_⟩
    · simp [dfsCatalogue, disc, dfsEntries]
    · simp [mediaCatalogue, array room positive, dfsCatalogue, disc, Catalogue.empty,
        Catalogue.count, dfsEntries]

theorem mediaCatalogue_takes (image : List UInt8) (kind : MediaKind) :
    ∃ status summary all, Takes image kind status summary all := by
  have identified := mediaCatalogue_identified image
  cases kind with
  | uef => exact ⟨_, _, _, uef_takes image⟩
  | ssd => exact ssd_takes image
  | unknown =>
    cases found : mediaIdentify image with
    | uef =>
      rw [found] at identified
      obtain ⟨total, listing⟩ := uef_takes image
      exact ⟨_, _, _, total, fun room positive => (identified _).trans (listing room positive)⟩
    | ssd =>
      rw [found] at identified
      obtain ⟨status, summary, all, total, listing⟩ := ssd_takes image
      exact ⟨_, _, _, total, fun room positive => (identified _).trans (listing room positive)⟩
    | unknown =>
      refine ⟨.errFormat, .empty .unknown, [], rfl, fun room positive => ?_⟩
      have array : some room ≠ some 0 := by simpa using (by omega : room ≠ 0)
      simp [mediaCatalogue, array, found, Catalogue.empty]

/-- A shorter listing is the front of a longer one, with the same totals and issues. -/
theorem mediaCatalogue_shorter (image : List UInt8) (kind : MediaKind) (positive : 1 ≤ m)
    (le : m ≤ n) :
    Shorter m n (mediaCatalogue image kind (some m)) (mediaCatalogue image kind (some n)) := by
  obtain ⟨status, summary, all, total, listed⟩ := mediaCatalogue_takes image kind
  rw [listed m positive, listed n (positive.trans le)]
  exact {
    status := rfl
    kind := rfl
    title := rfl
    bootOption := rfl
    total := rfl
    issues := rfl
    count := by rw [Catalogue.count, List.length_take, total]
    countLong := by rw [Catalogue.count, List.length_take, total]
    entries := by
      simp only [Catalogue.count, List.length_take, List.take_take]
      rw [Nat.min_eq_left (show min m all.length ≤ n by omega), ← List.take_eq_take_min] }

theorem pairedTape_shorter :
    ((mediaCatalogue pairedTape .unknown (some 1)).2.entries.map (·.length) = [1] ∧
      (mediaCatalogue pairedTape .unknown (some 1)).2.total = 2) ∧
      Shorter 1 128 (mediaCatalogue pairedTape .unknown (some 1))
        (mediaCatalogue pairedTape .unknown (some 128)) :=
  ⟨by decide +kernel, mediaCatalogue_shorter pairedTape .unknown le_rfl (by decide)⟩

end Pi1MHz.MediaCatalogue

namespace Pi1MHz.MediaService
open MediaCatalogue

/-- The room a dispatch has for its reply. -/
def replyRoom (request : Request) : Nat := min request.capacity mediaSvcReplyMax

/-- The replies of a service, each with its request. Between two of them other services may have
used the stream, so each finds a stream of its own. -/
def dispatches (service : Service) : List (Request × Stream) → List (Request × Outcome)
  | [] => []
  | (request, stream) :: rest =>
    let outcome := dispatched service stream request
    (request, outcome) :: dispatches outcome.service rest

/-- A reply within its bound, written at the start of the buffer. -/
structure Bounded (request : Request) (outcome : Outcome) : Prop where
  short : outcome.reply.length ≤ replyRoom request
  failed : outcome.status ≠ .ok → outcome.reply = []
  kept : ∀ (buffer : Memory UInt8) i, replyRoom request ≤ i →
    buffer.write 0 outcome.reply i = buffer i

/-- The line of an entry in the listing. -/
def catLine (entry : MediaEntry) : List UInt8 := mediaFormatEntry entry 64 ++ [0x0d]

/-- The entries that are left are shown in their order, one for each CAT that has room for it, until
CLOSE ends the listing. -/
def Lists : List MediaEntry → List (Request × Outcome) → Prop
  | _, [] => True
  | left, (request, outcome) :: rest =>
    match Command.ofByte request.command with
    | some .close => True
    | some .cat =>
      match left with
      | [] => outcome.status = .eof ∧ Lists [] rest
      | entry :: later =>
        if (catLine entry).length ≤ replyRoom request then
          outcome.status = .ok ∧ outcome.reply = catLine entry ∧ Lists later rest
        else outcome.status = .errRange ∧ Lists (entry :: later) rest
    | _ => Lists left rest

section Bounds

variable {request : Request} {outcome : Outcome} {service : Service} {stream : Stream}

theorem clipped_eq (request : Request) :
    (if mediaSvcReplyMax < request.capacity then mediaSvcReplyMax else request.capacity) =
      replyRoom request := by
  rw [replyRoom]
  split <;> omega

theorem bounded_of_short (short : outcome.reply.length ≤ replyRoom request)
    (failed : outcome.status ≠ .ok → outcome.reply = []) : Bounded request outcome where
  short
  failed
  kept buffer i beyond := by
    rw [Memory.write, if_pos (Nat.zero_le i), Nat.sub_zero,
      List.getElem?_eq_none_iff.mpr (short.trans beyond), Option.getD_none]

theorem bounded_empty (nothing : outcome.reply = []) : Bounded request outcome :=
  bounded_of_short (by rw [nothing]; exact Nat.zero_le _) fun _ => nothing

/-- The names of the entries fit the reply of INFO. -/
def Named (service : Service) : Prop :=
  ∀ entry ∈ service.summary.entries, entry.name.length < mediaNameMax

theorem dispatchOpen_bounded : Bounded request (dispatchOpen service stream (replyRoom request)) := by
  rw [dispatchOpen]
  split
  · exact bounded_empty rfl
  split
  · exact bounded_empty rfl
  · rename_i room
    exact bounded_of_short (Nat.le_of_not_lt room) fun failed => absurd rfl failed

theorem dispatchCat_bounded : Bounded request (dispatchCat service stream (replyRoom request)) := by
  rw [dispatchCat]
  split
  · exact bounded_empty rfl
  split
  · exact bounded_empty rfl
  · simp only
    split
    · exact bounded_empty rfl
    split
    · exact bounded_empty rfl
    · rename_i room
      rw [not_or] at room
      refine bounded_of_short ?_ fun failed => absurd rfl failed
      rw [List.length_append, List.length_singleton]
      exact Nat.le_of_not_lt room.1

theorem dispatchInfo_bounded (named : Named service) (index : UInt8) :
    Bounded request (dispatchInfo service stream index (replyRoom request)) := by
  rw [dispatchInfo]
  split
  · exact bounded_empty rfl
  split
  · exact bounded_empty rfl
  · rename_i entry found
    simp only
    split
    · exact bounded_empty rfl
    · rename_i room
      have fits := named entry (List.mem_of_getElem? found)
      refine bounded_of_short ?_ fun failed => absurd rfl failed
      simp only [le32, List.length_append, List.length_cons, List.length_nil, List.length_take]
      omega

theorem streamWindow_bounded (room : 4 ≤ replyRoom request) :
    Bounded request (streamWindow service stream (replyRoom request)) := by
  rw [streamWindow_eq]
  split
  · exact bounded_empty rfl
  · refine bounded_of_short ?_ fun failed => absurd rfl failed
    have window : windowSize (stream.length - service.readOffset) (replyRoom request) + 4 ≤
        replyRoom request := by
      simp only [windowSize]
      split <;> split <;> omega
    simp only [List.length_append, List.length_cons, List.length_nil, Memory.read_length]
    omega

theorem dispatchRead_bounded (index : UInt8) :
    Bounded request (dispatchRead service stream index (replyRoom request)) := by
  rw [dispatchRead]
  split
  · exact bounded_empty rfl
  split
  · exact bounded_empty rfl
  split
  · exact bounded_empty rfl
  · rename_i room
    split
    · exact streamWindow_bounded (Nat.le_of_not_lt room)
    · simp only
      split
      · exact streamWindow_bounded (Nat.le_of_not_lt room)
      · exact bounded_empty rfl
      · exact bounded_empty rfl

theorem dispatched_bounded (named : Named service) : Bounded request (dispatched service stream request) := by
  rw [dispatched, mediaServiceDispatch, clipped_eq]
  split
  · exact dispatchOpen_bounded
  · exact dispatchCat_bounded
  · exact dispatchInfo_bounded named _
  · exact dispatchRead_bounded _
  · exact bounded_empty rfl
  · exact bounded_empty rfl

end Bounds

section Walk

variable {request : Request} {service : Service}

/-- A READ moves the stream of the service at most. -/
theorem dispatchRead_keeps (service : Service) (stream : Stream) (index : UInt8) (capacity : Nat) :
    ∃ status reply readIndex readOffset after,
      dispatchRead service stream index capacity =
        ⟨status, reply, { service with readIndex, readOffset }, after⟩ := by
  have windowed : ∀ (moved : Service) (before : Stream), ∃ status reply readOffset after,
      streamWindow moved before capacity =
        ⟨status, reply, { moved with readOffset }, after⟩ := by
    intro moved before
    rw [streamWindow_eq]
    split
    · exact ⟨_, _, _, _, rfl⟩
    · exact ⟨_, _, _, _, rfl⟩
  rw [dispatchRead]
  split
  · exact ⟨_, _, _, _, _, rfl⟩
  split
  · exact ⟨_, _, _, _, _, rfl⟩
  split
  · exact ⟨_, _, _, _, _, rfl⟩
  split
  · obtain ⟨status, reply, offset, after, same⟩ := windowed service stream
    exact ⟨_, _, _, _, _, same⟩
  · cases extracted : (mediaExtract service.image service.kind index.toNat streamCapacity).status with
    | ok =>
      obtain ⟨status, reply, offset, after, same⟩ :=
        windowed { service with readIndex := index.toNat, readOffset := 0 }
          (startedStream service stream index.toNat)
      refine ⟨status, reply, index.toNat, offset, after, ?_⟩
      simp only [startStream, extracted, if_true]
      exact same
    | errRange => exact ⟨_, _, _, _, _, by simp only [startStream, extracted, reduceCtorEq, if_false]; rfl⟩
    | errParam => exact ⟨_, _, _, _, _, by simp only [startStream, extracted, reduceCtorEq, if_false]; rfl⟩
    | errFormat => exact ⟨_, _, _, _, _, by simp only [startStream, extracted, reduceCtorEq, if_false]; rfl⟩
    | errTruncated =>
      exact ⟨_, _, _, _, _, by simp only [startStream, extracted, reduceCtorEq, if_false]; rfl⟩

theorem dispatched_close (stream : Stream) (close : Command.ofByte request.command = some .close) :
    dispatched service stream request = ⟨.ok, [], .reset, { stream with valid := false }⟩ := by
  simp only [dispatched, mediaServiceDispatch, close]

/-- Only CLOSE changes what the service is open on. -/
theorem dispatched_summary (stream : Stream) (stays : Command.ofByte request.command ≠ some .close) :
    (dispatched service stream request).service.summary = service.summary ∧
      (dispatched service stream request).service.opened = service.opened := by
  by_cases read : Command.ofByte request.command = some .read
  · obtain ⟨status, reply, index, offset, after, same⟩ :=
      dispatchRead_keeps service stream request.argument (clipped request.capacity)
    rw [dispatched_read (by simpa [isRead] using read), same]
    exact ⟨rfl, rfl⟩
  · obtain ⟨status, reply, cursor, same⟩ := dispatched_kept service read stays
    rw [same stream]
    exact ⟨rfl, rfl⟩

theorem dispatched_named (named : Named service) (stream : Stream) :
    Named (dispatched service stream request).service := by
  by_cases close : Command.ofByte request.command = some .close
  · rw [dispatched_close stream close]
    intro entry member
    cases member
  · rw [Named, (dispatched_summary stream close).1]
    exact named

/-- Every reply of a run is within its bound. -/
theorem dispatches_bounded {steps : List (Request × Stream)} (named : Named service) :
    ∀ step ∈ dispatches service steps, Bounded step.1 step.2 := by
  induction steps generalizing service with
  | nil =>
    intro step member
    cases member
  | cons head rest ih =>
    intro step member
    rcases List.mem_cons.mp member with rfl | later
    · exact dispatched_bounded named
    · exact ih (dispatched_named named head.2) step later

/-- Only a CAT moves the cursor. -/
theorem dispatched_cursor (stream : Stream) (cat : Command.ofByte request.command ≠ some .cat)
    (close : Command.ofByte request.command ≠ some .close) :
    (dispatched service stream request).service.catCursor = service.catCursor := by
  simp only [dispatched, mediaServiceDispatch, clipped_eq]
  split
  · rw [dispatchOpen]
    split
    · rfl
    · split <;> rfl
  · exact absurd ‹_› cat
  · rw [dispatchInfo]
    split
    · rfl
    · split
      · rfl
      · simp only
        split <;> rfl
  · obtain ⟨status, reply, index, offset, after, same⟩ :=
      dispatchRead_keeps service stream request.argument (replyRoom request)
    rw [same]
  · exact absurd ‹_› close
  · rfl

theorem mediaFormatEntry_length (entry : MediaEntry) :
    0 < (mediaFormatEntry entry 64).length ∧ (mediaFormatEntry entry 64).length ≤ 40 := by
  have digits : ∀ (value : UInt32) count, (putHex value count).length = count := by
    intro value count
    simp [putHex]
  simp only [mediaFormatEntry, show ¬ (64 < 40) by omega, if_false, List.length_append, digits,
    List.length_replicate, List.length_take, List.length_cons, List.length_nil]
  constructor
  · omega
  · split <;> split <;> simp only [List.length_cons, List.length_nil] <;> omega

/-- A CAT with an entry left. -/
theorem dispatched_cat {entry : MediaEntry} (opened : service.opened = true) (stream : Stream)
    (cat : Command.ofByte request.command = some .cat)
    (next : service.summary.entries[service.catCursor]? = some entry) :
    dispatched service stream request =
      if (catLine entry).length ≤ replyRoom request then
        ⟨.ok, catLine entry, { service with catCursor := service.catCursor + 1 }, stream⟩
      else ⟨.errRange, [], service, stream⟩ := by
  obtain ⟨nonempty, short⟩ := mediaFormatEntry_length entry
  have size : (catLine entry).length = (mediaFormatEntry entry 64).length + 1 := List.length_append
  have most : mediaSvcReplyMax = 240 := rfl
  simp only [dispatched, mediaServiceDispatch, cat, clipped_eq, dispatchCat, opened, next]
  rw [if_neg (by simp), if_neg (by omega), size]
  by_cases room : (mediaFormatEntry entry 64).length + 1 ≤ replyRoom request
  · rw [if_neg (by omega), if_pos room]
    rfl
  · rw [if_pos (by omega), if_neg room]

theorem dispatched_cat_end (opened : service.opened = true) (stream : Stream)
    (cat : Command.ofByte request.command = some .cat)
    (next : service.summary.entries[service.catCursor]? = none) :
    dispatched service stream request = ⟨.eof, [], service, stream⟩ := by
  simp only [dispatched, mediaServiceDispatch, cat, dispatchCat, opened, next]
  rfl

/-- The CATs of a run show the entries from the cursor on. -/
theorem dispatches_list {steps : List (Request × Stream)} (opened : service.opened = true) :
    Lists (service.summary.entries.drop service.catCursor) (dispatches service steps) := by
  induction steps generalizing service with
  | nil => trivial
  | cons head rest ih =>
    obtain ⟨request, stream⟩ := head
    rw [dispatches]
    have others : Command.ofByte request.command ≠ some .cat →
        Command.ofByte request.command ≠ some .close →
        Lists (service.summary.entries.drop service.catCursor)
          (dispatches (dispatched service stream request).service rest) := by
      intro cat close
      obtain ⟨same, still⟩ := @dispatched_summary request service stream close
      rw [← same, ← dispatched_cursor stream cat close]
      exact ih (still.trans opened)
    cases named : Command.ofByte request.command with
    | none =>
      simp only [Lists, named]
      exact others (by simp [named]) (by simp [named])
    | some command =>
      cases command with
      | close => simp only [Lists, named]
      | «open» =>
        simp only [Lists, named]
        exact others (by simp [named]) (by simp [named])
      | info =>
        simp only [Lists, named]
        exact others (by simp [named]) (by simp [named])
      | read =>
        simp only [Lists, named]
        exact others (by simp [named]) (by simp [named])
      | cat =>
        cases next : service.summary.entries[service.catCursor]? with
        | none =>
          have over_ := List.drop_eq_nil_iff.mpr (List.getElem?_eq_none_iff.mp next)
          have later := @ih service opened
          rw [over_] at later
          rw [over_, Lists, named, dispatched_cat_end opened stream named next]
          exact ⟨rfl, later⟩
        | some entry =>
          obtain ⟨inside, here⟩ := List.getElem?_eq_some_iff.mp next
          rw [List.drop_eq_getElem_cons inside, here, Lists, named, dispatched_cat opened stream named next]
          dsimp only
          split
          · exact ⟨rfl, rfl, @ih { service with catCursor := service.catCursor + 1 } opened⟩
          · have later := @ih service opened
            rw [List.drop_eq_getElem_cons inside, here] at later
            exact ⟨rfl, later⟩

end Walk

/-- From an opened image on, every reply is within its bound and the CATs show the catalogue. -/
theorem dispatches_walk {image : List UInt8} {service : Service}
    (opened : mediaServiceOpen image = (.ok, service)) (steps : List (Request × Stream)) :
    (∀ step ∈ dispatches service steps, Bounded step.1 step.2) ∧
      Lists service.summary.entries (dispatches service steps) := by
  have bound : service.summary =
      (mediaCatalogue image (mediaIdentify image) (some mediaMaxEntries)).2 ∧
      service.catCursor = 0 := by
    simp only [mediaServiceOpen] at opened
    split at opened
    · cases opened
    split at opened
    · cases opened
    split at opened
    · cases opened
    · cases opened
      exact ⟨rfl, rfl⟩
  obtain ⟨same, start⟩ := bound
  obtain ⟨-, -, isOpen⟩ := mediaServiceOpen_ok opened
  have named : Named service := by
    intro entry member
    rw [same] at member
    exact (MediaChecked.catalogue_named image _ _ entry member).short
  refine ⟨dispatches_bounded named, ?_⟩
  have listed := @dispatches_list service steps isOpen
  rw [start, List.drop_zero] at listed
  exact listed

/-- CATs with too little room, with enough, to the end and past it, with other commands between. -/
def walked : List Request :=
  [⟨121, 0, 38⟩, ⟨121, 0, 39⟩, ⟨122, 0, 29⟩, ⟨121, 0, 240⟩, ⟨mediaCmdRead, 1, 240⟩, ⟨121, 0, 0⟩,
    ⟨121, 0, 80⟩]

theorem walked_walk :
    let steps := walked.map fun request => (request, World.start.stream)
    (dispatches pairedService steps).map (fun step => (step.2.status, step.2.reply.length)) =
        [(.errRange, 0), (.ok, 39), (.ok, 15), (.ok, 39), (.ok, 6), (.eof, 0), (.eof, 0)] ∧
      (∀ step ∈ dispatches pairedService steps, Bounded step.1 step.2) ∧
      Lists pairedService.summary.entries (dispatches pairedService steps) := by
  have opened : mediaServiceOpen pairedTape = (.ok, pairedService) :=
    Prod.ext (by decide +kernel) rfl
  exact ⟨by decide +kernel, dispatches_walk opened _⟩

end Pi1MHz.MediaService
