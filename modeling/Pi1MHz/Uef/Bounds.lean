import Pi1MHz.Uef.Backend

/-! Bounds of the UEF stream over whole runs of the dispatcher. The cursor and the published
window stay inside the stream as long as no accepted legacy image replaces the stream under
a published window that does not fit it. -/
namespace Pi1MHz.NetBackend
open UefRepair

/-- What `uef_stream_publish` and its callers rely on. -/
structure Bounded (s : UefState) : Prop where
  cursor : s.streamCursor ≤ s.streamLength
  published : s.publishedOffset + s.publishedLength.toNat ≤ s.streamLength
  final : s.publishedFinal = true → s.streamCursor = s.streamLength

structure Invariant (s : UefState) : Prop where
  size : s.streamLength ≤ uefStreamCapacity
  ready : s.streamReady = true → Bounded s
  idle : s.streamReady = false →
    s.publishedOffset = 0 ∧ s.publishedLength = 0 ∧ s.publishedFinal = false
  uploading : s.uploadActive = true → s.streamReady = false

theorem available_eq {s : UefState} (size : s.streamLength ≤ uefStreamCapacity)
    (inside : s.streamCursor ≤ s.streamLength) :
    available s = s.streamLength - s.streamCursor := by
  simp only [uefStreamCapacity] at size
  have split : 2 ^ 64 + s.streamLength - s.streamCursor =
      2 ^ 64 + (s.streamLength - s.streamCursor) := by omega
  rw [available, split, Nat.add_mod_left]
  exact Nat.mod_eq_of_lt (by omega)

theorem publishCount_le_available (s : UefState) : publishCount s ≤ available s := by
  simp only [publishCount]
  split <;> omega

theorem publishCount_le_limit (s : UefState) : publishCount s ≤ windowLimit s := by
  simp only [publishCount]
  split <;> omega

theorem windowLimit_lt (s : UefState) : windowLimit s < 2 ^ 16 := by
  simp only [windowLimit]
  split <;> decide

theorem publishCount_toUInt16 (s : UefState) : (publishCount s).toUInt16.toNat = publishCount s :=
  UInt16.toNat_ofNat_of_lt'
    (Nat.lt_of_le_of_lt (publishCount_le_limit s) (windowLimit_lt s))

theorem publishCount_inside {s : UefState} (size : s.streamLength ≤ uefStreamCapacity)
    (inside : s.streamCursor ≤ s.streamLength) :
    s.streamCursor + publishCount s ≤ s.streamLength := by
  have count := publishCount_le_available s
  rw [available_eq size inside] at count
  omega

theorem publish_bounded {s : UefState} (jim : Jim) (size : s.streamLength ≤ uefStreamCapacity)
    (inside : s.streamCursor ≤ s.streamLength) : Bounded (uefStreamPublish s jim).1 := by
  have count := publishCount_inside size inside
  refine ⟨count, ?_, ?_⟩
  · simpa only [uefStreamPublish, publishCount_toUInt16] using count
  · simp [uefStreamPublish]

/-- A publication from inside a ready stream keeps the invariant. -/
theorem publish_invariant {s : UefState} (jim : Jim) (size : s.streamLength ≤ uefStreamCapacity)
    (inside : s.streamCursor ≤ s.streamLength) (ready : s.streamReady = true)
    (idle : s.uploadActive = false) : Invariant (uefStreamPublish s jim).1 := by
  refine ⟨size, fun _ => publish_bounded jim size inside, ?_, ?_⟩
  · simp [uefStreamPublish, ready]
  · simp [uefStreamPublish, idle]

theorem clear_invariant (s : UefState) (jim : Jim) (token : UInt32) (active : Bool) :
    Invariant { (uefStreamClear s jim).1 with uploadActive := active, streamToken := token } := by
  refine ⟨?_, ?_, ?_, ?_⟩
  · exact Nat.zero_le _
  · simp [uefStreamClear]
  · simp [uefStreamClear]
  · simp [uefStreamClear]

theorem uefAppend_cases (z : Zlib) (s : UefState) (jim : Jim) (request : Request) :
    (uefAppend z s jim request).2.1 = s ∨
      s.uploadActive = true ∧
      (request.lengthIn jim).toNat ≤ uefStreamCapacity - s.streamLength ∧
      (uefAppend z s jim request).2.1 = { s with
        stream := s.stream.write s.streamLength (jim.read 0 (request.lengthIn jim).toNat)
        streamLength := s.streamLength + (request.lengthIn jim).toNat
        lastAppendSequence := request.value
        lastAppendLength := request.lengthIn jim
        lastAppendCrc := z.crc32 (jim.read 0 (request.lengthIn jim).toNat)
        windowGeneration := s.windowGeneration + 1 } := by
  simp only [uefAppend]
  split
  · exact Or.inl rfl
  · rename_i accepted
    split
    · split
      · exact Or.inl rfl
      · rename_i room
        split
        · exact Or.inl rfl
        · refine Or.inr ⟨?_, Nat.le_of_not_lt room, rfl⟩
          cases active : s.uploadActive with
          | true => rfl
          | false => simp [active] at accepted
    · split
      · exact Or.inl rfl
      · exact Or.inl rfl

theorem uefAppend_invariant {s : UefState} (z : Zlib) (jim : Jim) (request : Request)
    (invariant : Invariant s) : Invariant (uefAppend z s jim request).2.1 := by
  rcases uefAppend_cases z s jim request with same | ⟨active, room, changed⟩
  · rwa [same]
  · have idle := invariant.uploading active
    have size := invariant.size
    rw [changed]
    refine ⟨?_, ?_, fun _ => invariant.idle idle, fun _ => idle⟩
    · simp only
      omega
    · simp [idle]

/-- The repair touches the stream only. -/
theorem repairStream_eq (s : UefState) :
    repairStream s = { s with stream := (repairStream s).stream } := by
  simp only [repairStream]
  split <;> rfl

theorem repairStream_length (s : UefState) : (repairStream s).streamLength = s.streamLength := by
  rw [repairStream_eq]

/-- What an accepted image leaves at the start of the buffer it was unpacked in. -/
theorem overlay_image {capacity : Nat} {source : List UInt8} {decoded : Decoded}
    (buffer : Memory UInt8) (accepted : Accepted capacity source decoded)
    (held : buffer.read 0 source.length = source) :
    (overlay decoded.writes buffer).read 0 decoded.output.length = decoded.output := by
  rcases accepted.stored with ⟨unwritten, same⟩ | ⟨before, last⟩
  · rw [unwritten, same]
    exact held
  · rw [last, overlay, List.foldl_append, List.foldl_cons, List.foldl_nil]
    exact Memory.read_write _ _ _

theorem raw_positive {data : List UInt8} (raw : isRawUef data = true) : 0 < data.length := by
  simp only [isRawUef, Bool.and_eq_true, decide_eq_true_eq] at raw
  omega

theorem uefFinalize_invariant {s : UefState} (z : Zlib) (jim : Jim) (request : Request)
    (invariant : Invariant s) :
    Invariant (uefFinalize z uefStreamCapacity s jim request).2.1 := by
  simp only [uefFinalize]
  split
  · exact invariant
  · rename_i begun
    have active : s.uploadActive = true := by
      cases active : s.uploadActive with
      | true => rfl
      | false => simp [active] at begun
    have idle := invariant.uploading active
    split
    · rename_i accepted
      have length := (finalizeUef_accepted accepted).length
      have size := invariant.size
      rw [Memory.read_length] at length
      refine publish_invariant jim ?_ ?_ rfl rfl
      · simp only [repairStream_length]
        omega
      · exact Nat.zero_le _
    · exact ⟨invariant.size, by simp [idle], fun _ => invariant.idle idle, fun _ => idle⟩

theorem ready_of_not_refused {s : UefState} {request : Request}
    (accepted : ¬(((!s.streamReady) = true) ∨ (request.token ≠ 0 ∧ request.token ≠ s.streamToken))) :
    s.streamReady = true := by
  cases ready : s.streamReady with
  | true => rfl
  | false => simp [ready] at accepted

theorem Invariant.idle_upload {s : UefState} (invariant : Invariant s) (ready : s.streamReady = true) :
    s.uploadActive = false := by
  cases active : s.uploadActive with
  | false => rfl
  | true =>
    have idle := invariant.uploading active
    rw [ready] at idle
    cases idle

theorem uefRewind_invariant {s : UefState} (jim : Jim) (request : Request)
    (invariant : Invariant s) : Invariant (uefRewind s jim request).2.1 := by
  simp only [uefRewind]
  split
  · exact invariant
  · rename_i accepted
    have ready := ready_of_not_refused accepted
    exact publish_invariant jim invariant.size (Nat.zero_le _) ready (invariant.idle_upload ready)

theorem uefRefill_invariant {s : UefState} (jim : Jim) (request : Request)
    (invariant : Invariant s) : Invariant (uefRefill s jim request).2.1 := by
  simp only [uefRefill]
  split
  · exact invariant
  · rename_i accepted
    have ready := ready_of_not_refused accepted
    split
    · exact publish_invariant jim invariant.size (invariant.ready ready).cursor ready
        (invariant.idle_upload ready)
    · split
      · exact invariant
      · exact invariant

theorem uefRepublish_invariant {s : UefState} (jim : Jim) (request : Request)
    (invariant : Invariant s) : Invariant (uefRepublish s jim request).2.1 := by
  simp only [uefRepublish]
  split
  · exact invariant
  · exact invariant

theorem uefClose_invariant {s : UefState} (jim : Jim) (request : Request)
    (invariant : Invariant s) : Invariant (uefClose s jim request).2.1 := by
  simp only [uefClose]
  split
  · exact invariant
  · exact clear_invariant s jim s.streamToken false

/-- Every incremental operation keeps the invariant. -/
theorem incrementalUefControl_invariant {s : UefState} (z : Zlib) (jim : Jim) (request : Request)
    (invariant : Invariant s) : Invariant (incrementalUefControl z s jim request).2.1 := by
  simp only [incrementalUefControl]
  split
  · exact invariant
  · exact clear_invariant s jim _ true
  · exact uefAppend_invariant z jim request invariant
  · exact uefFinalize_invariant z jim request invariant
  · exact uefRewind_invariant jim request invariant
  · exact uefRefill_invariant jim request invariant
  · exact uefRepublish_invariant jim request invariant
  · exact uefClose_invariant jim request invariant
  · exact invariant

theorem uefWindowRelayout_invariant {s : UefState} (jim : Jim) (invariant : Invariant s) :
    Invariant (uefWindowRelayout s jim).1 := by
  simp only [uefWindowRelayout]
  cases ready : s.streamReady with
  | false => exact invariant
  | true =>
    have published := (invariant.ready ready).published
    exact publish_invariant jim invariant.size (by simp only; omega) rfl
      (invariant.idle_upload ready)

theorem guardImageCommand_invariant {s : UefState} (command : Nat) (jim : Jim)
    (invariant : Invariant s) : Invariant (guardImageCommand s command jim).2.1 := by
  have changed (image : Vector UInt8 uefGuardLength) (valid : Bool) :
      Invariant { s with guardImage := image, guardImageValid := valid } := by
    refine ⟨invariant.size, fun ready => ?_, invariant.idle, invariant.uploading⟩
    have bounded := invariant.ready ready
    exact ⟨bounded.cursor, bounded.published, bounded.final⟩
  simp only [guardImageCommand]
  split
  · exact uefWindowRelayout_invariant jim (changed _ false)
  · split
    · exact invariant
    · exact uefWindowRelayout_invariant _ (changed _ true)

theorem wicfsChunks_inside {window : List UInt8} {position last : Nat} {effective : Option Nat}
    (inside : ∀ n, effective = some n → 0 < n ∧ n ≤ window.length)
    (found : wicfsChunks window position effective = some (some last)) :
    0 < last ∧ last ≤ window.length := by
  induction position, effective using wicfsChunks.induct window with
  | case1 position effective more short =>
    rw [wicfsChunks, if_pos more, if_pos short] at found
    cases found
  | case2 position effective more header chunkLength short =>
    rw [wicfsChunks, if_pos more, if_neg header, if_pos short] at found
    cases found
  | case3 position effective more header chunkLength whole next ih =>
    rw [wicfsChunks, if_pos more, if_neg header, if_neg whole] at found
    refine ih ?_ found
    intro n chosen
    split at chosen
    · cases chosen
      omega
    · exact inside n chosen
  | case4 position effective done =>
    rw [wicfsChunks, if_neg done] at found
    exact inside last (Option.some.inj found)

theorem wicfsStreamLength_inside {window : List UInt8} (raw : isRawUef window = true) :
    0 < wicfsStreamLength window ∧ wicfsStreamLength window ≤ window.length := by
  have positive := raw_positive raw
  simp only [wicfsStreamLength]
  split
  · exact ⟨positive, Nat.le_refl _⟩
  · split
    · rename_i effective found
      exact wicfsChunks_inside (by simp) found
    · exact ⟨positive, Nat.le_refl _⟩

/-- The length of the image a legacy request holds, if it is accepted. -/
def legacyLength (z : Zlib) (trimTail : Bool) (jim : Jim) : Option Nat :=
  let length := trailer jim
  if length = 0 ∨ uefCapacity < length then none
  else
    let decoded := normalizeUef z uefCapacity (jim.read 0 length)
    if decoded.verdict.accepted then
      some (if trimTail then wicfsStreamLength decoded.output else decoded.output.length)
    else none

theorem legacyLength_inside {z : Zlib} {trimTail : Bool} {jim : Jim} {n : Nat}
    (held : legacyLength z trimTail jim = some n) : 0 < n ∧ n ≤ uefStreamCapacity := by
  simp only [legacyLength] at held
  split at held
  · cases held
  · rename_i bounds
    split at held
    · rename_i accepted
      have image := normalizeUef_accepted accepted
      have length := image.length
      have positive := raw_positive image.raw
      have trimmed := wicfsStreamLength_inside image.raw
      have small : uefCapacity ≤ uefStreamCapacity := by decide
      rw [Memory.read_length] at length
      cases held
      split <;> omega
    · cases held

/-- A refused legacy request leaves the stream state alone; an accepted one replaces the
stream and keeps the published fields. -/
theorem normalizeUefControl_effect (z : Zlib) (s : UefState) (jim : Jim) :
    match legacyLength z s.trimTail jim with
    | none => (normalizeUefControl z uefCapacity s jim).2.1 = s
    | some n =>
      let after := (normalizeUefControl z uefCapacity s jim).2.1
      after.streamLength = n ∧ after.streamCursor = 0 ∧ after.streamReady = true ∧
        after.uploadActive = false ∧ after.publishedOffset = s.publishedOffset ∧
        after.publishedLength = s.publishedLength ∧ after.publishedFinal = s.publishedFinal := by
  simp only [legacyLength, normalizeUefControl]
  by_cases bounds : trailer jim = 0 ∨ uefCapacity < trailer jim
  · simp only [if_pos bounds]
  simp only [if_neg bounds]
  by_cases accepted : (normalizeUef z uefCapacity (jim.read 0 (trailer jim))).verdict.accepted = true
  · have image := overlay_image jim (normalizeUef_accepted accepted) (by simp)
    simp only [if_pos accepted, image, repairStream]
    split
    · simp
    · simp
  · simp only [if_neg accepted]

theorem normalizeUefControl_guard (z : Zlib) (s : UefState) (jim : Jim) :
    (normalizeUefControl z uefCapacity s jim).2.1.guardImageValid = s.guardImageValid := by
  simp only [normalizeUefControl]
  split
  · rfl
  split
  · rw [repairStream_eq]
  · rfl

/-- A request as the dispatcher sees it; the host may have written anything to JIM before. -/
structure Input where
  selector : UInt8
  command : Nat
  jim : Jim

/-- The request reaches the legacy normalizer. -/
def isLegacy (jimSize : Nat) (input : Input) : Bool :=
  inService jimSize input.command && input.selector == 0xff &&
    input.jim input.command == elkwifiCmdUefNormalize && !isIncremental input.jim input.command

/-- If the request is a legacy one whose image is accepted, no final window is published
and the published window lies inside the new image. -/
def Fits (z : Zlib) (jimSize : Nat) (s : UefState) (input : Input) : Prop :=
  isLegacy jimSize input = true → ∀ n, legacyLength z s.trimTail input.jim = some n →
    s.publishedFinal = false ∧ s.publishedOffset + s.publishedLength.toNat ≤ n

/-- The state after a request; the other services leave it alone. -/
def after (z : Zlib) (jimSize : Nat) (s : UefState) (input : Input) : UefState :=
  match dispatch z jimSize s input.selector input.command input.jim with
  | some (_, next, _) => next
  | none => s

theorem respond_state (command : Nat) (outcome : Reply × UefState × Jim) :
    (respond command outcome).2.1 = outcome.2.1 := by
  obtain ⟨reply, s, jim⟩ := outcome
  cases reply <;> rfl

/-- A legacy request that the dispatcher lets through. -/
theorem dispatch_legacy {z : Zlib} {jimSize : Nat} {s : UefState} {input : Input}
    (legacy : isLegacy jimSize input = true) :
    dispatch z jimSize s input.selector input.command input.jim =
      some (respond input.command (normalizeUefControl z uefCapacity s input.jim)) := by
  simp only [isLegacy, Bool.and_eq_true, beq_iff_eq, Bool.not_eq_true'] at legacy
  obtain ⟨⟨⟨placed, selected⟩, code⟩, form⟩ := legacy
  have large : ¬ jimSize < 0x10000 := by
    have size : Mailbox.serviceSize = 0x2000000 := rfl
    simp only [inService, Bool.and_eq_true, decide_eq_true_eq] at placed
    omega
  simp only [dispatch, placed, selected, code, form, large, Bool.not_true, Bool.false_eq_true,
    if_false, and_self, if_true]
  rw [if_neg (by decide), if_neg (by decide)]

theorem after_legacy {z : Zlib} {jimSize : Nat} {s : UefState} {input : Input}
    (legacy : isLegacy jimSize input = true) :
    after z jimSize s input = (normalizeUefControl z uefCapacity s input.jim).2.1 := by
  rw [after, dispatch_legacy legacy]
  exact respond_state _ _

/-- What the other requests can do. -/
theorem after_cases {z : Zlib} {jimSize : Nat} {s : UefState} {input : Input}
    (other : isLegacy jimSize input = false) :
    after z jimSize s input = s ∨
      after z jimSize s input = (guardImageCommand s input.command input.jim).2.1 ∨
      ∃ request, after z jimSize s input = (incrementalUefControl z s input.jim request).2.1 := by
  simp only [after, dispatch]
  by_cases placed : inService jimSize input.command = true
  · simp only [placed, Bool.not_true, Bool.false_eq_true, if_false]
    by_cases sectors : input.jim input.command = fatCmdReadSectors ∨
        input.jim input.command = fatCmdWriteSectors
    · rw [if_pos sectors]
      exact .inl rfl
    rw [if_neg sectors]
    by_cases guard : input.jim input.command = elkwifiCmdGuardImage
    · rw [if_pos guard]
      exact .inr (.inl rfl)
    rw [if_neg guard]
    by_cases chosen : input.selector = 0xff ∧ input.jim input.command = elkwifiCmdUefNormalize
    · have form : isIncremental input.jim input.command = true := by
        simpa [isLegacy, placed, chosen] using other
      rw [if_pos chosen, if_pos form]
      simp only [respond_state]
      exact .inr (.inr ⟨_, rfl⟩)
    · rw [if_neg chosen]
      exact .inl rfl
  · left
    simp only [placed, Bool.not_false, if_true]

/-- Requests that do not reach the legacy normalizer keep the invariant whatever they are. -/
theorem after_invariant {z : Zlib} {jimSize : Nat} {s : UefState} {input : Input}
    (other : isLegacy jimSize input = false) (invariant : Invariant s) :
    Invariant (after z jimSize s input) := by
  obtain same | guard | ⟨request, control⟩ := @after_cases z jimSize s input other
  · rwa [same]
  · rw [guard]
    exact guardImageCommand_invariant _ _ invariant
  · rw [control]
    exact incrementalUefControl_invariant z _ _ invariant

/-- An accepted legacy image keeps the bounds exactly when it fits the published window. -/
theorem legacy_bounded_iff {z : Zlib} {s : UefState} {jim : Jim} {n : Nat}
    (held : legacyLength z s.trimTail jim = some n) :
    Bounded (normalizeUefControl z uefCapacity s jim).2.1 ↔
      s.publishedFinal = false ∧ s.publishedOffset + s.publishedLength.toNat ≤ n := by
  have effect := normalizeUefControl_effect z s jim
  have inside := legacyLength_inside held
  simp only [held] at effect
  obtain ⟨length, cursor, _, _, offset, published, final⟩ := effect
  constructor
  · rintro ⟨_, window, last⟩
    rw [offset, published, length] at window
    rw [cursor, length, final] at last
    refine ⟨?_, window⟩
    cases clear : s.publishedFinal with
    | false => rfl
    | true => exact absurd (last clear) (by omega)
  · rintro ⟨clear, window⟩
    refine ⟨?_, ?_, ?_⟩
    · rw [cursor]
      exact Nat.zero_le _
    · rwa [offset, published, length]
    · rw [final, clear]
      intro last
      cases last

theorem legacy_invariant {z : Zlib} {s : UefState} {jim : Jim} (invariant : Invariant s)
    (fits : ∀ n, legacyLength z s.trimTail jim = some n →
      s.publishedFinal = false ∧ s.publishedOffset + s.publishedLength.toNat ≤ n) :
    Invariant (normalizeUefControl z uefCapacity s jim).2.1 := by
  have effect := normalizeUefControl_effect z s jim
  cases held : legacyLength z s.trimTail jim with
  | none =>
    simp only [held] at effect
    rwa [effect]
  | some n =>
    have bounded := (legacy_bounded_iff held).mpr (fits n held)
    have inside := legacyLength_inside held
    simp only [held] at effect
    obtain ⟨length, _, ready, active, _⟩ := effect
    refine ⟨by omega, fun _ => bounded, ?_, ?_⟩
    · simp [ready]
    · simp [active]

/-- Where the reads of a publication from any cursor the code uses, and of a republication,
lie; the guard may be either way by then. -/
structure ReadsInside (s : UefState) : Prop where
  publish : ∀ cursor ∈ [s.streamCursor, s.publishedOffset, 0], ∀ valid,
    let start := { s with streamCursor := cursor, guardImageValid := valid }
    start.streamCursor ≤ start.streamLength ∧
      start.streamCursor + publishCount start ≤ start.streamLength
  republish : s.publishedOffset + s.publishedLength.toNat ≤ s.streamLength

theorem Bounded.reads {s : UefState} (bounded : Bounded s)
    (size : s.streamLength ≤ uefStreamCapacity) : ReadsInside s := by
  refine ⟨?_, bounded.published⟩
  intro cursor chosen valid
  have inside : cursor ≤ s.streamLength := by
    have first := bounded.cursor
    have second := bounded.published
    simp only [List.mem_cons, List.not_mem_nil, or_false] at chosen
    omega
  exact ⟨inside, publishCount_inside (s := { s with streamCursor := cursor, guardImageValid := valid })
    size inside⟩

/-- The states a sequence of requests goes through. -/
def visited (z : Zlib) (jimSize : Nat) : UefState → List Input → List UefState
  | s, [] => [s]
  | s, input :: rest => s :: visited z jimSize (after z jimSize s input) rest

/-- Every request fits the state it meets. -/
def AllFit (z : Zlib) (jimSize : Nat) : UefState → List Input → Prop
  | _, [] => True
  | s, input :: rest => Fits z jimSize s input ∧ AllFit z jimSize (after z jimSize s input) rest

theorem after_fits {z : Zlib} {jimSize : Nat} {s : UefState} {input : Input}
    (invariant : Invariant s) (fits : Fits z jimSize s input) :
    Invariant (after z jimSize s input) := by
  cases legacy : isLegacy jimSize input with
  | false => exact after_invariant legacy invariant
  | true =>
    rw [after_legacy legacy]
    exact legacy_invariant invariant (fits legacy)

/-- One request that does not fit leaves a ready stream out of bounds. -/
theorem fits_of_bounded {z : Zlib} {jimSize : Nat} {s : UefState} {input : Input}
    (bounded : (after z jimSize s input).streamReady = true → Bounded (after z jimSize s input)) :
    Fits z jimSize s input := by
  intro legacy n held
  have effect := normalizeUefControl_effect z s input.jim
  simp only [held] at effect
  rw [after_legacy legacy] at bounded
  exact (legacy_bounded_iff held).mp (bounded effect.2.2.1)

theorem visited_head (z : Zlib) (jimSize : Nat) (s : UefState) (inputs : List Input) :
    s ∈ visited z jimSize s inputs := by
  cases inputs <;> simp [visited]

theorem visited_bounded_iff {z : Zlib} {jimSize : Nat} {s : UefState} (inputs : List Input)
    (invariant : Invariant s) :
    (∀ t ∈ visited z jimSize s inputs, t.streamReady = true → Bounded t ∧ ReadsInside t) ↔
      AllFit z jimSize s inputs := by
  induction inputs generalizing s with
  | nil =>
    refine iff_of_true ?_ trivial
    intro t member ready
    simp only [visited, List.mem_singleton] at member
    subst member
    exact ⟨invariant.ready ready, (invariant.ready ready).reads invariant.size⟩
  | cons input rest ih =>
    simp only [visited, AllFit, List.mem_cons, forall_eq_or_imp]
    constructor
    · rintro ⟨_, later⟩
      have fits : Fits z jimSize s input :=
        fits_of_bounded fun ready => (later _ (visited_head _ _ _ _) ready).1
      exact ⟨fits, (ih (after_fits invariant fits)).mp later⟩
    · rintro ⟨fits, later⟩
      refine ⟨fun ready => ?_, (ih (after_fits invariant fits)).mpr later⟩
      exact ⟨invariant.ready ready, (invariant.ready ready).reads invariant.size⟩

theorem create_invariant (trimTail filevRepair : Bool) : Invariant (create trimTail filevRepair) := by
  refine ⟨?_, ?_, ?_, ?_⟩
  · exact Nat.zero_le _
  · simp [create]
  · simp [create]
  · simp [create]

/-- In every run from the start the bounds hold in every state reached exactly when every
accepted legacy image fits the window published before it. -/
theorem stream_bounds_iff (z : Zlib) (jimSize : Nat) (trimTail filevRepair : Bool)
    (inputs : List Input) :
    (∀ t ∈ visited z jimSize (create trimTail filevRepair) inputs, t.streamReady = true →
        Bounded t ∧ ReadsInside t) ↔
      AllFit z jimSize (create trimTail filevRepair) inputs :=
  visited_bounded_iff inputs (create_invariant trimTail filevRepair)

/-- JIM with a command block at the start of the service area and bytes at the bottom. -/
def prepared (block bytes : List UInt8) (length : Nat) : Input where
  selector := 0xff
  command := 0x1000000
  jim := ((Memory.write (fun _ => 0) 0x1000000 block).write 0 bytes).write uefCapacity (le16 length)

def incremental (operation : UInt8) (value : UInt32) (length : Nat) (bytes : List UInt8) : Input :=
  prepared ([elkwifiCmdUefNormalize] ++ text ['I', 'U', 'E', 'F'] ++ [uefStreamVersion, operation] ++
    le32 0 ++ le32 value ++ le16 length ++ le32 0) bytes length

/-- The smallest tape: a header and no chunks. -/
def emptyTape : List UInt8 :=
  text ['U', 'E', 'F', ' ', 'F', 'i', 'l', 'e', '!'] ++ [0, 10, 0]

/-- A block of the file `L`. -/
def fileBlock (number flags : UInt8) (data : List UInt8) : List UInt8 :=
  [0, 1] ++ le32 (24 + data.length).toUInt32 ++ [char '*', char 'L', 0] ++ List.replicate 8 0 ++
    [number, 0] ++ le16 data.length ++ [flags] ++ List.replicate 6 0 ++ data ++ [0, 0]

/-- A file of two blocks with a comment between them. -/
def filedTape (first second : List UInt8) : List UInt8 :=
  emptyTape ++ fileBlock 0 0 first ++ [0, 0] ++ le32 2 ++ text ['h', 'i'] ++ fileBlock 1 0x80 second

/-- A tape whose second block has a token for the repair. -/
def vectorTape : List UInt8 :=
  filedTape (text ['R', 'E', 'M']) (text ['C', 'A', 'L', 'L', '?', '&', '2', '1', '2'])

/-- A tape streamed to its end, then a legacy request with the same tape. -/
def staleRun : List Input :=
  [incremental 1 0 0 [], incremental 2 0 12 emptyTape, incremental 3 0 0 [],
    prepared [elkwifiCmdUefNormalize] emptyTape 12]

theorem stale_legacy_breaks_bounds :
    ¬ ∀ t ∈ visited storedZlib Mailbox.jimSize (create false true) staleRun,
      t.streamReady = true → Bounded t := by
  intro all
  have last := all (staleRun.foldl (after storedZlib Mailbox.jimSize) (create false true))
    (by simp [visited, staleRun]) (by decide +kernel)
  exact absurd (last.final (by decide +kernel)) (by decide +kernel)

end Pi1MHz.NetBackend
