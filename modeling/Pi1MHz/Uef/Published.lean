import Pi1MHz.Uef.Layout

/-! What an operation that lays a window out leaves in JIM: the window, its length and the copies of
the guard, and nothing else. -/
namespace Pi1MHz.NetBackend
open UefRepair

/-- The cell of page 255 at `offset` is one that was there before, or part of a guard. -/
def Spared (s : UefState) (before after : Jim) (offset : Nat) : Prop :=
  after (0xff00 + offset) = before (0xff00 + offset) ∨
    s.guardImageValid = true ∧ uefGuardOffset ≤ offset ∧
      s.guardImage.toList[offset - uefGuardOffset]? = some (after (0xff00 + offset))

/-- The window of a state stands in JIM, laid out over what was there before: the host's walk reads
it, the trailer holds its length, page 0 stays, page 255 has none of it, and the guard of a window
that is not empty stands at the top of every page from 1 to 254. -/
structure Published (s : UefState) (before after : Jim) : Prop where
  window : windowIn s.guardImageValid after s.publishedLength.toNat =
    s.stream.read s.publishedOffset s.publishedLength.toNat
  trailer : trailer after = s.publishedLength.toNat
  replyPage : ∀ i < 0x100, after i = before i
  lastPage : ∀ offset < 0xfe, Spared s before after offset
  guard : s.guardImageValid = true → s.publishedLength ≠ 0 → ∀ page, 1 ≤ page → page ≤ 254 →
    after.read (page * 0x100 + uefGuardOffset) uefGuardLength = s.guardImage.toList

section Layout
variable {s : UefState} {jim : Jim} {source : List UInt8}

theorem guardStamp_low {i : Nat} (low : i < 0x100) : guardStamp s jim i = jim i := by
  cases guarded : s.guardImageValid with
  | false =>
    rw [guardStamp, guarded]
    rfl
  | true =>
    rw [guardStamp_eq guarded]
    have kept := @Memory.stamp_other _ 0x100 uefGuardOffset 0 s.guardImage.toList
      (List.range' uefFirstPage (256 - uefFirstPage)) jim (guardImage_fits s) (by decide) i low
    rwa [Nat.zero_mul, Nat.zero_add] at kept

theorem guardStamp_guard (guarded : s.guardImageValid = true) {page : Nat} (first : 1 ≤ page)
    (last : page ≤ 255) :
    (guardStamp s jim).read (page * 0x100 + uefGuardOffset) uefGuardLength = s.guardImage.toList := by
  have member : page ∈ List.range' uefFirstPage (256 - uefFirstPage) := by
    rw [List.mem_range'_1]
    simp only [uefFirstPage]
    omega
  have read := jim.stamp_read (guardImage_fits s) member
  rw [Vector.length_toList] at read
  rw [guardStamp_eq guarded]
  exact read

/-- On page 255 there is only a guard. -/
theorem guardStamp_spared {before : Jim} (same : ∀ offset < 0xfe, Spared s before jim offset)
    (offset : Nat) (inside : offset < 0xfe) : Spared s before (guardStamp s jim) offset := by
  cases guarded : s.guardImageValid with
  | false =>
    rw [guardStamp, guarded]
    exact same offset inside
  | true =>
    rcases Nat.lt_or_ge offset uefGuardOffset with below | above
    · have kept := guardStamp_run s jim 255 offset below
      have here := same offset inside
      rw [Spared] at here ⊢
      rwa [show guardStamp s jim (0xff00 + offset) = jim (0xff00 + offset) from kept]
    · right
      have copy := @guardStamp_guard s jim guarded 255 (by decide) (Nat.le_refl 255)
      have within : offset - uefGuardOffset < uefGuardLength := by
        simp only [uefGuardLength, uefGuardOffset] at above ⊢
        omega
      refine ⟨guarded, above, ?_⟩
      have position : 255 * 0x100 + uefGuardOffset + (offset - uefGuardOffset) = 0xff00 + offset := by
        omega
      rw [← copy, List.getElem?_eq_getElem (by rwa [Memory.read_length]), Memory.read_getElem,
        position]

theorem layOut_low {i : Nat} (low : i < 0x100) : layOut s jim source i = jim i := by
  rw [layOut]
  split
  · rw [uefWindowScatter, guardStamp_low low]
    exact Memory.scatter_before _ _ _ _ _ _ low
  · exact Memory.write_outside _ _ _ _ (.inl low)

/-- No byte of a window that fits reaches page 255. -/
theorem layOut_spared {before : Jim} (small : source.length ≤ windowLimit s)
    (same : ∀ offset < 0xfe, Spared s before jim offset) (offset : Nat) (inside : offset < 0xfe) :
    Spared s before (layOut s jim source) offset := by
  rw [windowLimit] at small
  rw [layOut]
  split
  next guarded =>
    rw [if_pos guarded] at small
    refine guardStamp_spared (fun i below => ?_) offset inside
    have kept := jim.scatter_outside (uefFirstPage * 0x100) 0x100 uefGuardOffset 254 i source
      (.inr small) (by decide) (by omega)
    have here := same i below
    rw [Spared] at here ⊢
    rwa [show jim.scatter (uefFirstPage * 0x100) 0x100 uefGuardOffset source (0xff00 + i) =
      jim (0xff00 + i) from kept]
  next open_ =>
    rw [if_neg open_] at small
    have most : uefFlatWindow = 0xfe00 := rfl
    have kept := jim.write_outside (uefFirstPage * 0x100) source (0xff00 + offset)
      (.inr (by rw [most] at small; simp only [uefFirstPage]; omega))
    have here := same offset inside
    rw [Spared] at here ⊢
    rwa [kept]

theorem layOut_guard (guarded : s.guardImageValid = true) {page : Nat} (first : 1 ≤ page)
    (last : page ≤ 255) : (layOut s jim source).read (page * 0x100 + uefGuardOffset) uefGuardLength =
      s.guardImage.toList := by
  rw [layOut, if_pos guarded]
  exact guardStamp_guard guarded first last

/-- The window of a state laid out, with its trailer. -/
def laid (s : UefState) (jim : Jim) : Jim :=
  let length := s.publishedLength.toNat
  (if length ≠ 0 then layOut s jim (s.stream.read s.publishedOffset length) else jim).write
    uefCapacity (le16 length)

theorem trailer_write {value : Nat} (small : value < 0x10000) :
    trailer (jim.write uefCapacity (le16 value)) = value := by
  have stored : (jim.write uefCapacity (le16 value)).read uefCapacity 2 = le16 value :=
    Memory.read_write_of_length jim uefCapacity rfl
  have number := rd16_le16 small []
  rw [List.append_nil] at number
  rw [trailer, stored, number]

/-- A window that fits, laid out over memory that kept page 0 and page 255. -/
theorem laid_published {before : Jim} (small : s.publishedLength.toNat ≤ windowLimit s)
    (low : ∀ i < 0x100, jim i = before i) (last : ∀ offset < 0xfe, Spared s before jim offset) :
    Published s before (laid s jim) := by
  let source := s.stream.read s.publishedOffset s.publishedLength.toNat
  have length : source.length = s.publishedLength.toNat := Memory.read_length _ _ _
  constructor
  · rw [laid, windowIn_write _ _ _ (windowLimit_le s small) (by decide)]
    by_cases nothing : s.publishedLength.toNat = 0
    · rw [nothing]
      simp [windowIn, Memory.gather]
    · have window := layOut_window s jim source (by rwa [length])
      rw [length] at window
      rw [if_pos nothing]
      exact window
  · exact trailer_write s.publishedLength.toNat_lt
  · intro i inside
    rw [laid, Memory.write_outside _ _ _ _ (.inl (by simp only [uefCapacity]; omega))]
    split
    · exact (layOut_low inside).trans (low i inside)
    · exact low i inside
  · intro offset inside
    have kept : laid s jim (0xff00 + offset) =
        (if s.publishedLength.toNat ≠ 0 then layOut s jim source else jim) (0xff00 + offset) :=
      Memory.write_outside _ _ _ _ (.inl (by simp only [uefCapacity]; omega))
    rw [Spared, kept]
    split
    · exact layOut_spared (by rwa [length]) last offset inside
    · exact last offset inside
  · intro guarded filled page first bound
    have nonempty : s.publishedLength.toNat ≠ 0 := fun zero => filled (UInt16.toNat_inj.mp zero)
    rw [laid, if_pos nonempty, Memory.read_write_disjoint _ (.inl ?_)]
    · exact layOut_guard guarded first (by omega)
    · simp only [uefGuardOffset, uefGuardLength, uefCapacity]
      omega

end Layout

section Shape
variable {s t : UefState}

/-- The window of a state fits the shape that the guard gives it. -/
structure Shaped (s : UefState) : Prop where
  fits : s.publishedLength.toNat ≤ windowLimit s
  idle : s.streamReady = false → s.publishedLength = 0

theorem Shaped.of_same (shaped : Shaped s) (length : t.publishedLength = s.publishedLength)
    (guard : t.guardImageValid = s.guardImageValid)
    (ready : s.streamReady = true → t.streamReady = true) : Shaped t := by
  refine ⟨?_, fun idle => ?_⟩
  · rw [length, windowLimit, guard]
    exact shaped.fits
  · rw [length]
    apply shaped.idle
    cases before : s.streamReady with
    | false => rfl
    | true =>
      rw [ready before] at idle
      cases idle

/-- A state without a published window has every shape. -/
theorem shaped_none (nothing : s.publishedLength = 0) : Shaped s := by
  refine ⟨?_, fun _ => nothing⟩
  rw [nothing]
  exact Nat.zero_le _

theorem publish_shaped (jim : Jim) (ready : s.streamReady = true) :
    Shaped (uefStreamPublish s jim).1 := by
  refine ⟨?_, fun idle => ?_⟩
  · show (publishCount s).toUInt16.toNat ≤ windowLimit s
    rw [publishCount_toUInt16]
    exact publishCount_le_limit s
  · have kept : (uefStreamPublish s jim).1.streamReady = s.streamReady := rfl
    rw [kept, ready] at idle
    cases idle

theorem uefAppend_shaped (z : Zlib) (jim : Jim) (request : Request) (shaped : Shaped s) :
    Shaped (uefAppend z s jim request).2.1 := by
  rcases uefAppend_cases z s jim request with same | ⟨_, _, changed⟩
  · rwa [same]
  · rw [changed]
    exact shaped.of_same rfl rfl id

theorem uefFinalize_shaped (z : Zlib) (jim : Jim) (request : Request) (shaped : Shaped s) :
    Shaped (uefFinalize z uefStreamCapacity s jim request).2.1 := by
  simp only [uefFinalize]
  split
  · exact shaped
  split
  · exact publish_shaped jim rfl
  · exact shaped.of_same rfl rfl id

theorem incrementalUefControl_shaped (z : Zlib) (jim : Jim) (request : Request) (shaped : Shaped s) :
    Shaped (incrementalUefControl z s jim request).2.1 := by
  simp only [incrementalUefControl]
  split
  · exact shaped
  · exact shaped_none rfl
  · exact uefAppend_shaped z jim request shaped
  · exact uefFinalize_shaped z jim request shaped
  · simp only [uefRewind]
    split
    next => exact shaped
    next accepted => exact publish_shaped jim (ready_of_not_refused accepted)
  · simp only [uefRefill]
    split
    next => exact shaped
    next accepted =>
      split
      · exact publish_shaped jim (ready_of_not_refused accepted)
      · split <;> exact shaped
  · simp only [uefRepublish]
    split <;> exact shaped
  · simp only [uefClose]
    split
    · exact shaped
    · exact shaped_none rfl
  · exact shaped

/-- A change of the guard lays a ready stream out anew, and there is no window otherwise. -/
theorem uefWindowRelayout_shaped (jim : Jim)
    (idle : s.streamReady = false → s.publishedLength = 0) : Shaped (uefWindowRelayout s jim).1 := by
  simp only [uefWindowRelayout]
  cases ready : s.streamReady with
  | false => exact shaped_none (idle ready)
  | true => exact publish_shaped jim rfl

theorem guardImageCommand_shaped (command : Nat) (jim : Jim) (shaped : Shaped s) :
    Shaped (guardImageCommand s command jim).2.1 := by
  simp only [guardImageCommand]
  split
  · exact uefWindowRelayout_shaped jim shaped.idle
  split
  · exact shaped
  · exact uefWindowRelayout_shaped _ shaped.idle

theorem after_shaped (z : Zlib) (jimSize : Nat) (input : Input) (shaped : Shaped s) :
    Shaped (after z jimSize s input) := by
  cases legacy : isLegacy jimSize input with
  | true =>
    have effect := normalizeUefControl_effect z s input.jim
    have guard := normalizeUefControl_guard z s input.jim
    rw [after_legacy legacy]
    cases held : legacyLength z s.trimTail input.jim with
    | none =>
      simp only [held] at effect
      rwa [effect]
    | some n =>
      simp only [held] at effect
      obtain ⟨_, _, ready, _, _, length, _⟩ := effect
      exact shaped.of_same length guard fun _ => ready
  | false =>
    obtain same | guard | ⟨request, control⟩ := @after_cases z jimSize s input legacy
    · rwa [same]
    · rw [guard]
      exact guardImageCommand_shaped _ _ shaped
    · rw [control]
      exact incrementalUefControl_shaped z _ _ shaped

end Shape

section Operations
variable {s : UefState}

/-- A ready stream whose cursor and published offset do not lie beyond it. -/
structure ReadyStream (s : UefState) : Prop where
  ready : s.streamReady = true
  size : s.streamLength ≤ uefStreamCapacity
  cursor : s.streamCursor ≤ s.streamLength
  offset : s.publishedOffset ≤ s.streamLength

/-- The published window is part of the stream. -/
def InStream (s : UefState) : Prop := s.publishedOffset + s.publishedLength.toNat ≤ s.streamLength

theorem publish_published {before jim : Jim} (low : ∀ i < 0x100, jim i = before i)
    (last : ∀ offset < 0xfe, Spared s before jim offset) :
    Published (uefStreamPublish s jim).1 before (uefStreamPublish s jim).2 := by
  have count : (uefStreamPublish s jim).1.publishedLength.toNat = publishCount s :=
    publishCount_toUInt16 s
  have same : (uefStreamPublish s jim).2 = laid (uefStreamPublish s jim).1 jim := by
    rw [laid, count]
    rfl
  rw [same]
  refine laid_published ?_ low last
  rw [count]
  exact publishCount_le_limit s

theorem publish_inStream (jim : Jim) (size : s.streamLength ≤ uefStreamCapacity)
    (inside : s.streamCursor ≤ s.streamLength) : InStream (uefStreamPublish s jim).1 :=
  (publish_bounded jim size inside).published

theorem republish_published (jim : Jim) (shaped : Shaped s) (filled : s.publishedLength ≠ 0) :
    Published s jim (uefStreamRepublish s jim) := by
  have nonempty : s.publishedLength.toNat ≠ 0 := fun zero => filled (UInt16.toNat_inj.mp zero)
  have same : uefStreamRepublish s jim = laid s jim := by
    rw [uefStreamRepublish, if_neg filled, laid, if_pos nonempty]
  rw [same]
  exact laid_published shaped.fits (fun _ _ => rfl) fun _ _ => .inl rfl

/-- The reply of a command is outside the public window. -/
theorem Published.reply {before after : Jim} (published : Published s before after)
    (shaped : Shaped s) {base : Nat} (outside : 0x10000 ≤ base) (reply : List UInt8) :
    Published s before (after.write base reply) := by
  have kept : ∀ i < 0x10000, after.write base reply i = after i :=
    fun i inside => Memory.write_outside _ _ _ _ (.inl (by omega))
  constructor
  · rw [windowIn_write _ _ _ (windowLimit_le s shaped.fits) (by omega)]
    exact published.window
  · rw [NetBackend.trailer, Memory.read_write_disjoint _ (.inl (by simp only [uefCapacity]; omega))]
    exact published.trailer
  · intro i inside
    rw [kept i (by omega)]
    exact published.replyPage i inside
  · intro offset inside
    have here := published.lastPage offset inside
    rw [Spared] at here ⊢
    rwa [kept _ (by omega)]
  · intro guarded filled page first last
    have top : uefGuardOffset + uefGuardLength = 0x100 := rfl
    rw [Memory.read_write_disjoint _ (.inl (by omega))]
    exact published.guard guarded filled page first last

/-- A change of the guard, over memory that kept page 0 and page 255. -/
theorem relayout_published {before jim : Jim} (ready : s.streamReady = true)
    (size : s.streamLength ≤ uefStreamCapacity) (offset : s.publishedOffset ≤ s.streamLength)
    (low : ∀ i < 0x100, jim i = before i) (last : ∀ offset < 0xfe, Spared s before jim offset) :
    Published (uefWindowRelayout s jim).1 before (uefWindowRelayout s jim).2 ∧
      InStream (uefWindowRelayout s jim).1 := by
  have anew : uefWindowRelayout s jim =
      uefStreamPublish { s with streamCursor := s.publishedOffset } jim := by
    rw [uefWindowRelayout, ready]
    rfl
  rw [anew]
  exact ⟨publish_published low last, publish_inStream jim size offset⟩

theorem guardImageCommand_published (stream : ReadyStream s) {command : Nat} (jim : Jim)
    (outside : 0x10000 ≤ command)
    (accepted : jim (command + 1) = 0 ∨ (jim (command + 1)).toNat = uefGuardLength) :
    let answered := guardImageCommand s command jim
    Published answered.2.1 jim answered.2.2 ∧ InStream answered.2.1 := by
  have relaid : ∀ (image : Vector UInt8 uefGuardLength) (valid : Bool) (memory : Jim)
      (reply : List UInt8), (∀ i < 0x100, memory i = jim i) →
      (∀ offset < 0xfe, Spared { s with guardImage := image, guardImageValid := valid } jim memory
        offset) →
      let next := uefWindowRelayout { s with guardImage := image, guardImageValid := valid } memory
      Published next.1 jim (next.2.write (command + 1) reply) ∧ InStream next.1 := by
    intro image valid memory reply low last next
    obtain ⟨published, inside⟩ := relayout_published (s := { s with
      guardImage := image, guardImageValid := valid }) stream.ready stream.size stream.offset low last
    have shaped : Shaped next.1 := uefWindowRelayout_shaped memory fun idle => by
      have ready := stream.ready
      rw [show s.streamReady = false from idle] at ready
      cases ready
    exact ⟨published.reply shaped (by omega) reply, inside⟩
  simp only [guardImageCommand]
  split
  next => exact relaid _ false jim _ (fun _ _ => rfl) fun _ _ => .inl rfl
  next length =>
    have size := accepted.resolve_left length
    rw [if_neg (not_not_intro size)]
    exact relaid _ true _ _ (fun i low => guardStamp_low low)
      (guardStamp_spared fun _ _ => .inl rfl)

theorem publishedLength_min (jim : Jim) : (uefStreamPublish s jim).1.publishedLength.toNat =
    min (available s) (windowLimit s) := by
  have count : (uefStreamPublish s jim).1.publishedLength.toNat = publishCount s :=
    publishCount_toUInt16 s
  rw [count, publishCount]
  split
  next less => exact (Nat.min_eq_left (Nat.le_of_lt less)).symm
  next more => exact (Nat.min_eq_right (Nat.le_of_not_lt more)).symm

/-- A window takes all that is left of the stream or all the room there is. It reads back after it
is published, whenever it is published again, and after the guard is published or withdrawn,
whatever the host wrote to JIM before. -/
theorem published_windows_read_back (stream : ReadyStream s) (jim : Jim) :
    (Published (uefStreamPublish s jim).1 jim (uefStreamPublish s jim).2 ∧
      InStream (uefStreamPublish s jim).1 ∧
      (uefStreamPublish s jim).1.publishedLength.toNat = min (available s) (windowLimit s)) ∧
    (∀ z jimSize (inputs : List Input) later,
      let t := inputs.foldl (after z jimSize) (uefStreamPublish s jim).1
      t.publishedLength ≠ 0 → Published t later (uefStreamRepublish t later)) ∧
    ∀ command, 0x10000 ≤ command →
      jim (command + 1) = 0 ∨ (jim (command + 1)).toNat = uefGuardLength →
      let answered := guardImageCommand s command jim
      Published answered.2.1 jim answered.2.2 ∧ InStream answered.2.1 := by
  refine ⟨⟨?_, ?_, publishedLength_min jim⟩, ?_,
    fun command => guardImageCommand_published stream jim⟩
  · exact publish_published (fun _ _ => rfl) fun _ _ => .inl rfl
  · exact publish_inStream jim stream.size stream.cursor
  · intro z jimSize inputs later t
    have shaped : Shaped t := by
      refine List.foldlRecOn inputs (after z jimSize) (publish_shaped jim stream.ready) ?_
      exact fun _ shaped input _ => after_shaped z jimSize input shaped
    exact republish_published later shaped

/-- A ready stream of 500 bytes under a guard, which leaves 0x97 bytes of a page. -/
def guardedStream : UefState :=
  { create false false with
    stream := fun i => i.toUInt8, streamLength := 500, streamReady := true
    guardImage := Vector.replicate uefGuardLength 0x55, guardImageValid := true }

/-- JIM with zeros in it, which as a guard command withdraw the guard. -/
def blankJim : Jim := fun _ => 0

theorem published_windows_read_back_guarded :
    let first := uefStreamPublish guardedStream blankJim
    let withdrawn := guardImageCommand guardedStream 0x1000000 blankJim
    first.1.publishedLength.toNat = 500 ∧ windowIn true first.2 500 = guardedStream.stream.read 0 500 ∧
      first.2.read (3 * 0x100 + uefGuardOffset) uefGuardLength = List.replicate uefGuardLength 0x55 ∧
      Published first.1 first.2 (uefStreamRepublish first.1 first.2) ∧
      Published withdrawn.2.1 blankJim withdrawn.2.2 ∧ withdrawn.2.1.guardImageValid = false := by
  intro first withdrawn
  have stream : ReadyStream guardedStream := ⟨rfl, by decide, by decide, by decide⟩
  obtain ⟨⟨published, -, length⟩, republishes, guards⟩ := published_windows_read_back stream blankJim
  have filled : first.1.publishedLength ≠ 0 := by decide +kernel
  have size : first.1.publishedLength.toNat = 500 := length
  have window := published.window
  rw [size] at window
  refine ⟨size, window, ?_, republishes storedZlib 0 [] _ filled,
    (guards 0x1000000 (by decide) (.inl rfl)).1, rfl⟩
  exact published.guard rfl filled 3 (by decide) (by decide)

end Operations

end Pi1MHz.NetBackend
