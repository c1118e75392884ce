import Pi1MHz.Tape.Exact
import Pi1MHz.Uef.Published

/-! The one-shot command leaves an image twice: in the public window and as the stream that is kept
for later. Only the second is repaired. -/
namespace Pi1MHz.NetBackend
open UefRepair

/-- The image that a legacy request holds, trimmed if that is on, if the request is accepted. -/
def legacyImage (z : Zlib) (trimTail : Bool) (jim : Jim) : Option (List UInt8) :=
  let length := trailer jim
  if length = 0 ∨ uefCapacity < length then none
  else
    let decoded := normalizeUef z uefCapacity (jim.read 0 length)
    if decoded.verdict.accepted then
      some (if trimTail then decoded.output.take (wicfsStreamLength decoded.output)
        else decoded.output)
    else none

/-- The public window up to its trailer is the stream that is kept. -/
def WindowAgrees (s : UefState) (jim : Jim) : Prop :=
  jim.read 0 (trailer jim) = s.stream.read 0 s.streamLength

section Normalizer
variable {z : Zlib} {s : UefState} {jim : Jim} {image : List UInt8}

/-- The stream after a repair that may be off. -/
theorem repairStream_read {image : List UInt8} (length : s.streamLength = image.length)
    (held : s.stream.read 0 image.length = image) :
    (repairStream s).stream.read 0 image.length =
      if s.filevRepair then (uefRepairFilevStamp image).1 else image := by
  rw [repairStream]
  split
  · rw [length, held]
    exact Memory.read_write_of_length s.stream 0 (uefRepairFilevStamp_length image)
  · exact held

theorem legacyImage_length (held : legacyImage z s.trimTail jim = some image) :
    image.length ≤ uefCapacity := by
  simp only [legacyImage] at held
  split at held
  · cases held
  next bounds =>
    split at held
    next accepted =>
      have length := (normalizeUef_accepted accepted).length
      rw [Memory.read_length] at length
      cases held
      split
      · rw [List.length_take]
        omega
      · omega
    next => cases held

/-- What an accepted legacy request leaves in the window and in the stream. -/
theorem normalizeUefControl_image (held : legacyImage z s.trimTail jim = some image) :
    let after := normalizeUefControl z uefCapacity s jim
    after.2.2.read 0 image.length = image ∧ trailer after.2.2 = image.length ∧
      after.2.1.streamLength = image.length ∧
      after.2.1.stream.read 0 image.length =
        if s.filevRepair then (uefRepairFilevStamp image).1 else image := by
  have small := legacyImage_length held
  simp only [legacyImage] at held
  split at held
  · cases held
  next bounds =>
    split at held
    next accepted =>
      have stored := overlay_image jim (normalizeUef_accepted accepted) (by simp)
      have trimmed := wicfsStreamLength_inside (normalizeUef_accepted accepted).raw
      simp only [normalizeUefControl, if_neg bounds, if_pos accepted, stored]
      generalize (normalizeUef z uefCapacity (jim.read 0 (trailer jim))).output = output at *
      generalize overlay (normalizeUef z uefCapacity (jim.read 0 (trailer jim))).writes jim = window at *
      generalize count : (if s.trimTail then wicfsStreamLength output else output.length) = length
      have inside : length ≤ output.length := by
        rw [← count]
        split <;> omega
      have cut : output.take length = image := by
        rw [← count]
        cases held
        split
        · rfl
        · exact List.take_length
      have size : image.length = length := by
        rw [← cut, List.length_take]
        omega
      subst size
      refine ⟨?_, trailer_write (by simp only [uefCapacity] at small; omega), ?_, ?_⟩
      · have part := window.read_take 0 output.length image.length
        rw [stored, cut, Nat.min_eq_left inside] at part
        rw [Memory.read_write_disjoint _ (.inl (by omega))]
        exact part.symm
      · rw [repairStream_length]
      · rw [cut]
        refine repairStream_read (s := { s with stream := s.stream.write 0 image
                                                streamLength := image.length }) rfl ?_
        exact Memory.read_write s.stream 0 image
    next => cases held

/-- The reply is written above the public window. -/
theorem respond_low (command : Nat) (outside : 0x10000 ≤ command) (outcome : Reply × UefState × Jim)
    {i : Nat} (low : i < 0x10000) : (respond command outcome).2.2 i = outcome.2.2 i := by
  obtain ⟨reply, s, jim⟩ := outcome
  cases reply with
  | refused => rfl
  | verdict verdict =>
    simp only [respond]
    split
    · rw [Memory.write_outside _ _ _ _ (.inl (by omega)), Memory.write_outside _ _ _ _ (.inl (by omega))]
    · rw [Memory.write_outside _ _ _ _ (.inl (by omega))]
  | stream => exact Memory.write_outside _ _ _ _ (.inl (by omega))

/-- The window and the stream agree exactly when the repair is off or has nothing to change. -/
theorem windowAgrees_iff (held : legacyImage z s.trimTail jim = some image) {after : UefState}
    {left : Jim} (state : after = (normalizeUefControl z uefCapacity s jim).2.1)
    (low : ∀ i < 0x10000, left i = (normalizeUefControl z uefCapacity s jim).2.2 i) :
    WindowAgrees after left ↔
      s.filevRepair = false ∨ ∀ q, ¬TokenIn image (PayloadAt image uefRepairHeader) q := by
  obtain ⟨window, length, size, stream⟩ := normalizeUefControl_image held
  have small := legacyImage_length held
  have most : uefCapacity = 0xfffe := rfl
  have announced : trailer left = image.length := by
    rw [← length, trailer, trailer]
    congr 1
    exact Memory.read_ext fun i inside => low _ (by omega)
  have shown : left.read 0 image.length = image := by
    refine Eq.trans (Memory.read_ext fun i inside => low _ ?_) window
    omega
  rw [WindowAgrees, announced, shown, state, size, stream]
  cases s.filevRepair with
  | false => exact iff_of_true rfl (.inl rfl)
  | true =>
    rw [if_pos rfl, eq_comm, uefRepairFilevStamp_eq_iff]
    exact ⟨.inr, fun either => either.resolve_left Bool.noConfusion⟩

end Normalizer

/-- After a legacy request that succeeds the public window is the stream that is kept exactly when
the repair is off or the image has no token that the repair redirects. -/
theorem legacy_window_agrees_iff {z : Zlib} {jimSize : Nat} {s next : UefState} {input : Input}
    {image : List UInt8} {status : UInt8} {jim : Jim} (legacy : isLegacy jimSize input = true)
    (outside : 0x10000 ≤ input.command) (held : legacyImage z s.trimTail input.jim = some image)
    (answered : dispatch z jimSize s input.selector input.command input.jim =
      some (status, next, jim)) :
    WindowAgrees next jim ↔
      s.filevRepair = false ∨ ∀ q, ¬TokenIn image (PayloadAt image uefRepairHeader) q := by
  rw [dispatch_legacy legacy, Option.some.injEq] at answered
  have state := respond_state input.command (normalizeUefControl z uefCapacity s input.jim)
  have low := fun i => respond_low input.command outside
    (normalizeUefControl z uefCapacity s input.jim) (i := i)
  rw [answered] at state low
  exact windowAgrees_iff held state low

/-- A legacy request with an image at the bottom of JIM. -/
def oneShot (image : List UInt8) : Input := prepared [elkwifiCmdUefNormalize] image image.length

/-- What the dispatcher makes of it with the repair on and the trim off. -/
def oneShotAnswer (image : List UInt8) : UInt8 × UefState × Jim :=
  respond (oneShot image).command
    (normalizeUefControl storedZlib uefCapacity (create false true) (oneShot image).jim)

/-- A tape without a token, and one whose second block has one. -/
theorem legacy_window_agrees_iff_filed :
    let plain := filedTape (text ['R', 'E', 'M']) (text ['E', 'N', 'D'])
    WindowAgrees (oneShotAnswer plain).2.1 (oneShotAnswer plain).2.2 ∧
      ¬WindowAgrees (oneShotAnswer vectorTape).2.1 (oneShotAnswer vectorTape).2.2 := by
  intro plain
  have legacy : isLegacy Mailbox.jimSize (oneShot plain) = true ∧
      isLegacy Mailbox.jimSize (oneShot vectorTape) = true := by decide +kernel
  have held : legacyImage storedZlib false (oneShot plain).jim = some plain ∧
      legacyImage storedZlib false (oneShot vectorTape).jim = some vectorTape := by decide +kernel
  have untouched : (uefRepairFilevStamp plain).1 = plain := by decide +kernel
  have repaired : (uefRepairFilevStamp vectorTape).1 ≠ vectorTape := by decide +kernel
  constructor
  · apply (legacy_window_agrees_iff legacy.1 (by decide) held.1 (dispatch_legacy legacy.1)).mpr
    exact .inr (uefRepairFilevStamp_eq_iff.mp untouched)
  · intro agrees
    rcases (legacy_window_agrees_iff legacy.2 (by decide) held.2 (dispatch_legacy legacy.2)).mp agrees
      with off | tokenless
    · exact Bool.noConfusion off
    · exact repaired (uefRepairFilevStamp_eq_iff.mpr tokenless)

/-- A tape with one block, whose data is one token. -/
def tokenTape : List UInt8 :=
  emptyTape ++ [0, 1] ++ le32 29 ++ [char '*', char 'L', 0] ++ List.replicate 10 0 ++ [5, 0] ++
    List.replicate 5 0 ++ [0, 0] ++ text ['?', '&', '2', '1', '2'] ++ [0, 0]

theorem legacy_window_keeps_token :
    ¬∀ (s next : UefState) (input : Input) (image : List UInt8) (status : UInt8) (jim : Jim),
      isLegacy Mailbox.jimSize input = true → 0x10000 ≤ input.command →
        legacyImage storedZlib s.trimTail input.jim = some image →
          dispatch storedZlib Mailbox.jimSize s input.selector input.command input.jim =
            some (status, next, jim) → WindowAgrees next jim := by
  intro agrees
  have legacy : isLegacy Mailbox.jimSize (oneShot tokenTape) = true := by decide +kernel
  have held : legacyImage storedZlib false (oneShot tokenTape).jim = some tokenTape := by
    decide +kernel
  have same := agrees (create false true) _ _ _ _ _ legacy (by decide) held (dispatch_legacy legacy)
  rw [WindowAgrees] at same
  exact absurd same (by decide +kernel)

end Pi1MHz.NetBackend
