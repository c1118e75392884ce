import Pi1MHz.Uef.Bounds

/-! What the host finds in JIM: the published window, read page by page, and the reply
record. Neither the guard, the length trailer nor the reply touches the window. -/
namespace Pi1MHz.NetBackend
open UefRepair

/-- The host's walk over the window: `uefGuardOffset` bytes of each page under a guard, all
of it otherwise. -/
def windowIn (guarded : Bool) (jim : Jim) (count : Nat) : List UInt8 :=
  if guarded then jim.gather (uefFirstPage * 0x100) 0x100 uefGuardOffset count
  else jim.read (uefFirstPage * 0x100) count

/-- The walk stays in pages 1 to 254, below the guard of each page. -/
theorem windowIn_congr {guarded : Bool} {left right : Jim} {count : Nat}
    (small : count ≤ if guarded then uefGuardWindow else uefFlatWindow)
    (same : ∀ page offset, 1 ≤ page → page ≤ 254 →
      offset < (if guarded then uefGuardOffset else 0x100) →
      left (page * 0x100 + offset) = right (page * 0x100 + offset)) :
    windowIn guarded left count = windowIn guarded right count := by
  have first : uefFirstPage = 1 := rfl
  cases guarded with
  | true =>
    have run : uefGuardOffset = 0x97 := rfl
    have most : uefGuardWindow = 254 * 0x97 := rfl
    simp only [if_true] at small same
    refine Memory.gather_congr (by decide) fun page offset inside bound => ?_
    rw [run] at bound
    have cell := same (1 + page) offset (by omega) (by omega) inside
    have position : uefFirstPage * 0x100 + page * 0x100 + offset = (1 + page) * 0x100 + offset := by
      omega
    rw [position]
    exact cell
  | false =>
    have most : uefFlatWindow = 254 * 0x100 := rfl
    simp only [Bool.false_eq_true, if_false] at small same
    refine Memory.read_ext fun i bound => ?_
    have cell := same (1 + i / 0x100) (i % 0x100) (by omega) (by omega) (by omega)
    have position : (1 + i / 0x100) * 0x100 + i % 0x100 = uefFirstPage * 0x100 + i := by omega
    rwa [position] at cell

/-- Stores outside pages 1 to 254 are not seen by the walk. -/
theorem windowIn_write {guarded : Bool} {count : Nat} (jim : Jim) (base : Nat)
    (cells : List UInt8) (small : count ≤ if guarded then uefGuardWindow else uefFlatWindow)
    (outside : 0xff00 ≤ base) :
    windowIn guarded (jim.write base cells) count = windowIn guarded jim count := by
  refine windowIn_congr small fun page offset _ last inside => ?_
  apply Memory.write_outside
  have below : offset < 0x100 := by
    cases guarded with
    | true => exact Nat.lt_trans inside (by decide)
    | false => exact inside
  omega

theorem guardImage_fits (s : UefState) : uefGuardOffset + s.guardImage.toList.length ≤ 0x100 := by
  rw [Vector.length_toList]
  decide

theorem guardStamp_eq {s : UefState} {jim : Jim} (guarded : s.guardImageValid = true) :
    guardStamp s jim = jim.stamp 0x100 uefGuardOffset s.guardImage.toList
      (List.range' uefFirstPage (256 - uefFirstPage)) := if_pos guarded

/-- The guard stays above the runs. -/
theorem guardStamp_run (s : UefState) (jim : Jim) (page offset : Nat)
    (inside : offset < uefGuardOffset) :
    guardStamp s jim (page * 0x100 + offset) = jim (page * 0x100 + offset) := by
  cases guarded : s.guardImageValid with
  | false =>
    rw [guardStamp, guarded]
    rfl
  | true =>
    have run : uefGuardOffset < 0x100 := by decide
    rw [guardStamp_eq guarded]
    exact jim.stamp_beside (guardImage_fits s) (by omega) (.inl inside)

theorem windowLimit_le (s : UefState) {count : Nat} (small : count ≤ windowLimit s) :
    count ≤ if s.guardImageValid then uefGuardWindow else uefFlatWindow := small

/-- What is laid out is what the walk reads. -/
theorem layOut_window (s : UefState) (jim : Jim) (source : List UInt8)
    (small : source.length ≤ windowLimit s) :
    windowIn s.guardImageValid (layOut s jim source) source.length = source := by
  simp only [windowLimit] at small
  cases guarded : s.guardImageValid with
  | true =>
    have stamped : windowIn true (layOut s jim source) source.length =
        windowIn true (jim.scatter (uefFirstPage * 0x100) 0x100 uefGuardOffset source)
          source.length := by
      refine windowIn_congr (by simpa [guarded] using small) fun page offset _ _ inside => ?_
      simp only [layOut, guarded, if_true, uefWindowScatter]
      exact guardStamp_run s _ page offset inside
    rw [stamped]
    exact Memory.gather_scatter _ _ _ _ _ (by decide) (by decide)
  | false =>
    simp only [windowIn, layOut, guarded, Bool.false_eq_true, if_false]
    exact Memory.read_write _ _ _

theorem publish_window (s : UefState) (jim : Jim) :
    windowIn s.guardImageValid (uefStreamPublish s jim).2 (publishCount s) =
      s.stream.read s.streamCursor (publishCount s) := by
  have small := publishCount_le_limit s
  simp only [uefStreamPublish]
  rw [windowIn_write _ _ _ (windowLimit_le s small) (by decide)]
  by_cases nothing : publishCount s = 0
  · rw [nothing]
    simp [windowIn, Memory.gather]
  · rw [if_pos nothing]
    have laid := layOut_window s jim (s.stream.read s.streamCursor (publishCount s))
      (by rwa [Memory.read_length])
    rwa [Memory.read_length] at laid

theorem republish_window (s : UefState) (jim : Jim)
    (small : s.publishedLength.toNat ≤ windowLimit s) :
    windowIn s.guardImageValid (uefStreamRepublish s jim) s.publishedLength.toNat =
      s.stream.read s.publishedOffset s.publishedLength.toNat := by
  simp only [uefStreamRepublish]
  by_cases nothing : s.publishedLength = 0
  · rw [if_pos nothing, nothing]
    simp [windowIn, Memory.gather]
  · rw [if_neg nothing, windowIn_write _ _ _ (windowLimit_le s small) (by decide)]
    have laid := layOut_window s jim (s.stream.read s.publishedOffset s.publishedLength.toNat)
      (by rwa [Memory.read_length])
    rwa [Memory.read_length] at laid

theorem rd16_le16 {value : Nat} (small : value < 0x10000) (rest : List UInt8) :
    rd16 (le16 value ++ rest) 0 = value := by
  simp only [rd16, le16, List.cons_append, List.nil_append, List.getD_cons_zero, List.getD_cons_succ,
    UInt8.toNat_ofNat', Nat.toUInt8_eq]
  omega

theorem rd32_le32 (value : UInt32) : (rd32 (le32 value) 0).toUInt32 = value := by
  have small := value.toNat_lt
  have number : rd32 (le32 value) 0 = value.toNat := by
    simp only [rd32, le32, le16, List.cons_append, List.nil_append, List.getD_cons_zero,
      List.getD_cons_succ, UInt8.toNat_ofNat', Nat.toUInt8_eq]
    omega
  rw [number]
  exact UInt32.ofNat_toNat

/-- The fields of a reply record as the host reads them. -/
def replyToken (jim : Jim) (command : Nat) : UInt32 := rd32At jim (command + 6)
def replyGeneration (jim : Jim) (command : Nat) : UInt32 := rd32At jim (command + 10)
def replyLength (jim : Jim) (command : Nat) : Nat := rd16 (jim.read (command + 14) 2) 0
def replyFinal (jim : Jim) (command : Nat) : Bool := jim (command + 16) != 0

/-- The reply record of a state is at `command`. -/
structure Reports (s : UefState) (jim : Jim) (command : Nat) : Prop where
  token : replyToken jim command = s.streamToken
  generation : replyGeneration jim command = s.windowGeneration
  length : replyLength jim command = s.publishedLength.toNat
  final : replyFinal jim command = s.publishedFinal

theorem reply_reports (s : UefState) (jim : Jim) (command : Nat) :
    Reports s (jim.write (command + 1) (uefStreamReply s)) command := by
  have part (offset count : Nat) (inside : offset + count ≤ 18) :
      (jim.write (command + 1) (uefStreamReply s)).read (command + 1 + offset) count =
        ((uefStreamReply s).drop offset).take count :=
    Memory.read_write_inside _ _ _ _ _ inside
  refine ⟨?_, ?_, ?_, ?_⟩
  · rw [replyToken, rd32At, part 5 4 (by decide)]
    exact rd32_le32 s.streamToken
  · rw [replyGeneration, rd32At, part 9 4 (by decide)]
    exact rd32_le32 s.windowGeneration
  · rw [replyLength, part 13 2 (by decide)]
    exact rd16_le16 s.publishedLength.toNat_lt []
  · have byte := Memory.write_inside jim (command + 1) (uefStreamReply s) 15
      (by simp [uefStreamReply, text, le32, le16])
    have position : command + 1 + 15 = command + 16 := by omega
    rw [position] at byte
    rw [replyFinal, byte]
    change ((if s.publishedFinal then (1 : UInt8) else 0) != 0) = s.publishedFinal
    cases s.publishedFinal <;> rfl

end Pi1MHz.NetBackend
