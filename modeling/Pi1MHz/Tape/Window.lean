import Pi1MHz.Tape.Repair

/-! The Pi's streaming window (`uef_service.c` as patched): the tape is pulled out of the
stream in windows, each repaired before it is published. An incomplete chunk is carried
into the next window when it is short enough and stepped over when it is not. Only the
stream reader is outside the sources; it hands out the next bytes that remain. -/
namespace Pi1MHz.UefService
open UefRepair

def uefRepairCarry : Nat := 1024

/-- The window part of `uef_tape_t`. `window` holds the bytes to publish and `repairCarry`
the bytes held back, each with its length. -/
structure UefTape where
  stream : List UInt8
  window : List UInt8
  windowLength : UInt16
  windowFinal : Bool
  repairSkip : Nat
  repairCarry : List UInt8
  repairFramed : Bool
  repairFirst : Bool

def repairReset (enabled : Bool) (tape : UefTape) : UefTape :=
  { tape with repairSkip := 0, repairCarry := [], repairFramed := enabled, repairFirst := true }

/-- Repair the bytes of the window and return how many of them may be published. -/
def repairWindow (tape : UefTape) (first final : Bool) : Nat × UefTape :=
  let count := tape.window.length
  if !tape.repairFramed then (count, tape)
  else if tape.repairSkip ≠ 0 ∧ count ≤ tape.repairSkip then
    (count, { tape with repairSkip := tape.repairSkip - count })
  else
    let start :=
      if tape.repairSkip ≠ 0 then tape.repairSkip else if first then uefRepairHeader else 0
    let (window, framed, _) := uefRepairFilevSpan tape.window start
    let tape := { tape with repairSkip := 0, window }
    if final ∨ count ≤ framed then (count, tape)
    else if count - framed ≤ uefRepairCarry then
      (framed, { tape with repairCarry := window.drop framed })
    else if framed + 6 ≤ count ∧ count < framed + 6 + rd32 window (framed + 2) then
      let past := framed + 6 + rd32 window (framed + 2)
      (count, { tape with repairSkip := (past - count) % 2 ^ 32 })
    else (count, { tape with repairFramed := false })

/-- Pull the next window out of the stream and publish it. -/
def windowAdvance (limit : Nat) (tape : UefTape) : UefTape :=
  let first := tape.repairFirst
  let held := tape.repairCarry.length
  let got := tape.stream.take (limit - held)
  let final := decide (got.length < limit - held)
  let (count, tape) := repairWindow { tape with
    stream := tape.stream.drop (limit - held)
    window := tape.repairCarry ++ got
    repairCarry := [] } first final
  { tape with
    windowFinal := final && tape.repairCarry.isEmpty
    window := tape.window.take count
    windowLength := count.toUInt16
    repairFirst := false }

/-- Advance until a window is final; `limits i` is the limit in force for window `i`. -/
def advanceUntilFinal (limits : Nat → Nat) : Nat → Nat → UefTape → Option (List UefTape)
  | 0, _, _ => none
  | fuel + 1, i, tape =>
    let next := windowAdvance (limits i) tape
    if next.windowFinal then some [next]
    else (advanceUntilFinal limits fuel (i + 1) next).map (next :: ·)

theorem rd32_lt (p : List UInt8) (i : Nat) : rd32 p i < 2 ^ 32 := by
  have byte (j : Nat) : (p.getD j 0).toNat < 256 := UInt8.toNat_lt _
  have b₀ := byte i
  have b₁ := byte (i + 1)
  have b₂ := byte (i + 2)
  have b₃ := byte (i + 3)
  simp only [rd32]
  omega

theorem rd32_skip (xs ys : List UInt8) (i : Nat) : rd32 (xs ++ ys) (xs.length + i) = rd32 ys i := by
  simp only [rd32, List.getD_eq_getElem?_getD, Nat.add_assoc]
  rw [List.getElem?_append_right (by omega), List.getElem?_append_right (by omega),
    List.getElem?_append_right (by omega), List.getElem?_append_right (by omega)]
  simp only [Nat.add_sub_cancel_left]

/-- Where the chunk walk of the next window starts. -/
def UefTape.start (tape : UefTape) : Nat :=
  if tape.repairSkip ≠ 0 then tape.repairSkip else if tape.repairFirst then uefRepairHeader else 0

/-- Nothing of the tape is both held back and stepped over, and the carry fits. -/
structure Sound (tape : UefTape) : Prop where
  framed : tape.repairFramed = true
  carry : tape.repairCarry.length ≤ uefRepairCarry
  stepping : tape.repairSkip ≠ 0 → tape.repairCarry = [] ∧ tape.repairFirst = false

/-- A chunk that may go out as it is: longer than the carry. -/
def Oversize (chunk : List UInt8) : Prop := uefRepairCarry < chunk.length

/-- `out` is the rest of the tape with `start` bytes untouched and the chunks after them
repaired, except for oversize ones. -/
def Repairs (start : Nat) (rest out : List UInt8) : Prop :=
  ∃ after, out = rest.take start ++ after ∧ chunks.Patched repaired Oversize (rest.drop start) after

/-- What one window can do with the bytes `w` in the window buffer. -/
inductive Advance (w : List UInt8) (start : Nat) (final : Bool) : UefTape → Prop
  | stepped (tape) (past : w.length ≤ start) (window : tape.window = w)
      (skip : tape.repairSkip = start - w.length) (carry : tape.repairCarry = [])
      (isFinal : tape.windowFinal = final) : Advance w start final tape
  | short (tape) (under : w.length < start) (last : final = true) (window : tape.window = w)
      (skip : tape.repairSkip = 0) (carry : tape.repairCarry = [])
      (isFinal : tape.windowFinal = true) : Advance w start final tape
  | whole (tape) (inside : start ≤ w.length)
      (window : tape.window = w.take start ++ (chunks.walk repaired (w.drop start)).1 ++
        (chunks.walk repaired (w.drop start)).2)
      (ends : final = true ∨ (chunks.walk repaired (w.drop start)).2 = [])
      (skip : tape.repairSkip = 0) (carry : tape.repairCarry = [])
      (isFinal : tape.windowFinal = final) : Advance w start final tape
  | held (tape) (inside : start ≤ w.length) (more : final = false)
      (window : tape.window = w.take start ++ (chunks.walk repaired (w.drop start)).1)
      (carry : tape.repairCarry = (chunks.walk repaired (w.drop start)).2)
      (fits : (chunks.walk repaired (w.drop start)).2.length ≤ uefRepairCarry)
      (skip : tape.repairSkip = 0) (isFinal : tape.windowFinal = false) : Advance w start final tape
  | oversize (tape) (inside : start ≤ w.length) (more : final = false)
      (window : tape.window = w.take start ++ (chunks.walk repaired (w.drop start)).1 ++
        (chunks.walk repaired (w.drop start)).2)
      (large : uefRepairCarry < (chunks.walk repaired (w.drop start)).2.length)
      (skip : tape.repairSkip + (chunks.walk repaired (w.drop start)).2.length =
        6 + rd32 (chunks.walk repaired (w.drop start)).2 2)
      (carry : tape.repairCarry = []) (isFinal : tape.windowFinal = false) : Advance w start final tape

/-- An incomplete chunk with a complete header announces more than is there. -/
theorem incomplete_size {bytes : List UInt8} (stop : chunks.split bytes = none)
    (header : 6 ≤ bytes.length) : bytes.length < 6 + rd32 bytes 2 := by
  simp only [Framing.split, chunks, chunkSize, header, if_true, ite_eq_right_iff, reduceCtorEq,
    imp_false] at stop
  omega

/-- The bytes in the window buffer before repair, and whether the stream ended in them. -/
def UefTape.filled (tape : UefTape) (limit : Nat) : List UInt8 :=
  tape.repairCarry ++ tape.stream.take (limit - tape.repairCarry.length)

def UefTape.ended (tape : UefTape) (limit : Nat) : Bool :=
  decide ((tape.stream.take (limit - tape.repairCarry.length)).length <
    limit - tape.repairCarry.length)

/-- A window that is not the last is full. -/
theorem filled_length {tape : UefTape} {limit : Nat} (sound : Sound tape)
    (large : uefRepairCarry < limit) (more : tape.ended limit = false) :
    (tape.filled limit).length = limit := by
  have carry := sound.carry
  simp only [UefTape.ended, List.length_take, decide_eq_false_iff_not] at more
  simp only [UefTape.filled, List.length_append, List.length_take]
  omega

/-- A window in which the walk does not start, and that is not stepped over, is the last. -/
theorem last_of_under {tape : UefTape} {w : List UInt8} {limit : Nat} {final : Bool}
    (full : final = false → w.length = limit) (large : uefRepairCarry < limit)
    (past : ¬(tape.repairSkip ≠ 0 ∧ w.length ≤ tape.repairSkip)) (under : w.length < tape.start) :
    final = true := by
  cases final with
  | true => rfl
  | false =>
    have long := full rfl
    simp only [UefTape.start] at under
    simp only [uefRepairHeader, uefRepairCarry] at under large
    split at under
    · exact absurd ⟨‹_›, Nat.le_of_lt under⟩ past
    · split at under <;> omega

/-- The window before its length is recorded: everything `repair_window` decides. -/
theorem repairWindow_advance {tape : UefTape} {limit : Nat} (sound : Sound tape)
    (large : uefRepairCarry < limit) :
    let filling := { tape with
      stream := tape.stream.drop (limit - tape.repairCarry.length)
      window := tape.filled limit
      repairCarry := [] }
    let (count, next) := repairWindow filling tape.repairFirst (tape.ended limit)
    Advance (tape.filled limit) tape.start (tape.ended limit)
        { next with
          windowFinal := tape.ended limit && next.repairCarry.isEmpty
          window := next.window.take count
          windowLength := count.toUInt16
          repairFirst := false } ∧
      next.repairFramed = true ∧
      next.stream = tape.stream.drop (limit - tape.repairCarry.length) ∧
      count ≤ next.window.length := by
  have full := filled_length sound large
  generalize tape.filled limit = w at full ⊢
  generalize tape.ended limit = final at full ⊢
  simp only [repairWindow, sound.framed, Bool.not_true, Bool.false_eq_true, if_false]
  by_cases past : tape.repairSkip ≠ 0 ∧ w.length ≤ tape.repairSkip
  · rw [if_pos past]
    refine ⟨.stepped _ ?_ (by simp) ?_ rfl (by simp), rfl, rfl, Nat.le_refl _⟩
    · simpa [UefTape.start, past.1] using past.2
    · simp [UefTape.start, past.1]
  rw [if_neg past]
  have started : (if tape.repairSkip ≠ 0 then tape.repairSkip
      else if tape.repairFirst = true then uefRepairHeader else 0) = tape.start := rfl
  rw [started]
  by_cases under : w.length < tape.start
  · have last := last_of_under full large past under
    subst last
    simp only [uefRepairFilevSpan, if_pos under, true_or, if_true]
    exact ⟨.short _ under rfl (by simp) rfl rfl rfl, trivial, trivial, Nat.le_refl _⟩
  have inside : tape.start ≤ w.length := Nat.le_of_not_lt under
  obtain ⟨bytes, framed⟩ := uefRepairFilevSpan_inside w tape.start inside
  have same := uefRepairFilevSpan_length w tape.start
  have stops := Framing.walk_stops (F := chunks) (f := repaired) (w.drop tape.start)
  have total := Framing.walk_length (F := chunks) (f := repaired) repairChunk_length
    (w.drop tape.start)
  simp only [List.length_drop] at total
  generalize walked : chunks.walk repaired (w.drop tape.start) = parts at bytes framed stops total
  obtain ⟨done, tail⟩ := parts
  simp only at bytes framed stops total
  have front : (w.take tape.start ++ done).length = tape.start + done.length := by
    simp only [List.length_append, List.length_take]
    omega
  generalize uefRepairFilevSpan w tape.start = span at bytes framed same
  obtain ⟨window, offset, hits⟩ := span
  simp only at bytes framed same ⊢
  subst framed bytes
  by_cases complete : final = true ∨ w.length ≤ tape.start + done.length
  · rw [if_pos complete]
    refine ⟨.whole _ inside ?_ ?_ rfl rfl (by simp), rfl, rfl, by simp only [same]; omega⟩
    · simp only [walked]
      rw [List.take_of_length_le (by omega)]
    · simp only [walked]
      rcases complete with last | all
      · exact Or.inl last
      · exact Or.inr (List.length_eq_zero_iff.mp (by omega))
  rw [if_neg complete]
  simp only [not_or, Bool.not_eq_true, Nat.not_le] at complete
  obtain ⟨more, _⟩ := complete
  by_cases fits : w.length - (tape.start + done.length) ≤ uefRepairCarry
  · rw [if_pos fits]
    refine ⟨.held _ inside more ?_ ?_ ?_ rfl (by simp [more]), rfl, rfl,
      by simp only [same]; omega⟩
    · simp only [walked]
      rw [List.take_append_of_le_length (by omega), List.take_of_length_le (by omega)]
    · simp only [walked]
      rw [List.drop_append_of_le_length (by omega), List.drop_eq_nil_of_le (by omega),
        List.nil_append]
    · simp only [walked]
      omega
  rw [if_neg fits]
  simp only [uefRepairCarry] at fits
  have header : rd32 (w.take tape.start ++ done ++ tail) (tape.start + done.length + 2) =
      rd32 tail 2 := by
    rw [← front]
    exact rd32_skip _ _ _
  have announced := incomplete_size stops (by omega)
  have small := rd32_lt tail 2
  rw [header, if_pos ⟨by omega, by omega⟩]
  refine ⟨.oversize _ inside more ?_ ?_ ?_ rfl (by simp [more]), rfl, rfl,
    by simp only [same]; omega⟩
  · simp only [walked]
    rw [List.take_of_length_le (by omega)]
  · simp only [walked, uefRepairCarry]
    omega
  · simp only [walked]
    rw [Nat.mod_eq_of_lt (by omega)]
    omega

theorem windowAdvance_advance {tape : UefTape} {limit : Nat} (sound : Sound tape)
    (large : uefRepairCarry < limit) :
    Advance (tape.filled limit) tape.start (tape.ended limit) (windowAdvance limit tape) ∧
      (windowAdvance limit tape).repairFramed = true ∧
      (windowAdvance limit tape).stream = tape.stream.drop (limit - tape.repairCarry.length) ∧
      (windowAdvance limit tape).repairFirst = false ∧
      (windowAdvance limit tape).windowLength = (windowAdvance limit tape).window.length.toUInt16 := by
  have repair := repairWindow_advance sound large
  simp only [windowAdvance]
  simp only [UefTape.filled, UefTape.ended] at repair ⊢
  generalize repairWindow _ _ _ = result at repair ⊢
  obtain ⟨count, next⟩ := result
  obtain ⟨advance, framed, stream, inside⟩ := repair
  refine ⟨advance, framed, stream, trivial, ?_⟩
  simp [Nat.min_eq_left inside]

/-- The bytes of the tape that have not been published. -/
def UefTape.rest (tape : UefTape) : List UInt8 := tape.repairCarry ++ tape.stream

theorem rest_filled (tape : UefTape) (limit : Nat) :
    tape.rest = tape.filled limit ++ tape.stream.drop (limit - tape.repairCarry.length) := by
  simp [UefTape.rest, UefTape.filled]

/-- The stream ends in a window that was not filled. -/
theorem rest_ended (tape : UefTape) (limit : Nat) (last : tape.ended limit = true) :
    tape.rest = tape.filled limit := by
  simp only [UefTape.ended, List.length_take, decide_eq_true_eq] at last
  rw [rest_filled tape limit, List.drop_eq_nil_of_le (by omega), List.append_nil]

theorem windowAdvance_start {tape : UefTape} {limit : Nat} (sound : Sound tape)
    (large : uefRepairCarry < limit) :
    (windowAdvance limit tape).start = (windowAdvance limit tape).repairSkip := by
  obtain ⟨_, _, _, first, _⟩ := windowAdvance_advance sound large
  simp only [UefTape.start, first]
  by_cases nothing : (windowAdvance limit tape).repairSkip = 0
  · simp [nothing]
  · simp [nothing]

theorem windowAdvance_sound {tape : UefTape} {limit : Nat} (sound : Sound tape)
    (large : uefRepairCarry < limit) : Sound (windowAdvance limit tape) := by
  obtain ⟨advance, framed, _, first, _⟩ := windowAdvance_advance sound large
  refine ⟨framed, ?_, fun stepping => ⟨?_, first⟩⟩
  · generalize windowAdvance limit tape = next at advance ⊢
    cases advance with
    | stepped past window skip carry isFinal => simp [carry]
    | short under last window skip carry isFinal => simp [carry]
    | whole inside window ends skip carry isFinal => simp [carry]
    | held inside more window carry fits skip isFinal => rwa [carry]
    | oversize inside more window large skip carry isFinal => simp [carry]
  · generalize windowAdvance limit tape = next at advance stepping ⊢
    cases advance with
    | stepped past window skip carry isFinal => exact carry
    | short under last window skip carry isFinal => exact carry
    | whole inside window ends skip carry isFinal => exact carry
    | held inside more window carry fits skip isFinal => exact absurd skip stepping
    | oversize inside more window large skip carry isFinal => exact carry

theorem filled_length_le {tape : UefTape} {limit : Nat} (sound : Sound tape)
    (large : uefRepairCarry < limit) : (tape.filled limit).length ≤ limit := by
  have carry := sound.carry
  simp only [UefTape.filled, List.length_append, List.length_take]
  omega

theorem Repairs.of_walk {w stream out : List UInt8} {start : Nat} (inside : start ≤ w.length)
    (after : chunks.Patched repaired Oversize
      ((chunks.walk repaired (w.drop start)).2 ++ stream) out) :
    Repairs start (w ++ stream) (w.take start ++ (chunks.walk repaired (w.drop start)).1 ++ out) := by
  refine ⟨(chunks.walk repaired (w.drop start)).1 ++ out, ?_, ?_⟩
  · rw [List.take_append_of_le_length inside, List.append_assoc]
  · rw [List.drop_append_of_le_length inside]
    exact .of_walk _ after

/-- Bytes before the start of the walk are published as they are. -/
theorem Repairs.of_short {w : List UInt8} {start : Nat} (short : w.length ≤ start) :
    Repairs start w w := by
  refine ⟨[], ?_, ?_⟩
  · rw [List.take_of_length_le short, List.append_nil]
  · rw [List.drop_eq_nil_of_le short]
    exact .tail Framing.split_nil

/-- A chunk stepped over goes out as it is, whether or not the tape holds all of it. -/
theorem Repairs.of_oversize {tail stream out : List UInt8} {skip : Nat}
    (large : uefRepairCarry < tail.length) (size : skip + tail.length = 6 + rd32 tail 2)
    (after : Repairs skip stream out) :
    chunks.Patched repaired Oversize (tail ++ stream) (tail ++ out) := by
  obtain ⟨rest, rfl, patched⟩ := after
  have header : chunks.size (tail ++ stream) = some (skip + tail.length) := by
    simp only [uefRepairCarry] at large
    simp only [chunks, chunkSize, List.length_append]
    rw [if_pos (by omega), rd32_append _ _ _ (by omega), size]
  by_cases complete : skip ≤ stream.length
  · rw [← List.append_assoc]
    refine .kept (Framing.split_eq_some.mpr ⟨?_, ?_⟩) ?_ patched
    · rw [header, List.length_append, List.length_take, Nat.min_eq_left complete, Nat.add_comm]
    · rw [List.append_assoc, List.take_append_drop]
    · simp only [Oversize, List.length_append]
      omega
  · have nothing : rest = [] := by
      have length := patched.length repairChunk_length
      rw [List.drop_eq_nil_of_le (by omega)] at length
      exact List.length_eq_zero_iff.mp length
    rw [nothing, List.append_nil, List.take_of_length_le (by omega)]
    refine .tail ?_
    simp only [Framing.split, header, List.length_append]
    rw [if_neg (by omega)]

/-- What a window contributes: it publishes the front of what remained, and the repair of
the rest extends it to a repair of the whole. -/
structure Contributes (limit : Nat) (tape next : UefTape) : Prop where
  bounded : next.window.length ≤ limit
  final : next.windowFinal = true → Repairs tape.start tape.rest next.window
  nonempty : next.windowFinal = false → next.window ≠ []
  onward : next.windowFinal = false → ∀ out, Repairs next.start next.rest out →
    Repairs tape.start tape.rest (next.window ++ out)

theorem Repairs.length {start : Nat} {rest out : List UInt8} (repairs : Repairs start rest out) :
    out.length = rest.length := by
  obtain ⟨after, rfl, patched⟩ := repairs
  have length := patched.length repairChunk_length
  simp only [List.length_append, List.length_take, length, List.length_drop]
  omega

theorem walked_length (w : List UInt8) {start : Nat} (inside : start ≤ w.length) :
    start + (chunks.walk repaired (w.drop start)).1.length +
      (chunks.walk repaired (w.drop start)).2.length = w.length := by
  have total := Framing.walk_length (F := chunks) (f := repaired) repairChunk_length (w.drop start)
  simp only [List.length_drop] at total
  omega

theorem windowAdvance_contributes {tape : UefTape} {limit : Nat} (sound : Sound tape)
    (large : uefRepairCarry < limit) : Contributes limit tape (windowAdvance limit tape) := by
  obtain ⟨advance, _, stream, _, _⟩ := windowAdvance_advance sound large
  have start := windowAdvance_start sound large
  have full := filled_length sound large
  have most := filled_length_le sound large
  have ended := rest_ended tape limit
  have rest := rest_filled tape limit
  generalize windowAdvance limit tape = next at advance stream start ⊢
  generalize tape.filled limit = w at advance full most ended rest
  rw [← stream] at rest
  cases advance with
  | stepped past window skip carry isFinal =>
    refine ⟨by rwa [window], ?_, ?_, ?_⟩
    · intro last
      rw [ended (isFinal ▸ last), window]
      exact .of_short past
    · intro more
      rw [window]
      exact List.ne_nil_of_length_pos (by rw [full (isFinal ▸ more)]; omega)
    · rintro more out ⟨after, rfl, patched⟩
      refine ⟨after, ?_, ?_⟩
      · rw [window, rest, start, skip, UefTape.rest, carry, List.nil_append, List.take_append,
          List.take_of_length_le past, List.append_assoc]
      · rw [rest, List.drop_append, List.drop_eq_nil_of_le past, List.nil_append]
        rwa [start, skip, UefTape.rest, carry, List.nil_append] at patched
  | short under last window skip carry isFinal =>
    refine ⟨by rwa [window], ?_, by simp [isFinal], by simp [isFinal]⟩
    intro _
    rw [ended last, window]
    exact .of_short (Nat.le_of_lt under)
  | whole inside window ends skip carry isFinal =>
    have total := walked_length w inside
    have length : next.window.length = w.length := by
      simp only [window, List.length_append, List.length_take]
      omega
    refine ⟨by rwa [length], ?_, ?_, ?_⟩
    · intro last
      have stops := Framing.walk_stops (F := chunks) (f := repaired) (w.drop tape.start)
      have repairs := Repairs.of_walk inside (.tail (by rwa [List.append_nil _]))
      rw [ended (isFinal ▸ last), window]
      rwa [List.append_nil, List.append_nil] at repairs
    · intro more
      exact List.ne_nil_of_length_pos (by rw [length, full (isFinal ▸ more)]; omega)
    · rintro more out ⟨after, rfl, patched⟩
      have nothing : (chunks.walk repaired (w.drop tape.start)).2 = [] := by
        rcases ends with last | nothing
        · simp [last, more] at isFinal
        · exact nothing
      rw [window, rest, nothing, List.append_nil, start, skip, List.take_zero, List.nil_append]
      refine .of_walk inside ?_
      rwa [start, skip, UefTape.rest, carry, List.drop_zero, ← nothing] at patched
  | held inside more window carry fits skip isFinal =>
    have total := walked_length w inside
    have length : next.window.length =
        tape.start + (chunks.walk repaired (w.drop tape.start)).1.length := by
      simp only [window, List.length_append, List.length_take]
      omega
    have filled := full more
    refine ⟨by omega, by simp [isFinal], ?_, ?_⟩
    · intro _
      exact List.ne_nil_of_length_pos (by omega)
    · rintro _ out ⟨after, rfl, patched⟩
      rw [window, rest, start, skip, List.take_zero, List.nil_append]
      refine .of_walk inside ?_
      rwa [start, skip, UefTape.rest, carry, List.drop_zero] at patched
  | oversize inside more window large skip carry isFinal =>
    have total := walked_length w inside
    have length : next.window.length = w.length := by
      simp only [window, List.length_append, List.length_take]
      omega
    refine ⟨by rwa [length], by simp [isFinal], ?_, ?_⟩
    · intro _
      exact List.ne_nil_of_length_pos (by omega)
    · intro _ out repairs
      rw [window, rest, List.append_assoc _ _ out]
      refine Repairs.of_walk inside (Repairs.of_oversize large skip ?_)
      rwa [start, UefTape.rest, carry, List.nil_append] at repairs

/-- Repairing everything at once is one possible repair. -/
theorem repairs_exists (start : Nat) (rest : List UInt8) : ∃ out, Repairs start rest out := by
  have stops := Framing.walk_stops (F := chunks) (f := repaired) (rest.drop start)
  have patched : chunks.Patched repaired Oversize (rest.drop start ++ [])
      ((chunks.walk repaired (rest.drop start)).1 ++
        ((chunks.walk repaired (rest.drop start)).2 ++ [])) :=
    .of_walk _ (.tail (by rwa [List.append_nil]))
  rw [List.append_nil] at patched
  exact ⟨_, _, rfl, patched⟩

theorem windowAdvance_smaller {tape : UefTape} {limit : Nat} (sound : Sound tape)
    (large : uefRepairCarry < limit) (more : (windowAdvance limit tape).windowFinal = false) :
    (windowAdvance limit tape).rest.length < tape.rest.length := by
  have contributes := windowAdvance_contributes sound large
  have published := List.length_pos_iff.mpr (contributes.nonempty more)
  obtain ⟨out, repairs⟩ :=
    repairs_exists (windowAdvance limit tape).start (windowAdvance limit tape).rest
  have after := repairs.length
  have whole := (contributes.onward more out repairs).length
  rw [List.length_append] at whole
  omega

/-- What holds of every window published on the way. -/
structure Published (step : UefTape) : Prop where
  framed : step.repairFramed = true
  nonempty : step.windowFinal = false → step.window ≠ []
  recorded : step.windowLength = step.window.length.toUInt16

theorem advanceUntilFinal_repairs {limits : Nat → Nat} (large : ∀ i, uefRepairCarry < limits i)
    {fuel i : Nat} {tape : UefTape} (sound : Sound tape) (enough : tape.rest.length < fuel) :
    ∃ steps, advanceUntilFinal limits fuel i tape = some steps ∧
      Repairs tape.start tape.rest (steps.flatMap UefTape.window) ∧
      (∀ step ∈ steps, Published step) ∧
      ∀ j, (step : j < steps.length) → (steps.get ⟨j, step⟩).window.length ≤ limits (i + j) := by
  induction fuel generalizing i tape with
  | zero => omega
  | succ fuel ih =>
    obtain ⟨_, framed, _, _, recorded⟩ := windowAdvance_advance sound (large i)
    have contributes := windowAdvance_contributes sound (large i)
    have published : Published (windowAdvance (limits i) tape) :=
      ⟨framed, contributes.nonempty, recorded⟩
    simp only [advanceUntilFinal]
    cases last : (windowAdvance (limits i) tape).windowFinal with
    | true =>
      refine ⟨_, rfl, ?_, ?_, ?_⟩
      · simpa using contributes.final last
      · simpa using published
      · intro j step
        have first : j = 0 := by simpa using step
        subst first
        exact contributes.bounded
    | false =>
      have smaller := windowAdvance_smaller sound (large i) last
      obtain ⟨steps, run, repairs, all, bounded⟩ :=
        ih (i := i + 1) (windowAdvance_sound sound (large i)) (by omega)
      refine ⟨windowAdvance (limits i) tape :: steps, by simp [run], ?_, ?_, ?_⟩
      · simpa using contributes.onward last _ repairs
      · simpa using ⟨published, all⟩
      · intro j step
        cases j with
        | zero => exact contributes.bounded
        | succ j =>
          have later := bounded j (by simpa using step)
          rw [Nat.add_assoc, Nat.add_comm 1 j] at later
          exact later

/-- A repair that steps over no `&0100` chunk is the whole-tape repair. -/
theorem repairs_stamp {tape after : List UInt8}
    (patched : chunks.Patched repaired Oversize (tape.drop uefRepairHeader) after)
    (fit : ∀ chunk, chunks.Frame (tape.drop uefRepairHeader) chunk → rd16 chunk 0 = 0x0100 →
      chunk.length ≤ 1024) :
    tape.take uefRepairHeader ++ after = (uefRepairFilevStamp tape).1 := by
  have walked : after = (chunks.walk repaired (tape.drop uefRepairHeader)).1 ++
      (chunks.walk repaired (tape.drop uefRepairHeader)).2 := by
    refine patched.eq_walk (fun chunk frame large => repairChunk_other (fun block => ?_))
    exact absurd (fit chunk frame block) (Nat.not_le.mpr large)
  by_cases inside : uefRepairHeader ≤ tape.length
  · rw [walked, ← List.append_assoc]
    exact (uefRepairFilevSpan_inside tape uefRepairHeader inside).1.symm
  · have nothing : tape.drop uefRepairHeader = [] := List.drop_eq_nil_of_le (by omega)
    rw [walked, nothing, Framing.walk_none Framing.split_nil, List.take_of_length_le (by omega)]
    simp [uefRepairFilevStamp, uefRepairFilevSpan, Nat.lt_of_not_ge inside]

/-- The windows of a tape, put together, are the tape with repaired chunks in place: the
framing is never given up, only the last window may be empty, and the whole-tape repair
comes out when every `&0100` chunk fits the carry. -/
theorem windows_refine_whole_tape_repair (tape : UefTape) (limits : Nat → Nat)
    (large : ∀ i, uefRepairCarry < limits i) (fuel : Nat) (enough : tape.stream.length < fuel) :
    ∃ steps, advanceUntilFinal limits fuel 0 (repairReset true tape) = some steps ∧
      (steps.flatMap UefTape.window).length = tape.stream.length ∧
      (steps.flatMap UefTape.window).take uefRepairHeader = tape.stream.take uefRepairHeader ∧
      chunks.Patched repaired Oversize (tape.stream.drop uefRepairHeader)
        ((steps.flatMap UefTape.window).drop uefRepairHeader) ∧
      (∀ step ∈ steps, step.repairFramed = true) ∧
      (∀ step ∈ steps, step.windowFinal = false → step.window ≠ []) ∧
      ((∀ chunk, chunks.Frame (tape.stream.drop uefRepairHeader) chunk → rd16 chunk 0 = 0x0100 →
          chunk.length ≤ 1024) →
        steps.flatMap UefTape.window = (uefRepairFilevStamp tape.stream).1) ∧
      ((∀ i, limits i < 2 ^ 16) →
        ∀ step ∈ steps, step.windowLength.toNat = step.window.length) := by
  have sound : Sound (repairReset true tape) := by
    refine ⟨rfl, ?_, ?_⟩
    · simp [repairReset]
    · simp [repairReset]
  obtain ⟨steps, run, repairs, published, bounded⟩ :=
    advanceUntilFinal_repairs large (i := 0) sound (by simpa [UefTape.rest, repairReset] using enough)
  have length := repairs.length
  obtain ⟨after, same, patched⟩ := repairs
  simp only [UefTape.start, UefTape.rest, repairReset, ne_eq, not_true_eq_false, if_false, if_true,
    List.nil_append] at length same patched
  have front : (steps.flatMap UefTape.window).take uefRepairHeader =
      tape.stream.take uefRepairHeader := by
    have tail := patched.length repairChunk_length
    rw [same]
    by_cases inside : uefRepairHeader ≤ tape.stream.length
    · rw [List.take_append_of_le_length (by simp [inside]), List.take_take, Nat.min_self]
    · rw [List.drop_eq_nil_of_le (by omega)] at tail
      rw [List.length_eq_zero_iff.mp tail, List.append_nil, List.take_take, Nat.min_self]
  have back : (steps.flatMap UefTape.window).drop uefRepairHeader = after := by
    have whole := List.take_append_drop uefRepairHeader (steps.flatMap UefTape.window)
    rw [front] at whole
    exact List.append_cancel_left (whole.trans same)
  refine ⟨steps, run, length, front, back ▸ patched, fun step member => (published step member).framed,
    fun step member => (published step member).nonempty, fun fit => ?_, fun narrow step member => ?_⟩
  · rw [same]
    exact repairs_stamp patched fit
  · obtain ⟨j, rfl⟩ := List.get_of_mem member
    have most := bounded j.1 j.2
    have limit := narrow (0 + j.1)
    rw [(published _ member).recorded]
    exact UInt16.toNat_ofNat_of_lt' (Nat.lt_of_le_of_lt most limit)

/-- A chunk of text. -/
def textChunk (count : Nat) : List UInt8 :=
  [0, 0, count.toUInt8, (count / 0x100).toUInt8, 0, 0] ++ List.replicate count 0x20

/-- A chunk of one block `L`, whose data is `?&212`. -/
def tokenChunk : List UInt8 :=
  [0, 1, 29, 0, 0, 0, char '*', char 'L', 0] ++ List.replicate 10 0 ++ [5, 0] ++
    List.replicate 7 0 ++ [0x3f, 0x26, 0x32, 0x31, 0x32] ++ [0, 0]

/-- A tape whose block crosses the end of the first window, before text that no carry holds. -/
def longTape : UefTape where
  stream := [0x55, 0x45, 0x46, 0x20, 0x46, 0x69, 0x6c, 0x65, 0x21, 0, 10, 0] ++
    (textChunk 1000 ++ (tokenChunk ++ (textChunk 1100 ++ [])))
  window := []
  windowLength := 0
  windowFinal := false
  repairSkip := 0
  repairCarry := []
  repairFramed := false
  repairFirst := false

theorem longTape_fits (chunk : List UInt8)
    (frame : chunks.Frame (longTape.stream.drop uefRepairHeader) chunk)
    (block : rd16 chunk 0 = 0x0100) : chunk.length ≤ 1024 := by
  have first : chunks.split (longTape.stream.drop uefRepairHeader) =
      some (textChunk 1000, tokenChunk ++ (textChunk 1100 ++ [])) := by decide +kernel
  have second : chunks.split (tokenChunk ++ (textChunk 1100 ++ [])) =
      some (tokenChunk, textChunk 1100 ++ []) := by decide +kernel
  have third : chunks.split (textChunk 1100 ++ []) = some (textChunk 1100, []) := by decide +kernel
  rcases frame.cases_split first with rfl | frame
  · exact absurd block (by decide)
  rcases frame.cases_split second with rfl | frame
  · decide
  rcases frame.cases_split third with rfl | frame
  · exact absurd block (by decide)
  exact absurd frame (Framing.no_frame Framing.split_nil)

theorem longTape_windows : (advanceUntilFinal (fun i => 1025 + i) 2200 0
    (repairReset true longTape)).map (List.map fun step => step.window.length) =
      some [1018, 35, 1027, 79] := by
  decide +kernel

theorem windows_refine_whole_tape_repair_long :
    ∃ steps, advanceUntilFinal (fun i => 1025 + i) 2200 0 (repairReset true longTape) = some steps ∧
      steps.map (fun step => step.window.length) = [1018, 35, 1027, 79] ∧
      steps.flatMap UefTape.window = (uefRepairFilevStamp longTape.stream).1 ∧
      (uefRepairFilevStamp longTape.stream).2 = 1 := by
  obtain ⟨steps, run, -, -, -, -, -, whole, -⟩ := windows_refine_whole_tape_repair longTape
    (fun i => 1025 + i) (fun i => by simp only [uefRepairCarry]; omega) 2200 (by decide +kernel)
  have sizes := longTape_windows
  rw [run] at sizes
  exact ⟨steps, run, Option.some.inj sizes, whole longTape_fits, by decide +kernel⟩

end Pi1MHz.UefService
