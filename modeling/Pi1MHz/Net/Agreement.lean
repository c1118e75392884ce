import Pi1MHz.Net.Regions

/-! The READ and the COPY of the dispatcher are those of the two models that have their fields as
numbers: the reader of HTTP responses, and the handles in fixture mode. -/
namespace Pi1MHz.NetDispatch
open Http (recv finishHeader)

section Fields

/-- A byte put above a number that leaves its bits free. -/
theorem or_shifted {low shift : Nat} (byte : UInt8) (free : low < 2 ^ shift) :
    low ||| byte.toNat <<< shift = low + byte.toNat * 2 ^ shift := by
  rw [Nat.or_comm, Nat.shiftLeft_eq, Nat.mul_comm, ← Nat.two_pow_add_eq_or_of_lt free, Nat.add_comm]

theorem byte_shifted (byte : UInt8) {shift : UInt32} (fits : shift.toNat ≤ 24) :
    (byte.toUInt32 <<< shift).toNat = byte.toNat <<< shift.toNat := by
  have small := byte.toNat_lt
  have room : byte.toNat * 2 ^ shift.toNat < 2 ^ 32 :=
    calc byte.toNat * 2 ^ shift.toNat < 2 ^ 8 * 2 ^ shift.toNat :=
          Nat.mul_lt_mul_of_pos_right small (Nat.two_pow_pos _)
      _ ≤ 2 ^ 8 * 2 ^ 24 := Nat.mul_le_mul_left _ (Nat.pow_le_pow_right (by omega) fits)
      _ = 2 ^ 32 := by omega
  rw [UInt32.toNat_shiftLeft, UInt8.toNat_toUInt32, Nat.mod_eq_of_lt (show shift.toNat < 32 by omega),
    Nat.shiftLeft_eq, Nat.mod_eq_of_lt room]

theorem rd24_toNat (p : Command) (i : Nat) :
    (rd24 p i).toNat = (p i).toNat + (p (i + 1)).toNat * 256 + (p (i + 2)).toNat * 65536 := by
  have low := (p i).toNat_lt
  have middle := (p (i + 1)).toNat_lt
  rw [rd24, UInt32.toNat_or, UInt32.toNat_or, byte_shifted _ (by decide), byte_shifted _ (by decide),
    UInt8.toNat_toUInt32]
  have pair : (p i).toNat ||| (p (i + 1)).toNat <<< 8 = (p i).toNat + (p (i + 1)).toNat * 2 ^ 8 :=
    or_shifted _ low
  simp only [UInt32.reduceToNat]
  rw [pair, or_shifted _ (by omega)]
  rfl

theorem rd32_toNat (p : Command) (i : Nat) :
    (rd32 p i).toNat = (rd24 p i).toNat + (p (i + 3)).toNat * 16777216 := by
  have low := (p i).toNat_lt
  have middle := (p (i + 1)).toNat_lt
  have high := (p (i + 2)).toNat_lt
  rw [rd32, UInt32.toNat_or, byte_shifted _ (by decide)]
  simp only [UInt32.reduceToNat]
  exact or_shifted _ (by rw [rd24_toNat]; omega)

theorem publicDestination_toNat (p : Command) :
    (publicDestination p).toNat = (p 2).toNat + (p 3).toNat * 256 := by
  have low := (p 2).toNat_lt
  have high := (p 3).toNat_lt
  have shifted : ((p 3).toUInt64 <<< 8).toNat = (p 3).toNat <<< 8 := by
    rw [UInt64.toNat_shiftLeft, UInt8.toNat_toUInt64, Nat.shiftLeft_eq, Nat.shiftLeft_eq]
    simp only [UInt64.reduceToNat, Nat.reduceMod, Nat.reducePow]
    omega
  rw [publicDestination, UInt64.toNat_or, UInt8.toNat_toUInt64, shifted]
  exact or_shifted _ low

/-- The range test of a READ. -/
theorem range_iff {size : UInt64} {start length : UInt32} :
    (size ≤ start.toUInt64 ∨ size - start.toUInt64 < length.toUInt64) ↔
      size.toNat ≤ start.toNat ∨ size.toNat - start.toNat < length.toNat := by
  rw [UInt64.le_iff_toNat_le, UInt32.toNat_toUInt64]
  by_cases behind : size.toNat ≤ start.toNat
  · exact iff_of_true (.inl behind) (.inl behind)
  · have before : ¬size < start.toUInt64 := by
      rw [UInt64.lt_iff_toNat_lt, UInt32.toNat_toUInt64]
      omega
    rw [UInt64.lt_iff_toNat_lt, sub_toNat before, UInt32.toNat_toUInt64, UInt32.toNat_toUInt64]

end Fields

section Live
variable {h : NetHandle} {r : Http.Read} {jim : Jim}

/-- What a READ leaves, as the reader of HTTP responses has it. -/
def Agrees (r : Http.Read) (jim : Jim) (m : Moved) (result : Http.Live × Http.Reply) : Prop :=
  result.1 = ⟨m.handle.toNetHandle, m.handle.wire, jim.write r.destination m.data⟩ ∧
    result.2.code = m.code ∧ result.2.length = m.length.getD r.maximum

theorem readBody_agrees {maximum : UInt32} (asked : r.maximum = maximum.toNat) :
    Agrees r jim (readBody r.second h maximum) (Http.readBody ⟨h.toNetHandle, h.wire, jim⟩ r) := by
  unfold readBody Http.readBody
  dsimp only
  rw [asked]
  split
  · exact ⟨rfl, rfl, rfl⟩
  · cases recv r.second maximum.toNat h.wire with
    | mk received wire =>
      cases received with
      | wouldBlock => exact ⟨by rw [Memory.write_nil], rfl, rfl⟩
      | error => exact ⟨by rw [Memory.write_nil], rfl, rfl⟩
      | bytes data =>
        dsimp only
        split
        · exact ⟨by rw [Memory.write_nil], rfl, rfl⟩
        · exact ⟨rfl, rfl, rfl⟩

theorem readHeader_agrees (h : NetHandle) (r : Http.Read) (jim : Jim) :
    (Http.readHeader ⟨h.toNetHandle, h.wire, jim⟩ r).1 =
        ⟨(readHeader r.first h).1.toNetHandle, (readHeader r.first h).1.wire, jim⟩ ∧
      (Http.readHeader ⟨h.toNetHandle, h.wire, jim⟩ r).2.map (fun reply => (reply.code, reply.length)) =
        (readHeader r.first h).2.map fun ended => (ended.1, ended.2.getD r.maximum) := by
  unfold readHeader Http.readHeader
  dsimp only
  split
  · exact ⟨rfl, rfl⟩
  · cases recv r.first (Http.responseSize - 1 - h.response.length) h.wire with
    | mk received wire =>
      cases received with
      | wouldBlock => exact ⟨rfl, rfl⟩
      | error => exact ⟨rfl, rfl⟩
      | bytes data =>
        dsimp only
        split
        · exact ⟨rfl, rfl⟩
        · cases Search.firstAt Http.blankLine (Http.cString (h.response ++ data)) with
          | none => exact ⟨rfl, rfl⟩
          | some separator =>
            dsimp only
            cases finishHeader { h.toNetHandle with response := h.response ++ data } separator with
            | none => exact ⟨rfl, rfl⟩
            | some finished => exact ⟨rfl, rfl⟩

/-- On a live handle this READ is the one of the HTTP reader. -/
theorem doRead_agrees {world : World} {command : Command} {size : UInt64}
    (first : world.first = r.first) (second : world.second = r.second)
    (asked : r.maximum = (rd24 command 1).toNat) (target : r.destination = (rd32 command 4).toNat) :
    Agrees r jim (doRead world true h command size)
      (Http.doRead size.toNat ⟨h.toNetHandle, h.wire, jim⟩ r) := by
  have outside : (size ≤ (rd32 command 4).toUInt64 ∨
      size - (rd32 command 4).toUInt64 < (rd24 command 1).toUInt64) ↔
      size.toNat ≤ r.destination ∨ size.toNat - r.destination < r.maximum := by
    rw [asked, target, range_iff]
  unfold doRead Http.doRead
  dsimp only
  split
  · exact ⟨by rw [Memory.write_nil], rfl, rfl⟩
  simp only [outside]
  split
  · exact ⟨by rw [Memory.write_nil], rfl, rfl⟩
  rw [if_pos trivial]
  split
  case isTrue =>
    obtain ⟨left, replies⟩ := readHeader_agrees h r jim
    rw [first, second]
    generalize Http.readHeader ⟨h.toNetHandle, h.wire, jim⟩ r = result at left replies ⊢
    obtain ⟨live, reply⟩ := result
    generalize readHeader r.first h = header at left replies ⊢
    obtain ⟨next, ended⟩ := header
    subst left
    cases reply with
    | none =>
      cases ended with
      | none => exact readBody_agrees asked
      | some ended => cases replies
    | some reply =>
      cases ended with
      | none => cases replies
      | some ended =>
        have same : (reply.code, reply.length) = (ended.1, ended.2.getD r.maximum) :=
          Option.some.inj replies
        obtain ⟨code, length⟩ := Prod.mk.inj same
        exact ⟨by rw [Memory.write_nil], code, length⟩
  case isFalse =>
    rw [second]
    exact readBody_agrees asked

end Live

section Fixtures
variable {c : NetFixture.Call} {h : NetHandle} {f : NetFixture.NetHandle}

/-- A handle in fixture mode, as the fixtures have it. -/
structure SameHandle (h : NetHandle) (f : NetFixture.NetHandle) : Prop where
  opened : f.opened = h.opened
  readIndex : f.readIndex = h.readIndex
  fixture : f.fixture = h.fixture
  fixturePos : f.fixturePos = h.fixturePos

def fixtureCode : Http.Code → NetFixture.Code
  | .ok => .ok
  | .eof => .eof
  | .notOpen => .notOpen
  | .param => .param
  | .conn => .conn
  | .tcpClosed => .conn

theorem call_rd24 (i : Nat) : c.rd24 i = (rd24 c.command i).toNat := by
  rw [rd24_toNat, NetFixture.Call.rd24, NetFixture.Call.rd16]

theorem call_rd32 (i : Nat) : c.rd32 i = (rd32 c.command i).toNat := by
  rw [rd32_toNat, NetFixture.Call.rd32, call_rd24]

/-- In fixture mode the READ is the one of the fixtures. -/
theorem readFixture_agrees {world : World} {size : UInt64} (same : SameHandle h f)
    (whole : size.toNat = NetFixture.serviceSize) :
    SameHandle (doRead world false h c.command size).handle (NetFixture.doRead f c).1 ∧
      (NetFixture.doRead f c).2.code = fixtureCode (doRead world false h c.command size).code ∧
      (NetFixture.doRead f c).2.jim =
        (doRead world false h c.command size).store c.jim c.cp (c.base + c.rd32 4) := by
  have outside : (size ≤ (rd32 c.command 4).toUInt64 ∨
      size - (rd32 c.command 4).toUInt64 < (rd24 c.command 1).toUInt64) ↔
      (!NetFixture.insideWindow (c.rd32 4) (c.rd24 1)) = true := by
    rw [range_iff, whole, call_rd24, call_rd32]
    simp only [NetFixture.insideWindow, Bool.not_eq_true', Bool.and_eq_false_iff, decide_eq_false_iff_not]
    omega
  simp only [doRead, NetFixture.doRead, outside, same.opened]
  split
  · exact ⟨same, rfl, (store_nothing h _ c.jim _ _).symm⟩
  split
  · exact ⟨same, rfl, (store_nothing h _ c.jim _ _).symm⟩
  rw [if_neg Bool.false_ne_true]
  simp only [readFixture, same.fixture, same.fixturePos, same.readIndex, call_rd24]
  split
  · exact ⟨same, rfl, by rw [Moved.store, Memory.write_nil]; rfl⟩
  · exact ⟨⟨rfl, rfl, rfl, rfl⟩, rfl, rfl⟩

/-- The copy is the one of the fixtures. -/
theorem copyPublic_agrees {size : UInt64} (backend : Backend)
    (whole : size.toNat = NetFixture.serviceSize) :
    (NetFixture.doCopyPublic f c).2.jim = (copyPublic backend c.command c.jim c.base size).2.2 := by
  have small := (c.command 1).toNat_lt
  have destination : c.rd16 2 = (publicDestination c.command).toNat :=
    (publicDestination_toNat c.command).symm
  have scratchEnd : ((0xfff100 : UInt64) + (c.command 1).toUInt64).toNat = 0xfff100 + (c.command 1).toNat := by
    rw [UInt64.toNat_add, UInt8.toNat_toUInt64]
    simp only [UInt64.reduceToNat]
    omega
  have refuses : ((c.command 1).toUInt64 = 0 ∨ 240 < (c.command 1).toUInt64 ∨
      0x10000 < publicDestination c.command + (c.command 1).toUInt64 ∨
      size < 0xfff100 + (c.command 1).toUInt64) ↔
      ((c.command 1).toNat = 0 || 240 < (c.command 1).toNat || 0x10000 < c.rd16 2 + (c.command 1).toNat ||
        NetFixture.serviceSize < 0xfff100 + (c.command 1).toNat) = true := by
    rw [← UInt64.toNat_inj, UInt64.lt_iff_toNat_lt, UInt64.lt_iff_toNat_lt, UInt64.lt_iff_toNat_lt,
      publicEnd_toNat, scratchEnd, whole, UInt8.toNat_toUInt64, destination]
    simp only [UInt64.reduceToNat, Bool.or_eq_true, decide_eq_true_eq, or_assoc]
  rw [copyPublic_eq, NetFixture.doCopyPublic]
  split
  case isTrue refused =>
    rw [if_pos (refuses.mpr refused)]
    rfl
  case isFalse allowed =>
    rw [if_neg (mt refuses.mp allowed), ← destination]

end Fixtures

end Pi1MHz.NetDispatch
