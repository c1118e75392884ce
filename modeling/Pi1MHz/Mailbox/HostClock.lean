import Mathlib.Algebra.Ring.Nat
import Mathlib.Data.List.Chain
import Pi1MHz.Foundation.Conduit

/-! The host clock: the emulator's cycle counter runs from 0 to 127 and starts again, and each
sync returns the cycles since the last one. Counts that never fall and never grow by 128 at
once are recovered in full from their values modulo 128. -/
namespace Pi1MHz

structure HostClock where
  valid : Bool
  lastCycle : Int32
deriving DecidableEq, Repr

namespace HostClock

def hostClockRebase (hostCycleCounter : Int32) : HostClock := ⟨true, hostCycleCounter⟩

/-- The clock after the call and the elapsed cycles it returns. -/
def hostClockSync (clock : HostClock) (hostCycleCounter : Int32) : HostClock × UInt32 :=
  if !clock.valid then (hostClockRebase hostCycleCounter, 0)
  else
    let elapsed := hostCycleCounter - clock.lastCycle
    let elapsed := if elapsed < 0 then elapsed + 128 else elapsed
    ({ clock with lastCycle := hostCycleCounter }, if elapsed > 0 then elapsed.toUInt32 else 0)

/-- What the emulator's counter shows at a true cycle count. -/
def counter (count : Nat) : Int32 := Int32.ofNat (count % 128)

/-- The elapsed counts returned while a list of counters is fed. -/
def elapsedCounts (clock : HostClock) (counters : List Int32) : List UInt32 :=
  Conduit.traffic (fun c i => (c.hostClockSync i).1) (fun c i => [(c.hostClockSync i).2]) clock
    counters

/-- Consecutive true counts: no step back and less than one turn of the counter. -/
def WithinTurn (a b : Nat) : Prop := a ≤ b ∧ b < a + 128

instance : DecidableRel WithinTurn := fun _ _ => inferInstanceAs (Decidable (_ ∧ _))

theorem hostClockSync_rebased (last counter : Int32) :
    (hostClockRebase last).hostClockSync counter =
      let elapsed := if counter - last < 0 then counter - last + 128 else counter - last
      (hostClockRebase counter, if elapsed > 0 then elapsed.toUInt32 else 0) := rfl

theorem counter_toInt (count : Nat) : (counter count).toInt = (count % 128 : Nat) :=
  Int32.toInt_ofNat_of_lt (by omega)

theorem counter_sub_toInt (a b : Nat) :
    (counter b - counter a).toInt = (b % 128 : Nat) - (a % 128 : Nat) := by
  rw [Int32.toInt_sub, counter_toInt, counter_toInt]
  exact Int.bmod_eq_of_le (by omega) (by omega)

/-- The signed difference, with a turn added when it is negative, is the true difference. -/
theorem turned_difference {a b : Nat} (turn : WithinTurn a b) :
    (if counter b - counter a < 0 then counter b - counter a + 128 else counter b - counter a) =
      Int32.ofNat (b - a) := by
  obtain ⟨forward, short⟩ := turn
  apply Int32.toInt_inj.mp
  have difference := counter_sub_toInt a b
  rw [Int32.toInt_ofNat_of_lt (by omega)]
  have negative : counter b - counter a < 0 ↔ b % 128 < a % 128 := by
    rw [Int32.lt_iff_toInt_lt, difference]
    simp only [Int32.reduceToInt]
    omega
  split
  case isTrue wrapped =>
    rw [negative] at wrapped
    rw [Int32.toInt_add, difference]
    simp only [Int32.reduceToInt]
    rw [Int.bmod_eq_of_le (by omega) (by omega)]
    omega
  case isFalse ahead =>
    rw [negative] at ahead
    omega

theorem hostClockSync_within {a b : Nat} (turn : WithinTurn a b) :
    (hostClockRebase (counter a)).hostClockSync (counter b) =
      (hostClockRebase (counter b), UInt32.ofNat (b - a)) := by
  have difference := turned_difference turn
  obtain ⟨forward, short⟩ := turn
  have positive : Int32.ofNat (b - a) > 0 ↔ 0 < b - a := by
    rw [gt_iff_lt, Int32.lt_iff_toInt_lt, Int32.toInt_ofNat_of_lt (by omega)]
    simp only [Int32.reduceToInt]
    omega
  rw [hostClockSync_rebased, difference]
  dsimp only
  congr 1
  split
  case isTrue => rfl
  case isFalse stopped =>
    rw [positive] at stopped
    rw [show b - a = 0 by omega]
    rfl

theorem elapsedCounts_within {start : Nat} {counts : List Nat}
    (turns : (start :: counts).IsChain WithinTurn) :
    start + ((elapsedCounts (hostClockRebase (counter start)) (counts.map counter)).map
      UInt32.toNat).sum = counts.getLast?.getD start := by
  induction counts generalizing start with
  | nil => rfl
  | cons next rest ih =>
    obtain ⟨turn, turns⟩ := List.isChain_cons_cons.mp turns
    have later := ih turns
    have read : (UInt32.ofNat (next - start)).toNat = next - start :=
      Nat.mod_eq_of_lt (by have := turn.2; omega)
    simp only [elapsedCounts, List.map_cons, Conduit.traffic, hostClockSync_within turn,
      List.cons_append, List.nil_append, List.sum_cons, read] at later ⊢
    rw [List.getLast?_cons, Option.getD_some, ← later]
    have := turn.1
    omega

/-- Whatever was kept before the rebase, at every point of the run the returned counts add up
to the true cycles since it. -/
theorem host_clock_recovers (start : Nat) (counts : List Nat)
    (turns : (start :: counts).IsChain WithinTurn) (fed : List Nat) (sofar : fed <+: counts) :
    ((elapsedCounts (hostClockRebase (counter start)) (fed.map counter)).map UInt32.toNat).sum =
      fed.getLast?.getD start - start := by
  have fedTurns : (start :: fed).IsChain WithinTurn :=
    turns.prefix (List.cons_prefix_cons.mpr ⟨rfl, sofar⟩)
  have recovered := elapsedCounts_within fedTurns
  omega

theorem host_clock_recovers_wrapped :
    ((elapsedCounts (hostClockRebase (counter 250)) ([250, 253, 379].map counter)).map
      UInt32.toNat).sum = 129 :=
  host_clock_recovers 250 [250, 253, 379, 400] (by decide) [250, 253, 379] (by decide)

end HostClock
end Pi1MHz
