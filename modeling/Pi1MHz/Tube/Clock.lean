import Mathlib.Algebra.Ring.Int.Defs
import Mathlib.Algebra.Ring.Nat
import Pi1MHz.Mailbox.HostClock
import Pi1MHz.Tube.Channels

/-! The parasite's clock: one and a half ticks for each host cycle, with the half carried from
one slice of host cycles to the next. -/
namespace Pi1MHz.Ap5Tube
open HostClock

/-- The parasite processor, by what a clock tick and a reset do to it and to the Tube it reads
and writes. -/
structure Processor (κ : Type) where
  vrEmu6502Tick : κ → Tube → κ × Tube
  vrEmu6502Reset : κ → Tube → κ × Tube

/-- The Tube with its processor and clock. `ticked` counts the ticks since the last reset; the
code keeps no such count. -/
structure Clocked (κ : Type) where
  tube : Tube
  parasite : κ
  halfCycle : Int32
  hostClock : HostClock
  ticked : Nat

/-- What reaches the clock, and whatever happens to the Tube and its processor in between. -/
inductive Event (κ : Type)
  | runHostCycles (hostCycles : Int32)
  | syncHostClock (hostCycleCounter : Int32)
  | rebaseHostClock (hostCycleCounter : Int32)
  | meanwhile (tube : Tube) (parasite : κ)

/-- Enabled, selected and not held in reset. -/
def Running (t : Tube) : Prop :=
  t.enabled = true ∧ t.selected = true ∧ flagged t.ula.control ctrlP = false

instance (t : Tube) : Decidable (Running t) := inferInstanceAs (Decidable (_ ∧ _))

variable {κ : Type} (p : Processor κ)

namespace Clocked

/-- `ap5_tube_reset`, with the processor and the clock. -/
def reset (s : Clocked κ) : Clocked κ :=
  if !s.tube.enabled then s
  else
    let (parasite, tube) :=
      p.vrEmu6502Reset s.parasite { resetUlaChannels s.tube with parasiteRomMapped := true }
    { tube := updateSignals tube, parasite, halfCycle := 0
      hostClock := { s.hostClock with valid := false }, ticked := 0 }

/-- The body of the loop in `ap5_tube_run_host_cycles`. -/
def tick (s : Clocked κ) : Clocked κ :=
  let (parasite, tube) := p.vrEmu6502Tick s.parasite (updateSignals s.tube)
  { s with tube, parasite, ticked := s.ticked + 1 }

def runTicks : Nat → Clocked κ → Clocked κ
  | 0, s => s
  | ticks + 1, s => runTicks ticks (s.tick p)

/-- `ap5_tube_run_host_cycles`. -/
def runHostCycles (s : Clocked κ) (hostCycles : Int32) : Clocked κ :=
  if !s.tube.enabled || !s.tube.selected || flagged s.tube.ula.control ctrlP then s
  else
    let ticks := hostCycles + hostCycles / 2
    let halfCycle := s.halfCycle + (hostCycles &&& 1)
    if halfCycle ≥ 2 then
      runTicks p (ticks + 1).toNatClampNeg { s with halfCycle := halfCycle - 2 }
    else runTicks p ticks.toNatClampNeg { s with halfCycle }

/-- `ap5_tube_sync_host_clock`. -/
def syncHostClock (s : Clocked κ) (hostCycleCounter : Int32) : Clocked κ :=
  if !s.tube.enabled then s
  else
    let (hostClock, elapsed) := s.hostClock.hostClockSync hostCycleCounter
    let synced := { s with hostClock }
    if elapsed > 0 then runHostCycles p synced elapsed.toInt32 else synced

/-- `ap5_tube_rebase_host_clock`. -/
def rebaseHostClock (s : Clocked κ) (hostCycleCounter : Int32) : Clocked κ :=
  { s with hostClock := hostClockRebase hostCycleCounter }

def step (s : Clocked κ) : Event κ → Clocked κ
  | .runHostCycles hostCycles => s.runHostCycles p hostCycles
  | .syncHostClock counter => s.syncHostClock p counter
  | .rebaseHostClock counter => s.rebaseHostClock counter
  | .meanwhile tube parasite => { s with tube, parasite }

/-- The host cycles that the event passes to `ap5_tube_run_host_cycles`. -/
def passed (s : Clocked κ) : Event κ → List Int32
  | .runHostCycles hostCycles => [hostCycles]
  | .syncHostClock counter =>
    let elapsed := (s.hostClock.hostClockSync counter).2
    if s.tube.enabled && elapsed > 0 then [elapsed.toInt32] else []
  | _ => []

/-- Host cycles are passed to a running Tube, and fewer than `2 ^ 30` at once. -/
def Paced (s : Clocked κ) (e : Event κ) : Prop :=
  ∀ hostCycles ∈ passed s e, Running s.tube ∧ 0 ≤ hostCycles.toInt ∧ hostCycles.toInt < 2 ^ 30

/-- The host cycles passed so far, `total`, are accounted for by the ticks and the half cycle
that is kept. -/
def Accounted (total : Int) (s : Clocked κ) : Prop :=
  2 * (s.ticked : Int) + s.halfCycle.toInt = 3 * total ∧
    0 ≤ s.halfCycle.toInt ∧ s.halfCycle.toInt < 2

theorem runTicks_ticked (ticks : Nat) (s : Clocked κ) :
    (runTicks p ticks s).ticked = s.ticked + ticks ∧
      (runTicks p ticks s).halfCycle = s.halfCycle ∧
      (runTicks p ticks s).hostClock = s.hostClock := by
  induction ticks generalizing s with
  | zero => exact ⟨rfl, rfl, rfl⟩
  | succ ticks ih =>
    obtain ⟨ticked, half, clock⟩ := ih (s.tick p)
    refine ⟨?_, half, clock⟩
    rw [runTicks, ticked]
    simp only [tick]
    omega

/-- A count of ticks that settles the account when it has been run down. -/
theorem runTicks_accounted {s : Clocked κ} {total : Int} {ticks : Int32} (forward : 0 ≤ ticks.toInt)
    (balance : 2 * (s.ticked + ticks.toInt) + s.halfCycle.toInt = 3 * total)
    (lower : 0 ≤ s.halfCycle.toInt) (upper : s.halfCycle.toInt < 2) :
    Accounted total (runTicks p ticks.toNatClampNeg s) := by
  obtain ⟨ticked, half, -⟩ := runTicks_ticked p ticks.toNatClampNeg s
  have count : (ticks.toNatClampNeg : Int) = ticks.toInt := Int.toNat_of_nonneg forward
  rw [Accounted, ticked, half]
  omega

section Widths

variable {hostCycles : Int32} (forward : 0 ≤ hostCycles.toInt)
include forward

theorem odd_toInt : (hostCycles &&& 1).toInt = hostCycles.toInt % 2 := by
  have low : (hostCycles &&& 1).toBitVec.toNat = hostCycles.toBitVec.toNat % 2 := by
    simp [Nat.and_one_is_mod]
  have small : 2 * hostCycles.toBitVec.toNat < 2 ^ 32 := BitVec.toInt_pos_iff.mp forward
  rw [← Int32.toInt_toBitVec, BitVec.toInt_eq_toNat_of_lt (by omega), low,
    ← Int32.toInt_toBitVec, BitVec.toInt_eq_toNat_of_lt small]
  omega

theorem ticks_toInt (short : hostCycles.toInt < 2 ^ 30) :
    (hostCycles + hostCycles / 2).toInt = hostCycles.toInt + hostCycles.toInt / 2 := by
  rw [Int32.toInt_add, Int32.toInt_div_of_ne_right _ _ (by decide)]
  simp only [Int32.reduceToInt]
  rw [Int.tdiv_eq_ediv_of_nonneg forward]
  exact Int.bmod_eq_of_le (by omega) (by omega)

end Widths

theorem runHostCycles_accounted {s : Clocked κ} {total : Int} (accounted : Accounted total s)
    {hostCycles : Int32} (running : Running s.tube) (forward : 0 ≤ hostCycles.toInt)
    (short : hostCycles.toInt < 2 ^ 30) :
    Accounted (total + hostCycles.toInt) (s.runHostCycles p hostCycles) := by
  obtain ⟨enabled, selected, free⟩ := running
  obtain ⟨balance, lower, upper⟩ := accounted
  have odd := odd_toInt forward
  have ticks := ticks_toInt forward short
  have half : (s.halfCycle + (hostCycles &&& 1)).toInt =
      s.halfCycle.toInt + hostCycles.toInt % 2 := by
    rw [Int32.toInt_add, odd]
    exact Int.bmod_eq_of_le (by omega) (by omega)
  have whole : s.halfCycle + (hostCycles &&& 1) ≥ 2 ↔
      2 ≤ s.halfCycle.toInt + hostCycles.toInt % 2 := by
    rw [ge_iff_le, Int32.le_iff_toInt_le, half]
    rfl
  simp only [runHostCycles, enabled, selected, free, Bool.not_true, Bool.or_self,
    Bool.false_eq_true, if_false, whole]
  split
  case isTrue carried =>
    have extra : (hostCycles + hostCycles / 2 + 1).toInt =
        hostCycles.toInt + hostCycles.toInt / 2 + 1 := by
      rw [Int32.toInt_add, ticks]
      exact Int.bmod_eq_of_le (by simp; omega) (by simp; omega)
    have left : (s.halfCycle + (hostCycles &&& 1) - 2).toInt =
        s.halfCycle.toInt + hostCycles.toInt % 2 - 2 := by
      rw [Int32.toInt_sub, half]
      exact Int.bmod_eq_of_le (by simp; omega) (by simp; omega)
    exact runTicks_accounted p (by omega) (by dsimp only; omega) (by dsimp only; omega)
      (by dsimp only; omega)
  case isFalse =>
    exact runTicks_accounted p (by omega) (by dsimp only; omega) (by dsimp only; omega)
      (by dsimp only; omega)

/-- A sync passes the elapsed cycles on, or moves nothing but the host clock. -/
theorem syncHostClock_cases (s : Clocked κ) (counter : Int32) :
    (∃ hostCycles, passed s (.syncHostClock counter) = [hostCycles] ∧
      s.syncHostClock p counter =
        runHostCycles p { s with hostClock := (s.hostClock.hostClockSync counter).1 } hostCycles) ∨
    (passed s (.syncHostClock counter) = [] ∧
      (s.syncHostClock p counter).ticked = s.ticked ∧
      (s.syncHostClock p counter).halfCycle = s.halfCycle) := by
  unfold passed syncHostClock
  cases s.tube.enabled with
  | false => exact .inr ⟨rfl, rfl, rfl⟩
  | true =>
    by_cases due : (s.hostClock.hostClockSync counter).2 > 0
    case pos =>
      exact .inl ⟨(s.hostClock.hostClockSync counter).2.toInt32, by simp [due], by simp [due]⟩
    case neg => exact .inr ⟨by simpa using due, by simp [due], by simp [due]⟩

theorem Accounted.still {s t : Clocked κ} {total : Int} (accounted : Accounted total s)
    (ticked : t.ticked = s.ticked) (half : t.halfCycle = s.halfCycle) :
    Accounted (total + (([] : List Int32).map Int32.toInt).sum) t := by
  rw [Accounted, ticked, half, List.map_nil, List.sum_nil, add_zero]
  exact accounted

theorem step_accounted {s : Clocked κ} {total : Int} (accounted : Accounted total s) {e : Event κ}
    (paced : Paced s e) :
    Accounted (total + ((passed s e).map Int32.toInt).sum) (step p s e) := by
  cases e with
  | runHostCycles hostCycles =>
    obtain ⟨running, forward, short⟩ := paced hostCycles (List.mem_singleton_self _)
    simpa [passed, step] using runHostCycles_accounted p accounted running forward short
  | syncHostClock counter =>
    unfold Paced at paced
    simp only [step]
    rcases syncHostClock_cases p s counter with ⟨hostCycles, one, ran⟩ | ⟨still, ticked, half⟩
    · rw [one] at paced
      obtain ⟨running, forward, short⟩ := paced hostCycles (List.mem_singleton_self _)
      have synced : Accounted total
          { s with hostClock := (s.hostClock.hostClockSync counter).1 } := accounted
      rw [one, ran, List.map_singleton, List.sum_singleton]
      exact runHostCycles_accounted p synced running forward short
    · rw [still]
      exact accounted.still ticked half
  | rebaseHostClock counter => exact accounted.still rfl rfl
  | meanwhile tube parasite => exact accounted.still rfl rfl

theorem reset_accounted {s : Clocked κ} (enabled : s.tube.enabled = true) :
    Accounted 0 (s.reset p) := by
  simp [Accounted, reset, enabled]

theorem run_accounted {s : Clocked κ} {total : Int} (start : Accounted total s)
    {events : List (Event κ)} (paced : Conduit.Follows (step p) Paced s events) :
    Accounted (total + ((Conduit.traffic (step p) passed s events).map Int32.toInt).sum)
      (Conduit.run (step p) s events) := by
  have before : Accounted (total + (([] : List Int32).map Int32.toInt).sum) s :=
    start.still rfl rfl
  exact @Conduit.run_records _ _ _ (step p) Paced passed
    (fun past s => Accounted (total + (past.map Int32.toInt).sum) s) (fun past s e accounted paced => by
      rw [List.map_append, List.sum_append, ← add_assoc]
      exact step_accounted p accounted paced) [] s before events paced

/-- From a reset, however the host cycles come and whatever happens in between: three ticks for
every two of them, rounded down. -/
theorem tube_ticks_exactly (s : Clocked κ) (enabled : s.tube.enabled = true)
    (events : List (Event κ)) (paced : Conduit.Follows (step p) Paced (s.reset p) events) :
    ((Conduit.run (step p) (s.reset p) events).ticked : Int) =
      3 * ((Conduit.traffic (step p) passed (s.reset p) events).map Int32.toInt).sum / 2 := by
  obtain ⟨balance, lower, upper⟩ := run_accounted p (reset_accounted p enabled) paced
  omega

/-- A 65C02 in memory full of `NOP`, which takes two ticks: the program counter and the ticks
left of the instruction. -/
def noOperations : Processor (UInt16 × Nat) where
  vrEmu6502Tick := fun (pc, left) t => (if left = 0 then (pc + 1, 1) else (pc, left - 1), t)
  vrEmu6502Reset := fun _ t => ((0xeaea, 0), { t with parasiteIrq := false, parasiteNmi := false })

def sliding : Clocked (UInt16 × Nat) :=
  ⟨{ bare with parasiteRam := fun _ => 0xea, parasiteRom := fun _ => 0xea }, (0, 0), 0, ⟨false, 0⟩, 0⟩

theorem sliding_ticks_exactly :
    ((Conduit.run (step noOperations) (sliding.reset noOperations)
      [.runHostCycles 3, .runHostCycles 2, .runHostCycles 1]).ticked : Int) = 3 * (3 + 2 + 1) / 2 :=
  tube_ticks_exactly noOperations sliding rfl [.runHostCycles 3, .runHostCycles 2, .runHostCycles 1]
    ⟨fun _ one => by cases List.mem_singleton.mp one; exact ⟨⟨rfl, rfl, rfl⟩, by decide, by decide⟩,
     fun _ one => by cases List.mem_singleton.mp one; exact ⟨⟨rfl, rfl, rfl⟩, by decide, by decide⟩,
     fun _ one => by cases List.mem_singleton.mp one; exact ⟨⟨rfl, rfl, rfl⟩, by decide, by decide⟩,
     trivial⟩

section HostClock

/-- Bus accesses of the host: each syncs the clock and then does what it does to the Tube. -/
def accesses (made : List (Nat × Tube × κ)) : List (Event κ) :=
  made.flatMap fun (count, tube, parasite) =>
    [.syncHostClock (counter count), .meanwhile tube parasite]

/-- Accesses over two turns of the counter, with the parasite put elsewhere and back between. -/
def visits : List (Nat × Tube × (UInt16 × Nat)) :=
  [(130, sliding.tube, (0xeaea, 0)), (253, { sliding.tube with parasiteRomMapped := false }, (0x400, 1)),
    (260, sliding.tube, (0xeaea, 0))]

end HostClock

end Clocked
end Pi1MHz.Ap5Tube
