import Pi1MHz.Tube.Clock
import Pi1MHz.Tube.Timing

/-! The Tube with its own processor, called by the host. Whatever the parasite's program does, its
accesses and the host's make one interleaving of accesses to the ULA. -/
namespace Pi1MHz.Ap5Tube
open VrEmu6502

/-- The processor of the clock, which is a 65C02. -/
def processor : Processor Cpu where
  vrEmu6502Tick := fun c t => ((vrEmu6502Tick tubeBoard c t).2, (vrEmu6502Tick tubeBoard c t).1)
  vrEmu6502Reset := fun c t => ((vrEmu6502Reset tubeBoard c t).2, (vrEmu6502Reset tubeBoard c t).1)

abbrev Machine := Clocked Cpu

/-- What the host calls. -/
inductive Call
  | reset
  | runHostCycles (hostCycles : Int32)
  | syncHostClock (hostCycleCounter : Int32)
  | rebaseHostClock (hostCycleCounter : Int32)
  | hostRead (address : UInt16)
  | hostWrite (address : UInt16) (value : UInt8)

namespace Machine

/-- `ap5_tube_host_write`, with the processor's resets. -/
def hostWrite (m : Machine) (address : UInt16) (value : UInt8) : Machine :=
  let register := (address &&& 7).toNat
  if register = 6 then
    let chosen := { m.tube with selected := value == 0 || value == 1 }
    if chosen.selected then Clocked.reset processor { m with tube := chosen }
    else { m with tube := resetUlaChannels chosen }
  else if m.tube.selected ∧ register = 0 ∧ restarts m.tube.ula value then
    -- the processor reads its vector only, which the status byte masked after it is no part of
    let noted := { m.tube with ula := { m.tube.ula with lastHostWrite := value } }
    let (parasite, tube) := processor.vrEmu6502Reset m.parasite (hostControl noted value)
    { m with tube := updateSignals tube, parasite }
  else { m with tube := Ap5Tube.hostWrite m.tube address value }

def step (m : Machine) : Call → Machine
  | .reset => m.reset processor
  | .runHostCycles hostCycles => m.runHostCycles processor hostCycles
  | .syncHostClock counter => m.syncHostClock processor counter
  | .rebaseHostClock counter => m.rebaseHostClock counter
  | .hostRead address => { m with tube := (Ap5Tube.hostRead m.tube address).1 }
  | .hostWrite address value => hostWrite m address value

end Machine

section Activity

variable {σ : Type} (b : Board σ)

def fetchProgram (c : Cpu) : Action Cpu :=
  if c.wai then pure (countDown c) else execute c >>= fun c => pure (countDown c)

/-- What a tick does on the bus, and the board it does it on. -/
def activity (c : Cpu) (s : σ) : σ × Action Cpu :=
  if c.stp then (s, pure c)
  else if c.step ≠ 0 then (s, pure (countDown c))
  else if heeds c ∧ b.nmiPin s then (b.clearNmi s, beginInterrupt { c with wai := false } nmiVec)
  else if heeds c ∧ b.intPin s then
    if testBit { c with wai := false } flagI then (s, fetchProgram { c with wai := false })
    else (s, beginInterrupt { c with wai := false } intVec)
  else (s, fetchProgram c)

theorem fetch_program (c : Cpu) (s : σ) : fetch b c s = (fetchProgram c).run b.toDevice s := by
  rw [fetch, fetchProgram]
  split
  · rfl
  · rw [Bus.run_bind]
    rfl

theorem tick_activity (c : Cpu) (s : σ) :
    vrEmu6502Tick b c s = (activity b c s).2.run b.toDevice (activity b c s).1 := by
  rw [vrEmu6502Tick, activity]
  split
  · rfl
  · split
    · rfl
    · split
      · rfl
      · split
        · dsimp only
          split
          · exact fetch_program b _ s
          · rfl
        · exact fetch_program b c s

end Activity

section Accesses

def ofBus : Bus.Access UInt16 UInt8 → Access
  | .read address => .parasiteRead address
  | .write address value => .parasiteWrite address value

/-- The accesses of one tick of the clock. -/
def tickAccesses (m : Machine) : List Access :=
  let (t, program) := activity tubeBoard m.parasite (updateSignals m.tube)
  (program.accesses tubeBoard.toDevice t).map ofBus

def ticksAccesses : Nat → Machine → List Access
  | 0, _ => []
  | ticks + 1, m => tickAccesses m ++ ticksAccesses ticks (m.tick processor)

/-- How often `ap5_tube_run_host_cycles` ticks, and with which half cycle kept. -/
def ticksFor (m : Machine) (hostCycles : Int32) : Nat × Machine :=
  if !m.tube.enabled || !m.tube.selected || flagged m.tube.ula.control ctrlP then (0, m)
  else
    let ticks := hostCycles + hostCycles / 2
    let halfCycle := m.halfCycle + (hostCycles &&& 1)
    if halfCycle ≥ 2 then ((ticks + 1).toNatClampNeg, { m with halfCycle := halfCycle - 2 })
    else (ticks.toNatClampNeg, { m with halfCycle })

def cyclesAccesses (m : Machine) (hostCycles : Int32) : List Access :=
  ticksAccesses (ticksFor m hostCycles).1 (ticksFor m hostCycles).2

/-- The accesses that a call makes, the host's and the parasite's, in their order. -/
def made (m : Machine) : Call → List Access
  | .reset | .rebaseHostClock _ => []
  | .runHostCycles hostCycles => cyclesAccesses m hostCycles
  | .syncHostClock counter =>
    if !m.tube.enabled then []
    else
      let (hostClock, elapsed) := m.hostClock.hostClockSync counter
      if elapsed > 0 then cyclesAccesses { m with hostClock } elapsed.toInt32 else []
  | .hostRead address => [.hostRead address]
  | .hostWrite address value => [.hostWrite address value]

theorem runHostCycles_ticks (m : Machine) (hostCycles : Int32) :
    m.runHostCycles processor hostCycles =
      Clocked.runTicks processor (ticksFor m hostCycles).1 (ticksFor m hostCycles).2 := by
  rw [Clocked.runHostCycles, ticksFor]
  split
  · rfl
  · dsimp only
    split <;> rfl

end Accesses

section Refinement

/-- All of the Tube but the lines to its processor. -/
def unwired (t : Tube) : Tube :=
  { t with parasiteIrq := false, parasiteNmi := false, nmiAsserted := false }

theorem updateSignals_unwired (t : Tube) : unwired (updateSignals t) = unwired t := rfl

theorem hostControl_unwired (t : Tube) (value : UInt8) :
    unwired (hostControl t value) = unwired (hostControl (unwired t) value) := by
  rw [hostControl, hostControl]
  by_cases sets : flagged value ctrlS = true
  · by_cases again : resets t.ula value = true
    · have also : resets (unwired t).ula value = true := again
      simp only [if_pos sets, if_pos again, if_pos also]
      rfl
    · have also : ¬resets (unwired t).ula value = true := again
      simp only [if_pos sets, if_neg again, if_neg also]
      rfl
  · by_cases released : (!flagged value ctrlP && flagged t.ula.control ctrlP) = true
    · have also : (!flagged value ctrlP && flagged (unwired t).ula.control ctrlP) = true := released
      simp only [if_neg sets, if_pos released, if_pos also]
      rfl
    · have also : ¬(!flagged value ctrlP && flagged (unwired t).ula.control ctrlP) = true := released
      simp only [if_neg sets, if_neg released, if_neg also]
      rfl

theorem access_unwired (t : Tube) (a : Access) :
    unwired (access t a) = unwired (access (unwired t) a) := by
  cases a with
  | hostRead address =>
    rw [access, access, hostRead, hostRead]
    by_cases selected : t.selected = true
    · have also : (unwired t).selected = true := selected
      simp only [if_pos selected, if_pos also]
      rfl
    · have also : ¬(unwired t).selected = true := selected
      simp only [if_neg selected, if_neg also]
      rfl
  | hostWrite address value =>
    rw [access, access, Ap5Tube.hostWrite, Ap5Tube.hostWrite]
    by_cases select : (address &&& 7).toNat = 6
    · simp only [if_pos select]
      by_cases chosen : (value == 0 || value == 1) = true
      · simp only [if_pos chosen]
        rw [tubeReset, tubeReset]
        by_cases enabled : t.enabled = true
        · have also : (unwired t).enabled = true := enabled
          simp only [if_pos enabled, if_pos also]
          rfl
        · have also : ¬(unwired t).enabled = true := enabled
          simp only [if_neg enabled, if_neg also]
          rfl
      · simp only [if_neg chosen]
        rfl
    · by_cases selected : t.selected = true
      · have also : (unwired t).selected = true := selected
        simp only [if_neg select, if_pos selected, if_pos also]
        by_cases control : (address &&& 7).toNat = 0
        · simp only [if_pos control]
          exact hostControl_unwired { t with ula := { t.ula with lastHostWrite := value } } value
        · simp only [if_neg control]
          rfl
      · have also : ¬(unwired t).selected = true := selected
        simp only [if_neg select, if_neg selected, if_neg also]
        rfl
  | parasiteRead address =>
    by_cases mapped : isUlaAddress address = true
    · rw [access, access, parasiteRead, parasiteRead, if_pos mapped, if_pos mapped]
      rfl
    · rw [access, access, parasiteRead_memory _ _ mapped, parasiteRead_memory _ _ mapped]
      rfl
  | parasiteWrite address value =>
    rw [access, access, parasiteWrite, parasiteWrite]
    split <;> rfl

theorem access_alike {t t' : Tube} (alike : unwired t = unwired t') (a : Access) :
    unwired (access t a) = unwired (access t' a) := by
  rw [access_unwired, alike, ← access_unwired]

theorem run_alike {t t' : Tube} (alike : unwired t = unwired t') (accesses : List Access) :
    unwired (Conduit.run access t accesses) = unwired (Conduit.run access t' accesses) := by
  induction accesses generalizing t t' with
  | nil => exact alike
  | cons a rest ih => exact ih (access_alike alike a)

theorem run_append (t : Tube) (first second : List Access) :
    Conduit.run access t (first ++ second) = Conduit.run access (Conduit.run access t first) second :=
  List.foldl_append

theorem device_access (t : Tube) (a : Bus.Access UInt16 UInt8) :
    tubeBoard.toDevice.access t a = access t (ofBus a) := by cases a <;> rfl

/-- A program on the bus is a run of parasite accesses. -/
theorem program_accesses {α : Type} (program : Action α) (t : Tube) :
    (program.run tubeBoard.toDevice t).1 =
      Conduit.run access t ((program.accesses tubeBoard.toDevice t).map ofBus) := by
  rw [Bus.run_accesses, Conduit.run, List.foldl_map]
  exact congrArg (fun f => List.foldl f t _) (funext₂ device_access)

theorem activity_unwired (c : Cpu) (t : Tube) : unwired (activity tubeBoard c t).1 = unwired t := by
  rw [activity]
  split
  · rfl
  · split
    · rfl
    · split
      · rfl
      · split
        · split <;> rfl
        · rfl

theorem tick_refines (m : Machine) :
    unwired (m.tick processor).tube = unwired (Conduit.run access m.tube (tickAccesses m)) := by
  have ticked : (m.tick processor).tube =
      (vrEmu6502Tick tubeBoard m.parasite (updateSignals m.tube)).1 := rfl
  rw [ticked, tick_activity, program_accesses, tickAccesses]
  exact run_alike ((activity_unwired _ _).trans (updateSignals_unwired _)) _

theorem runTicks_refines (ticks : Nat) (m : Machine) :
    unwired (Clocked.runTicks processor ticks m).tube =
      unwired (Conduit.run access m.tube (ticksAccesses ticks m)) := by
  induction ticks generalizing m with
  | zero => rfl
  | succ ticks ih =>
    rw [Clocked.runTicks, ih, ticksAccesses, run_append]
    exact run_alike (tick_refines m) _

theorem runHostCycles_refines (m : Machine) (hostCycles : Int32) :
    unwired (m.runHostCycles processor hostCycles).tube =
      unwired (Conduit.run access m.tube (cyclesAccesses m hostCycles)) := by
  have same : (ticksFor m hostCycles).2.tube = m.tube := by
    rw [ticksFor]
    split
    · rfl
    · dsimp only
      split <;> rfl
  rw [runHostCycles_ticks, runTicks_refines, cyclesAccesses, same]

/-- The reset of the processor reads its vector, past the ULA, and clears its pins. -/
theorem processor_reset (c : Cpu) (t : Tube) :
    (processor.vrEmu6502Reset c t).2 = releasePins t := by
  have first : ∀ t : Tube, (parasiteRead t resetVec).1 = t := fun t =>
    parasiteRead_memory t _ (by decide)
  have second : ∀ t : Tube, (parasiteRead t (resetVec + 1)).1 = t := fun t =>
    parasiteRead_memory t _ (by decide)
  have reads : (processor.vrEmu6502Reset c t).2 =
      (parasiteRead (parasiteRead (releasePins t) resetVec).1 (resetVec + 1)).1 := rfl
  rw [reads, first, second]

theorem reset_tube (m : Machine) : (m.reset processor).tube = tubeReset m.tube := by
  rw [Clocked.reset, tubeReset]
  by_cases enabled : m.tube.enabled = true
  · rw [if_neg (by simp [enabled]), if_pos enabled]
    exact congrArg updateSignals (processor_reset m.parasite _)
  · rw [if_pos (by simp [enabled]), if_neg enabled]

theorem hostControl_released {t : Tube} {value : UInt8} (restart : restarts t.ula value = true) :
    releasePins (hostControl t value) = hostControl t value := by
  rw [restarts, Bool.and_eq_true, Bool.and_eq_true, Bool.not_eq_true', Bool.not_eq_true'] at restart
  obtain ⟨⟨sets, held⟩, before⟩ := restart
  rw [hostControl]
  simp only [sets, held, before, if_false, if_true, Bool.not_false, Bool.and_self,
    Bool.false_eq_true]
  rfl

/-- The processor's part of a host write changes no more of the Tube than the ULA's. -/
theorem hostWrite_tube (m : Machine) (address : UInt16) (value : UInt8) :
    (Machine.hostWrite m address value).tube = Ap5Tube.hostWrite m.tube address value := by
  rw [Machine.hostWrite]
  by_cases select : (address &&& 7).toNat = 6
  · simp only [if_pos select]
    rw [Ap5Tube.hostWrite]
    dsimp only
    rw [if_pos select]
    by_cases chosen : (value == 0 || value == 1) = true
    · rw [if_pos chosen, if_pos chosen]
      exact reset_tube _
    · rw [if_neg chosen, if_neg chosen]
  · simp only [if_neg select]
    split
    case isTrue restart =>
      obtain ⟨selected, control, restart⟩ := restart
      rw [Ap5Tube.hostWrite]
      dsimp only
      rw [if_neg select, if_pos selected, if_pos control, processor_reset,
        hostControl_released (by exact restart)]
    case isFalse => rfl

/-- A reset of the whole Tube is no access. -/
def Call.Resetless : Call → Prop
  | .reset => False
  | _ => True

theorem step_refines (m : Machine) {call : Call} (resetless : call.Resetless) :
    unwired (m.step call).tube = unwired (Conduit.run access m.tube (made m call)) := by
  cases call with
  | reset => exact absurd resetless id
  | runHostCycles hostCycles => exact runHostCycles_refines m hostCycles
  | syncHostClock counter =>
    rw [Machine.step, Clocked.syncHostClock, made]
    split
    · rfl
    · dsimp only
      split
      · exact runHostCycles_refines _ _
      · rfl
  | rebaseHostClock counter => rfl
  | hostRead address => rfl
  | hostWrite address value => exact congrArg unwired (hostWrite_tube m address value)

/-- Whatever the parasite's program, a run of the machine is an interleaving of accesses. -/
theorem machine_refines (m : Machine) {calls : List Call} (resetless : ∀ call ∈ calls, call.Resetless) :
    unwired (Conduit.run Machine.step m calls).tube =
      unwired (Conduit.run access m.tube (Conduit.traffic Machine.step made m calls)) := by
  induction calls generalizing m with
  | nil => rfl
  | cons call rest ih =>
    have later := ih (m.step call) fun c member => resetless c (List.mem_cons_of_mem _ member)
    have here := step_refines m (resetless call List.mem_cons_self)
    rw [Conduit.traffic, run_append]
    exact later.trans (run_alike here _)

end Refinement

section Delivery

theorem ula_of_alike {t t' : Tube} (alike : unwired t = unwired t') : t.ula = t'.ula := by
  have same := congrArg Tube.ula alike
  exact same

/-- From a reset, with no other after it and the host and the parasite's program keeping to their
flags, what either side has read of R1, R2 or R4 is the beginning of what the other has written to
it, and the rest is what the channel holds. -/
theorem machine_delivers_once (m : Machine) (enabled : m.tube.enabled = true) (calls : List Call)
    (resetless : ∀ call ∈ calls, call.Resetless)
    (obeys : Conduit.Follows access (fun t a => Obeys t a ∧ Steady t a) (m.reset processor).tube
      (Conduit.traffic Machine.step made (m.reset processor) calls)) :
    let start := (m.reset processor).tube
    let accesses := Conduit.traffic Machine.step made (m.reset processor) calls
    let last := (Conduit.run Machine.step (m.reset processor) calls).tube
    ∀ d c, Conduit.traffic access (sent d c) start accesses =
        Conduit.traffic access (received d c) start accesses ++ held last.ula d c ∧
      (held last.ula d c).length ≤ capacity d c := by
  intro start accesses last d c
  have fresh : start.ula = resetUla := by
    have reset := congrArg Tube.ula (reset_tube m)
    rw [tubeReset, if_pos enabled] at reset
    exact reset
  have begun : Coherent start.ula := fresh ▸ resetUla_coherent
  have same : last.ula = (Conduit.run access start accesses).ula :=
    ula_of_alike (machine_refines _ resetless)
  have keeps : ∀ (t : Tube) (a : Access), Coherent t.ula → Obeys t a ∧ Steady t a →
      Coherent (access t a).ula :=
    fun t a coherent rules => (access_accounts coherent rules.1 rules.2).1
  have coherent : Coherent (Conduit.run access start accesses).ula :=
    @Conduit.run_invariant _ _ access _ (fun t => Coherent t.ula) keeps _ begun _ obeys
  have conserved := @Conduit.run_conserves _ _ _ access _ (fun t => Coherent t.ula)
    (fun t => held t.ula d c) (sent d c) (received d c) keeps
    (fun t a coherent rules => (access_accounts coherent rules.1 rules.2).2 d c) _ begun _ obeys
  rw [fresh, resetUla_held, List.nil_append] at conserved
  rw [same]
  exact ⟨conserved, held_length_le coherent d c⟩

/-- A parasite whose program stores a character in register 1. -/
def printing : Machine where
  tube := { bare with
    parasiteRom := fun address => if address = 0x7fd then 0x04 else 0
    parasiteRam := fun address => [0xa9, 0x41, 0x8d, 0xf9, 0xfe].getD (address - 0x400) 0 }
  parasite := poweredOn
  halfCycle := 0
  hostClock := ⟨false, 0⟩
  ticked := 0

def collected : List Call := [.runHostCycles 4, .hostRead 0xfce1]

theorem machine_delivers_once_collected :
    let start := (printing.reset processor).tube
    let accesses := Conduit.traffic Machine.step made (printing.reset processor) collected
    let last := (Conduit.run Machine.step (printing.reset processor) collected).tube
    Conduit.traffic access (sent .parasiteToHost .r1) start accesses =
        Conduit.traffic access (received .parasiteToHost .r1) start accesses ++
          held last.ula .parasiteToHost .r1 ∧
      Conduit.traffic access (sent .parasiteToHost .r1) start accesses = [0x41] := by
  intro start accesses last
  have obeys : Conduit.Follows access (fun t a => Obeys t a ∧ Steady t a) start accesses := by
    decide +kernel
  refine ⟨?_, by decide +kernel⟩
  have resetless : ∀ call ∈ collected, call.Resetless := by
    intro call member
    rcases List.mem_cons.mp member with rfl | member
    · trivial
    · rw [List.mem_singleton.mp member]
      trivial
  exact (machine_delivers_once printing rfl collected resetless obeys .parasiteToHost .r1).1

end Delivery

end Pi1MHz.Ap5Tube
