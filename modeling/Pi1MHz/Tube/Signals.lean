import Pi1MHz.Tube.Machine

/-! The flags and the lines to the processor, in every state that the Tube can be in: whoever
reads and writes what, the flags say what the channels hold, the IRQ line says what the flags and
the control bits say, and the NMI is latched when its condition rises. -/
namespace Pi1MHz.Ap5Tube
open VrEmu6502

section Flags

variable {u : TubeUla} (coherent : Coherent u)
include coherent

theorem hostReadRegister_coherent {register : Nat} (small : register < 8) :
    Coherent (hostReadRegister u register).1 := by
  match register, small with
  | 0, _ => exact coherent
  | 1, _ =>
    by_cases nonempty : 0 < u.p2hR1Count
    · obtain ⟨rest, front, moves⟩ := hostTakesR1_moves coherent nonempty
      exact moves.coherent
    · rw [hostReadRegister, hostTakesR1, if_neg (by omega)]
      exact coherent
  | 2, _ => exact coherent
  | 3, _ => exact (@hostTakes_moves u coherent .r2 (by decide)).coherent
  | 4, _ => exact coherent
  | 5, _ => exact (hostTakesR3_unchanged u).coherent coherent
  | 6, _ => exact coherent
  | 7, _ => exact (@hostTakes_moves u coherent .r4 (by decide)).coherent

theorem parasiteReadRegister_coherent {register : Nat} (small : register < 8) :
    Coherent (parasiteReadRegister u register).1 := by
  match register, small with
  | 0, _ => exact coherent
  | 1, _ => exact (parasiteTakes_moves coherent .r1).coherent
  | 2, _ => exact coherent
  | 3, _ => exact (parasiteTakes_moves coherent .r2).coherent
  | 4, _ => exact coherent
  | 5, _ => exact (parasiteTakesR3_unchanged u).coherent coherent
  | 6, _ => exact coherent
  | 7, _ => exact (parasiteTakes_moves coherent .r4).coherent

theorem hostWriteRegister_coherent {register : Nat} (small : register < 8) (value : UInt8) :
    Coherent (hostWriteRegister u register value) := by
  match register, small with
  | 0, _ => exact coherent
  | 1, _ => exact (hostPuts_moves coherent .r1 value).coherent
  | 2, _ => exact coherent
  | 3, _ => exact (hostPuts_moves coherent .r2 value).coherent
  | 4, _ => exact coherent
  | 5, _ => exact (hostPutsR3_unchanged u value).coherent coherent
  | 6, _ => exact coherent
  | 7, _ => exact (hostPuts_moves coherent .r4 value).coherent

theorem parasiteWriteRegister_coherent {register : Nat} (small : register < 8) (value : UInt8) :
    Coherent (parasiteWriteRegister u register value) := by
  have noted : Unchanged u { u with lastParasiteWrite := value } :=
    ⟨rfl, fun _ _ _ => rfl, fun _ _ _ => rfl, rfl, rfl⟩
  have coherent' := noted.coherent coherent
  match register, small with
  | 0, _ => exact coherent'
  | 1, _ =>
    by_cases room : u.p2hR1Count < r1FifoSize
    · exact (parasitePutsR1_moves coherent' room value).coherent
    · rw [parasiteWriteRegister, parasitePutsR1, if_neg room]
      exact coherent'
  | 2, _ => exact coherent'
  | 3, _ => exact (@parasitePuts_moves _ coherent' .r2 (by decide) value).coherent
  | 4, _ => exact coherent'
  | 5, _ => exact (parasitePutsR3_unchanged _ value).coherent coherent'
  | 6, _ => exact coherent'
  | 7, _ => exact (@parasitePuts_moves _ coherent' .r4 (by decide) value).coherent

end Flags

section Lines

/-- The condition that the IRQ line follows. -/
def irqLine (u : TubeUla) : Bool :=
  (flagged u.control ctrlI && flagged (u.parasiteStatus 0) flowData) ||
    (flagged u.control ctrlJ && flagged (u.parasiteStatus 3) flowData)

/-- The condition whose rise is an NMI. -/
def nmiLine (u : TubeUla) : Bool :=
  flagged u.control ctrlM && flagged (u.parasiteStatus 2) flowData

/-- The lines as the last `update_signals` left them are the ones of the ULA as it is. -/
structure Signalled (t : Tube) : Prop where
  irq : t.parasiteIrq = irqLine t.ula
  nmi : t.nmiAsserted = nmiLine t.ula

theorem updateSignals_signalled (t : Tube) : Signalled (updateSignals t) := ⟨rfl, rfl⟩

theorem resetUlaChannels_nmi (t : Tube) : (resetUlaChannels t).parasiteNmi = t.parasiteNmi := by
  have quiet : nmiLine resetUla = false := by decide
  have latch : (resetUlaChannels t).parasiteNmi = (t.parasiteNmi || (nmiLine resetUla && !false)) :=
    rfl
  rw [latch, quiet, Bool.false_and, Bool.or_false]

theorem updateSignals_nmi (t : Tube) : (updateSignals t).parasiteNmi =
    (t.parasiteNmi || (nmiLine t.ula && !t.nmiAsserted)) := rfl

theorem tubeReset_nmi (t : Tube) :
    (tubeReset t).parasiteNmi = (t.parasiteNmi && !t.enabled) := by
  rw [tubeReset]
  split
  case isTrue enabled =>
    have quiet : nmiLine (releasePins { resetUlaChannels t with parasiteRomMapped := true }).ula =
        false := (by decide : nmiLine resetUla = false)
    rw [updateSignals_nmi, quiet, enabled, Bool.false_and, Bool.or_false, Bool.not_true,
      Bool.and_false]
    rfl
  case isFalse disabled =>
    rw [Bool.eq_false_of_not_eq_true disabled, Bool.not_false, Bool.and_true]

/-- After a reset of the channels R3 holds nothing for the parasite, so that the control bits
alone raise no NMI. -/
theorem hostControl_lines (t : Tube) (value : UInt8) :
    (hostControl t value).parasiteNmi = (t.parasiteNmi && !restarts t.ula value) ∧
      ((hostControl t value).nmiAsserted = t.nmiAsserted ∨
        nmiLine (hostControl t value).ula = false) := by
  rw [hostControl, restarts]
  by_cases sets : flagged value ctrlS = true
  · have kept : ∀ b, (t.parasiteNmi && !(!flagged value ctrlS && b && flagged t.ula.control ctrlP)) =
        t.parasiteNmi := fun b => by simp [sets]
    by_cases again : resets t.ula value = true
    · simp only [if_pos sets, if_pos again, kept]
      refine ⟨resetUlaChannels_nmi t, .inr ?_⟩
      exact Bool.and_eq_false_iff.mpr (.inr (by decide : flagged (resetUla.parasiteStatus 2) flowData = false))
    · rw [if_pos sets, if_neg again, kept]
      exact ⟨rfl, .inl rfl⟩
  · have cleared : flagged value ctrlS = false := Bool.eq_false_of_not_eq_true sets
    rw [if_neg sets, cleared, Bool.not_false, Bool.true_and]
    dsimp only
    split
    case isTrue restart =>
      rw [restart, Bool.not_true, Bool.and_false]
      exact ⟨rfl, .inl rfl⟩
    case isFalse held =>
      rw [Bool.eq_false_of_not_eq_true held, Bool.not_false, Bool.and_true]
      exact ⟨rfl, .inl rfl⟩

/-- The accesses at which the processor is reset. -/
def restartsAt (t : Tube) : Access → Bool
  | .hostWrite address value =>
    if (address &&& 7).toNat = 6 then (value == 0 || value == 1) && t.enabled
    else t.selected && ((address &&& 7).toNat == 0 && restarts t.ula value)
  | _ => false

/-- An access either ends in `update_signals` or leaves the ULA and the lines alone. -/
theorem access_cases (t : Tube) (a : Access) :
    (∃ t', access t a = updateSignals t' ∧ t'.parasiteNmi = (t.parasiteNmi && !restartsAt t a) ∧
      (t'.nmiAsserted = t.nmiAsserted ∨ nmiLine t'.ula = false)) ∨
    ((access t a).ula = t.ula ∧ (access t a).parasiteIrq = t.parasiteIrq ∧
      (access t a).parasiteNmi = (t.parasiteNmi && !restartsAt t a) ∧
      (access t a).nmiAsserted = t.nmiAsserted) := by
  have still : t.parasiteNmi = (t.parasiteNmi && !false) := (Bool.and_true _).symm
  cases a with
  | hostRead address =>
    rw [access, hostRead]
    split
    · exact .inl ⟨_, rfl, still, .inl rfl⟩
    · exact .inr ⟨rfl, rfl, still, rfl⟩
  | hostWrite address value =>
    rw [access, hostWrite, restartsAt]
    by_cases select : (address &&& 7).toNat = 6
    · simp only [if_pos select]
      by_cases chosen : (value == 0 || value == 1) = true
      · have latch := tubeReset_nmi { t with selected := value == 0 || value == 1 }
        rw [if_pos chosen, chosen, Bool.true_and]
        rw [chosen] at latch
        by_cases enabled : t.enabled = true
        · left
          rw [tubeReset, if_pos enabled] at latch ⊢
          refine ⟨_, rfl, ?_, .inr (by decide : nmiLine resetUla = false)⟩
          rw [enabled, Bool.not_true, Bool.and_false]
          rfl
        · right
          rw [tubeReset, if_neg enabled] at latch ⊢
          exact ⟨rfl, rfl, latch, rfl⟩
      · rw [if_neg chosen, Bool.eq_false_of_not_eq_true chosen, Bool.false_and]
        exact .inl ⟨_, rfl, still, .inr (by decide : nmiLine resetUla = false)⟩
    · simp only [if_neg select]
      by_cases selected : t.selected = true
      · have known : ∀ b, (t.selected && b) = b := fun b => by rw [selected, Bool.true_and]
        rw [if_pos selected, known]
        refine .inl ⟨_, rfl, ?_⟩
        by_cases control : (address &&& 7).toNat = 0
        · rw [if_pos control, control, beq_self_eq_true, Bool.true_and]
          exact hostControl_lines { t with ula := { t.ula with lastHostWrite := value } } value
        · rw [if_neg control, beq_eq_false_iff_ne.mpr control, Bool.false_and]
          exact ⟨still, .inl rfl⟩
      · rw [if_neg selected, Bool.eq_false_of_not_eq_true selected, Bool.false_and]
        exact .inr ⟨rfl, rfl, still, rfl⟩
  | parasiteRead address =>
    by_cases mapped : isUlaAddress address = true
    · rw [access, parasiteRead, if_pos mapped]
      exact .inl ⟨_, rfl, still, .inl rfl⟩
    · rw [access, parasiteRead_memory _ _ mapped]
      exact .inr ⟨rfl, rfl, still, rfl⟩
  | parasiteWrite address value =>
    by_cases mapped : isUlaAddress address = true
    · rw [access, parasiteWrite, if_pos mapped]
      exact .inl ⟨_, rfl, still, .inl rfl⟩
    · rw [access, parasiteWrite, if_neg mapped]
      exact .inr ⟨rfl, rfl, still, rfl⟩

theorem access_signalled {t : Tube} (signalled : Signalled t) (a : Access) :
    Signalled (access t a) := by
  rcases access_cases t a with ⟨t', same, -⟩ | ⟨ula, irq, -, nmi⟩
  · rw [same]
    exact updateSignals_signalled t'
  · exact ⟨by rw [irq, ula, signalled.irq], by rw [nmi, ula, signalled.nmi]⟩

/-- The NMI is latched when its condition rises and by nothing else. -/
theorem access_nmi {t : Tube} (signalled : Signalled t) (a : Access) :
    (access t a).parasiteNmi = (t.parasiteNmi && !restartsAt t a ||
      (!nmiLine t.ula && nmiLine (access t a).ula)) := by
  rcases access_cases t a with ⟨t', same, latch, before⟩ | ⟨ula, -, latch, -⟩
  · have line : (updateSignals t').ula = t'.ula := rfl
    rw [same, updateSignals_nmi, latch, line]
    rcases before with asserted | low
    · rw [asserted, signalled.nmi, Bool.and_comm (nmiLine t'.ula)]
    · rw [low, Bool.false_and, Bool.and_false]
  · rw [latch, ula, Bool.not_and_self, Bool.or_false]

theorem hostControl_coherent {t : Tube} (coherent : Coherent t.ula) (value : UInt8) :
    Coherent (hostControl t value).ula := by
  cases again : resets t.ula value with
  | false => exact (hostControl_unchanged t value again).coherent coherent
  | true =>
    have sets : flagged value ctrlS = true := by
      rw [resets, Bool.and_assoc, Bool.and_eq_true] at again
      exact again.1
    rw [hostControl]
    dsimp only
    rw [if_pos sets, if_pos again]
    have same : Unchanged resetUla { resetUla with
        control := t.ula.control ||| value &&& 0x3f
        hostStatus := Function.update resetUla.hostStatus 0 (resetUla.hostStatus 0 &&& flowBoth) } := by
      refine ⟨rfl, fun c flag which => ?_, fun _ _ _ => rfl, rfl, rfl⟩
      rcases which with rfl | rfl <;> cases c <;> rfl
    exact same.coherent resetUla_coherent

theorem access_coherent {t : Tube} (coherent : Coherent t.ula) (a : Access) :
    Coherent (access t a).ula := by
  cases a with
  | hostRead address =>
    by_cases selected : t.selected = true
    · rw [access, (hostRead_ula t address selected).1]
      exact hostReadRegister_coherent coherent (register_lt address)
    · rw [access, hostRead_unselected t address selected]
      exact coherent
  | hostWrite address value =>
    have noted : Unchanged t.ula { t.ula with lastHostWrite := value } :=
      ⟨rfl, fun _ _ _ => rfl, fun _ _ _ => rfl, rfl, rfl⟩
    by_cases select : (address &&& 7).toNat = 6
    · rw [access, hostWrite]
      simp only [if_pos select]
      split
      · rw [tubeReset]
        split
        · exact resetUla_coherent
        · exact coherent
      · exact resetUla_coherent
    · by_cases selected : t.selected = true
      · by_cases control : (address &&& 7).toNat = 0
        · rw [access, hostWrite_control t address value selected control]
          exact hostControl_coherent (noted.coherent coherent) value
        · rw [access, hostWrite_register t address value selected select control]
          exact hostWriteRegister_coherent (noted.coherent coherent) (register_lt address) value
      · rw [access, hostWrite_unselected t address value selected select]
        exact coherent
  | parasiteRead address =>
    by_cases mapped : isUlaAddress address = true
    · rw [access, (parasiteRead_ula t address mapped).1]
      exact parasiteReadRegister_coherent coherent (register_lt address)
    · rw [access, parasiteRead_memory t address mapped]
      exact coherent
  | parasiteWrite address value =>
    by_cases mapped : isUlaAddress address = true
    · rw [access, parasiteWrite_ula t address value mapped]
      exact parasiteWriteRegister_coherent coherent (register_lt address) value
    · rw [access, parasiteWrite_memory t address value mapped]
      exact coherent

/-- What holds of the Tube whenever no access is under way. -/
structure Settled (t : Tube) : Prop where
  coherent : Coherent t.ula
  signalled : Signalled t

theorem access_settled {t : Tube} (settled : Settled t) (a : Access) : Settled (access t a) :=
  ⟨access_coherent settled.coherent a, access_signalled settled.signalled a⟩

theorem run_settled {t : Tube} (settled : Settled t) (accesses : List Access) :
    Settled (Conduit.run access t accesses) :=
  @Conduit.run_invariant _ _ access _ Settled (fun _ a settled _ => access_settled settled a) _
    settled _ (Conduit.follows_true access t accesses)

/-- The condition of the NMI can fall, but not rise. -/
structure Falls (u u' : TubeUla) : Prop where
  control : u'.control = u.control
  data : flagged (u'.parasiteStatus 2) flowData = true →
    flagged (u.parasiteStatus 2) flowData = true

theorem Falls.line {u u' : TubeUla} (falls : Falls u u') (line : nmiLine u' = true) :
    nmiLine u = true := by
  rw [nmiLine, Bool.and_eq_true, falls.control] at line
  rw [nmiLine, Bool.and_eq_true]
  exact ⟨line.1, falls.data line.2⟩

variable (u : TubeUla)

theorem parasiteTakes_falls (i : Nat) : Falls u (parasiteTakes u i).1 := by
  refine ⟨rfl, fun data => ?_⟩
  simp only [parasiteTakes, clearFlags_data_data, Bool.and_eq_true] at data
  exact data.1

theorem parasiteTakesR3_falls : Falls u (parasiteTakesR3 u).1 := by
  rw [parasiteTakesR3]
  split
  · dsimp only
    split
    · refine ⟨rfl, fun data => ?_⟩
      simp only [clearFlags_data_data, Bool.and_eq_true] at data
      exact data.1
    · exact ⟨rfl, id⟩
  · exact ⟨rfl, id⟩

theorem parasitePuts_falls (i : Nat) (value : UInt8) : Falls u (parasitePuts u i value) := by
  refine ⟨rfl, fun data => ?_⟩
  simpa only [parasitePuts, clearFlags_space_data] using data

theorem parasitePutsR1_falls (value : UInt8) : Falls u (parasitePutsR1 u value) := by
  rw [parasitePutsR1]
  split
  · dsimp only
    split
    · refine ⟨rfl, fun data => ?_⟩
      simpa only [clearFlags_space_data] using data
    · exact ⟨rfl, id⟩
  · exact ⟨rfl, id⟩

theorem parasitePutsR3_falls (value : UInt8) : Falls u (parasitePutsR3 u value) := by
  rw [parasitePutsR3]
  split
  · dsimp only
    split
    · refine ⟨rfl, fun data => ?_⟩
      rw [flagged_clearFlags, if_pos rfl, show ~~~flowBoth &&& flowData = 0 from rfl,
        flagged_zero] at data
      cases data
    · exact ⟨rfl, id⟩
  · exact ⟨rfl, id⟩

theorem parasiteReadRegister_falls (register : Nat) :
    Falls u (parasiteReadRegister u register).1 := by
  unfold parasiteReadRegister
  split
  case h_2 => exact parasiteTakes_falls u 0
  case h_4 => exact parasiteTakes_falls u 1
  case h_6 => exact parasiteTakesR3_falls u
  case h_8 => exact parasiteTakes_falls u 3
  all_goals exact ⟨rfl, id⟩

theorem parasiteWriteRegister_falls (register : Nat) (value : UInt8) :
    Falls u (parasiteWriteRegister u register value) := by
  have noted {u' : TubeUla} (falls : Falls { u with lastParasiteWrite := value } u') :
      Falls u u' := ⟨falls.control, falls.data⟩
  unfold parasiteWriteRegister
  apply noted
  split
  case h_1 => exact parasitePutsR1_falls _ value
  case h_2 => exact parasitePuts_falls _ 1 value
  case h_3 => exact parasitePutsR3_falls _ value
  case h_4 => exact parasitePuts_falls _ 3 value
  case h_5 => exact ⟨rfl, id⟩

/-- What the parasite reads and writes raises no NMI. -/
theorem parasite_falls {t : Tube} (a : Bus.Access UInt16 UInt8)
    (line : nmiLine (access t (ofBus a)).ula = true) : nmiLine t.ula = true := by
  cases a with
  | read address =>
    by_cases mapped : isUlaAddress address = true
    · rw [ofBus, access, (parasiteRead_ula t address mapped).1] at line
      exact (parasiteReadRegister_falls _ _).line line
    · rw [ofBus, access, parasiteRead_memory t address mapped] at line
      exact line
  | write address value =>
    by_cases mapped : isUlaAddress address = true
    · rw [ofBus, access, parasiteWrite_ula t address value mapped] at line
      exact (parasiteWriteRegister_falls _ _ value).line line
    · rw [ofBus, access, parasiteWrite_memory t address value mapped] at line
      exact line

end Lines

section Machine

theorem updateSignals_settled {t : Tube} (settled : Settled t) : updateSignals t = t := by
  have irq : irqLine t.ula = t.parasiteIrq := settled.signalled.irq.symm
  have nmi : nmiLine t.ula = t.nmiAsserted := settled.signalled.nmi.symm
  have signals : updateSignals t =
      { t with parasiteIrq := irqLine t.ula
               parasiteNmi := t.parasiteNmi || nmiLine t.ula && !t.nmiAsserted
               nmiAsserted := nmiLine t.ula } := rfl
  rw [signals, irq, nmi, Bool.and_not_self, Bool.or_false]

theorem program_settled {α : Type} (program : Action α) {t : Tube} (settled : Settled t) :
    Settled (program.run tubeBoard.toDevice t).1 := by
  rw [program_accesses]
  exact run_settled settled _

/-- A program on the bus leaves the latched NMI alone. -/
theorem program_nmi {α : Type} (program : Action α) {t : Tube} (settled : Settled t) :
    (program.run tubeBoard.toDevice t).1.parasiteNmi = t.parasiteNmi ∧
      (nmiLine (program.run tubeBoard.toDevice t).1.ula = true → nmiLine t.ula = true) := by
  rw [program_accesses]
  generalize program.accesses tubeBoard.toDevice t = accesses
  induction accesses generalizing t with
  | nil => exact ⟨rfl, id⟩
  | cons a rest ih =>
    obtain ⟨latch, falls⟩ := ih (access_settled settled (ofBus a))
    have here := access_nmi settled.signalled (ofBus a)
    have kept : restartsAt t (ofBus a) = false := by cases a <;> rfl
    have quiet : (!nmiLine t.ula && nmiLine (access t (ofBus a)).ula) = false := by
      by_contra rises
      rw [Bool.not_eq_false, Bool.and_eq_true, Bool.not_eq_true'] at rises
      rw [parasite_falls a rises.2] at rises
      exact absurd rises.1 (by decide)
    rw [kept, quiet, Bool.not_false, Bool.and_true, Bool.or_false] at here
    exact ⟨latch.trans here, fun line => parasite_falls a (falls line)⟩

theorem tick_settled (c : Cpu) {t : Tube} (settled : Settled t) :
    Settled (vrEmu6502Tick tubeBoard c t).1 := by
  rw [tick_activity]
  apply program_settled
  rw [activity]
  split
  · exact settled
  · split
    · exact settled
    · split
      · exact ⟨settled.coherent, settled.signalled.irq, settled.signalled.nmi⟩
      · split
        · split <;> exact settled
        · exact settled

/-- What holds of the machine between two calls. -/
structure Machine.Settled (m : Machine) : Prop where
  tube : Ap5Tube.Settled m.tube
  parasite : VrEmu6502.Running tubeBoard m.parasite

namespace Machine.Settled

variable {m : Machine}

theorem tick (settled : Settled m) : Settled (m.tick processor) := by
  have same : (m.tick processor).tube = (vrEmu6502Tick tubeBoard m.parasite m.tube).1 :=
    congrArg (fun t => (vrEmu6502Tick tubeBoard m.parasite t).1) (updateSignals_settled settled.tube)
  exact ⟨same ▸ tick_settled m.parasite settled.tube, .tick _ settled.parasite⟩

theorem runTicks (settled : Settled m) (ticks : Nat) :
    Settled (Clocked.runTicks processor ticks m) := by
  induction ticks generalizing m with
  | zero => exact settled
  | succ ticks ih => exact ih settled.tick

theorem runHostCycles (settled : Settled m) (hostCycles : Int32) :
    Settled (m.runHostCycles processor hostCycles) := by
  have begun : Settled (ticksFor m hostCycles).2 := by
    rw [ticksFor]
    split
    · exact settled
    · dsimp only
      split <;> exact ⟨settled.tube, settled.parasite⟩
  rw [runHostCycles_ticks]
  exact begun.runTicks _

end Machine.Settled

/-- The processor's reset, on a Tube with its flags right. -/
theorem restarted_settled (c : Cpu) {t : Tube} (coherent : Coherent t.ula) :
    Settled (updateSignals (processor.vrEmu6502Reset c t).2) ∧
      VrEmu6502.Running tubeBoard (processor.vrEmu6502Reset c t).1 := by
  have same : (processor.vrEmu6502Reset c t).2.ula = t.ula := by
    rw [processor_reset]
    rfl
  refine ⟨⟨?_, updateSignals_signalled _⟩, .reset c t⟩
  rw [← same] at coherent
  exact coherent

theorem Clocked.reset_settled (m : Machine) (enabled : m.tube.enabled = true) :
    Machine.Settled (m.reset processor) := by
  obtain ⟨tube, parasite⟩ := restarted_settled m.parasite
    (t := { resetUlaChannels m.tube with parasiteRomMapped := true }) resetUla_coherent
  rw [Clocked.reset, if_neg (by simp [enabled])]
  exact ⟨tube, parasite⟩

theorem Machine.Settled.step {m : Machine} (settled : m.Settled) (call : Call) :
    (m.step call).Settled := by
  cases call with
  | reset =>
    by_cases enabled : m.tube.enabled = true
    · exact Clocked.reset_settled m enabled
    · rw [Machine.step, Clocked.reset, if_pos (by simp [enabled])]
      exact settled
  | runHostCycles hostCycles => exact settled.runHostCycles hostCycles
  | syncHostClock counter =>
    rw [Machine.step, Clocked.syncHostClock]
    split
    · exact settled
    · have synced : ∀ clock, Machine.Settled { m with hostClock := clock } := fun _ =>
        ⟨settled.tube, settled.parasite⟩
      dsimp only
      split
      · exact (synced _).runHostCycles _
      · exact synced _
  | rebaseHostClock counter => exact ⟨settled.tube, settled.parasite⟩
  | hostRead address => exact ⟨access_settled settled.tube (.hostRead address), settled.parasite⟩
  | hostWrite address value =>
    rw [Machine.step, Machine.hostWrite]
    by_cases select : (address &&& 7).toNat = 6
    · simp only [if_pos select]
      split
      · by_cases enabled : m.tube.enabled = true
        · exact Clocked.reset_settled _ enabled
        · rw [Clocked.reset, if_pos (by simp [enabled])]
          exact ⟨⟨settled.tube.coherent, settled.tube.signalled.irq, settled.tube.signalled.nmi⟩,
            settled.parasite⟩
      · exact ⟨⟨resetUla_coherent, updateSignals_signalled _⟩, settled.parasite⟩
    · simp only [if_neg select]
      split
      · have noted : Unchanged m.tube.ula { m.tube.ula with lastHostWrite := value } :=
          ⟨rfl, fun _ _ _ => rfl, fun _ _ _ => rfl, rfl, rfl⟩
        obtain ⟨tube, parasite⟩ := restarted_settled m.parasite
          (hostControl_coherent (t := { m.tube with ula := { m.tube.ula with lastHostWrite := value } })
            (noted.coherent settled.tube.coherent) value)
        exact ⟨tube, parasite⟩
      · exact ⟨access_settled settled.tube (.hostWrite address value), settled.parasite⟩

theorem Machine.Settled.run {m : Machine} (settled : m.Settled) (calls : List Call) :
    (Conduit.run Machine.step m calls).Settled :=
  @Conduit.run_invariant _ _ Machine.step _ Machine.Settled
    (fun _ call settled _ => settled.step call) _ settled _
    (Conduit.follows_true Machine.step m calls)

/-- The tick at which the processor takes a latched NMI. -/
def takesNmi (m : Machine) : Bool :=
  !m.parasite.stp && m.parasite.step == 0 && heeds m.parasite && m.tube.parasiteNmi

def ticksTakeNmi : Nat → Machine → Bool
  | 0, _ => false
  | ticks + 1, m => takesNmi m || ticksTakeNmi ticks (m.tick processor)

def cyclesTakeNmi (m : Machine) (hostCycles : Int32) : Bool :=
  ticksTakeNmi (ticksFor m hostCycles).1 (ticksFor m hostCycles).2

namespace Machine

/-- The calls that end a latched NMI: the processor takes it, or is reset. -/
def clearsNmi (m : Machine) : Call → Bool
  | .reset => m.tube.enabled
  | .runHostCycles hostCycles => cyclesTakeNmi m hostCycles
  | .syncHostClock counter =>
    if !m.tube.enabled then false
    else
      let (hostClock, elapsed) := m.hostClock.hostClockSync counter
      if elapsed > 0 then cyclesTakeNmi { m with hostClock } elapsed.toInt32 else false
  | .rebaseHostClock _ | .hostRead _ => false
  | .hostWrite address value => restartsAt m.tube (.hostWrite address value)

/-- The condition of the NMI rises in the call. -/
def raisesNmi (m : Machine) (call : Call) : Bool :=
  !nmiLine m.tube.ula && nmiLine (m.step call).tube.ula

end Machine

/-- What became of the latch while the clock ran. -/
def Ran (m m' : Machine) (taken : Bool) : Prop :=
  m'.tube.parasiteNmi = (m.tube.parasiteNmi && !taken) ∧
    (nmiLine m'.tube.ula = true → nmiLine m.tube.ula = true)

theorem tick_nmi {m : Machine} (settled : m.Settled) : Ran m (m.tick processor) (takesNmi m) := by
  have ticked : (m.tick processor).tube = (vrEmu6502Tick tubeBoard m.parasite m.tube).1 :=
    congrArg (fun t => (vrEmu6502Tick tubeBoard m.parasite t).1) (updateSignals_settled settled.tube)
  have acted : Settled (activity tubeBoard m.parasite m.tube).1 ∧
      (activity tubeBoard m.parasite m.tube).1.parasiteNmi =
        (m.tube.parasiteNmi && !takesNmi m) ∧
      (activity tubeBoard m.parasite m.tube).1.ula = m.tube.ula := by
    have still : ∀ {b}, b = false → m.tube.parasiteNmi = (m.tube.parasiteNmi && !b) := by
      rintro b rfl
      exact (Bool.and_true _).symm
    rw [activity, takesNmi]
    split
    case isTrue stopped =>
      exact ⟨settled.tube, still (by simp [stopped]), rfl⟩
    split
    case isTrue going =>
      exact ⟨settled.tube, still (by simp [going]), rfl⟩
    case isFalse running between =>
      rw [not_not] at between
      split
      case isTrue taken =>
        refine ⟨⟨settled.tube.coherent, settled.tube.signalled.irq, settled.tube.signalled.nmi⟩, ?_, rfl⟩
        have latched : m.tube.parasiteNmi = true := taken.2
        simp [tubeBoard, running, between, taken.1, latched]
      case isFalse untaken =>
        have kept : (!m.parasite.stp && m.parasite.step == 0 && heeds m.parasite &&
            m.tube.parasiteNmi) = false := by
          by_contra taken
          rw [Bool.not_eq_false, Bool.and_eq_true, Bool.and_eq_true] at taken
          exact untaken ⟨taken.1.2, taken.2⟩
        split
        · split
          · exact ⟨settled.tube, still kept, rfl⟩
          · exact ⟨settled.tube, still kept, rfl⟩
        · exact ⟨settled.tube, still kept, rfl⟩
  obtain ⟨begun, latch, same⟩ := acted
  obtain ⟨after, falls⟩ := program_nmi (activity tubeBoard m.parasite m.tube).2 begun
  rw [Ran, ticked, tick_activity, ← same, ← latch]
  exact ⟨after, falls⟩

theorem runTicks_nmi {m : Machine} (settled : m.Settled) (ticks : Nat) :
    Ran m (Clocked.runTicks processor ticks m) (ticksTakeNmi ticks m) := by
  induction ticks generalizing m with
  | zero => exact ⟨(Bool.and_true _).symm, id⟩
  | succ ticks ih =>
    obtain ⟨first, fell⟩ := tick_nmi settled
    obtain ⟨later, falls⟩ := ih settled.tick
    refine ⟨?_, fun line => fell (falls line)⟩
    rw [Clocked.runTicks, later, first, ticksTakeNmi, Bool.not_or, Bool.and_assoc]

theorem runHostCycles_nmi {m : Machine} (settled : m.Settled) (hostCycles : Int32) :
    Ran m (m.runHostCycles processor hostCycles) (cyclesTakeNmi m hostCycles) := by
  obtain ⟨begun, same⟩ : (ticksFor m hostCycles).2.Settled ∧
      (ticksFor m hostCycles).2.tube = m.tube := by
    rw [ticksFor]
    split
    · exact ⟨settled, rfl⟩
    · dsimp only
      split <;> exact ⟨⟨settled.tube, settled.parasite⟩, rfl⟩
  have ran := runTicks_nmi begun (ticksFor m hostCycles).1
  rw [Ran, same] at ran
  rw [runHostCycles_ticks]
  exact ran

theorem Ran.latches {m m' : Machine} {taken : Bool} (ran : Ran m m' taken) :
    m'.tube.parasiteNmi = (m.tube.parasiteNmi && !taken ||
      (!nmiLine m.tube.ula && nmiLine m'.tube.ula)) := by
  have quiet : (!nmiLine m.tube.ula && nmiLine m'.tube.ula) = false := by
    by_contra rises
    rw [Bool.not_eq_false, Bool.and_eq_true, Bool.not_eq_true'] at rises
    rw [ran.2 rises.2] at rises
    exact absurd rises.1 (by decide)
  rw [quiet, Bool.or_false]
  exact ran.1

/-- One call sets the latch, clears it or leaves it as it is. -/
theorem step_nmi {m : Machine} (settled : m.Settled) (call : Call) :
    (m.step call).tube.parasiteNmi =
      (m.tube.parasiteNmi && !m.clearsNmi call || m.raisesNmi call) := by
  have idle : Ran m m false := ⟨(Bool.and_true _).symm, id⟩
  cases call with
  | reset =>
    have same : (m.step .reset).tube = tubeReset m.tube := reset_tube m
    have ran : Ran m (m.step .reset) m.tube.enabled := by
      rw [Ran, same]
      refine ⟨tubeReset_nmi m.tube, fun line => ?_⟩
      rw [tubeReset] at line
      split at line
      · exact absurd line (by decide : ¬nmiLine resetUla = true)
      · exact line
    exact ran.latches
  | runHostCycles hostCycles => exact (runHostCycles_nmi settled hostCycles).latches
  | syncHostClock counter =>
    rw [Machine.raisesNmi, Machine.clearsNmi, Machine.step, Clocked.syncHostClock]
    split
    · exact idle.latches
    · have synced : ∀ clock, Machine.Settled { m with hostClock := clock } := fun _ =>
        ⟨settled.tube, settled.parasite⟩
      dsimp only
      split
      · exact (runHostCycles_nmi (synced _) _).latches
      · exact idle.latches
  | rebaseHostClock counter => exact idle.latches
  | hostRead address => exact access_nmi settled.tube.signalled (.hostRead address)
  | hostWrite address value =>
    have same : (m.step (.hostWrite address value)).tube =
        access m.tube (.hostWrite address value) := hostWrite_tube m address value
    rw [Machine.raisesNmi, same]
    exact access_nmi settled.tube.signalled (.hostWrite address value)

/-- Over any calls, with whatever the parasite's program does in between, the IRQ pin ends as what
the control bits and the flags ask for, and the NMI pin is set exactly if its condition rose in a
call, or it was set before, and since then the processor has neither taken the NMI nor been reset. -/
theorem run_pins {m : Machine} (settled : m.Settled) (calls : List Call) :
    let last := Conduit.run Machine.step m calls
    let pending := Conduit.Follows Machine.step fun m call => m.clearsNmi call = false
    last.tube.parasiteIrq = irqLine last.tube.ula ∧
      (last.tube.parasiteNmi = true ↔ m.tube.parasiteNmi = true ∧ pending m calls ∨
        ∃ before call after, calls = before ++ call :: after ∧
          (Conduit.run Machine.step m before).raisesNmi call = true ∧
          pending (Conduit.run Machine.step m (before ++ [call])) after) := by
  intro last pending
  refine ⟨(settled.run calls).tube.signalled.irq, ?_⟩
  exact @Conduit.run_latch _ _ Machine.step Machine.Settled (fun m => m.tube.parasiteNmi)
    Machine.raisesNmi Machine.clearsNmi (fun _ call settled => settled.step call)
    (fun _ call settled => step_nmi settled call) m settled calls

/-- With the M bit set, a byte for the parasite in R3 is an NMI, until the processor takes it. -/
theorem run_pins_r3 :
    let start := printing.reset processor
    let calls := [.hostWrite 0xfce0 0x88, .runHostCycles 3, .hostWrite 0xfce5 0x41, .hostRead 0xfce4]
    (Conduit.run Machine.step start calls).tube.parasiteNmi = true ∧
      (Conduit.run Machine.step start (calls ++ [.runHostCycles 3])).tube.parasiteNmi = false := by
  intro start calls
  have settled : Machine.Settled start := Clocked.reset_settled printing rfl
  refine ⟨(run_pins settled calls).2.mpr (.inr ?_), by decide +kernel⟩
  exact ⟨[.hostWrite 0xfce0 0x88, .runHostCycles 3], .hostWrite 0xfce5 0x41, [.hostRead 0xfce4],
    rfl, by decide +kernel, rfl, trivial⟩

/-- From a reset, whatever the host calls and the parasite's program does, with or without regard
for the flags: the flags of R1, R2 and R4 say what the channels hold, no channel holds more than it
has room for, and the pins and the processor are in order. -/
theorem machine_settled (m : Machine) (enabled : m.tube.enabled = true) (calls : List Call) :
    let last := Conduit.run Machine.step (m.reset processor) calls
    last.Settled ∧ ∀ d c, (held last.tube.ula d c).length ≤ capacity d c := by
  intro last
  have settled : last.Settled := (Clocked.reset_settled m enabled).run calls
  exact ⟨settled, held_length_le settled.tube.coherent⟩

/-- The host reads a register that nothing was put in. -/
theorem machine_settled_unprinted :
    (Conduit.run Machine.step (printing.reset processor) [.hostRead 0xfce3, .runHostCycles 4]).Settled :=
  (machine_settled printing rfl _).1

/-- The ticks of the Tube's clock are the processor's own, since the signals are up to date. -/
theorem runTicks_ticks {m : Machine} (settled : m.Settled) (n : Nat) :
    ((Clocked.runTicks processor n m).tube, (Clocked.runTicks processor n m).parasite) =
      ticks tubeBoard n (m.tube, m.parasite) := by
  induction n generalizing m with
  | zero => rfl
  | succ n ih =>
    have ticked : vrEmu6502Tick tubeBoard m.parasite (updateSignals m.tube) =
        vrEmu6502Tick tubeBoard m.parasite m.tube := by rw [updateSignals_settled settled.tube]
    rw [Clocked.runTicks, ih settled.tick, ticks, ← ticked]
    rfl

theorem ticks_succ {σ : Type} (b : Board σ) (n : Nat) (x : σ × Cpu) :
    ticks b (n + 1) x = vrEmu6502Tick b (ticks b n x).2 (ticks b n x).1 := by
  induction n generalizing x with
  | zero => rfl
  | succ n ih => exact ih (vrEmu6502Tick b x.2 x.1)

/-- A processor that heeds interrupts has begun a pending one within eight ticks, from where the
instruction under way leaves it: an NMI if one is latched, else an IRQ if its line is up and the
processor allows it. -/
theorem interrupt_within_eight {m : Machine} (settled : m.Settled)
    (heeded : heeds m.parasite = true) :
    let count := m.parasite.step.toNat + 1
    let last := Clocked.runTicks processor count m
    let begun (vec : UInt16) (t : Tube) :=
      (beginInterrupt { m.parasite with step := 0 } vec).run tubeBoard.toDevice t
    count ≤ 8 ∧
      (m.tube.parasiteNmi = true → (last.tube, last.parasite) =
        begun nmiVec { m.tube with parasiteNmi := false }) ∧
      (m.tube.parasiteNmi = false → irqLine m.tube.ula = true →
        testBit m.parasite flagI = false → (last.tube, last.parasite) = begun intVec m.tube) := by
  intro count last begun
  have sound := settled.parasite.sound
  have short := sound.step
  have finished : ticks tubeBoard m.parasite.step.toNat (m.tube, m.parasite) =
      (m.tube, { m.parasite with step := 0 }) := by
    rw [ticks_count sound.stp (Nat.le_refl _), UInt8.ofNat_toNat, UInt8.sub_self]
  have after : (last.tube, last.parasite) =
      vrEmu6502Tick tubeBoard { m.parasite with step := 0 } m.tube := by
    rw [runTicks_ticks settled, ticks_succ, finished]
  have between : vrEmu6502Tick tubeBoard { m.parasite with step := 0 } m.tube =
      if m.tube.parasiteNmi then begun nmiVec { m.tube with parasiteNmi := false }
      else if m.tube.parasiteIrq then
        if testBit m.parasite flagI then fetch tubeBoard { m.parasite with step := 0 } m.tube
        else begun intVec m.tube
      else fetch tubeBoard { m.parasite with step := 0 } m.tube := by
    have awake : { m.parasite with step := 0, wai := false } = { m.parasite with step := 0 } :=
      congrArg (fun wai => { m.parasite with step := 0, wai }) sound.wai.symm
    have listens : heeds { m.parasite with step := 0 } = true := heeded
    rw [vrEmu6502Tick, if_neg (by simp [sound.stp]), if_neg (by simp)]
    simp only [listens, true_and, awake]
    rfl
  refine ⟨by omega, fun latched => ?_, fun quiet line allowed => ?_⟩
  · rw [after, between, if_pos latched]
  · have pin := settled.tube.signalled.irq
    rw [after, between, if_neg (by simp [quiet]), if_pos (by rw [pin, line]), if_neg (by simp [allowed])]

theorem interrupt_within_eight_r3 :
    let m := Conduit.run Machine.step (printing.reset processor)
      [.hostWrite 0xfce0 0x88, .runHostCycles 3, .hostWrite 0xfce5 0x41]
    let last := Clocked.runTicks processor (m.parasite.step.toNat + 1) m
    (last.tube, last.parasite) =
        (beginInterrupt { m.parasite with step := 0 } nmiVec).run tubeBoard.toDevice
          { m.tube with parasiteNmi := false } ∧ m.parasite.step = 2 := by
  intro m last
  have settled : m.Settled := (Clocked.reset_settled printing rfl).run _
  exact ⟨(interrupt_within_eight settled (by decide +kernel)).2.1 (by decide +kernel),
    by decide +kernel⟩

end Machine

end Pi1MHz.Ap5Tube
