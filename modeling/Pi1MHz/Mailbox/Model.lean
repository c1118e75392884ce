import Mathlib.Algebra.Ring.Nat
import Pi1MHz.Foundation.Memory

/-! The mailbox of the emulator: JIM memory, the address cursor and page selector kept by
the ARM callbacks, the bytes the bus loop can return at once, and the interrupt that
carries one posted bus cycle at a time into a callback. Ticks are counted in `Nat`, since
the code only loads and decrements them. -/
namespace Pi1MHz

/-- JIM memory by absolute offset; the allocated size is carried beside it. -/
abbrev Jim := Memory UInt8

namespace Mailbox

def jimSetSize : Nat := 1 <<< 24
def busBase : Nat := 0xFC00
def jimSize : Nat := 3 <<< 24
def serviceSize : Nat := 2 <<< 24

def regAddrLo : UInt16 := 0xFCA6
def regAddrMid : UInt16 := 0xFCA7
def regAddrHi : UInt16 := 0xFCA8
def regData : UInt16 := 0xFCA9
def regCommand : UInt16 := 0xFCAA
def regIrq : UInt16 := 0xFCAB
def regPageHi : UInt16 := 0xFCFD
def regPageMid : UInt16 := 0xFCFE
def regPageLo : UInt16 := 0xFCFF
def pageBase : UInt16 := 0xFD00
def pageEnd : UInt16 := 0xFDFF

def netBusy : UInt8 := 0x80

/-- One bus cycle as the VPU samples it. -/
structure PostedEvent where
  address : UInt16
  value : UInt8
  write : Bool
  valid : Bool
deriving DecidableEq, Repr

def PostedEvent.none : PostedEvent := ⟨0, 0, false, false⟩

/-- The service dispatcher: a function of its own state, the selector, the command
pointer and JIM. It returns the result byte and may change JIM and its own state. -/
abbrev Dispatch (δ : Type) := δ → UInt8 → UInt32 → Jim → Nat → UInt8 × δ × Jim

/-- What the callbacks and the dispatcher maintain: everything except the interrupt's
progress and the configured latencies. -/
structure Registers (δ : Type) where
  jim : Jim
  jimSize : Nat
  servicesBase : Nat
  address : UInt32
  page : UInt32
  vpuRegisters : Vector UInt8 6
  vpuIrq : UInt8
  pageWindow : Vector UInt8 256
  outputEnabled : Vector Bool 0x200
  result : UInt8
  selector : UInt8
  dispatchOpaque : δ
  mirror : Vector UInt8 160
  mirrorOffset : UInt8
  mirrorLength : UInt8

/-- The configured latencies. -/
structure Delays where
  captureDelayTicks : Nat
  callbackDelayTicks : Nat
  pageCallbackDelayTicks : Nat
  readCallbackDelayTicks : Nat
  serviceDelayTicks : Nat
deriving DecidableEq, Repr

/-- The VPU owns one overwriteable posted sample; the interrupt captures it into a
separate active callback before it acknowledges the doorbell. -/
structure State (δ : Type) extends Registers δ, Delays where
  posted : PostedEvent
  active : PostedEvent
  captureTicksRemaining : Nat
  callbackTicksRemaining : Nat
  serviceTicksRemaining : Nat
  servicePending : Bool
  legacyBusyObservation : Bool

variable {δ : Type}

namespace Registers

def enableVpuOutput (r : Registers δ) (address : UInt16) : Registers δ :=
  if busBase ≤ address.toNat ∧ address ≤ pageEnd then
    { r with outputEnabled := r.outputEnabled.setIfInBounds (address.toNat - busBase) true }
  else r

def enableVpuPageOutput (r : Registers δ) : Registers δ :=
  { r with outputEnabled := Vector.ofFn fun i =>
      if pageBase.toNat - busBase ≤ i.val then true else r.outputEnabled[i] }

/-- An unavailable set selector is clamped to the final installed 16 MiB set. -/
def pageBaseAddress (r : Registers δ) : Nat :=
  let set := (r.page >>> 16).toNat * jimSetSize
  let set := if r.jimSize ≤ set then ((r.jimSize - 1) / jimSetSize) * jimSetSize else set
  set + ((r.page &&& 0xFFFF).toNat <<< 8)

def publishServiceCursor (r : Registers δ) (drive : Bool) : Registers δ :=
  let r := { r with address := r.address &&& 0xFFFFFF }
  let absolute := r.servicesBase + r.address.toNat
  let r := { r with vpuRegisters :=
    (((r.vpuRegisters.set 0 r.address.toUInt8).set 1 (r.address >>> 8).toUInt8).set 2
      (r.address >>> 16).toUInt8).set 3 (r.jim absolute) }
  if drive then
    [regAddrLo, regAddrMid, regAddrHi, regData].foldl enableVpuOutput r
  else r

def publishPageWindow (r : Registers δ) : Registers δ :=
  let base := r.pageBaseAddress
  if base ≤ r.jimSize - 256 then
    { r with pageWindow := Vector.ofFn fun i => r.jim (base + i) }
  else { r with pageWindow := Vector.replicate 256 0xFF }

/-- Move the address cursor and publish it with the byte it names. -/
def moveCursor (r : Registers δ) (address : UInt32) : Registers δ :=
  { r with address }.publishServiceCursor true

/-- Set the page selector, publish the window it names and drive the outputs. -/
def selectPage (r : Registers δ) (page : UInt32) (address : UInt16) : Registers δ :=
  ({ r with page }.publishPageWindow.enableVpuPageOutput).enableVpuOutput address

/-- The register effects of `complete_active_callback`, by the same switch. -/
def callback (r : Registers δ) (e : PostedEvent) : Registers δ :=
  let value := e.value
  if !e.write then
    if e.address == regData then r.moveCursor ((r.address + 1) &&& 0xFFFFFF) else r
  else if e.address == regAddrLo then
    r.moveCursor ((r.address &&& 0xFFFF00) ||| value.toUInt32)
  else if e.address == regAddrMid then
    r.moveCursor ((r.address &&& (0xFF00FF : UInt32)) ||| (value.toUInt32 <<< 8))
  else if e.address == regAddrHi then
    r.moveCursor ((r.address &&& (0x00FFFF : UInt32)) ||| (value.toUInt32 <<< 16))
  else if e.address == regData then
    let r := { r with jim := r.jim.write (r.servicesBase + r.address.toNat) [value] }
    r.moveCursor ((r.address + 1) &&& 0xFFFFFF)
  else if e.address == regCommand then
    let r := r.enableVpuOutput e.address
    if 0xF0 ≤ value then
      { r with selector := value, result := netBusy, vpuRegisters := r.vpuRegisters.set 4 netBusy }
    else { r with result := value, vpuRegisters := r.vpuRegisters.set 4 value }
  else if e.address == regPageHi then
    let maxSet := ((r.jimSize - 1) / jimSetSize).toUInt8
    let value := if maxSet < value then maxSet else value
    let r := { r with vpuRegisters := r.vpuRegisters.set 5 value }
    r.selectPage ((r.page &&& (0x00FFFF : UInt32)) ||| (value.toUInt32 <<< 16)) e.address
  else if e.address == regPageMid then
    r.selectPage ((r.page &&& (0xFF00FF : UInt32)) ||| (value.toUInt32 <<< 8)) e.address
  else if e.address == regPageLo then
    r.selectPage ((r.page &&& 0xFFFF00) ||| value.toUInt32) e.address
  else if pageBase ≤ e.address ∧ e.address ≤ pageEnd then
    let jimAddress := r.pageBaseAddress ||| (e.address &&& 0xFF).toNat
    let r := if jimAddress < r.jimSize then { r with jim := r.jim.write jimAddress [value] } else r
    { r with pageWindow := r.pageWindow.setIfInBounds (e.address &&& 0xFF).toNat value
      }.enableVpuOutput e.address
  else r

/-- The register effects of `complete_service`: run the dispatcher and publish its result. -/
def service (dispatch : Dispatch δ) (r : Registers δ) : Registers δ :=
  let cp : UInt32 := r.servicesBase.toUInt32 ||| (0xFF0000 : UInt32) ||| (r.selector.toUInt32 <<< 8)
  let (result, state, jim) := dispatch r.dispatchOpaque r.selector cp r.jim r.jimSize
  { r with
    result, dispatchOpaque := state, jim
    vpuRegisters := r.vpuRegisters.set 4 result }.enableVpuOutput regCommand

/-- The byte a read cycle returns: always already published state. -/
def readValue (r : Registers δ) (address : UInt16) (busValue : UInt8) : UInt8 :=
  if pageBase ≤ address ∧ address ≤ pageEnd then
    let offset := (address &&& 0xFF).toNat
    let index := offset - r.mirrorOffset.toNat
    if r.mirrorLength ≠ 0 ∧ r.mirrorOffset.toNat ≤ offset ∧ index < r.mirrorLength.toNat then
      r.mirror[index]?.getD 0
    else r.pageWindow[offset]?.getD 0
  else if address == regAddrLo then r.vpuRegisters[0]
  else if address == regAddrMid then r.vpuRegisters[1]
  else if address == regAddrHi then r.vpuRegisters[2]
  else if address == regData then r.vpuRegisters[3]
  else if address == regCommand then r.vpuRegisters[4]
  else if address == regIrq then r.vpuIrq
  else if address == regPageHi then (r.page >>> 16).toUInt8
  else if address == regPageMid then (r.page >>> 8).toUInt8
  else if address == regPageLo then r.page.toUInt8
  else busValue

end Registers

/-- A command write that starts a service. -/
def PostedEvent.startsService (e : PostedEvent) : Bool :=
  e.write && e.address == regCommand && decide (0xF0 ≤ e.value)

/-- A command write of at least `&F0` starts a service; any lower one stops it. -/
def completeActiveCallback (m : State δ) : State δ :=
  let e := m.active
  let m := { m with
    toRegisters := m.toRegisters.callback e
    active := { e with valid := false }
    callbackTicksRemaining := 0 }
  if e.write && e.address == regCommand then
    if 0xF0 ≤ e.value then
      { m with servicePending := true, serviceTicksRemaining := m.serviceDelayTicks }
    else { m with servicePending := false }
  else m

section CompleteActiveCallback
variable (m : State δ)

@[simp] theorem completeActiveCallback_toRegisters :
    (completeActiveCallback m).toRegisters = m.toRegisters.callback m.active := by
  simp only [completeActiveCallback]
  split
  · split <;> rfl
  · rfl

@[simp] theorem completeActiveCallback_toDelays :
    (completeActiveCallback m).toDelays = m.toDelays := by
  simp only [completeActiveCallback]
  split
  · split <;> rfl
  · rfl

@[simp] theorem completeActiveCallback_posted : (completeActiveCallback m).posted = m.posted := by
  simp only [completeActiveCallback]
  split
  · split <;> rfl
  · rfl

@[simp] theorem completeActiveCallback_active :
    (completeActiveCallback m).active = { m.active with valid := false } := by
  simp only [completeActiveCallback]
  split
  · split <;> rfl
  · rfl

@[simp] theorem completeActiveCallback_capture :
    (completeActiveCallback m).captureTicksRemaining = m.captureTicksRemaining := by
  simp only [completeActiveCallback]
  split
  · split <;> rfl
  · rfl

/-- Outside a pending service, a callback leaves one pending exactly when it starts one. -/
theorem completeActiveCallback_pending (idle : m.servicePending = false) :
    (completeActiveCallback m).servicePending = m.active.startsService := by
  simp only [completeActiveCallback, PostedEvent.startsService]
  split
  · split <;> simp_all
  · simp_all

theorem completeActiveCallback_started (starts : m.active.startsService = true) :
    (completeActiveCallback m).serviceTicksRemaining = m.serviceDelayTicks := by
  simp only [PostedEvent.startsService, Bool.and_eq_true, decide_eq_true_eq] at starts
  simp [completeActiveCallback, starts]

end CompleteActiveCallback

def completeService (dispatch : Dispatch δ) (m : State δ) : State δ :=
  { m with
    toRegisters := m.toRegisters.service dispatch
    servicePending := false
    serviceTicksRemaining := 0
    legacyBusyObservation := m.legacyBusyObservation ||
      (m.captureDelayTicks == 0 && m.callbackDelayTicks == 0 && m.serviceDelayTicks == 0) }

/-- The latency `capture_posted_event` loads for the captured cycle. -/
def callbackDelay (m : State δ) (e : PostedEvent) : Nat :=
  if !e.write && e.address != regData then m.readCallbackDelayTicks
  else if e.write && regPageHi ≤ e.address && e.address ≤ regPageLo then
    m.pageCallbackDelayTicks
  else m.callbackDelayTicks

def capturePostedEvent (m : State δ) : State δ :=
  { m with
    active := { m.posted with valid := true }
    posted := { m.posted with valid := false }
    captureTicksRemaining := 0
    callbackTicksRemaining := callbackDelay m m.posted }

/-- Outstanding work, weighted so that every transition of the drain loop lowers it. -/
def weight (m : State δ) : Nat :=
  4 * m.posted.valid.toNat + 2 * m.active.valid.toNat + m.servicePending.toNat

def canCapture (m : State δ) : Bool :=
  !m.active.valid && m.posted.valid && m.captureTicksRemaining == 0

def canComplete (m : State δ) : Bool := m.active.valid && m.callbackTicksRemaining == 0

def canServe (m : State δ) : Bool :=
  !m.active.valid && m.servicePending && m.serviceTicksRemaining == 0

/-- One pass of the drain loop's body, with its `changed` flag. -/
def drainPass (dispatch : Dispatch δ) (m : State δ) : State δ × Bool :=
  let m₁ := if canCapture m then capturePostedEvent m else m
  let m₂ := if canComplete m₁ then completeActiveCallback m₁ else m₁
  let m₃ := if canServe m₂ then completeService dispatch m₂ else m₂
  (m₃, canCapture m || canComplete m₁ || canServe m₂)

theorem capturePostedEvent_weight (m : State δ) (ready : canCapture m = true) :
    weight (capturePostedEvent m) < weight m := by
  simp only [canCapture, Bool.and_eq_true, Bool.not_eq_true'] at ready
  simp [weight, capturePostedEvent, ready.1.1, ready.1.2]

theorem completeActiveCallback_weight (m : State δ) (ready : canComplete m = true) :
    weight (completeActiveCallback m) < weight m := by
  simp only [canComplete, Bool.and_eq_true] at ready
  have started : (completeActiveCallback m).servicePending.toNat ≤ 1 := Bool.toNat_le _
  simp only [weight, completeActiveCallback_posted, completeActiveCallback_active, ready.1,
    Bool.toNat_true, Bool.toNat_false]
  omega

theorem completeService_weight (dispatch : Dispatch δ) (m : State δ) (ready : canServe m = true) :
    weight (completeService dispatch m) < weight m := by
  simp only [canServe, Bool.and_eq_true] at ready
  simp [weight, completeService, ready.1.2]

theorem drainPass_weight (dispatch : Dispatch δ) (m : State δ)
    (changed : (drainPass dispatch m).2 = true) : weight (drainPass dispatch m).1 < weight m := by
  simp only [drainPass, Bool.or_eq_true] at changed ⊢
  have first := capturePostedEvent_weight m
  generalize captured : (if canCapture m then capturePostedEvent m else m) = m₁ at changed ⊢
  have second := completeActiveCallback_weight m₁
  generalize completed : (if canComplete m₁ then completeActiveCallback m₁ else m₁) = m₂
    at changed ⊢
  have third := completeService_weight dispatch m₂
  split at captured <;> split at completed <;> split <;> simp_all <;> omega

/-- `drain_zero_time_transitions`: repeat the pass until nothing changes. -/
def drainZeroTimeTransitions (dispatch : Dispatch δ) (m : State δ) : State δ :=
  if _changed : (drainPass dispatch m).2 = true then
    drainZeroTimeTransitions dispatch (drainPass dispatch m).1
  else (drainPass dispatch m).1
termination_by weight m
decreasing_by exact drainPass_weight dispatch m _changed

/-- Foreground service work progresses only while no callback is active. -/
def tickService (dispatch : Dispatch δ) (m : State δ) : State δ :=
  if !m.active.valid && m.servicePending && 0 < m.serviceTicksRemaining then
    let m := { m with serviceTicksRemaining := m.serviceTicksRemaining - 1 }
    if m.serviceTicksRemaining == 0 then completeService dispatch m else m
  else m

/-- A doorbell rung during a callback lets its latency elapse, but waits to be captured. -/
def tickCapture (m : State δ) : State δ :=
  if m.posted.valid && 0 < m.captureTicksRemaining then
    { m with captureTicksRemaining := m.captureTicksRemaining - 1 }
  else m

def tickCallback (m : State δ) : State δ :=
  if m.active.valid && 0 < m.callbackTicksRemaining then
    let m := { m with callbackTicksRemaining := m.callbackTicksRemaining - 1 }
    if m.callbackTicksRemaining == 0 then completeActiveCallback m else m
  else m

/-- The body of `tick_fiq`'s loop. Work that one tick creates starts on the next. -/
def tick (dispatch : Dispatch δ) (m : State δ) : State δ :=
  drainZeroTimeTransitions dispatch (tickCallback (tickCapture (tickService dispatch m)))

def tickFiq (dispatch : Dispatch δ) (m : State δ) : Nat → State δ
  | 0 => m
  | ticks + 1 => tickFiq dispatch (tick dispatch m) ticks

/-- Ringing an already pending doorbell replaces the sample but not the latency in flight. -/
def postFiqEvent (dispatch : Dispatch δ) (m : State δ) (address : UInt16) (value : UInt8)
    (write : Bool) : State δ :=
  drainZeroTimeTransitions dispatch { m with
    posted := ⟨address, value, write, true⟩
    captureTicksRemaining :=
      if m.posted.valid then m.captureTicksRemaining else m.captureDelayTicks }

def busAccess (dispatch : Dispatch δ) (m : State δ) (address : UInt16) (busValue : UInt8)
    (write : Bool) : UInt8 × State δ :=
  if write then (busValue, postFiqEvent dispatch m address busValue true)
  else
    let value := m.toRegisters.readValue address busValue
    (value, postFiqEvent dispatch m address value false)

def setTiming (m : State δ) (captureTicks callbackTicks serviceTicks : Nat) : State δ :=
  { m with
    toRegisters := (m.toRegisters.publishServiceCursor false).publishPageWindow
    captureDelayTicks := captureTicks
    callbackDelayTicks := callbackTicks
    pageCallbackDelayTicks := callbackTicks
    readCallbackDelayTicks := 0
    serviceDelayTicks := serviceTicks
    posted := { m.posted with valid := false }
    active := { m.active with valid := false }
    servicePending := false
    legacyBusyObservation := false
    captureTicksRemaining := 0
    callbackTicksRemaining := 0
    serviceTicksRemaining := 0 }

def setCallbackTiming (m : State δ) (simpleTicks pageCopyTicks unhandledReadTicks : Nat) :
    State δ :=
  { m with
    callbackDelayTicks := simpleTicks
    pageCallbackDelayTicks := pageCopyTicks
    readCallbackDelayTicks := unhandledReadTicks }

/-- `pi1mhz_mailbox_init`: zeroed JIM, the initial page published and driven. -/
def init (state : δ) : State δ :=
  let r : Registers δ := {
    jim := fun _ => 0, jimSize := jimSize, servicesBase := jimSize - serviceSize
    address := 0, page := 0, vpuRegisters := Vector.replicate 6 0, vpuIrq := 0
    pageWindow := Vector.replicate 256 0, outputEnabled := Vector.replicate 0x200 false
    result := 0, selector := 0, dispatchOpaque := state
    mirror := Vector.replicate 160 0, mirrorOffset := 0, mirrorLength := 0 }
  let r := (r.publishServiceCursor false).publishPageWindow.enableVpuPageOutput
  { toRegisters := (r.enableVpuOutput regCommand).enableVpuOutput regIrq
    posted := .none, active := .none
    captureDelayTicks := 0, callbackDelayTicks := 0, pageCallbackDelayTicks := 0
    readCallbackDelayTicks := 0, serviceDelayTicks := 0
    captureTicksRemaining := 0, callbackTicksRemaining := 0, serviceTicksRemaining := 0
    servicePending := false, legacyBusyObservation := false }

end Mailbox
end Pi1MHz
