import Pi1MHz.Foundation.Conduit
import Pi1MHz.Foundation.Loop
import Pi1MHz.Mailbox.Coalescing

/-! The registers of the mailbox over every run of accesses and ticks: the cursor and the page
selector stay inside JIM, and the drain loop always ends. -/
namespace Pi1MHz.Mailbox
variable {δ : Type} {dispatch : Dispatch δ}

/-- What holds of the registers at every moment. -/
structure Registers.Safe (r : Registers δ) : Prop where
  address : r.address.toNat < 2 ^ 24
  /-- The set selector names an installed set. -/
  set : (r.page >>> 16).toNat ≤ (r.jimSize - 1) / jimSetSize
  published : r.vpuRegisters[0] = r.address.toUInt8 ∧
    r.vpuRegisters[1] = (r.address >>> 8).toUInt8 ∧ r.vpuRegisters[2] = (r.address >>> 16).toUInt8
  /-- The byte that publishing the cursor reads and a DATA write stores. -/
  cursor : r.servicesBase + r.address.toNat < r.jimSize
  /-- The window is copied from JIM, not filled. -/
  window : r.pageBaseAddress ≤ r.jimSize - 256
  read : ∀ i < 256, r.pageBaseAddress + i < r.jimSize
  write : ∀ address : UInt16, (r.pageBaseAddress ||| (address &&& 0xFF).toNat) < r.jimSize

section Core

/-- The part of the registers that safety depends on. -/
structure Core where
  jimSize : Nat
  servicesBase : Nat
  address : UInt32
  page : UInt32
  low : UInt8
  mid : UInt8
  high : UInt8

def Registers.core (r : Registers δ) : Core where
  jimSize := r.jimSize
  servicesBase := r.servicesBase
  address := r.address
  page := r.page
  low := r.vpuRegisters.get 0
  mid := r.vpuRegisters.get 1
  high := r.vpuRegisters.get 2

theorem vpu_get (registers : Vector UInt8 6) (i : Fin 6) : registers.get i = registers[(i : Nat)] :=
  rfl

def Core.published (c : Core) (address : UInt32) : Core :=
  { c with
    address := address &&& 0xFFFFFF
    low := (address &&& 0xFFFFFF).toUInt8
    mid := ((address &&& 0xFFFFFF) >>> 8).toUInt8
    high := ((address &&& 0xFFFFFF) >>> 16).toUInt8 }

variable (r : Registers δ)

@[simp] theorem Registers.enableVpuOutput_core (address : UInt16) :
    (r.enableVpuOutput address).core = r.core := by
  rw [Registers.enableVpuOutput]
  split
  · simp only [Registers.core]
  · rfl

@[simp] theorem Registers.enableVpuPageOutput_core : r.enableVpuPageOutput.core = r.core := by
  simp only [Registers.core, Registers.enableVpuPageOutput]

@[simp] theorem Registers.publishPageWindow_core : r.publishPageWindow.core = r.core := by
  rw [Registers.publishPageWindow]
  split <;> simp only [Registers.core]

@[simp] theorem Registers.publishServiceCursor_core (drive : Bool) :
    (r.publishServiceCursor drive).core = r.core.published r.address := by
  cases drive with
  | false => simp [Registers.publishServiceCursor, Registers.core, vpu_get, Core.published]
  | true =>
    simp only [Registers.publishServiceCursor, if_true, List.foldl_cons, List.foldl_nil,
      Registers.enableVpuOutput_core]
    simp [Registers.core, vpu_get, Core.published]

theorem Registers.moveCursor_core (address : UInt32) :
    (r.moveCursor address).core = r.core.published address := by
  rw [Registers.moveCursor, Registers.publishServiceCursor_core]
  rfl

theorem Registers.selectPage_core (page : UInt32) (address : UInt16) :
    (r.selectPage page address).core = { r.core with page := page } := by
  rw [Registers.selectPage, Registers.enableVpuOutput_core, Registers.enableVpuPageOutput_core,
    Registers.publishPageWindow_core]
  rfl

/-- The dispatcher has no access to the registers. -/
theorem Registers.service_core : (r.service dispatch).core = r.core := by
  simp only [Registers.service, Registers.enableVpuOutput_core]
  simp [Registers.core, vpu_get]

/-- The registers of an initialised mailbox. -/
structure Core.Sound (c : Core) : Prop where
  jimSize : c.jimSize = Mailbox.jimSize
  servicesBase : c.servicesBase = Mailbox.jimSize - serviceSize
  address : c.address.toNat < 2 ^ 24
  set : (c.page >>> 16).toNat ≤ 2
  low : c.low = c.address.toUInt8
  mid : c.mid = (c.address >>> 8).toUInt8
  high : c.high = (c.address >>> 16).toUInt8

theorem Core.Sound.published {c : Core} (sound : c.Sound) (address : UInt32) :
    (c.published address).Sound := by
  refine ⟨sound.jimSize, sound.servicesBase, ?_, sound.set, rfl, rfl, rfl⟩
  simp only [Core.published, UInt32.toNat_and]
  exact Nat.and_lt_two_pow _ (by decide)

theorem Core.Sound.selects {c : Core} (sound : c.Sound) {page : UInt32}
    (set : (page >>> 16).toNat ≤ 2) : ({ c with page := page } : Core).Sound :=
  ⟨sound.jimSize, sound.servicesBase, sound.address, set, sound.low, sound.mid, sound.high⟩

end Core

section Pages

/-- Writing a lower byte of the selector keeps the set, or drops its bits. -/
theorem set_of_low_write {page mask added : UInt32} (small : added.toNat < 2 ^ 16)
    (set : (page >>> 16).toNat ≤ 2) : ((page &&& mask ||| added) >>> 16).toNat ≤ 2 := by
  have gone : added.toNat >>> 16 = 0 := Nat.shiftRight_eq_zero _ _ small
  simp only [UInt32.toNat_shiftRight, UInt32.toNat_or, UInt32.toNat_and] at set ⊢
  have sixteen : (16 : UInt32).toNat % 32 = 16 := by decide
  rw [sixteen] at set ⊢
  rw [Nat.shiftRight_or_distrib, gone, Nat.or_zero, Nat.shiftRight_and_distrib]
  exact Nat.le_trans Nat.and_le_left set

theorem low_byte_lt (value : UInt8) : value.toUInt32.toNat < 2 ^ 16 := by
  rw [UInt8.toNat_toUInt32]
  exact Nat.lt_of_lt_of_le value.toNat_lt (by decide)

theorem middle_byte_lt (value : UInt8) : (value.toUInt32 <<< 8).toNat < 2 ^ 16 := by
  have small := value.toNat_lt
  have eight : (8 : UInt32).toNat % 32 = 8 := by decide
  rw [UInt32.toNat_shiftLeft, eight, UInt8.toNat_toUInt32, Nat.shiftLeft_eq]
  omega

/-- Writing the set byte replaces the set. -/
theorem set_of_high_write {page : UInt32} {value : UInt8} (installed : value.toNat ≤ 2) :
    ((page &&& (0x00FFFF : UInt32) ||| value.toUInt32 <<< 16) >>> 16).toNat ≤ 2 := by
  have sixteen : (16 : UInt32).toNat % 32 = 16 := by decide
  have mask : (0x00FFFF : UInt32).toNat >>> 16 = 0 := by decide
  simp only [UInt32.toNat_shiftRight, UInt32.toNat_or, UInt32.toNat_and, UInt32.toNat_shiftLeft,
    sixteen, UInt8.toNat_toUInt32]
  rw [Nat.shiftRight_or_distrib, Nat.shiftRight_and_distrib, mask, Nat.and_zero, Nat.zero_or,
    Nat.shiftLeft_eq, Nat.mod_eq_of_lt (by omega), ← Nat.shiftLeft_eq, Nat.shiftLeft_shiftRight]
  exact installed

end Pages

section Callback

variable {r : Registers δ}

theorem sound_branch {condition : Prop} [Decidable condition] {first second : Registers δ}
    (yes : condition → first.core.Sound) (no : ¬condition → second.core.Sound) :
    (if condition then first else second).core.Sound :=
  iteInduction (motive := fun after : Registers δ => after.core.Sound) yes no

theorem Registers.callback_sound (sound : r.core.Sound) (e : PostedEvent) :
    (r.callback e).core.Sound := by
  have last : ((r.jimSize - 1) / jimSetSize).toUInt8 = 2 := by
    rw [show r.jimSize = Mailbox.jimSize from sound.jimSize]
    decide
  unfold Registers.callback
  extract_lets value stored enabled maxSet set selected jimAddress written
  refine sound_branch (fun _ => sound_branch (fun _ => ?_) fun _ => sound) fun _ => ?_
  · rw [Registers.moveCursor_core]
    exact sound.published _
  iterate 3
    refine sound_branch (fun _ => ?_) fun _ => ?_
    · rw [Registers.moveCursor_core]
      exact sound.published _
  refine sound_branch (fun _ => ?_) fun _ => ?_
  · rw [Registers.moveCursor_core]
    exact Core.Sound.published sound _
  refine sound_branch (fun _ => ?_) fun _ => ?_
  · have same : ∀ selector result answer : UInt8, ({ enabled with
        selector := selector
        result := result
        vpuRegisters := enabled.vpuRegisters.set 4 answer } : Registers δ).core = r.core := by
      intro selector result answer
      rw [← r.enableVpuOutput_core e.address]
      simp [Registers.core, vpu_get, enabled]
    refine sound_branch (fun _ => ?_) fun _ => ?_
    · rw [same]
      exact sound
    · rw [same]
      exact sound
  refine sound_branch (fun _ => ?_) fun _ => ?_
  · have same : selected.core = r.core := by simp [Registers.core, vpu_get, selected]
    have installed : set.toNat ≤ 2 := by
      have most : maxSet = 2 := last
      simp only [set, most]
      split
      · decide
      · rename_i below
        simpa [UInt8.lt_iff_toNat_lt] using below
    rw [Registers.selectPage_core, same]
    exact sound.selects (set_of_high_write installed)
  refine sound_branch (fun _ => ?_) fun _ => ?_
  · rw [Registers.selectPage_core]
    exact sound.selects (set_of_low_write (middle_byte_lt _) sound.set)
  refine sound_branch (fun _ => ?_) fun _ => ?_
  · rw [Registers.selectPage_core]
    exact sound.selects (set_of_low_write (low_byte_lt _) sound.set)
  refine sound_branch (fun _ => ?_) fun _ => sound
  have same : written.core = r.core := by
    simp only [written]
    split <;> simp [Registers.core, vpu_get]
  rw [Registers.enableVpuOutput_core]
  rw [← same] at sound
  exact sound

/-- An installed set is not clamped, and its pages follow each other. -/
theorem Registers.pageBaseAddress_eq (sound : r.core.Sound) :
    r.pageBaseAddress = 2 ^ 8 * ((r.page >>> 16).toNat * 2 ^ 16 + (r.page &&& 0xFFFF).toNat) := by
  have size : r.jimSize = 3 * 2 ^ 24 := sound.jimSize
  have set : (r.page >>> 16).toNat ≤ 2 := sound.set
  have unit : jimSetSize = 2 ^ 24 := rfl
  simp only [Registers.pageBaseAddress, size, unit]
  rw [if_neg (by omega), Nat.shiftLeft_eq]
  omega

theorem Registers.safe_of_sound (sound : r.core.Sound) : r.Safe := by
  have size : r.jimSize = 3 * 2 ^ 24 := sound.jimSize
  have services : r.servicesBase = 2 ^ 24 := sound.servicesBase
  have set : (r.page >>> 16).toNat ≤ 2 := sound.set
  have address : r.address.toNat < 2 ^ 24 := sound.address
  have base := r.pageBaseAddress_eq sound
  have page : (r.page &&& 0xFFFF).toNat < 2 ^ 16 := by
    rw [UInt32.toNat_and]
    exact Nat.and_lt_two_pow _ (by decide)
  refine ⟨address, ?_, ⟨sound.low, sound.mid, sound.high⟩, ?_, ?_, ?_, ?_⟩
  · have last : (3 * 2 ^ 24 - 1) / jimSetSize = 2 := by decide
    rw [size, last]
    exact set
  · omega
  · omega
  · intro i inside
    omega
  · intro target
    have offset : (target &&& 0xFF).toNat < 2 ^ 8 := by
      rw [UInt16.toNat_and]
      exact Nat.and_lt_two_pow _ (by decide)
    rw [base, ← Nat.two_pow_add_eq_or_of_lt offset]
    omega

end Callback

section Visits
variable (dispatch)

/-- The registers after each transition of a pass of the drain loop. -/
def passVisits (m : State δ) : List (Registers δ) :=
  let m₁ := if canCapture m then capturePostedEvent m else m
  let m₂ := if canComplete m₁ then completeActiveCallback m₁ else m₁
  [m₁.toRegisters, m₂.toRegisters, (drainPass dispatch m).1.toRegisters]

def drainVisits (m : State δ) : List (Registers δ) :=
  if _changed : (drainPass dispatch m).2 = true then
    passVisits dispatch m ++ drainVisits (drainPass dispatch m).1
  else passVisits dispatch m
termination_by weight m
decreasing_by exact drainPass_weight dispatch m _changed

def tickVisits (m : State δ) : List (Registers δ) :=
  let m₁ := tickCapture (tickService dispatch m)
  m₁.toRegisters :: (tickCallback m₁).toRegisters :: drainVisits dispatch (tickCallback m₁)

def tickFiqVisits (m : State δ) : Nat → List (Registers δ)
  | 0 => []
  | ticks + 1 => tickVisits dispatch m ++ tickFiqVisits (tick dispatch m) ticks

/-- The registers that an operation passes through: every callback and every service runs from
one of them to the next. -/
def Operation.visits (m : State δ) : Operation → List (Registers δ)
  | .access a => drainVisits dispatch (ring m (a.event m.toRegisters))
  | .tick ticks => tickFiqVisits dispatch m ticks

end Visits

section Soundness

variable {m : State δ}

def Sound (m : State δ) : Prop := m.toRegisters.core.Sound

theorem sound_completeActiveCallback (sound : Sound m) : Sound (completeActiveCallback m) := by
  rw [Sound, completeActiveCallback_toRegisters]
  exact Registers.callback_sound sound m.active

theorem sound_completeService (sound : Sound m) : Sound (completeService dispatch m) := by
  have same : (completeService dispatch m).toRegisters = m.toRegisters.service dispatch := rfl
  rw [Sound, same, Registers.service_core]
  exact sound

theorem sound_ite {next : State δ} {condition : Prop} [Decidable condition] (sound : Sound m)
    (kept : Sound m → Sound next) : Sound (if condition then next else m) := by
  split
  · exact kept sound
  · exact sound

theorem sound_passVisits (sound : Sound m) : ∀ r ∈ passVisits dispatch m, r.core.Sound := by
  intro r member
  simp only [passVisits, drainPass, List.mem_cons, List.not_mem_nil, or_false] at member
  have first : Sound (if canCapture m then capturePostedEvent m else m) := sound_ite sound id
  generalize (if canCapture m then capturePostedEvent m else m) = m₁ at first member
  have second : Sound (if canComplete m₁ then completeActiveCallback m₁ else m₁) :=
    sound_ite first sound_completeActiveCallback
  generalize (if canComplete m₁ then completeActiveCallback m₁ else m₁) = m₂ at second member
  rcases member with rfl | rfl | rfl
  · exact first
  · exact second
  · exact sound_ite second sound_completeService

theorem sound_drainPass (sound : Sound m) : Sound (drainPass dispatch m).1 :=
  @sound_passVisits _ dispatch _ sound _ (by simp [passVisits])

theorem sound_drain (sound : Sound m) : Sound (drainZeroTimeTransitions dispatch m) ∧
    ∀ r ∈ drainVisits dispatch m, r.core.Sound := by
  induction m using drainZeroTimeTransitions.induct dispatch with
  | case1 m changed ih =>
    rw [drainZeroTimeTransitions, dif_pos changed, drainVisits, dif_pos changed]
    obtain ⟨last, later⟩ := ih (sound_drainPass sound)
    refine ⟨last, ?_⟩
    intro r member
    rcases List.mem_append.mp member with here | there
    · exact sound_passVisits sound r here
    · exact later r there
  | case2 m stuck =>
    rw [drainZeroTimeTransitions, dif_neg stuck, drainVisits, dif_neg stuck]
    exact ⟨sound_drainPass sound, sound_passVisits sound⟩

theorem sound_tickService (sound : Sound m) : Sound (tickService dispatch m) := by
  rw [tickService]
  refine sound_ite sound fun sound => ?_
  dsimp only
  split
  · exact sound_completeService sound
  · exact sound

theorem sound_tickCapture (sound : Sound m) : Sound (tickCapture m) := by
  rw [tickCapture]
  exact sound_ite sound id

theorem sound_tickCallback (sound : Sound m) : Sound (tickCallback m) := by
  rw [tickCallback]
  refine sound_ite sound fun sound => ?_
  dsimp only
  split
  · exact sound_completeActiveCallback sound
  · exact sound

theorem sound_tick (sound : Sound m) : Sound (tick dispatch m) ∧
    ∀ r ∈ tickVisits dispatch m, r.core.Sound := by
  have counted : Sound (tickCapture (tickService dispatch m)) :=
    sound_tickCapture (sound_tickService sound)
  have completed := sound_tickCallback counted
  obtain ⟨last, drained⟩ := @sound_drain _ dispatch _ completed
  refine ⟨last, ?_⟩
  intro r member
  simp only [tickVisits, List.mem_cons] at member
  rcases member with rfl | rfl | later
  · exact counted
  · exact completed
  · exact drained r later

theorem sound_tickFiq (sound : Sound m) (ticks : Nat) : Sound (tickFiq dispatch m ticks) ∧
    ∀ r ∈ tickFiqVisits dispatch m ticks, r.core.Sound := by
  induction ticks generalizing m with
  | zero => exact ⟨sound, by simp [tickFiqVisits]⟩
  | succ ticks ih =>
    obtain ⟨next, here⟩ := @sound_tick _ dispatch _ sound
    obtain ⟨last, there⟩ := ih next
    refine ⟨last, ?_⟩
    intro r member
    rcases List.mem_append.mp member with now | later
    · exact here r now
    · exact there r later

theorem sound_perform (sound : Sound m) (operation : Operation) :
    Sound (operation.perform dispatch m) ∧ ∀ r ∈ operation.visits dispatch m, r.core.Sound := by
  cases operation with
  | access a =>
    rw [Operation.perform, busAccess_ring, Operation.visits]
    exact sound_drain sound
  | tick ticks => exact sound_tickFiq sound ticks

theorem sound_init (state : δ) : Sound (init state) := by
  simp only [Sound, init, Registers.enableVpuOutput_core, Registers.enableVpuPageOutput_core,
    Registers.publishPageWindow_core, Registers.publishServiceCursor_core]
  simp only [Registers.core, Core.published]
  refine ⟨rfl, rfl, ?_, ?_, rfl, rfl, rfl⟩ <;> decide

theorem sound_configure (sound : Sound m) (d : Delays) : Sound (configure m d) := by
  have same : (configure m d).toRegisters =
      (m.toRegisters.publishServiceCursor false).publishPageWindow := by
    simp only [configure, setCallbackTiming, setTiming]
  rw [Sound, same, Registers.publishPageWindow_core, Registers.publishServiceCursor_core]
  exact sound.published _

end Soundness

section Drain

variable {m : State δ}

/-- The body of the drain loop, for a loop that counts its passes. -/
def drainBody (dispatch : Dispatch δ) (m : State δ) : Option (Loop.Pass (State δ)) :=
  some (if (drainPass dispatch m).2 then .again (drainPass dispatch m).1
    else .leave (drainPass dispatch m).1)

theorem repeatPass_drainBody {passes : Nat} (enough : weight m < passes) :
    Loop.repeatPass (drainBody dispatch) passes m = some (drainZeroTimeTransitions dispatch m) := by
  induction passes generalizing m with
  | zero => cases enough
  | succ passes ih =>
    rw [Loop.repeatPass, drainBody, drainZeroTimeTransitions]
    cases changed : (drainPass dispatch m).2 with
    | true =>
      have lower := drainPass_weight dispatch m changed
      rw [if_pos rfl, dif_pos rfl]
      exact ih (by omega)
    | false =>
      rw [if_neg (by simp), dif_neg (by simp)]

theorem weight_lt (m : State δ) : weight m < 8 := by
  have posted := Bool.toNat_le m.posted.valid
  have active := Bool.toNat_le m.active.valid
  have pending := Bool.toNat_le m.servicePending
  rw [weight]
  omega

/-- No latency is configured, and none is running. -/
structure Immediate (m : State δ) : Prop where
  delays : m.toDelays = ⟨0, 0, 0, 0, 0⟩
  capture : m.captureTicksRemaining = 0
  callback : m.callbackTicksRemaining = 0
  service : m.serviceTicksRemaining = 0

theorem Immediate.callbackDelay_eq (immediate : Immediate m) (e : PostedEvent) :
    callbackDelay m e = 0 := by
  have simple := congrArg Delays.callbackDelayTicks immediate.delays
  have page := congrArg Delays.pageCallbackDelayTicks immediate.delays
  have read := congrArg Delays.readCallbackDelayTicks immediate.delays
  dsimp only at simple page read
  rw [callbackDelay]
  split
  · exact read
  · split
    · exact page
    · exact simple

theorem Immediate.completeActiveCallback (immediate : Immediate m) :
    Immediate (completeActiveCallback m) := by
  refine ⟨by rw [completeActiveCallback_toDelays, immediate.delays],
    by rw [completeActiveCallback_capture, immediate.capture], ?_, ?_⟩
  · simp only [Mailbox.completeActiveCallback]
    split
    · split <;> rfl
    · rfl
  · have nothing := congrArg Delays.serviceDelayTicks immediate.delays
    have running := immediate.service
    simp only [Mailbox.completeActiveCallback]
    split
    · split
      · exact nothing
      · exact running
    · exact running

theorem Immediate.drain (immediate : Immediate m) :
    Immediate (drainZeroTimeTransitions dispatch m) ∧ Drained (drainZeroTimeTransitions dispatch m) := by
  refine drain_induction m immediate ?_ ?_ ?_
  · intro m immediate _
    exact ⟨immediate.delays, rfl, immediate.callbackDelay_eq m.posted, immediate.service⟩
  · intro m immediate _
    exact immediate.completeActiveCallback
  · intro m immediate _
    exact ⟨immediate.delays, immediate.capture, immediate.callback, rfl⟩

theorem Immediate.tick (immediate : Immediate m) : Immediate (tick dispatch m) := by
  have service : tickService dispatch m = m := by simp [tickService, immediate.service]
  have capture : tickCapture m = m := by simp [tickCapture, immediate.capture]
  have callback : tickCallback m = m := by simp [tickCallback, immediate.callback]
  rw [Mailbox.tick, service, capture, callback]
  exact immediate.drain.1

theorem Immediate.perform (immediate : Immediate m) (operation : Operation) :
    Immediate (operation.perform dispatch m) := by
  cases operation with
  | access a =>
    rw [Operation.perform, busAccess_ring]
    have rung : Immediate (ring m (a.event m.toRegisters)) := by
      refine ⟨immediate.delays, ?_, immediate.callback, immediate.service⟩
      have nothing := congrArg Delays.captureDelayTicks immediate.delays
      simp only [ring]
      split
      · exact immediate.capture
      · exact nothing
    exact rung.drain.1
  | tick ticks =>
    rw [Operation.perform]
    induction ticks generalizing m with
    | zero => exact immediate
    | succ ticks ih => exact ih immediate.tick

/-- Without latency a drained mailbox has no work left. -/
theorem Immediate.settled (immediate : Immediate m) (drained : Drained m) :
    m.posted.valid = false ∧ m.active.valid = false ∧ m.servicePending = false := by
  obtain ⟨capture, complete, serve⟩ := drained
  have inactive : m.active.valid = false := by simpa [canComplete, immediate.callback] using complete
  refine ⟨?_, inactive, ?_⟩
  · simpa [canCapture, inactive, immediate.capture] using capture
  · simpa [canServe, inactive, immediate.service] using serve

end Drain

section Operations

variable {m : State δ}

/-- What an access or a run of ticks does. -/
structure SafeOperation (dispatch : Dispatch δ) (m : State δ) (operation : Operation) : Prop where
  /-- Every register file on the way, and the last one. -/
  visited : ∀ r ∈ operation.visits dispatch m, r.Safe
  after : (operation.perform dispatch m).toRegisters.Safe
  drained : Drained (operation.perform dispatch m)
  settled : m.toDelays = ⟨0, 0, 0, 0, 0⟩ →
    (operation.perform dispatch m).posted.valid = false ∧
    (operation.perform dispatch m).active.valid = false ∧
    (operation.perform dispatch m).servicePending = false

structure Reachable (m : State δ) : Prop where
  sound : Sound m
  drained : Drained m
  immediate : m.toDelays = ⟨0, 0, 0, 0, 0⟩ → Immediate m

theorem perform_toDelays (operation : Operation) :
    (operation.perform dispatch m).toDelays = m.toDelays := by
  cases operation with
  | access a =>
    rw [Operation.perform, busAccess_ring, drain_toDelays]
    rfl
  | tick ticks => exact tickFiq_toDelays m ticks

theorem Reachable.perform (reachable : Reachable m) (operation : Operation) :
    Reachable (operation.perform dispatch m) := by
  refine ⟨(sound_perform reachable.sound operation).1, perform_drained reachable.drained operation, ?_⟩
  intro nothing
  rw [perform_toDelays] at nothing
  exact (reachable.immediate nothing).perform operation

theorem Reachable.safe (reachable : Reachable m) (operation : Operation) :
    SafeOperation dispatch m operation := by
  obtain ⟨after, visited⟩ := @sound_perform _ dispatch _ reachable.sound operation
  have drained := @perform_drained _ dispatch _ reachable.drained operation
  refine ⟨fun r member => Registers.safe_of_sound (visited r member), Registers.safe_of_sound after,
    drained, ?_⟩
  intro nothing
  exact ((reachable.immediate nothing).perform operation).settled drained

theorem reachable_init (state : δ) : Reachable (init state) :=
  ⟨sound_init state, ⟨rfl, rfl, rfl⟩, fun _ => ⟨rfl, rfl, rfl, rfl⟩⟩

theorem Reachable.configure (reachable : Reachable m) (d : Delays) : Reachable (configure m d) :=
  ⟨sound_configure reachable.sound d, (configure_quiet m d).2, fun none => ⟨none, rfl, rfl, rfl⟩⟩

theorem reachable_settings (state : δ) (settings : List Delays) :
    Reachable (settings.foldl configure (init state)) := by
  have each : ∀ m : State δ, Reachable m → Reachable (settings.foldl configure m) := by
    intro m reachable
    induction settings generalizing m with
    | nil => exact reachable
    | cons d settings ih => exact ih _ (reachable.configure d)
  exact each (init state) (reachable_init state)

/-- Whatever the dispatcher, the latencies and the accesses: the cursor and the page selector stay
inside JIM, the drain loop ends within eight passes, and without latency every access and tick
leaves nothing to do. -/
theorem mailbox_runs_safe (dispatch : Dispatch δ) (state : δ) (settings : List Delays)
    (operations : List Operation) :
    (settings.foldl configure (init state)).toRegisters.Safe ∧
    (∀ m, Loop.repeatPass (drainBody dispatch) 8 m = some (drainZeroTimeTransitions dispatch m)) ∧
    Conduit.Follows (fun m operation => Operation.perform dispatch m operation)
      (SafeOperation dispatch) (settings.foldl configure (init state)) operations := by
  have reachable := reachable_settings state settings
  refine ⟨Registers.safe_of_sound reachable.sound, fun m => repeatPass_drainBody (weight_lt m), ?_⟩
  exact Conduit.Follows.imp_of_invariant (fun _ operation reachable _ => reachable.perform operation)
    (fun _ operation reachable _ => reachable.safe operation) reachable (Conduit.follows_true _ _ _)

end Operations

end Pi1MHz.Mailbox
