import Pi1MHz.Mailbox.Model

/-! The delayed mailbox refines the zero-latency one on separated accesses. One access in
flight runs through at most three waits (capture behind a read callback, its own callback,
the service), each counted down by every tick; `Settling` carries the register file the
access will leave and a bound on the ticks it still needs. -/
namespace Pi1MHz.Mailbox
variable {δ : Type} {dispatch : Dispatch δ}

/-- The cycles whose callback changes anything: writes, and reads of the DATA register. -/
def PostedEvent.settles (e : PostedEvent) : Bool := e.write || e.address == regData

/-- The registers after a cycle's callback and the service it starts, if any. -/
def Registers.effect (dispatch : Dispatch δ) (r : Registers δ) (e : PostedEvent) : Registers δ :=
  if e.startsService then (r.callback e).service dispatch else r.callback e

theorem Registers.callback_unsettling (r : Registers δ) {e : PostedEvent}
    (passive : e.settles = false) : r.callback e = r := by
  simp only [PostedEvent.settles, Bool.or_eq_false_iff] at passive
  simp [Registers.callback, passive]

theorem PostedEvent.unsettling_starts {e : PostedEvent} (passive : e.settles = false) :
    e.startsService = false := by
  simp only [PostedEvent.settles, Bool.or_eq_false_iff] at passive
  simp [PostedEvent.startsService, passive.1]

theorem callbackDelay_unsettling (m : State δ) {e : PostedEvent} (passive : e.settles = false) :
    callbackDelay m e = m.readCallbackDelayTicks := by
  simp only [PostedEvent.settles, Bool.or_eq_false_iff, beq_eq_false_iff_ne] at passive
  simp [callbackDelay, passive.1, passive.2]

theorem callbackDelay_settling (m : State δ) {e : PostedEvent} (settling : e.settles = true) :
    callbackDelay m e ≤ max m.callbackDelayTicks m.pageCallbackDelayTicks := by
  simp only [PostedEvent.settles, Bool.or_eq_true, beq_iff_eq] at settling
  have active : (!e.write && e.address != regData) = false := by
    rcases settling with written | data <;> simp [*]
  simp only [callbackDelay, active, Bool.false_eq_true, if_false]
  split <;> omega

/-- Nothing can move without a tick. -/
def Drained (m : State δ) : Prop :=
  canCapture m = false ∧ canComplete m = false ∧ canServe m = false

theorem drainPass_unchanged {m : State δ} (stuck : (drainPass dispatch m).2 = false) :
    (drainPass dispatch m).1 = m ∧ Drained m := by
  simp only [drainPass, Bool.or_eq_false_iff] at stuck ⊢
  obtain ⟨⟨capture, complete⟩, serve⟩ := stuck
  simp only [capture, Bool.false_eq_true, if_false] at complete serve ⊢
  simp only [complete, Bool.false_eq_true, if_false] at serve ⊢
  simp [serve, Drained, capture, complete]

/-- Induction over the drain loop: a property kept by each of its three transitions holds
of the drained mailbox. -/
theorem drain_induction {P : State δ → Prop} (m : State δ) (start : P m)
    (capture : ∀ m, P m → canCapture m = true → P (capturePostedEvent m))
    (complete : ∀ m, P m → canComplete m = true → P (completeActiveCallback m))
    (serve : ∀ m, P m → canServe m = true → P (completeService dispatch m)) :
    P (drainZeroTimeTransitions dispatch m) ∧
      Drained (drainZeroTimeTransitions dispatch m) := by
  induction m using drainZeroTimeTransitions.induct dispatch with
  | case1 m changed ih =>
    rw [drainZeroTimeTransitions, dif_pos changed]
    refine ih ?_
    simp only [drainPass]
    have first : P (if canCapture m then capturePostedEvent m else m) := by
      split
      · exact capture m start ‹_›
      · exact start
    generalize (if canCapture m then capturePostedEvent m else m) = m₁ at first ⊢
    have second : P (if canComplete m₁ then completeActiveCallback m₁ else m₁) := by
      split
      · exact complete m₁ first ‹_›
      · exact first
    generalize (if canComplete m₁ then completeActiveCallback m₁ else m₁) = m₂ at second ⊢
    split
    · exact serve m₂ second ‹_›
    · exact second
  | case2 m stuck =>
    rw [drainZeroTimeTransitions, dif_neg stuck]
    obtain ⟨same, drained⟩ := drainPass_unchanged (by simpa using stuck)
    rw [same]
    exact ⟨start, drained⟩

/-- Only reads with no effect are outstanding, and no service is. -/
structure Quiet (m : State δ) : Prop where
  idle : m.servicePending = false
  posted : m.posted.valid = true →
    m.posted.settles = false ∧ m.captureTicksRemaining ≤ m.captureDelayTicks
  active : m.active.valid = true →
    m.active.settles = false ∧ m.callbackTicksRemaining ≤ m.readCallbackDelayTicks

/-- Ticks before the posted cycle can be captured. -/
def captureWait (m : State δ) : Nat :=
  max m.captureTicksRemaining (if m.active.valid then m.callbackTicksRemaining else 0)

/-- At most `n` more ticks lead to a quiet mailbox with registers `target`. -/
inductive Settling (dispatch : Dispatch δ) (target : Registers δ) (n : Nat) (m : State δ) : Prop
  | posted (valid : m.posted.valid = true) (idle : m.servicePending = false)
      (behind : m.active.valid = true → m.active.settles = false)
      (leaves : m.toRegisters.effect dispatch m.posted = target)
      (time : captureWait m + callbackDelay m m.posted + m.serviceDelayTicks ≤ n)
  | active (valid : m.active.valid = true) (empty : m.posted.valid = false)
      (idle : m.servicePending = false)
      (leaves : m.toRegisters.effect dispatch m.active = target)
      (time : m.callbackTicksRemaining + m.serviceDelayTicks ≤ n)
  | service (pending : m.servicePending = true) (empty : m.posted.valid = false)
      (returned : m.active.valid = false)
      (leaves : m.toRegisters.service dispatch = target) (time : m.serviceTicksRemaining ≤ n)
  | done (quiet : Quiet m) (leaves : m.toRegisters = target)

theorem Settling.capture {target : Registers δ} {n : Nat} (m : State δ)
    (settling : Settling dispatch target n m) (ready : canCapture m = true) :
    Settling dispatch target n (capturePostedEvent m) := by
  simp only [canCapture, Bool.and_eq_true, Bool.not_eq_true', beq_iff_eq] at ready
  obtain ⟨⟨free, valid⟩, elapsed⟩ := ready
  cases settling with
  | posted _ idle behind leaves time =>
    refine .active rfl rfl idle leaves ?_
    simp only [capturePostedEvent]
    omega
  | active present | service _ empty => simp_all
  | done quiet leaves =>
    refine .done ⟨quiet.idle, by simp [capturePostedEvent], fun _ => ?_⟩ leaves
    have passive := (quiet.posted valid).1
    exact ⟨passive, by simp [capturePostedEvent, callbackDelay_unsettling m passive]⟩

theorem Settling.complete {target : Registers δ} {n : Nat} (m : State δ)
    (settling : Settling dispatch target n m) (valid : m.active.valid = true)
    (elapsed : m.callbackTicksRemaining = 0) :
    Settling dispatch target n (completeActiveCallback m) := by
  cases settling with
  | posted present idle behind leaves time =>
    have passive := behind valid
    refine .posted (by simpa using present) ?_ (by simp) ?_ ?_
    · rw [completeActiveCallback_pending m idle, PostedEvent.unsettling_starts passive]
    · simpa [Registers.callback_unsettling _ passive] using leaves
    · simp_all [captureWait, callbackDelay]
  | active _ empty idle leaves time =>
    have pending := completeActiveCallback_pending m idle
    cases starts : m.active.startsService with
    | true =>
      refine .service (pending.trans starts) (by simpa using empty) (by simp) ?_ ?_
      · simpa [Registers.effect, starts] using leaves
      · rw [completeActiveCallback_started m starts]
        omega
    | false =>
      refine .done ⟨pending.trans starts, by simp [empty], by simp⟩ ?_
      simpa [Registers.effect, starts] using leaves
  | service _ _ returned => simp_all
  | done quiet leaves =>
    have passive := (quiet.active valid).1
    refine .done ⟨?_, by simpa using quiet.posted, by simp⟩ ?_
    · rw [completeActiveCallback_pending m quiet.idle, PostedEvent.unsettling_starts passive]
    · simpa [Registers.callback_unsettling _ passive] using leaves

theorem Settling.serve {target : Registers δ} {n : Nat} (m : State δ)
    (settling : Settling dispatch target n m) (pending : m.servicePending = true) :
    Settling dispatch target n (completeService dispatch m) := by
  cases settling with
  | posted _ idle | active _ _ idle => simp_all
  | service _ empty returned leaves =>
    exact .done ⟨rfl, by simp [completeService, empty], by simp [completeService, returned]⟩ leaves
  | done quiet => simp_all [quiet.idle]

theorem Settling.drain {target : Registers δ} {n : Nat} (m : State δ)
    (settling : Settling dispatch target n m) :
    Settling dispatch target n (drainZeroTimeTransitions dispatch m) ∧
      Drained (drainZeroTimeTransitions dispatch m) := by
  refine drain_induction m settling (fun m => Settling.capture m) ?_ ?_
  · intro m settling ready
    simp only [canComplete, Bool.and_eq_true, beq_iff_eq] at ready
    exact settling.complete m ready.1 ready.2
  · intro m settling ready
    simp only [canServe, Bool.and_eq_true] at ready
    exact settling.serve m ready.1.2

theorem tickService_idle (m : State δ) (idle : m.servicePending = false) :
    tickService dispatch m = m := by
  simp [tickService, idle]

theorem tickCapture_eq (m : State δ) (valid : m.posted.valid = true) :
    tickCapture m = { m with captureTicksRemaining := m.captureTicksRemaining - 1 } := by
  simp only [tickCapture, valid, Bool.true_and, decide_eq_true_eq]
  split
  · rfl
  · have elapsed : m.captureTicksRemaining = 0 := by omega
    rw [elapsed, Nat.zero_sub, ← elapsed]

theorem tickCapture_empty (m : State δ) (empty : m.posted.valid = false) : tickCapture m = m := by
  simp [tickCapture, empty]

theorem tickCallback_returned (m : State δ) (returned : m.active.valid = false) :
    tickCallback m = m := by
  simp [tickCallback, returned]

/-- Counting an active callback down completes it exactly when its time is up. -/
theorem Settling.tickCallback {target : Registers δ} {n : Nat} (m : State δ)
    (valid : m.active.valid = true) (running : m.callbackTicksRemaining ≠ 0)
    (settling : Settling dispatch target n
      { m with callbackTicksRemaining := m.callbackTicksRemaining - 1 }) :
    Settling dispatch target n (tickCallback m) := by
  have positive : 0 < m.callbackTicksRemaining := Nat.pos_of_ne_zero running
  simp only [Mailbox.tickCallback, valid, positive, decide_true, Bool.and_self, if_true, beq_iff_eq]
  split
  · exact settling.complete _ valid ‹_›
  · exact settling

/-- One tick uses up one tick of the bound. -/
theorem Settling.tick {target : Registers δ} {n : Nat} {m : State δ} (drained : Drained m)
    (settling : Settling dispatch target (n + 1) m) :
    Settling dispatch target n (tick dispatch m) ∧ Drained (tick dispatch m) := by
  obtain ⟨capture, complete, serve⟩ := drained
  simp only [canCapture, canComplete, canServe, Bool.and_eq_false_iff, Bool.not_eq_false',
    beq_eq_false_iff_ne] at capture complete serve
  refine Settling.drain _ ?_
  cases settling with
  | posted valid idle behind leaves time =>
    rw [tickService_idle m idle, tickCapture_eq m valid]
    cases active : m.active.valid with
    | false =>
      rw [tickCallback_returned
        { m with captureTicksRemaining := m.captureTicksRemaining - 1 } active]
      have waiting : m.captureTicksRemaining ≠ 0 := by simpa [active, valid] using capture
      refine .posted valid idle behind leaves ?_
      simp only [captureWait, active, Bool.false_eq_true, if_false, callbackDelay] at time ⊢
      omega
    | true =>
      have running : m.callbackTicksRemaining ≠ 0 := by simpa [active] using complete
      refine Settling.tickCallback _ active running (.posted valid idle behind leaves ?_)
      simp only [captureWait, active, if_true, callbackDelay] at time ⊢
      omega
  | active valid empty idle leaves time =>
    have running : m.callbackTicksRemaining ≠ 0 := by simpa [valid] using complete
    rw [tickService_idle m idle, tickCapture_empty m empty]
    refine Settling.tickCallback m valid running (.active valid empty idle leaves ?_)
    simp only
    omega
  | service pending empty returned leaves time =>
    have running : m.serviceTicksRemaining ≠ 0 := by simpa [returned, pending] using serve
    have counted : Settling dispatch target n
        { m with serviceTicksRemaining := m.serviceTicksRemaining - 1 } :=
      .service pending empty returned leaves (by simp only; omega)
    have served : Settling dispatch target n (tickService dispatch m) ∧
        (tickService dispatch m).posted = m.posted ∧ (tickService dispatch m).active = m.active := by
      have counts : (!m.active.valid && m.servicePending &&
          decide (0 < m.serviceTicksRemaining)) = true := by
        simp [returned, pending, Nat.pos_of_ne_zero running]
      simp only [tickService, counts, if_true]
      split
      · exact ⟨counted.serve _ pending, rfl, rfl⟩
      · exact ⟨counted, rfl, rfl⟩
    obtain ⟨settled, posted, active⟩ := served
    rw [tickCapture_empty _ (by rw [posted, empty]),
      tickCallback_returned _ (by rw [active, returned])]
    exact settled
  | done quiet leaves =>
    rw [tickService_idle m quiet.idle]
    have captured : Quiet (tickCapture m) ∧ (tickCapture m).toRegisters = target ∧
        (tickCapture m).active = m.active ∧
        (tickCapture m).callbackTicksRemaining = m.callbackTicksRemaining := by
      cases valid : m.posted.valid with
      | false =>
        rw [tickCapture_empty m valid]
        exact ⟨quiet, leaves, rfl, rfl⟩
      | true =>
        rw [tickCapture_eq m valid]
        refine ⟨⟨quiet.idle, fun _ => ?_, quiet.active⟩, leaves, rfl, rfl⟩
        have bound := (quiet.posted valid).2
        exact ⟨(quiet.posted valid).1, by simp only; omega⟩
    obtain ⟨quiet', leaves', active, remaining⟩ := captured
    cases valid : m.active.valid with
    | false =>
      rw [tickCallback_returned _ (by rw [active, valid])]
      exact .done quiet' leaves'
    | true =>
      refine Settling.tickCallback _ (by rw [active, valid]) ?_
        (.done ⟨quiet'.idle, quiet'.posted, fun _ => ?_⟩ leaves')
      · rw [remaining]
        simpa [valid] using complete
      · have bound := quiet'.active (by rw [active, valid])
        exact ⟨bound.1, by simp only; omega⟩

/-- With no ticks left to wait for, a drained mailbox has settled. -/
theorem Settling.settled {target : Registers δ} {m : State δ} (drained : Drained m)
    (settling : Settling dispatch target 0 m) : Quiet m ∧ m.toRegisters = target := by
  obtain ⟨capture, complete, serve⟩ := drained
  simp only [canCapture, canComplete, canServe, Bool.and_eq_false_iff, Bool.not_eq_false',
    beq_eq_false_iff_ne] at capture complete serve
  cases settling with
  | posted valid idle behind leaves time =>
    cases active : m.active.valid with
    | false => simp_all [captureWait]
    | true => simp_all [captureWait]
  | active valid empty idle leaves time => simp_all
  | service pending empty returned leaves time => simp_all
  | done quiet leaves => exact ⟨quiet, leaves⟩

theorem tickFiq_settles {target : Registers δ} {n ticks : Nat} {m : State δ}
    (enough : n ≤ ticks) (drained : Drained m) (settling : Settling dispatch target n m) :
    Quiet (tickFiq dispatch m ticks) ∧ (tickFiq dispatch m ticks).toRegisters = target ∧
      Drained (tickFiq dispatch m ticks) := by
  induction ticks generalizing n m with
  | zero =>
    have nothing : n = 0 := by omega
    subst nothing
    obtain ⟨quiet, leaves⟩ := settling.settled drained
    exact ⟨quiet, leaves, drained⟩
  | succ ticks ih =>
    cases n with
    | zero =>
      obtain ⟨quiet, leaves⟩ := settling.settled drained
      obtain ⟨next, drained'⟩ := Settling.tick (n := 0) drained (.done quiet leaves)
      exact ih (Nat.zero_le _) drained' next
    | succ n =>
      obtain ⟨next, drained'⟩ := settling.tick drained
      exact ih (by omega) drained' next

theorem drain_toDelays (m : State δ) :
    (drainZeroTimeTransitions dispatch m).toDelays = m.toDelays := by
  refine (drain_induction (P := fun m' => m'.toDelays = m.toDelays) m rfl ?_ ?_ ?_).1
  · intro m' same _
    exact same
  · intro m' same _
    rw [completeActiveCallback_toDelays, same]
  · intro m' same _
    exact same

theorem tick_toDelays (m : State δ) : (tick dispatch m).toDelays = m.toDelays := by
  have service : (tickService dispatch m).toDelays = m.toDelays := by
    simp only [tickService]
    split
    · split <;> rfl
    · rfl
  have capture (m : State δ) : (tickCapture m).toDelays = m.toDelays := by
    simp only [tickCapture]
    split <;> rfl
  have callback (m : State δ) : (tickCallback m).toDelays = m.toDelays := by
    simp only [tickCallback]
    split
    · split
      · rw [completeActiveCallback_toDelays]
      · rfl
    · rfl
  rw [tick, drain_toDelays, callback, capture, service]

theorem tickFiq_toDelays (m : State δ) (ticks : Nat) :
    (tickFiq dispatch m ticks).toDelays = m.toDelays := by
  induction ticks generalizing m with
  | zero => rfl
  | succ ticks ih => rw [tickFiq, ih, tick_toDelays]

/-- One bus cycle as the host drives it. -/
structure Access where
  address : UInt16
  busValue : UInt8
  write : Bool
deriving DecidableEq, Repr

def Access.settles (a : Access) : Bool := a.write || a.address == regData

/-- The separation after which a settling access has left no work behind. -/
def Delays.settleTicks (d : Delays) : Nat :=
  d.captureDelayTicks + d.readCallbackDelayTicks +
    max d.callbackDelayTicks d.pageCallbackDelayTicks + d.serviceDelayTicks

/-- The byte the access returns, from the registers alone. -/
def Access.value (a : Access) (r : Registers δ) : UInt8 :=
  if a.write then a.busValue else r.readValue a.address a.busValue

/-- The cycle the access posts. -/
def Access.event (a : Access) (r : Registers δ) : PostedEvent :=
  ⟨a.address, a.value r, a.write, true⟩

theorem busAccess_eq (m : State δ) (a : Access) :
    busAccess dispatch m a.address a.busValue a.write =
      (a.value m.toRegisters,
        postFiqEvent dispatch m a.address (a.value m.toRegisters) a.write) := by
  cases write : a.write <;> simp [busAccess, Access.value, write]

/-- A cycle posted on a quiet mailbox settles within the separation; a passive read has
settled at once. -/
theorem postFiqEvent_settling (dispatch : Dispatch δ) {m : State δ} (quiet : Quiet m) (a : Access) :
    let posted := postFiqEvent dispatch m a.address (a.value m.toRegisters) a.write
    Settling dispatch (m.toRegisters.effect dispatch (a.event m.toRegisters))
      (if a.settles then m.toDelays.settleTicks else 0) posted ∧ Drained posted := by
  refine Settling.drain _ ?_
  have capture : (if m.posted.valid then m.captureTicksRemaining else m.captureDelayTicks) ≤
      m.captureDelayTicks := by
    split
    · exact (quiet.posted ‹_›).2
    · exact Nat.le_refl _
  cases settles : a.settles with
  | true =>
    refine .posted rfl quiet.idle (fun valid => (quiet.active valid).1) rfl ?_
    have callback : callbackDelay m (a.event m.toRegisters) ≤ _ := callbackDelay_settling m settles
    have waited : (if m.active.valid then m.callbackTicksRemaining else 0) ≤
        m.readCallbackDelayTicks := by
      split
      · exact (quiet.active ‹_›).2
      · exact Nat.zero_le _
    change max _ _ + callbackDelay m (a.event m.toRegisters) + m.serviceDelayTicks ≤
      m.toDelays.settleTicks
    simp only [Delays.settleTicks]
    omega
  | false =>
    have passive : (a.event m.toRegisters).settles = false := settles
    refine .done ⟨quiet.idle, fun _ => ⟨settles, capture⟩, quiet.active⟩ ?_
    simp [Registers.effect, PostedEvent.unsettling_starts passive,
      Registers.callback_unsettling _ passive]

/-- The accesses of a script, each followed by a number of ticks, with the bytes returned. -/
def run (dispatch : Dispatch δ) : State δ → List (Access × Nat) → List UInt8 × State δ
  | m, [] => ([], m)
  | m, (a, ticks) :: rest =>
    let (value, m) := busAccess dispatch m a.address a.busValue a.write
    let (values, m) := run dispatch (tickFiq dispatch m ticks) rest
    (value :: values, m)

/-- The purpose of the mailbox: every access takes effect, service included, before the next. -/
def atomicRun (dispatch : Dispatch δ) : Registers δ → List Access → List UInt8 × Registers δ
  | r, [] => ([], r)
  | r, a :: rest =>
    let (values, r') := atomicRun dispatch (r.effect dispatch (a.event r)) rest
    (a.value r :: values, r')

/-- A script that waits out every settling access runs as the atomic mailbox. The
invariant between accesses is `Quiet` together with `Drained`. -/
theorem run_refines_atomic (dispatch : Dispatch δ) (script : List (Access × Nat))
    {m : State δ} (quiet : Quiet m) (drained : Drained m)
    (separated : ∀ step ∈ script, step.1.settles = true → m.toDelays.settleTicks ≤ step.2) :
    (run dispatch m script).1 = (atomicRun dispatch m.toRegisters (script.map (·.1))).1 ∧
      (run dispatch m script).2.toRegisters =
        (atomicRun dispatch m.toRegisters (script.map (·.1))).2 := by
  induction script generalizing m with
  | nil => exact ⟨rfl, rfl⟩
  | cons step rest ih =>
    obtain ⟨a, ticks⟩ := step
    obtain ⟨settling, drained'⟩ := postFiqEvent_settling dispatch quiet a
    have enough : (if a.settles then m.toDelays.settleTicks else 0) ≤ ticks := by
      split
      · exact separated (a, ticks) (by simp) ‹_›
      · exact Nat.zero_le _
    obtain ⟨quiet', registers, settled⟩ := tickFiq_settles enough drained' settling
    have delays : (tickFiq dispatch
        (postFiqEvent dispatch m a.address (a.value m.toRegisters) a.write) ticks).toDelays =
          m.toDelays := by
      rw [tickFiq_toDelays, postFiqEvent, drain_toDelays]
    have tail := ih quiet' settled (fun step member settles => by
      rw [delays]
      exact separated step (by simp [member]) settles)
    rw [registers] at tail
    simp only [run, busAccess_eq, atomicRun, List.map_cons, List.cons.injEq, true_and]
    exact tail

/-- Set all five latencies, through the two configuration entry points. -/
def configure (m : State δ) (d : Delays) : State δ :=
  setCallbackTiming (setTiming m d.captureDelayTicks d.callbackDelayTicks d.serviceDelayTicks)
    d.callbackDelayTicks d.pageCallbackDelayTicks d.readCallbackDelayTicks

theorem configure_quiet (m : State δ) (d : Delays) :
    Quiet (configure m d) ∧ Drained (configure m d) :=
  ⟨⟨rfl, (by intro valid; cases valid), (by intro valid; cases valid)⟩, rfl, rfl, rfl⟩

/-- A dispatcher that also keeps the list of commands it was given. -/
def recorded (dispatch : Dispatch δ) : Dispatch (δ × List (UInt8 × UInt32)) :=
  fun (state, log) selector cp jim size =>
    let (result, state, jim) := dispatch state selector cp jim size
    (result, (state, log ++ [(selector, cp)]), jim)

/-- Whatever the latencies, a host that leaves `settleTicks` after every write and every
DATA read sees the mailbox that has no latency at all: the same bytes returned, and at the
end the same JIM, cursor, selector, published state and list of dispatched commands. -/
theorem delayed_refines_zero_latency (dispatch : Dispatch δ)
    (m : State (δ × List (UInt8 × UInt32))) (d : Delays) (script : List (Access × Nat))
    (separated : ∀ step ∈ script, step.1.settles = true → d.settleTicks ≤ step.2) :
    let delayed := run (recorded dispatch) (configure m d) script
    let immediate := run (recorded dispatch) (configure m ⟨0, 0, 0, 0, 0⟩)
      (script.map fun step => (step.1, 0))
    delayed.1 = immediate.1 ∧
      delayed.2.jim = immediate.2.jim ∧
      delayed.2.address = immediate.2.address ∧
      delayed.2.page = immediate.2.page ∧
      delayed.2.vpuRegisters = immediate.2.vpuRegisters ∧
      delayed.2.vpuIrq = immediate.2.vpuIrq ∧
      delayed.2.pageWindow = immediate.2.pageWindow ∧
      delayed.2.outputEnabled = immediate.2.outputEnabled ∧
      delayed.2.dispatchOpaque.2 = immediate.2.dispatchOpaque.2 := by
  intro delayed immediate
  obtain ⟨quiet, drained⟩ := configure_quiet m d
  obtain ⟨quiet', drained'⟩ := configure_quiet m ⟨0, 0, 0, 0, 0⟩
  obtain ⟨values, registers⟩ := run_refines_atomic (recorded dispatch) script
    quiet drained separated
  obtain ⟨values', registers'⟩ := run_refines_atomic (recorded dispatch)
    (script.map fun step => (step.1, 0)) quiet' drained' (by
      intro step member _
      exact Nat.zero_le _)
  have accesses : (script.map fun step => (step.1, 0)).map (·.1) = script.map (·.1) := by
    simp [List.map_map, Function.comp_def]
  rw [accesses] at values' registers'
  have same : delayed.2.toRegisters = immediate.2.toRegisters := registers.trans registers'.symm
  refine ⟨values.trans values'.symm, ?_⟩
  rw [same]
  exact ⟨rfl, rfl, rfl, rfl, rfl, rfl, rfl, rfl⟩

theorem delayed_refines_zero_latency_service :
    (run (recorded (fun (n : Nat) selector _ jim _ => (selector, n + 1, jim.write 0 [selector])))
      (configure (init (0, [])) ⟨1, 2, 3, 4, 5⟩)
      [(⟨regCommand, 0xFF, true⟩, 13), (⟨regCommand, 0, false⟩, 0), (⟨regData, 0, false⟩, 20)]).1 =
    (run (recorded (fun (n : Nat) selector _ jim _ => (selector, n + 1, jim.write 0 [selector])))
      (configure (init (0, [])) ⟨0, 0, 0, 0, 0⟩)
      [(⟨regCommand, 0xFF, true⟩, 0), (⟨regCommand, 0, false⟩, 0), (⟨regData, 0, false⟩, 0)]).1 :=
  (delayed_refines_zero_latency _ (init (0, [])) ⟨1, 2, 3, 4, 5⟩
    [(⟨regCommand, 0xFF, true⟩, 13), (⟨regCommand, 0, false⟩, 0), (⟨regData, 0, false⟩, 20)]
    (by decide)).1

end Pi1MHz.Mailbox
