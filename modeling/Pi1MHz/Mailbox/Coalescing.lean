import Mathlib.Data.List.Induction
import Pi1MHz.Foundation.Latch
import Pi1MHz.Mailbox.Latency

/-! What becomes of the events that bus accesses post. The interrupt is a latch: the trace of a
run is replayed on it, and the events that the mailbox holds are those of its places. -/
namespace Pi1MHz.Mailbox
variable {δ : Type} {dispatch : Dispatch δ}

/-- What happens along a run. -/
inductive Entry
  | posted (event : PostedEvent)
  | captured
  | completed (event : PostedEvent)
  | dispatched (selector : UInt8)
deriving DecidableEq, Repr

def Entry.op : Entry → Option Latch.Op
  | .posted _ => some .post
  | .captured => some .capture
  | .completed _ => some .complete
  | .dispatched _ => none

def replay (trace : List Entry) : Latch := Latch.empty.replay (trace.filterMap Entry.op)

def postedEvents (trace : List Entry) : List PostedEvent :=
  trace.filterMap fun
    | .posted event => some event
    | _ => none

def completedEvents (trace : List Entry) : List PostedEvent :=
  trace.filterMap fun
    | .completed event => some event
    | _ => none

section Trace
variable (dispatch)

/-- What one pass of the drain loop does. -/
def passTrace (m : State δ) : List Entry :=
  let m₁ := if canCapture m then capturePostedEvent m else m
  let m₂ := if canComplete m₁ then completeActiveCallback m₁ else m₁
  (if canCapture m then [.captured] else []) ++
    (if canComplete m₁ then [.completed m₁.active] else []) ++
    (if canServe m₂ then [.dispatched m₂.selector] else [])

def drainTrace (m : State δ) : List Entry :=
  if _changed : (drainPass dispatch m).2 = true then
    passTrace m ++ drainTrace (drainPass dispatch m).1
  else passTrace m
termination_by weight m
decreasing_by exact drainPass_weight dispatch m _changed

def tickServiceTrace (m : State δ) : List Entry :=
  if !m.active.valid && m.servicePending && 0 < m.serviceTicksRemaining &&
    m.serviceTicksRemaining - 1 == 0 then [.dispatched m.selector] else []

def tickCallbackTrace (m : State δ) : List Entry :=
  if m.active.valid && 0 < m.callbackTicksRemaining && m.callbackTicksRemaining - 1 == 0 then
    [.completed m.active]
  else []

def tickTrace (m : State δ) : List Entry :=
  let m₂ := tickCapture (tickService dispatch m)
  tickServiceTrace m ++ (tickCallbackTrace m₂ ++ drainTrace dispatch (tickCallback m₂))

def tickFiqTrace (m : State δ) : Nat → List Entry
  | 0 => []
  | ticks + 1 => tickTrace dispatch m ++ tickFiqTrace (tick dispatch m) ticks

/-- The state in which the access drains. -/
def ring (m : State δ) (event : PostedEvent) : State δ :=
  { m with
    posted := event
    captureTicksRemaining :=
      if m.posted.valid then m.captureTicksRemaining else m.captureDelayTicks }

def accessTrace (m : State δ) (a : Access) : List Entry :=
  let event := a.event m.toRegisters
  .posted event :: drainTrace dispatch (ring m event)

inductive Operation
  | access (access : Access)
  | tick (ticks : Nat)
deriving DecidableEq, Repr

def Operation.perform (m : State δ) : Operation → State δ
  | .access a => (busAccess dispatch m a.address a.busValue a.write).2
  | .tick ticks => tickFiq dispatch m ticks

def Operation.trace (m : State δ) : Operation → List Entry
  | .access a => accessTrace dispatch m a
  | .tick ticks => tickFiqTrace dispatch m ticks

/-- A run of accesses and ticks, with its trace. -/
def execute (m : State δ) : List Operation → State δ × List Entry
  | [] => (m, [])
  | operation :: operations =>
    let rest := execute (operation.perform dispatch m) operations
    (rest.1, operation.trace dispatch m ++ rest.2)

end Trace

/-- The transitions of the mailbox that matter to its events. -/
inductive Micro (dispatch : Dispatch δ) : State δ → List Entry → State δ → Prop
  | post (m : State δ) (event : PostedEvent) (valid : event.valid = true) :
      Micro dispatch m [.posted event] (ring m event)
  | capture (m : State δ) (free : m.active.valid = false) (valid : m.posted.valid = true) :
      Micro dispatch m [.captured] (capturePostedEvent m)
  | complete (m : State δ) (valid : m.active.valid = true) :
      Micro dispatch m [.completed m.active] (completeActiveCallback m)
  | serve (m : State δ) (pending : m.servicePending = true) :
      Micro dispatch m [.dispatched m.selector] (completeService dispatch m)
  | wait (m : State δ) (capture callback service : Nat) : Micro dispatch m []
      { m with
        captureTicksRemaining := capture, callbackTicksRemaining := callback
        serviceTicksRemaining := service }

inductive Reaches (dispatch : Dispatch δ) : State δ → List Entry → State δ → Prop
  | refl (m : State δ) : Reaches dispatch m [] m
  | step {m m' m'' : State δ} {first rest : List Entry} (micro : Micro dispatch m first m')
      (others : Reaches dispatch m' rest m'') : Reaches dispatch m (first ++ rest) m''

section Reaches

theorem Micro.reaches {m m' : State δ} {trace : List Entry} (micro : Micro dispatch m trace m') :
    Reaches dispatch m trace m' := by
  simpa using Reaches.step micro (.refl m')

theorem Reaches.trans {m m' m'' : State δ} {left right : List Entry}
    (first : Reaches dispatch m left m') (second : Reaches dispatch m' right m'') :
    Reaches dispatch m (left ++ right) m'' := by
  induction first with
  | refl m => exact second
  | step micro _ ih =>
    rw [List.append_assoc]
    exact .step micro (ih second)

theorem reaches_if {m m' : State δ} {trace : List Entry} {condition : Bool}
    (taken : condition = true → Reaches dispatch m trace m') :
    Reaches dispatch m (if condition then trace else []) (if condition then m' else m) := by
  cases condition with
  | true => exact taken rfl
  | false => exact .refl m

theorem reaches_pass (m : State δ) :
    Reaches dispatch m (passTrace m) (drainPass dispatch m).1 := by
  simp only [passTrace, drainPass]
  have first : Reaches dispatch m (if canCapture m then [.captured] else [])
      (if canCapture m then capturePostedEvent m else m) := by
    apply reaches_if
    intro ready
    simp only [canCapture, Bool.and_eq_true, Bool.not_eq_true'] at ready
    exact (Micro.capture m ready.1.1 ready.1.2).reaches
  generalize (if canCapture m then capturePostedEvent m else m) = m₁ at first ⊢
  have second : Reaches dispatch m₁ (if canComplete m₁ then [.completed m₁.active] else [])
      (if canComplete m₁ then completeActiveCallback m₁ else m₁) := by
    apply reaches_if
    intro ready
    simp only [canComplete, Bool.and_eq_true] at ready
    exact (Micro.complete _ ready.1).reaches
  generalize (if canComplete m₁ then completeActiveCallback m₁ else m₁) = m₂ at second ⊢
  refine (first.trans second).trans (reaches_if fun ready => ?_)
  simp only [canServe, Bool.and_eq_true] at ready
  exact (Micro.serve _ ready.1.2).reaches

theorem reaches_drain (m : State δ) :
    Reaches dispatch m (drainTrace dispatch m) (drainZeroTimeTransitions dispatch m) := by
  induction m using drainZeroTimeTransitions.induct dispatch with
  | case1 m changed ih =>
    rw [drainTrace, dif_pos changed, drainZeroTimeTransitions, dif_pos changed]
    exact (reaches_pass m).trans ih
  | case2 m stuck =>
    rw [drainTrace, dif_neg stuck, drainZeroTimeTransitions, dif_neg stuck]
    exact reaches_pass m

theorem reaches_tickService (m : State δ) :
    Reaches dispatch m (tickServiceTrace m) (tickService dispatch m) := by
  have counted : Reaches dispatch m [] { m with serviceTicksRemaining := m.serviceTicksRemaining - 1 } :=
    (Micro.wait m m.captureTicksRemaining m.callbackTicksRemaining _).reaches
  simp only [tickServiceTrace, tickService]
  by_cases running : (!m.active.valid && m.servicePending && decide (0 < m.serviceTicksRemaining)) = true
  · rw [if_pos running]
    simp only [running, Bool.true_and]
    split
    · simp only [Bool.and_eq_true] at running
      exact counted.trans (Micro.serve
        { m with serviceTicksRemaining := m.serviceTicksRemaining - 1 } running.1.2).reaches
    · exact counted
  · rw [if_neg running]
    simp only [Bool.not_eq_true] at running
    simp only [running, Bool.false_and, Bool.false_eq_true, if_false]
    exact .refl m

theorem reaches_tickCapture (m : State δ) : Reaches dispatch m [] (tickCapture m) := by
  simp only [tickCapture]
  split
  · exact (Micro.wait m _ m.callbackTicksRemaining m.serviceTicksRemaining).reaches
  · exact .refl m

theorem reaches_tickCallback (m : State δ) :
    Reaches dispatch m (tickCallbackTrace m) (tickCallback m) := by
  have counted : Reaches dispatch m [] { m with callbackTicksRemaining := m.callbackTicksRemaining - 1 } :=
    (Micro.wait m m.captureTicksRemaining _ m.serviceTicksRemaining).reaches
  simp only [tickCallbackTrace, tickCallback]
  by_cases running : (m.active.valid && decide (0 < m.callbackTicksRemaining)) = true
  · rw [if_pos running]
    simp only [running, Bool.true_and]
    split
    · simp only [Bool.and_eq_true] at running
      exact counted.trans (Micro.complete
        { m with callbackTicksRemaining := m.callbackTicksRemaining - 1 } running.1).reaches
    · exact counted
  · rw [if_neg running]
    simp only [Bool.not_eq_true] at running
    simp only [running, Bool.false_and, Bool.false_eq_true, if_false]
    exact .refl m

theorem reaches_tick (m : State δ) : Reaches dispatch m (tickTrace dispatch m) (tick dispatch m) := by
  have counted : Reaches dispatch m (tickServiceTrace m) (tickCapture (tickService dispatch m)) := by
    have both := (reaches_tickService m).trans (reaches_tickCapture (tickService dispatch m))
    rwa [List.append_nil] at both
  exact counted.trans ((reaches_tickCallback _).trans (reaches_drain _))

theorem reaches_tickFiq (m : State δ) (ticks : Nat) :
    Reaches dispatch m (tickFiqTrace dispatch m ticks) (tickFiq dispatch m ticks) := by
  induction ticks generalizing m with
  | zero => exact .refl m
  | succ ticks ih => exact (reaches_tick m).trans (ih _)

theorem busAccess_ring (m : State δ) (a : Access) :
    (busAccess dispatch m a.address a.busValue a.write).2 =
      drainZeroTimeTransitions dispatch (ring m (a.event m.toRegisters)) := by
  rw [busAccess_eq]
  rfl

theorem reaches_access (m : State δ) (a : Access) : Reaches dispatch m (accessTrace dispatch m a)
    (busAccess dispatch m a.address a.busValue a.write).2 := by
  rw [busAccess_ring]
  exact .step (.post m _ rfl) (reaches_drain _)

theorem reaches_execute (m : State δ) (operations : List Operation) :
    Reaches dispatch m (execute dispatch m operations).2 (execute dispatch m operations).1 := by
  induction operations generalizing m with
  | nil => exact .refl m
  | cons operation operations ih =>
    refine Reaches.trans ?_ (ih _)
    cases operation with
    | access a => exact reaches_access m a
    | tick ticks => exact reaches_tickFiq m ticks

end Reaches

/-- A write of the command register, or a dispatch: what ends the claim of an earlier command. -/
def Entry.supersedes : Entry → Bool
  | .completed event => event.write && event.address == regCommand
  | .dispatched _ => true
  | _ => false

/-- The last command completed is `selector`, and it has not been dispatched. -/
def Commanded (trace : List Entry) (selector : UInt8) : Prop :=
  ∃ before event after, trace = before ++ .completed event :: after ∧
    event.startsService = true ∧ event.value = selector ∧
    ∀ entry ∈ after, entry.supersedes = false

/-- The mailbox holds what the latch holds after the same trace. -/
structure Holds (trace : List Entry) (m : State δ) : Prop where
  accounted : (replay trace).Accounted
  count : (replay trace).next = (postedEvents trace).length
  posted : m.posted.valid = (replay trace).posted.isSome
  active : m.active.valid = (replay trace).active.isSome
  postedEvent : ∀ i, (replay trace).posted = some i → (postedEvents trace)[i]? = some m.posted
  activeEvent : ∀ i, (replay trace).active = some i → (postedEvents trace)[i]? = some m.active
  completed : (completedEvents trace).map some =
    (replay trace).completed.map fun i => (postedEvents trace)[i]?
  commanded : m.servicePending = true → Commanded trace m.selector
  dispatched : ∀ before selector after, trace = before ++ .dispatched selector :: after →
    Commanded before selector

section Holds
variable {m : State δ} {trace : List Entry}

theorem replay_append (trace rest : List Entry) :
    replay (trace ++ rest) = (replay trace).replay (rest.filterMap Entry.op) := by
  simp [replay, Latch.replay]

theorem Commanded.append {selector : UInt8} (commanded : Commanded trace selector) {entry : Entry}
    (keeps : entry.supersedes = false) : Commanded (trace ++ [entry]) selector := by
  obtain ⟨before, event, after, rfl, starts, value, others⟩ := commanded
  refine ⟨before, event, after ++ [entry], by simp, starts, value, ?_⟩
  intro other member
  rcases List.mem_append.mp member with earlier | last
  · exact others other earlier
  · rw [List.mem_singleton.mp last]
    exact keeps

/-- A trace ends with a dispatch or has its dispatches earlier. -/
theorem dispatched_append {entry : Entry} {P : List Entry → UInt8 → Prop}
    (earlier : ∀ before selector after, trace = before ++ .dispatched selector :: after →
      P before selector)
    (last : ∀ selector, entry = .dispatched selector → P trace selector) :
    ∀ before selector after, trace ++ [entry] = before ++ .dispatched selector :: after →
      P before selector := by
  intro before selector after split
  rcases List.eq_nil_or_concat after with rfl | ⟨after, final, rfl⟩
  · obtain ⟨rfl, same⟩ := List.append_inj' split rfl
    exact last selector (List.cons.inj same).1
  · have regrouped : trace ++ [entry] = (before ++ .dispatched selector :: after) ++ [final] := by
      simpa using split
    obtain ⟨same, -⟩ := List.append_inj' regrouped rfl
    exact earlier before selector after same

section Selector
variable (r : Registers δ)

@[simp] theorem Registers.enableVpuOutput_selector (address : UInt16) :
    (r.enableVpuOutput address).selector = r.selector := by
  rw [Registers.enableVpuOutput]
  split <;> rfl

@[simp] theorem Registers.moveCursor_selector (address : UInt32) :
    (r.moveCursor address).selector = r.selector := by
  simp [Registers.moveCursor, Registers.publishServiceCursor]

@[simp] theorem Registers.selectPage_selector (page : UInt32) (address : UInt16) :
    (r.selectPage page address).selector = r.selector := by
  simp only [Registers.selectPage, Registers.enableVpuOutput_selector,
    Registers.enableVpuPageOutput, Registers.publishPageWindow]
  split <;> rfl

theorem Registers.selector_branch {condition : Prop} [Decidable condition] {first second : Registers δ}
    (yes : condition → first.selector = r.selector) (no : ¬condition → second.selector = r.selector) :
    (if condition then first else second).selector = r.selector :=
  iteInduction (motive := fun after : Registers δ => after.selector = r.selector) yes no

/-- Only a command write that starts a service sets the selector. -/
theorem Registers.callback_selector (e : PostedEvent) :
    (r.callback e).selector = if e.startsService then e.value else r.selector := by
  cases write : e.write with
  | false =>
    simp only [Registers.callback, PostedEvent.startsService, write, Bool.not_false, if_true,
      Bool.false_and, Bool.false_eq_true, if_false]
    split <;> simp
  | true =>
    by_cases command : e.address = regCommand
    · have others : (regCommand == regAddrLo) = false ∧ (regCommand == regAddrMid) = false ∧
          (regCommand == regAddrHi) = false ∧ (regCommand == regData) = false := by decide
      simp only [Registers.callback, PostedEvent.startsService, write, command, others,
        Bool.not_true, Bool.false_eq_true, if_false, beq_self_eq_true, if_true, Bool.true_and,
        decide_eq_true_eq]
      split
      · rfl
      · simp
    · have silent : e.startsService = false := by simp [PostedEvent.startsService, command]
      rw [silent, if_neg Bool.false_ne_true]
      unfold Registers.callback
      extract_lets value stored enabled maxSet set selected jimAddress written
      refine r.selector_branch (fun read => absurd read (by simp [write])) fun _ => ?_
      iterate 3 refine r.selector_branch (fun _ => r.moveCursor_selector _) fun _ => ?_
      refine r.selector_branch (fun _ => stored.moveCursor_selector _) fun _ => ?_
      refine r.selector_branch (fun same => absurd (beq_iff_eq.mp same) command) fun _ => ?_
      refine r.selector_branch (fun _ => selected.selectPage_selector _ _) fun _ => ?_
      iterate 2 refine r.selector_branch (fun _ => r.selectPage_selector _ _) fun _ => ?_
      refine r.selector_branch (fun _ => ?_) fun _ => rfl
      rw [Registers.enableVpuOutput_selector]
      exact r.selector_branch (fun _ => rfl) fun _ => rfl

end Selector

theorem Holds.post (holds : Holds trace m) {event : PostedEvent} (valid : event.valid = true) :
    Holds (trace ++ [.posted event]) (ring m event) := by
  have step : replay (trace ++ [.posted event]) = (replay trace).step .post := replay_append _ _
  have posts : postedEvents (trace ++ [.posted event]) = postedEvents trace ++ [event] := by
    simp [postedEvents]
  have done : completedEvents (trace ++ [.posted event]) = completedEvents trace := by
    simp [completedEvents]
  have older (i : Nat) (member : i ∈ (replay trace).held) :
      (postedEvents trace ++ [event])[i]? = (postedEvents trace)[i]? := by
    apply List.getElem?_append_left
    rw [← holds.count]
    exact holds.accounted.lt_next member
  refine ⟨?_, ?_, ?_, ?_, ?_, ?_, ?_, ?_, ?_⟩
  · rw [step]
    exact holds.accounted.post
  · rw [step, posts, List.length_append]
    exact congrArg (· + 1) holds.count
  · rw [step]
    exact valid
  · rw [step]
    exact holds.active
  · rw [step, posts]
    intro i same
    cases same
    rw [holds.count]
    simp [ring]
  · rw [step, posts]
    intro i same
    rw [older i (by simp [Latch.held, show (replay trace).active = some i from same])]
    exact holds.activeEvent i same
  · rw [step, posts, done, holds.completed]
    apply List.map_congr_left
    intro i member
    exact (older i (by simp [Latch.held, member])).symm
  · intro pending
    exact (holds.commanded pending).append rfl
  · exact dispatched_append holds.dispatched fun _ same => by cases same

theorem Holds.capture (holds : Holds trace m) (free : m.active.valid = false)
    (valid : m.posted.valid = true) : Holds (trace ++ [.captured]) (capturePostedEvent m) := by
  have step : replay (trace ++ [.captured]) = (replay trace).step .capture := replay_append _ _
  have posts : postedEvents (trace ++ [.captured]) = postedEvents trace := by simp [postedEvents]
  have done : completedEvents (trace ++ [.captured]) = completedEvents trace := by
    simp [completedEvents]
  have taken : ({ m.posted with valid := true } : PostedEvent) = m.posted := by rw [← valid]
  have idle : (replay trace).active = none := by
    have same := holds.active
    rw [free] at same
    exact Option.not_isSome_iff_eq_none.mp (by simp [← same])
  refine ⟨?_, ?_, ?_, ?_, ?_, ?_, ?_, ?_, ?_⟩
  · rw [step]
    exact holds.accounted.capture idle
  · rw [step, posts]
    exact holds.count
  · rw [step]
    rfl
  · rw [step]
    exact valid.symm.trans holds.posted
  · rw [step]
    intro i same
    cases same
  · rw [step, posts]
    intro i same
    rw [capturePostedEvent, taken]
    exact holds.postedEvent i same
  · rw [step, posts, done]
    exact holds.completed
  · intro pending
    exact (holds.commanded pending).append rfl
  · exact dispatched_append holds.dispatched fun _ same => by cases same

/-- A completed command write leaves its own command, any other callback the one before. -/
theorem Holds.complete_commanded (holds : Holds trace m)
    (pending : (completeActiveCallback m).servicePending = true) :
    Commanded (trace ++ [.completed m.active]) (completeActiveCallback m).selector := by
  have selector : (completeActiveCallback m).selector =
      if m.active.startsService then m.active.value else m.selector := by
    rw [completeActiveCallback_toRegisters, Registers.callback_selector]
  cases starts : m.active.startsService with
  | true =>
    rw [selector, starts, if_pos rfl]
    exact ⟨trace, m.active, [], rfl, starts, rfl, fun _ member => by cases member⟩
  | false =>
    rw [selector, starts, if_neg Bool.false_ne_true]
    simp only [PostedEvent.startsService] at starts
    simp only [completeActiveCallback] at pending
    split at pending
    next command =>
      rw [command, Bool.true_and, decide_eq_false_iff_not] at starts
      rw [if_neg starts] at pending
      cases pending
    next other =>
      apply (holds.commanded pending).append
      simpa [Entry.supersedes] using other

theorem Holds.complete (holds : Holds trace m) (valid : m.active.valid = true) :
    Holds (trace ++ [.completed m.active]) (completeActiveCallback m) := by
  have step : replay (trace ++ [.completed m.active]) = (replay trace).step .complete :=
    replay_append _ _
  have posts : postedEvents (trace ++ [.completed m.active]) = postedEvents trace := by
    simp [postedEvents]
  have done : completedEvents (trace ++ [.completed m.active]) =
      completedEvents trace ++ [m.active] := by
    simp [completedEvents]
  obtain ⟨i, running⟩ : ∃ i, (replay trace).active = some i := by
    rw [← Option.isSome_iff_exists, ← holds.active]
    exact valid
  refine ⟨?_, ?_, ?_, ?_, ?_, ?_, ?_, holds.complete_commanded, ?_⟩
  · rw [step]
    exact holds.accounted.complete
  · rw [step, posts]
    exact holds.count
  · rw [step, completeActiveCallback_posted]
    exact holds.posted
  · rw [step, completeActiveCallback_active]
    rfl
  · rw [step, posts, completeActiveCallback_posted]
    exact holds.postedEvent
  · rw [step]
    intro j same
    cases same
  · rw [step, posts, done]
    simp [Latch.step, holds.completed, running, holds.activeEvent i running]
  · exact dispatched_append holds.dispatched fun _ same => by cases same

theorem Holds.serve (holds : Holds trace m) (pending : m.servicePending = true) :
    Holds (trace ++ [.dispatched m.selector]) (completeService dispatch m) := by
  have step : replay (trace ++ [.dispatched m.selector]) = replay trace := replay_append _ _
  have posts : postedEvents (trace ++ [.dispatched m.selector]) = postedEvents trace := by
    simp [postedEvents]
  have done : completedEvents (trace ++ [.dispatched m.selector]) = completedEvents trace := by
    simp [completedEvents]
  refine ⟨?_, ?_, ?_, ?_, ?_, ?_, ?_, ?_, ?_⟩
  · rw [step]
    exact holds.accounted
  · rw [step, posts]
    exact holds.count
  · rw [step]
    exact holds.posted
  · rw [step]
    exact holds.active
  · rw [step, posts]
    exact holds.postedEvent
  · rw [step, posts]
    exact holds.activeEvent
  · rw [step, posts, done]
    exact holds.completed
  · intro served
    cases served
  · refine dispatched_append holds.dispatched ?_
    rintro selector ⟨⟩
    exact holds.commanded pending

theorem Holds.micro (holds : Holds trace m) {entries : List Entry} {m' : State δ}
    (micro : Micro dispatch m entries m') : Holds (trace ++ entries) m' := by
  cases micro with
  | post event valid => exact holds.post valid
  | capture free valid => exact holds.capture free valid
  | complete valid => exact holds.complete valid
  | serve pending => exact holds.serve pending
  | wait capture callback service =>
    rw [List.append_nil]
    exact ⟨holds.accounted, holds.count, holds.posted, holds.active, holds.postedEvent,
      holds.activeEvent, holds.completed, holds.commanded, holds.dispatched⟩

theorem Holds.reaches (holds : Holds trace m) {rest : List Entry} {m' : State δ}
    (reaches : Reaches dispatch m rest m') : Holds (trace ++ rest) m' := by
  induction reaches generalizing trace with
  | refl m =>
    rw [List.append_nil]
    exact holds
  | step micro _ ih =>
    rw [← List.append_assoc]
    exact ih (holds.micro micro)

theorem configure_holds (m : State δ) (d : Delays) : Holds [] (configure m d) := by
  refine ⟨Latch.empty_accounted, rfl, rfl, rfl, ?_, ?_, rfl, ?_, ?_⟩
  · intro i same
    cases same
  · intro i same
    cases same
  · intro pending
    cases pending
  · intro before selector after same
    simp at same

end Holds

section Time
variable {m : State δ}

theorem drained_drain (dispatch : Dispatch δ) (m : State δ) :
    Drained (drainZeroTimeTransitions dispatch m) :=
  (drain_induction (P := fun _ => True) m trivial (fun _ _ _ => trivial) (fun _ _ _ => trivial)
    fun _ _ _ => trivial).2

theorem drain_of_drained (drained : Drained m) : drainZeroTimeTransitions dispatch m = m := by
  obtain ⟨capture, complete, serve⟩ := drained
  have pass : drainPass dispatch m = (m, false) := by simp [drainPass, capture, complete, serve]
  rw [drainZeroTimeTransitions, dif_neg (by simp [pass]), pass]

/-- Behind a pending sample or an active callback, an access only replaces the sample. -/
theorem busAccess_busy (dispatch : Dispatch δ) (drained : Drained m)
    (busy : m.active.valid = true ∨ m.posted.valid = true)
    (a : Access) : (busAccess dispatch m a.address a.busValue a.write).2 =
      ring m (a.event m.toRegisters) := by
  rw [busAccess_ring]
  apply drain_of_drained
  obtain ⟨capture, complete, serve⟩ := drained
  refine ⟨?_, complete, serve⟩
  rcases busy with active | posted
  · simp [canCapture, ring, active]
  · simpa [canCapture, ring, posted, Access.event] using capture

/-- Ticks before the active callback returns. -/
def activeWait (m : State δ) : Nat := if m.active.valid then m.callbackTicksRemaining else 0

/-- A tick before it drains: the counters have moved, and a callback may have returned. -/
structure Counted (m m' : State δ) : Prop where
  posted : m'.posted = m.posted
  delays : m'.toDelays = m.toDelays
  capture : m.posted.valid = true → m'.captureTicksRemaining = m.captureTicksRemaining - 1
  active : activeWait m' = activeWait m - 1
  running : m'.active.valid = true → m'.callbackTicksRemaining ≠ 0

theorem tickService_fields (dispatch : Dispatch δ) (m : State δ) :
    (tickService dispatch m).posted = m.posted ∧ (tickService dispatch m).active = m.active ∧
      (tickService dispatch m).toDelays = m.toDelays ∧
      (tickService dispatch m).captureTicksRemaining = m.captureTicksRemaining ∧
      (tickService dispatch m).callbackTicksRemaining = m.callbackTicksRemaining := by
  simp only [tickService]
  split
  · split <;> exact ⟨rfl, rfl, rfl, rfl, rfl⟩
  · exact ⟨rfl, rfl, rfl, rfl, rfl⟩

theorem tickCapture_fields (m : State δ) :
    (tickCapture m).posted = m.posted ∧ (tickCapture m).active = m.active ∧
      (tickCapture m).toDelays = m.toDelays ∧
      (m.posted.valid = true → (tickCapture m).captureTicksRemaining = m.captureTicksRemaining - 1) ∧
      (tickCapture m).callbackTicksRemaining = m.callbackTicksRemaining := by
  cases valid : m.posted.valid with
  | true =>
    rw [tickCapture_eq m valid]
    exact ⟨rfl, rfl, rfl, fun _ => rfl, rfl⟩
  | false =>
    rw [tickCapture_empty m valid]
    exact ⟨rfl, rfl, rfl, fun present => (by cases present), rfl⟩

/-- A running callback counts down, and completes when nothing is left. -/
theorem tickCallback_counted (running : m.active.valid = true → m.callbackTicksRemaining ≠ 0) :
    (tickCallback m).posted = m.posted ∧ (tickCallback m).toDelays = m.toDelays ∧
      (tickCallback m).captureTicksRemaining = m.captureTicksRemaining ∧
      activeWait (tickCallback m) = activeWait m - 1 ∧
      ((tickCallback m).active.valid = true → (tickCallback m).callbackTicksRemaining ≠ 0) := by
  cases valid : m.active.valid with
  | false =>
    rw [tickCallback_returned m valid]
    refine ⟨rfl, rfl, rfl, ?_, fun present => ?_⟩
    · simp [activeWait, valid]
    · rw [valid] at present
      cases present
  | true =>
    have positive : 0 < m.callbackTicksRemaining := Nat.pos_of_ne_zero (running valid)
    simp only [tickCallback, valid, positive, decide_true, Bool.and_self, if_true, beq_iff_eq]
    split
    next returned =>
      refine ⟨by simp, by simp, by simp, ?_, by simp⟩
      simp [activeWait, valid, returned]
    next left => exact ⟨rfl, rfl, rfl, by simp [activeWait, valid], fun _ => left⟩

theorem counted_tick (dispatch : Dispatch δ) (drained : Drained m) :
    Counted m (tickCallback (tickCapture (tickService dispatch m))) := by
  have complete := drained.2.1
  simp only [canComplete, Bool.and_eq_false_iff, beq_eq_false_iff_ne] at complete
  obtain ⟨posted, active, delays, capture, callback⟩ := tickService_fields dispatch m
  obtain ⟨posted', active', delays', capture', callback'⟩ :=
    tickCapture_fields (tickService dispatch m)
  have waits : activeWait (tickCapture (tickService dispatch m)) = activeWait m := by
    simp only [activeWait, active', active, callback', callback]
  obtain ⟨posted'', delays'', capture'', wait, running⟩ :=
    tickCallback_counted (m := tickCapture (tickService dispatch m)) (by
      rw [active', active, callback', callback]
      intro valid
      simpa [valid] using complete)
  refine ⟨?_, ?_, ?_, ?_, running⟩
  · rw [posted'', posted', posted]
  · rw [delays'', delays', delays]
  · intro valid
    rw [capture'', capture' (by rw [posted, valid]), capture]
  · rw [wait, waits]

/-- Ticks that bring every event to the end of its callback. -/
def outstanding (m : State δ) : Nat :=
  activeWait m +
    if m.posted.valid then m.captureTicksRemaining + callbackDelay m m.posted else 0

theorem callbackDelay_congr {m m' : State δ} (same : m'.toDelays = m.toDelays) (e : PostedEvent) :
    callbackDelay m' e = callbackDelay m e := by
  simp only [callbackDelay, same]

theorem outstanding_drain (m : State δ) :
    outstanding (drainZeroTimeTransitions dispatch m) ≤ outstanding m := by
  refine (drain_induction (P := fun m' => outstanding m' ≤ outstanding m) m (Nat.le_refl _)
    ?_ ?_ ?_).1
  · intro m' bound ready
    simp only [canCapture, Bool.and_eq_true, Bool.not_eq_true', beq_iff_eq] at ready
    refine Nat.le_trans ?_ bound
    simp [outstanding, activeWait, capturePostedEvent, ready]
  · intro m' bound ready
    simp only [canComplete, Bool.and_eq_true, beq_iff_eq] at ready
    refine Nat.le_trans ?_ bound
    simp only [outstanding, activeWait, completeActiveCallback_posted,
      completeActiveCallback_active, completeActiveCallback_capture, ready,
      callbackDelay_congr (completeActiveCallback_toDelays m')]
    exact Nat.le_refl _
  · intro m' bound _
    exact bound

/-- A tick brings what is outstanding closer to its end. -/
theorem outstanding_tick (dispatch : Dispatch δ) (drained : Drained m)
    (busy : m.active.valid = true ∨ m.posted.valid = true) :
    outstanding (tick dispatch m) < outstanding m := by
  have counted := counted_tick dispatch drained
  obtain ⟨capture, complete, -⟩ := drained
  simp only [canCapture, canComplete, Bool.and_eq_false_iff, Bool.not_eq_false',
    beq_eq_false_iff_ne] at capture complete
  refine Nat.lt_of_le_of_lt (outstanding_drain _) ?_
  simp only [outstanding, counted.posted, counted.active, callbackDelay_congr counted.delays]
  cases active : m.active.valid with
  | true =>
    have running : m.callbackTicksRemaining ≠ 0 := by simpa [active] using complete
    have wait : activeWait m = m.callbackTicksRemaining := by simp [activeWait, active]
    split
    next valid =>
      rw [counted.capture valid]
      omega
    next => omega
  | false =>
    have valid : m.posted.valid = true := by simpa [active] using busy
    have waiting : m.captureTicksRemaining ≠ 0 := by simpa [active, valid] using capture
    rw [if_pos valid, if_pos valid, counted.capture valid]
    omega

/-- Left alone for long enough, the mailbox has completed every event it holds. -/
theorem tickFiq_completes (dispatch : Dispatch δ) (drained : Drained m) : ∃ ticks,
    (tickFiq dispatch m ticks).active.valid = false ∧
      (tickFiq dispatch m ticks).posted.valid = false := by
  induction left : outstanding m using Nat.strongRecOn generalizing m with
  | _ left ih =>
    by_cases busy : m.active.valid = true ∨ m.posted.valid = true
    · have less := outstanding_tick dispatch drained busy
      obtain ⟨ticks, done⟩ := ih _ (left ▸ less) (drained_drain dispatch _) rfl
      exact ⟨ticks + 1, done⟩
    · simp only [not_or, Bool.not_eq_true] at busy
      exact ⟨0, busy⟩

/-- A sample whose wait is over is captured as the mailbox drains. -/
theorem drain_captures (running : m.active.valid = true → m.callbackTicksRemaining ≠ 0)
    (elapsed : captureWait m = 0) :
    (drainZeroTimeTransitions dispatch m).posted.valid = false := by
  simp only [captureWait, Nat.max_eq_zero_iff] at elapsed
  have returned : m.active.valid = false := by
    by_contra present
    simp only [Bool.not_eq_false] at present
    exact running present (by simpa [present] using elapsed.2)
  have free : (drainZeroTimeTransitions dispatch m).posted.valid = true →
      (drainZeroTimeTransitions dispatch m).active.valid = false ∧
        (drainZeroTimeTransitions dispatch m).captureTicksRemaining = 0 := by
    refine (drain_induction (P := fun m' => m'.posted.valid = true →
      m'.active.valid = false ∧ m'.captureTicksRemaining = 0) m ?_ ?_ ?_ ?_).1
    · exact fun _ => ⟨returned, elapsed.1⟩
    · intro m' _ _ present
      cases present
    · intro m' free ready present
      simp only [canComplete, Bool.and_eq_true] at ready
      rw [completeActiveCallback_posted] at present
      have idle := (free present).1
      rw [ready.1] at idle
      cases idle
    · exact fun _ free _ => free
  by_contra present
  simp only [Bool.not_eq_false] at present
  have ready := (drained_drain dispatch m).1
  simp [canCapture, present, free present] at ready

/-- A sample that has to wait stays as it is while the mailbox drains. -/
theorem drain_waits (dispatch : Dispatch δ)
    (running : m.active.valid = true → m.callbackTicksRemaining ≠ 0)
    (waits : captureWait m ≠ 0) :
    (drainZeroTimeTransitions dispatch m).posted = m.posted ∧
      captureWait (drainZeroTimeTransitions dispatch m) = captureWait m := by
  have same_wait : ∀ m' : State δ, m'.posted = m.posted ∧ m'.active = m.active ∧
      m'.captureTicksRemaining = m.captureTicksRemaining ∧
      m'.callbackTicksRemaining = m.callbackTicksRemaining →
      m'.posted = m.posted ∧ captureWait m' = captureWait m := by
    rintro m' ⟨posted, active, capture, callback⟩
    exact ⟨posted, by simp only [captureWait, active, capture, callback]⟩
  apply same_wait
  refine (drain_induction (P := fun m' => m'.posted = m.posted ∧ m'.active = m.active ∧
      m'.captureTicksRemaining = m.captureTicksRemaining ∧
      m'.callbackTicksRemaining = m.callbackTicksRemaining)
    m ⟨rfl, rfl, rfl, rfl⟩ ?_ ?_ ?_).1
  · intro m' same ready
    obtain ⟨posted, active, capture, callback⟩ := same
    simp only [canCapture, Bool.and_eq_true, Bool.not_eq_true', beq_iff_eq, active, capture] at ready
    refine absurd ?_ waits
    simp [captureWait, ready]
  · intro m' same ready
    obtain ⟨posted, active, capture, callback⟩ := same
    simp only [canComplete, Bool.and_eq_true, beq_iff_eq, active, callback] at ready
    exact absurd ready.2 (running ready.1)
  · intro m' same _
    exact same

theorem drain_unposted (empty : m.posted.valid = false) :
    (drainZeroTimeTransitions dispatch m).posted.valid = false := by
  refine (drain_induction (P := fun m' => m'.posted.valid = false) m empty ?_ ?_ ?_).1
  · intro m' _ _
    rfl
  · intro m' unposted _
    rw [completeActiveCallback_posted]
    exact unposted
  · intro m' unposted _
    exact unposted

theorem tickFiq_unposted (drained : Drained m) (empty : m.posted.valid = false) (ticks : Nat) :
    (tickFiq dispatch m ticks).posted.valid = false := by
  induction ticks generalizing m with
  | zero => exact empty
  | succ ticks ih =>
    apply ih (drained_drain dispatch _)
    apply drain_unposted
    rw [(counted_tick dispatch drained).posted]
    exact empty

/-- The wait of a pending sample is exactly the ticks before its capture. -/
theorem tickFiq_pending_iff (drained : Drained m) (valid : m.posted.valid = true) (ticks : Nat) :
    (tickFiq dispatch m ticks).posted.valid = true ↔ ticks < captureWait m := by
  have positive : ∀ m : State δ, Drained m → m.posted.valid = true → 0 < captureWait m := by
    intro m drained valid
    obtain ⟨capture, complete, -⟩ := drained
    simp only [canCapture, canComplete, Bool.and_eq_false_iff, Bool.not_eq_false',
      beq_eq_false_iff_ne, valid] at capture complete
    simp only [captureWait]
    cases active : m.active.valid with
    | true =>
      simp only [active] at complete
      simp at complete ⊢
      omega
    | false =>
      simp only [active] at capture
      simp at capture ⊢
      omega
  induction ticks generalizing m with
  | zero =>
    have waits := positive m drained valid
    simpa [tickFiq, valid] using waits
  | succ ticks ih =>
    have counted := counted_tick dispatch drained
    have waits := positive m drained valid
    have next : captureWait (tickCallback (tickCapture (tickService dispatch m))) =
        captureWait m - 1 := by
      have active := counted.active
      simp only [activeWait] at active
      simp only [captureWait, counted.capture valid, active]
      omega
    rw [tickFiq]
    by_cases soon : captureWait m = 1
    · have captured : (tick dispatch m).posted.valid = false :=
        drain_captures counted.running (by omega)
      have gone : (tickFiq dispatch (tick dispatch m) ticks).posted.valid = false :=
        tickFiq_unposted (drained_drain dispatch _) captured ticks
      simp [gone, soon]
    · obtain ⟨posted, wait⟩ := drain_waits dispatch counted.running (by omega)
      have later : captureWait (tick dispatch m) = captureWait m - 1 := wait.trans next
      have pending : (tick dispatch m).posted.valid = true := by
        rw [tick, posted, counted.posted, valid]
      have rest := ih (m := tick dispatch m) (drained_drain dispatch _) pending
      rw [later] at rest
      refine rest.trans ?_
      omega

end Time

theorem perform_drained {m : State δ} (drained : Drained m) (operation : Operation) :
    Drained (operation.perform dispatch m) := by
  cases operation with
  | access a =>
    simp only [Operation.perform, busAccess_ring]
    exact drained_drain dispatch _
  | tick ticks =>
    simp only [Operation.perform]
    induction ticks generalizing m with
    | zero => exact drained
    | succ ticks ih => exact ih (drained_drain dispatch _)

theorem execute_drained {m : State δ} (drained : Drained m) (operations : List Operation) :
    Drained (execute dispatch m operations).1 := by
  induction operations generalizing m with
  | nil => exact drained
  | cons operation operations ih => exact ih (perform_drained drained operation)

/-- What is promised of the events posted along a run that has reached `m`. The places of the
latch say which post each event held is. -/
structure Coalesced (dispatch : Dispatch δ) (m : State δ) (trace : List Entry) : Prop where
  /-- Callbacks complete in the order of the posts, each with its event as it was posted. -/
  ordered : (completedEvents trace).Sublist (postedEvents trace) ∧
    (replay trace).completed.Pairwise (· < ·) ∧
    (completedEvents trace).map some =
      (replay trace).completed.map fun i => (postedEvents trace)[i]?
  /-- Every post is completed, active, posted, or was replaced: another access posted while it
  waited for its capture. -/
  accounted : ∀ i < (postedEvents trace).length, i ∈ (replay trace).completed ∨
    (m.active.valid = true ∧ (replay trace).active = some i ∧
      (postedEvents trace)[i]? = some m.active) ∨
    (m.posted.valid = true ∧ (replay trace).posted = some i ∧
      (postedEvents trace)[i]? = some m.posted) ∨
    ∃ before event after, trace = before ++ .posted event :: after ∧
      (replay before).posted = some i
  /-- An access leaves the active callback as it is. -/
  undisturbed : m.active.valid = true → ∀ a : Access,
    (busAccess dispatch m a.address a.busValue a.write).2.active = m.active ∧
      (busAccess dispatch m a.address a.busValue a.write).2.callbackTicksRemaining =
        m.callbackTicksRemaining
  /-- The latest post is not replaced, and some ticks complete it. -/
  latest : ∀ i, i + 1 = (postedEvents trace).length → i ∉ (replay trace).replaced ∧
    ∃ ticks, i ∈ (replay (trace ++ tickFiqTrace dispatch m ticks)).completed
  /-- An access behind a pending event leaves the moment of the capture as it is. -/
  prompt : m.posted.valid = true → ∀ (a : Access) (ticks : Nat),
    (tickFiq dispatch (busAccess dispatch m a.address a.busValue a.write).2 ticks).posted.valid =
      (tickFiq dispatch m ticks).posted.valid
  /-- A dispatch is owed to the last command write completed, once. -/
  commanded : ∀ before selector after, trace = before ++ .dispatched selector :: after →
    Commanded before selector

section Unposted

@[simp] theorem postedEvents_append (left right : List Entry) :
    postedEvents (left ++ right) = postedEvents left ++ postedEvents right := List.filterMap_append

theorem passTrace_unposted (m : State δ) : postedEvents (passTrace m) = [] := by
  simp only [passTrace, postedEvents_append]
  split <;> split <;> split <;> rfl

theorem drainTrace_unposted (m : State δ) : postedEvents (drainTrace dispatch m) = [] := by
  induction m using drainZeroTimeTransitions.induct dispatch with
  | case1 m changed ih => rw [drainTrace, dif_pos changed, postedEvents_append, passTrace_unposted, ih,
      List.append_nil]
  | case2 m stuck => rw [drainTrace, dif_neg stuck, passTrace_unposted]

theorem tickTrace_unposted (m : State δ) : postedEvents (tickTrace dispatch m) = [] := by
  simp only [tickTrace, tickServiceTrace, tickCallbackTrace, postedEvents_append,
    drainTrace_unposted]
  split <;> split <;> rfl

/-- Ticks post nothing. -/
theorem tickFiqTrace_unposted (m : State δ) (ticks : Nat) :
    postedEvents (tickFiqTrace dispatch m ticks) = [] := by
  induction ticks generalizing m with
  | zero => rfl
  | succ ticks ih => rw [tickFiqTrace, postedEvents_append, tickTrace_unposted, ih, List.append_nil]

end Unposted

section Outcome
variable {m : State δ} {trace : List Entry}

theorem Holds.sublist (holds : Holds trace m) :
    (completedEvents trace).Sublist (postedEvents trace) := by
  have places : (List.range (replay trace).next).map (fun i => (postedEvents trace)[i]?) =
      (postedEvents trace).map some := by
    rw [holds.count]
    apply List.ext_getElem
    · simp
    · intro i bound _
      simp at bound
      simp [bound]
  have kept := (replay trace).completed_sublist.trans holds.accounted.order
  have events := (kept.map fun i => (postedEvents trace)[i]?).filterMap id
  rw [← holds.completed, places] at events
  simpa using events

/-- Once nothing is held back, the latest post has been completed. -/
theorem Holds.latest_completed (holds : Holds trace m) (returned : m.active.valid = false)
    (unposted : m.posted.valid = false) {i : Nat} (latest : i + 1 = (postedEvents trace).length) :
    i ∈ (replay trace).completed := by
  have member := holds.accounted.recent i (by rw [holds.count, latest])
  have noActive : (replay trace).active = none := by
    rw [← Option.not_isSome_iff_eq_none, ← holds.active, returned]
    exact Bool.false_ne_true
  have noPosted : (replay trace).posted = none := by
    rw [← Option.not_isSome_iff_eq_none, ← holds.posted, unposted]
    exact Bool.false_ne_true
  simpa [Latch.held, noActive, noPosted] using member

/-- A replaced post was in its place when another came. -/
theorem replaced_by (trace : List Entry) {i : Nat} (replaced : i ∈ (replay trace).replaced) :
    ∃ before event after, trace = before ++ .posted event :: after ∧
      (replay before).posted = some i := by
  induction trace using List.reverseRecOn with
  | nil => cases replaced
  | append_singleton trace entry ih =>
    have earlier (member : i ∈ (replay trace).replaced) :
        ∃ before event after, trace ++ [entry] = before ++ .posted event :: after ∧
          (replay before).posted = some i := by
      obtain ⟨before, event, after, rfl, waiting⟩ := ih member
      exact ⟨before, event, after ++ [entry], by simp, waiting⟩
    rw [replay_append] at replaced
    cases entry with
    | posted event =>
      simp only [List.filterMap_cons, List.filterMap_nil, Entry.op, Latch.replay, List.foldl_cons,
        List.foldl_nil, Latch.step, List.mem_append, Option.mem_toList] at replaced
      rcases replaced with member | waiting
      · exact earlier member
      · exact ⟨trace, event, [], rfl, waiting⟩
    | captured => exact earlier replaced
    | completed event => exact earlier replaced
    | dispatched selector => exact earlier replaced

theorem Holds.covered (holds : Holds trace m) {i : Nat} (posted : i < (postedEvents trace).length) :
    i ∈ (replay trace).completed ∨
      (m.active.valid = true ∧ (replay trace).active = some i ∧
        (postedEvents trace)[i]? = some m.active) ∨
      (m.posted.valid = true ∧ (replay trace).posted = some i ∧
        (postedEvents trace)[i]? = some m.posted) ∨
      ∃ before event after, trace = before ++ .posted event :: after ∧
        (replay before).posted = some i := by
  rcases holds.accounted.covered i (by rw [holds.count]; exact posted) with held | replaced
  · simp only [Latch.held, List.mem_append, Option.mem_toList] at held
    rcases held with (completed | active) | waiting
    · exact .inl completed
    · refine .inr (.inl ⟨?_, active, holds.activeEvent i active⟩)
      rw [holds.active, active]
      rfl
    · refine .inr (.inr (.inl ⟨?_, waiting, holds.postedEvent i waiting⟩))
      rw [holds.posted, waiting]
      rfl
  · exact .inr (.inr (.inr (replaced_by trace replaced)))

theorem busAccess_pending (drained : Drained m) (valid : m.posted.valid = true) (a : Access)
    (ticks : Nat) :
    (tickFiq dispatch (busAccess dispatch m a.address a.busValue a.write).2 ticks).posted.valid =
      (tickFiq dispatch m ticks).posted.valid := by
  have replaced := busAccess_busy dispatch drained (.inr valid) a
  have settled : Drained (ring m (a.event m.toRegisters)) := by
    rw [← replaced, busAccess_ring]
    exact drained_drain dispatch _
  have wait : captureWait (ring m (a.event m.toRegisters)) = captureWait m := by
    simp [captureWait, ring, valid]
  rw [replaced, Bool.eq_iff_iff, tickFiq_pending_iff drained valid,
    tickFiq_pending_iff settled rfl, wait]

end Outcome

/-- The events of any run of accesses and ticks, whatever the delays. -/
theorem events_coalesce (dispatch : Dispatch δ) (m : State δ) (d : Delays)
    (operations : List Operation) :
    Coalesced dispatch (execute dispatch (configure m d) operations).1
      (execute dispatch (configure m d) operations).2 := by
  have drained : Drained (execute dispatch (configure m d) operations).1 :=
    execute_drained (configure_quiet m d).2 operations
  have holds : Holds (execute dispatch (configure m d) operations).2
      (execute dispatch (configure m d) operations).1 :=
    (configure_holds m d).reaches (reaches_execute _ operations)
  generalize (execute dispatch (configure m d) operations).1 = reached at drained holds ⊢
  generalize (execute dispatch (configure m d) operations).2 = trace at holds ⊢
  refine ⟨⟨holds.sublist, ?_, holds.completed⟩, fun i => holds.covered, ?_, ?_, ?_,
    holds.dispatched⟩
  · have kept := (replay trace).completed_sublist.trans holds.accounted.order
    exact List.pairwise_lt_range.sublist kept
  · intro valid a
    rw [busAccess_busy dispatch drained (.inl valid)]
    exact ⟨rfl, rfl⟩
  · intro i latest
    constructor
    · intro replaced
      exact holds.accounted.lost i replaced (holds.accounted.recent i (by rw [holds.count, latest]))
    · obtain ⟨ticks, returned, unposted⟩ := tickFiq_completes dispatch drained
      refine ⟨ticks, (holds.reaches (reaches_tickFiq reached ticks)).latest_completed returned
        unposted ?_⟩
      rw [postedEvents_append, tickFiqTrace_unposted, List.append_nil]
      exact latest
  · exact fun valid a ticks => busAccess_pending drained valid a ticks

end Pi1MHz.Mailbox
