import Pi1MHz.HostTools.Terminal
import Mathlib.Data.List.Infix

/-! The terminal session as a pipe: what is rendered is what the channel delivered, and what the
service took is what was typed, each in order and each byte once. -/
namespace Pi1MHz.HostTools
open Dialogue Program

section Flow

def Command.reads : Command → Bool
  | .sshRead | .urlRead => true
  | _ => false

def Command.window : Command → Option (List UInt8)
  | .sshWrite bytes | .urlWrite bytes => some bytes
  | _ => none

/-- The bytes that the service gave out. -/
def Event.delivered : Event → List UInt8
  | .dispatched command reply => if command.reads ∧ reply.code = netOk then reply.rx else []
  | _ => []

def Event.shown : Event → List UInt8
  | .rendered byte => [byte]
  | _ => []

/-- The bytes that the service took. -/
def Event.taken : Event → List UInt8
  | .dispatched command reply =>
    if reply.code = netOk then (command.window.getD []).take reply.lengthLo.toNat else []
  | _ => []

/-- What the keys stand for; Ctrl-] is for the client itself. -/
def Event.keyed (t : Terminal) : Event → List UInt8
  | .polled key => if key = 29 then [] else keyBytes t key
  | _ => []

def delivered (trace : List Event) : List UInt8 := trace.flatMap Event.delivered

def rendered (trace : List Event) : List UInt8 := trace.flatMap Event.shown

def taken (trace : List Event) : List UInt8 := trace.flatMap Event.taken

def keyed (t : Terminal) (trace : List Event) : List UInt8 := trace.flatMap (Event.keyed t)

/-- `waiting` is delivered and not yet rendered, `unsent` is typed and not yet taken. -/
structure Flow (t : Terminal) (waiting unsent : List UInt8) (trace : List Event) : Prop where
  shown : delivered trace = rendered trace ++ waiting
  sent : keyed t trace = taken trace ++ unsent

/-- Replies that keep to their windows: a read's count is the length of what it brings, at most
255, and a write takes no more than it is given. -/
structure Service.Bounded {τ δ : Type} (s : Service τ δ) : Prop where
  read : ∀ state command d, command.reads →
    (s.dispatch state command d).2.code = netOk →
      (s.dispatch state command d).2.rx.length = (s.dispatch state command d).2.lengthLo.toNat ∧
        (s.dispatch state command d).2.lengthHi = 0
  write : ∀ state command d, ∀ bytes ∈ command.window,
    (s.dispatch state command d).2.code = netOk →
      (s.dispatch state command d).2.lengthLo.toNat ≤ bytes.length

/-- Calls that neither fetch, render, poll nor send. -/
def Aside : Call → Prop
  | .dispatch command => command.reads = false ∧ command.window = none
  | .osbyte a _ _ => a ≠ 0x81
  | .vtProcess _ => False
  | _ => True

variable {t : Terminal} {waiting unsent : List UInt8} {trace : List Event}

theorem Flow.note_aside (flow : Flow t waiting unsent trace) {event : Event}
    (delivers : event.delivered = []) (shows : event.shown = []) (takes : event.taken = [])
    (keys : event.keyed t = []) : Flow t waiting unsent (trace ++ [event]) := by
  constructor
  · simpa [delivered, rendered, delivers, shows] using flow.shown
  · simpa [keyed, taken, takes, keys] using flow.sent

theorem Flow.prefixes (flow : Flow t waiting unsent trace) :
    rendered trace <+: delivered trace ∧ taken trace <+: keyed t trace :=
  ⟨⟨waiting, flow.shown.symm⟩, ⟨unsent, flow.sent.symm⟩⟩

end Flow

section Session

variable {τ δ : Type} {s : Service τ δ} {t : Terminal} {waiting unsent : List UInt8}

abbrev Piped (t : Terminal) (h : Host τ) : Prop := ∃ waiting unsent, Flow t waiting unsent h.trace

theorem answers_aside {c : Call} (aside : Aside c) (h : Host τ) (d : Choice δ)
    (flow : Flow t waiting unsent h.trace) :
    Flow t waiting unsent (answers s h c d).1.trace := by
  cases c with
  | dispatch command =>
    obtain ⟨reads, window⟩ := aside
    exact flow.note_aside (by simp [Event.delivered, reads]) rfl (by simp [Event.taken, window]) rfl
  | osbyte a x y =>
    have other : a ≠ 0x81 := aside
    simpa [answers, other] using flow
  | vtProcess byte => exact absurd aside id
  | print text => exact flow.note_aside rfl rfl rfl rfl
  | osrdch => exact flow.note_aside rfl rfl rfl rfl
  | _ => exact flow

theorem flow_of_asks {α : Type} {p : HostProgram α} (asks : p.Asks Aside) {h : Host τ}
    (flow : Flow t waiting unsent h.trace) :
    p.wp (answers s) (Piped t) (fun _ h => Flow t waiting unsent h.trace) h :=
  wp_of_asks asks (fun h _ d aside => answers_aside aside h d) (fun _ flow => ⟨_, _, flow⟩) flow

/-- The flow goes past what is aside. -/
theorem Flow.past {α γ : Type} {p : HostProgram α} {next : α → HostProgram γ}
    {post : γ → Host τ → Prop} {h : Host τ} (flow : Flow t waiting unsent h.trace)
    (asks : p.Asks Aside) (rest : ∀ result h, Flow t waiting unsent h.trace →
      (next result).wp (answers s) (Piped t) post h) :
    (p >>= next).wp (answers s) (Piped t) post h :=
  wp_past asks (fun h _ d aside => answers_aside aside h d) (fun _ flow => ⟨_, _, flow⟩) flow rest

/-- The bytes of the buffer from `x` on. -/
def bytesFrom (host : UInt8 → UInt8) : UInt8 → Nat → List UInt8
  | _, 0 => []
  | x, n + 1 => host x :: bytesFrom host (x + 1) n

theorem renderRx_flow (host : UInt8 → UInt8) {remaining : UInt8} (nonempty : remaining ≠ 0) {h : Host τ}
    (flow : Flow t (bytesFrom host 0 remaining.toNat) unsent h.trace) :
    (renderRx host remaining).wp (answers s) (Piped t) (fun _ h => Flow t [] unsent h.trace) h := by
  apply wp_loop fun (a : UInt8 × UInt8) h => a.2 ≠ 0 ∧
    Flow t (bytesFrom host a.1 a.2.toNat) unsent h.trace
  · exact ⟨nonempty, flow⟩
  · exact fun a h here => ⟨_, _, here.2⟩
  · rintro ⟨x, n⟩ h ⟨nonempty, flow⟩
    refine ⟨⟨_, _, flow⟩, fun d => ?_⟩
    have size : n.toNat = (n - 1).toNat + 1 := by
      have positive : n.toNat ≠ 0 := fun zero => nonempty (UInt8.toNat_inj.mp zero)
      have less : (n - 1).toNat = n.toNat - 1 :=
        UInt8.toNat_sub_of_le n 1 (UInt8.le_iff_toNat_le.mpr (Nat.one_le_iff_ne_zero.mpr positive))
      omega
    dsimp only at flow
    rw [size, bytesFrom] at flow
    have after : Flow t (bytesFrom host (x + 1) (n - 1).toNat) unsent
        (h.note (.rendered (host x))).trace := by
      constructor
      · simpa [Host.note, delivered, rendered, Event.delivered, Event.shown] using flow.shown
      · simpa [Host.note, keyed, taken, Event.keyed, Event.taken] using flow.sent
    split
    · rename_i last
      rw [last] at after
      exact after
    · exact ⟨by assumption, after⟩

theorem bytesFrom_eq_map (host : UInt8 → UInt8) (x : UInt8) (n : Nat) :
    bytesFrom host x n = (List.range n).map fun i => host (x + UInt8.ofNat i) := by
  induction n generalizing x with
  | zero => rfl
  | succ n ih =>
    have shift : ∀ i, x + 1 + UInt8.ofNat i = x + UInt8.ofNat (i + 1) := by
      intro i
      rw [UInt8.ofNat_add, UInt8.add_assoc, UInt8.add_comm (UInt8.ofNat i)]
      rfl
    rw [bytesFrom, ih, List.range_succ_eq_map, List.map_cons, List.map_map]
    simp [shift, Function.comp_def]

theorem bytesFrom_copied {reply : Reply} (count : reply.rx.length = reply.lengthLo.toNat)
    (host : UInt8 → UInt8) :
    bytesFrom (netCopyRxToHost reply host) 0 reply.lengthLo.toNat = reply.rx := by
  rw [bytesFrom_eq_map, ← count]
  apply List.ext_getElem
  · simp
  · intro i _ inside
    have below := reply.lengthLo.toNat_lt
    have index : i % 256 = i := Nat.mod_eq_of_lt (by omega)
    have copied : UInt8.ofNat i < reply.lengthLo := by
      rw [UInt8.lt_iff_toNat_lt, UInt8.toNat_ofNat']
      omega
    simp [netCopyRxToHost, copied, index, inside]

theorem render_flow {reply : Reply} (count : reply.rx.length = reply.lengthLo.toNat)
    (high : reply.lengthHi = 0) (host : UInt8 → UInt8) {h : Host τ}
    (flow : Flow t reply.rx unsent h.trace) :
    (render reply host).wp (answers s) (Piped t) (fun _ h => Flow t [] unsent h.trace) h := by
  rw [render]
  split
  · rename_i empty
    rw [empty.1] at count
    rw [List.eq_nil_of_length_eq_zero count] at flow
    exact flow
  · rename_i some
    rw [← bytesFrom_copied count host] at flow
    exact renderRx_flow _ (fun empty => some ⟨empty, high⟩) flow

/-- A terminal whose commands are a read and writes. -/
structure Terminal.Wired (t : Terminal) : Prop where
  read : t.read.reads = true
  readWindow : t.read.window = none
  write : ∀ bytes, (t.write bytes).window = some bytes
  writeReads : ∀ bytes, (t.write bytes).reads = false
  returnKey : t.returnKey.length < 256

theorem Flow.wrote {rest : List UInt8} {trace : List Event} (flow : Flow t [] rest trace)
    (wired : t.Wired) (reply : Reply) : Flow t [] (if reply.code = netOk then rest.drop reply.lengthLo.toNat else rest)
      (trace ++ [.dispatched (t.write rest) reply]) := by
  constructor
  · simpa [delivered, rendered, Event.delivered, Event.shown, wired.writeReads] using flow.shown
  · have sent := flow.sent
    simp only [keyed, taken] at sent ⊢
    split
    · rename_i ok
      simp [Event.keyed, Event.taken, ok, wired.write, sent]
    · rename_i failed
      simp [Event.keyed, Event.taken, failed, sent]

/-- `send_all` reports success only when everything is taken. -/
theorem sendAll_flow (bounded : s.Bounded) (wired : t.Wired) {bytes : List UInt8} (short : bytes.length < 256) {h : Host τ}
    (flow : Flow t [] bytes h.trace) :
    (sendAll t bytes).wp (answers s) (Piped t) (fun code h =>
      ∃ unsent, Flow t [] unsent h.trace ∧ (code = netOk → unsent = [])) h := by
  apply wp_loop fun (a : Sending) h => Flow t [] a.rest h.trace ∧ a.remaining.toNat = a.rest.length
  · refine ⟨flow, ?_⟩
    simp [short]
  · exact fun a h here => ⟨_, _, here.1⟩
  · rintro ⟨rest, remaining, tries⟩ h ⟨flow, size⟩
    dsimp only at flow size ⊢
    split
    · rename_i stop
      rw [stop.2] at size
      rw [List.eq_nil_of_length_eq_zero size.symm] at flow
      exact ⟨[], flow, fun _ => rfl⟩
    rw [size, List.take_length, wp_bind, wp_netDispatch]
    refine ⟨⟨_, _, flow⟩, fun d => ?_⟩
    have fits := bounded.write h.service (t.write rest) d.service rest (by simp [wired.write])
    generalize s.dispatch h.service (t.write rest) d.service = answer at fits
    obtain ⟨service, reply⟩ := answer
    have after := flow.wrote wired reply
    dsimp only at fits after ⊢
    split
    · rename_i failed
      rw [if_neg failed] at after
      exact ⟨_, after, fun ok => absurd ok failed⟩
    rename_i ok
    rw [if_pos (not_not.mp ok)] at after
    have left : (remaining - reply.lengthLo).toNat = (rest.drop reply.lengthLo.toNat).length := by
      have below : reply.lengthLo ≤ remaining := by
        rw [UInt8.le_iff_toNat_le, size]
        exact fits (not_not.mp ok)
      rw [UInt8.toNat_sub_of_le _ _ below, size, List.length_drop]
    split
    · rename_i none
      rw [none] at after
      have waits : vsync.Asks Aside := by simp [vsync, osbyte, Aside]
      apply wp_mono _ (flow_of_asks waits after)
      intro _ h flow
      split
      · exact ⟨flow, size⟩
      · exact ⟨_, flow, fun ok => absurd ok (by decide)⟩
    · split
      · exact ⟨after, left⟩
      · rename_i last
        have nothing : remaining - reply.lengthLo = 0 := by simp_all
        rw [nothing] at left
        rw [List.eq_nil_of_length_eq_zero left.symm] at after
        exact ⟨[], after, fun _ => rfl⟩

theorem Flow.read {trace : List Event} (flow : Flow t [] unsent trace) (wired : t.Wired)
    (reply : Reply) : Flow t (if reply.code = netOk then reply.rx else []) unsent
      (trace ++ [.dispatched t.read reply]) := by
  constructor
  · have shown := flow.shown
    simp only [delivered, rendered, List.append_nil] at shown ⊢
    simp [Event.delivered, Event.shown, wired.read, shown]
  · simpa [keyed, taken, Event.keyed, Event.taken, wired.readWindow] using flow.sent

theorem keyBytes_short (wired : t.Wired) (key : UInt8) : (keyBytes t key).length < 256 := by
  unfold keyBytes
  split
  · decide
  split
  · decide
  split
  · decide
  split
  · decide
  split
  · exact wired.returnKey
  · exact (show 1 < 256 by decide)

theorem poll_flow {h : Host τ} (flow : Flow t [] [] h.trace) :
    (osbyteXy 0x81 0 0).wp (answers s) (Piped t) (fun key h =>
      Flow t [] (if key.2 ≠ 0 ∨ key.1 = 29 then [] else keyBytes t key.1) h.trace) h := by
  refine ⟨⟨_, _, flow⟩, fun d => ?_⟩
  have mos : (answers s h (.osbyte 0x81 0 0) d).2 = d.polled := rfl
  have trace : (answers s h (.osbyte 0x81 0 0) d).1.trace =
      if d.polled.2 = 0 then h.trace ++ [.polled d.polled.1] else h.trace := by
    simp only [answers, true_and]
    split <;> rfl
  dsimp only
  rw [mos, trace]
  by_cases pressed : d.polled.2 = 0
  · have sent := flow.sent
    rw [if_pos pressed]
    constructor
    · simpa [delivered, rendered, Event.delivered, Event.shown] using flow.shown
    · simp only [keyed, taken, List.append_nil] at sent ⊢
      simp [Event.keyed, Event.taken, pressed, sent]
  · rw [if_neg pressed, if_pos (.inl pressed)]
    exact flow

/-- The loop ends with everything rendered, and with something unsent only after an error. -/
theorem terminalLoop_flow (bounded : s.Bounded) (wired : t.Wired) (host : UInt8 → UInt8)
    {h : Host τ} (flow : Flow t [] [] h.trace) :
    (terminalLoop t host).wp (answers s) (Piped t) (fun ending h =>
      ∃ unsent, Flow t [] unsent h.trace ∧ (unsent ≠ [] → ∃ code, ending = .error code)) h := by
  apply wp_loop fun _ h => Flow t [] [] h.trace
  · exact flow
  · exact fun _ _ flow => ⟨_, _, flow⟩
  · intro host h flow
    rw [wp_bind, wp_netDispatch]
    refine ⟨⟨_, _, flow⟩, fun d => ?_⟩
    have read := bounded.read h.service t.read d.service wired.read
    generalize s.dispatch h.service t.read d.service = answer at read
    obtain ⟨service, reply⟩ := answer
    have after := flow.read wired reply
    dsimp only at read after ⊢
    split
    · rename_i eof
      rw [eof] at after
      exact ⟨[], after, fun nonempty => absurd rfl nonempty⟩
    split
    · rename_i failed
      rw [if_neg failed] at after
      exact ⟨[], after, fun _ => ⟨reply.code, rfl⟩⟩
    rename_i ok
    rw [if_pos (not_not.mp ok)] at after
    obtain ⟨count, high⟩ := read (not_not.mp ok)
    rw [wp_bind]
    apply wp_mono _ (render_flow count high host after)
    intro host h flow
    rw [wp_bind]
    apply wp_mono _ (poll_flow flow)
    rintro ⟨key, y⟩ h flow
    dsimp only at flow ⊢
    split
    · rename_i idle
      rw [if_pos (.inl idle)] at flow
      have waits : vsync.Asks Aside := by simp [vsync, osbyte, Aside]
      exact flow_of_asks waits flow
    rename_i pressed
    split
    · rename_i leaves
      rw [if_pos (.inr leaves)] at flow
      exact ⟨[], flow, fun nonempty => absurd rfl nonempty⟩
    · rename_i sends
      rw [if_neg (not_or.mpr ⟨pressed, sends⟩)] at flow
      apply wp_mono _ (sendAll_flow bounded wired (keyBytes_short wired key) flow)
      rintro code h ⟨unsent, flow, all⟩
      dsimp only
      split
      · exact ⟨unsent, flow, fun _ => ⟨code, rfl⟩⟩
      · rename_i sent
        rw [all (not_not.mp sent)] at flow
        exact flow

/-- All is rendered; all is sent unless an error was shown with this text. -/
def Settled (t : Terminal) (error : List UInt8) (trace : List Event) : Prop :=
  ∃ unsent, Flow t [] unsent trace ∧ (unsent ≠ [] → .printed error ∈ trace)

theorem Flow.settled {trace : List Event} (flow : Flow t [] [] trace) (error : List UInt8) :
    Settled t error trace :=
  ⟨[], flow, fun nonempty => absurd rfl nonempty⟩

theorem answers_settled {error : List UInt8} {c : Call} (aside : Aside c) (h : Host τ)
    (d : Choice δ) (settled : Settled t error h.trace) :
    Settled t error (answers s h c d).1.trace := by
  obtain ⟨unsent, flow, shown⟩ := settled
  obtain ⟨more, trace⟩ := answers_trace s h c d
  refine ⟨unsent, answers_aside aside h d flow, fun nonempty => ?_⟩
  rw [trace]
  exact List.mem_append_left more (shown nonempty)

theorem settled_of_asks {α : Type} {p : HostProgram α} {error : List UInt8} (asks : p.Asks Aside)
    {h : Host τ} (settled : Settled t error h.trace) :
    p.wp (answers s) (Piped t) (fun _ h => Settled t error h.trace) h :=
  wp_of_asks asks (fun h _ d aside => answers_settled aside h d)
    (fun _ ⟨unsent, flow, _⟩ => ⟨[], unsent, flow⟩) settled

theorem showError_settled {error : List UInt8} (code : UInt8) {h : Host τ}
    (flow : Flow t [] unsent h.trace) :
    (showError error code).wp (answers s) (Piped t) (fun _ h => Settled t error h.trace) h := by
  refine ⟨⟨_, _, flow⟩, fun _ => ?_⟩
  have rest : (printHex code >>= fun _ => osnewl : HostProgram Unit).Asks Aside := by
    simp [printHex, osnewl, Aside]
  apply settled_of_asks rest
  exact ⟨unsent, flow.note_aside rfl rfl rfl rfl, fun _ =>
    List.mem_append_right _ (List.mem_singleton_self _)⟩

/-- What an ending shows, shown as the clients do. -/
theorem ending_settled {error : List UInt8} {shows : Ending → HostProgram Unit}
    (errors : ∀ code, shows (.error code) = showError error code)
    (others : (shows .remoteClosed).Asks Aside ∧ (shows .localClosed).Asks Aside)
    (ending : Ending) {h : Host τ}
    (ended : ∃ unsent, Flow t [] unsent h.trace ∧ (unsent ≠ [] → ∃ code, ending = .error code)) :
    (shows ending).wp (answers s) (Piped t) (fun _ h => Settled t error h.trace) h := by
  obtain ⟨unsent, flow, failed⟩ := ended
  have all : (∀ code, ending ≠ .error code) → Flow t [] [] h.trace := by
    intro other
    have nothing : unsent = [] := by
      by_contra nonempty
      obtain ⟨code, same⟩ := failed nonempty
      exact other code same
    rwa [nothing] at flow
  cases ending with
  | error code =>
    rw [errors]
    exact showError_settled code flow
  | remoteClosed => exact settled_of_asks others.1 ((all (fun _ => nofun)).settled error)
  | localClosed => exact settled_of_asks others.2 ((all (fun _ => nofun)).settled error)

end Session

section Telnet

variable {τ δ : Type} {s : Service τ δ}

theorem telnetTerminal_wired : telnetTerminal.Wired where
  read := rfl
  readWindow := rfl
  write := fun _ => rfl
  writeReads := fun _ => rfl
  returnKey := by decide

theorem telnetSession_settled (bounded : s.Bounded) (url : List UInt8) (host : UInt8 → UInt8)
    {h : Host τ} (flow : Flow telnetTerminal [] [] h.trace) :
    (telnetSession url host).wp (answers s) (Piped telnetTerminal)
      (fun _ h => Settled telnetTerminal netErrorText h.trace) h := by
  have setup : setupKeyboard.Asks Aside := by simp [setupKeyboard, Aside]
  have dispatch : ∀ command : Command, command.reads = false → command.window = none →
      (netDispatchWait command).Asks Aside := by
    intro command reads window
    simp [Aside, reads, window]
  have leaves : ∀ saved, (netDispatchWait .urlClose >>= fun _ => restoreKeyboard saved).Asks Aside :=
    fun saved => ⟨dispatch _ rfl rfl, fun _ => by simp [restoreKeyboard, Aside]⟩
  apply flow.past setup
  intro saved h flow
  apply flow.past (p := print [4]) trivial
  intro _ h flow
  apply flow.past (p := vtInit) trivial
  intro _ h flow
  apply flow.past (p := print connectingText) trivial
  intro _ h flow
  apply flow.past (dispatch (.urlOpen url) rfl rfl)
  intro opened h flow
  dsimp only
  split
  · apply flow.past (p := print connectedText) trivial
    intro _ h flow
    apply wp_mono _ (terminalLoop_flow bounded telnetTerminal_wired host flow)
    intro ending h ended
    have errors : ∀ code, telnetEnding (.error code) = showError netErrorText code := fun _ => rfl
    apply wp_mono _ (ending_settled errors ⟨trivial, trivial⟩ ending ended)
    exact fun _ _ settled => settled_of_asks (leaves saved) settled
  · apply wp_mono _ (showError_settled opened.code flow)
    exact fun _ _ settled => settled_of_asks (leaves saved) settled

theorem telnet_settled (bounded : s.Bounded) (url : Option (List UInt8)) (host : UInt8 → UInt8)
    {h : Host τ} (flow : Flow telnetTerminal [] [] h.trace) :
    (telnet url host).wp (answers s) (Piped telnetTerminal)
      (fun _ h => Settled telnetTerminal netErrorText h.trace) h := by
  apply flow.past (p := applicationCheckWorkspace) trivial
  intro safe h flow
  split
  · exact flow.settled _
  cases url with
  | none => exact settled_of_asks (p := print telnetUsage) trivial (flow.settled _)
  | some url =>
    apply flow.past (p := netProbe) trivial
    intro present h flow
    split
    · exact settled_of_asks (p := print noServiceText) trivial (flow.settled _)
    · exact telnetSession_settled bounded url host flow

end Telnet

end Pi1MHz.HostTools
