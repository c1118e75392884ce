import Pi1MHz.HostTools.Terminal

/-! How the terminal clients leave the machine: the keyboard set as it was found and nothing left
open, whatever happened in between. -/
namespace Pi1MHz.HostTools
open Dialogue Program

section Settings

variable {τ δ : Type} {s : Service τ δ}

/-- CAPS LOCK in the keyboard status, 0 when it is on. -/
def Mos.capsLock (mos : Mos) : UInt8 := mos.keyboardStatus &&& 0x10

/-- What OSBYTE 200, 4 and 229 set is the same. -/
structure Mos.SameKeys (before after : Mos) : Prop where
  escapeBreak : after.escapeBreak = before.escapeBreak
  cursorKeys : after.cursorKeys = before.cursorKeys
  escapeAscii : after.escapeAscii = before.escapeAscii

theorem updated_zero (old x : UInt8) : updated old x 0 = x := by simp [updated]

theorem updated_capsLock (old status : UInt8) :
    updated old (status &&& 0x10) 0xef &&& 0x10 = status &&& 0x10 := by
  have distribute : (old &&& 0xef ^^^ (status &&& 0x10)) &&& 0x10 =
      (old &&& 0xef &&& 0x10) ^^^ (status &&& 0x10 &&& 0x10) := by
    apply UInt8.toBitVec_inj.mp
    ext i
    simp only [UInt8.toBitVec_and, UInt8.toBitVec_xor, BitVec.getElem_and, BitVec.getElem_xor]
    exact Bool.and_xor_distrib_right _ _ _
  have disjoint : (0xef &&& 0x10 : UInt8) = 0 := by decide
  rw [updated, distribute, UInt8.and_assoc, disjoint, UInt8.and_assoc, UInt8.and_self]
  simp

theorem setupKeyboard_saves (h : Host τ) :
    setupKeyboard.wp (answers s) (fun _ => True) (fun saved later =>
      saved = ⟨h.mos.escapeBreak, h.mos.cursorKeys, h.mos.escapeAscii, h.mos.keyboardStatus⟩ ∧
        later.trace = h.trace) h := by
  refine ⟨trivial, fun _ => ⟨trivial, fun _ => ⟨trivial, fun _ => ⟨trivial, fun _ => ?_⟩⟩⟩⟩
  exact ⟨trivial, fun _ => ⟨trivial, fun _ => ⟨rfl, rfl⟩⟩⟩

theorem restoreKeyboard_restores (mos : Mos) (h : Host τ) :
    (restoreKeyboard ⟨mos.escapeBreak, mos.cursorKeys, mos.escapeAscii, mos.keyboardStatus⟩).wp
      (answers s) (fun _ => True) (fun _ later =>
        mos.SameKeys later.mos ∧ later.mos.capsLock = mos.capsLock ∧ later.trace = h.trace) h := by
  refine ⟨trivial, fun _ => ⟨trivial, fun _ => ⟨trivial, fun _ => ⟨trivial, fun _ => ?_⟩⟩⟩⟩
  exact ⟨⟨updated_zero _ _, updated_zero _ _, updated_zero _ _⟩, updated_capsLock _ _, rfl⟩

end Settings

section Closing

variable {τ δ : Type} {s : Service τ δ} {α γ : Type}

def Event.command : Event → Option Command
  | .dispatched command _ => some command
  | _ => none

/-- The commands that went to the service. -/
def commands (trace : List Event) : List Command := trace.filterMap Event.command

def Command.opens : Command → Bool
  | .sshOpen _ | .urlOpen _ => true
  | _ => false

/-- Nothing was opened, or the last command was the close. -/
def Closed (close : Command) (trace : List Event) : Prop :=
  (∀ command ∈ commands trace, command.opens = false) ∨ (commands trace).getLast? = some close

theorem answers_extends (h : Host τ) (c : Call) (d : Choice δ) :
    h.trace <+: (answers s h c d).1.trace := by
  obtain ⟨more, trace⟩ := answers_trace s h c d
  exact ⟨more, trace.symm⟩

/-- Past a part of which only the trace matters. -/
theorem wp_anything {first : HostProgram α} {next : α → HostProgram γ} {post : γ → Host τ → Prop}
    {h : Host τ} (rest : ∀ result later, h.trace <+: later.trace →
      (next result).wp (answers s) (fun _ => True) post later) :
    (first >>= next).wp (answers s) (fun _ => True) post h :=
  wp_past (asks_true first) (fun later c d _ before => before.trans (answers_extends later c d))
    (fun _ _ => trivial) (List.prefix_refl h.trace) rest

theorem netDispatchWait_last (command : Command) (h : Host τ) :
    (netDispatchWait command).wp (answers s) (fun _ => True) (fun _ later =>
      (commands later.trace).getLast? = some command ∧ h.trace <+: later.trace ∧
        later.mos = h.mos) h := by
  apply wp_loop fun _ later => h.trace <+: later.trace ∧ later.mos = h.mos
  · exact ⟨List.prefix_refl h.trace, rfl⟩
  · exact fun _ _ _ => trivial
  · rintro waits later ⟨before, mos⟩
    rw [wp_bind, wp_netDispatch]
    refine ⟨trivial, fun d => ?_⟩
    generalize s.dispatch later.service command d.service = answer
    have last : (commands (later.trace ++ [.dispatched command answer.2])).getLast? =
        some command := by
      simp [commands, Event.command]
    have extended : h.trace <+: later.trace ++ [.dispatched command answer.2] :=
      before.trans (List.prefix_append _ _)
    split
    · exact ⟨last, extended, mos⟩
    · refine ⟨trivial, fun _ => ?_⟩
      split
      · exact ⟨last, extended, mos⟩
      · exact ⟨extended, mos⟩

/-- The end of a session: the close, then the settings that were saved. -/
theorem leaving_restores (mos : Mos) (close : Command) (h : Host τ) :
    (netDispatchWait close >>= fun _ => restoreKeyboard
      ⟨mos.escapeBreak, mos.cursorKeys, mos.escapeAscii, mos.keyboardStatus⟩).wp (answers s)
      (fun _ => True) (fun _ later => (mos.SameKeys later.mos ∧
        later.mos.capsLock = mos.capsLock ∧ Closed close later.trace) ∧
          h.trace <+: later.trace) h := by
  apply wp_mono _ (netDispatchWait_last close h)
  rintro _ later ⟨last, extended, _⟩
  apply wp_mono _ (restoreKeyboard_restores mos later)
  rintro _ after ⟨keys, caps, trace⟩
  rw [trace]
  exact ⟨⟨keys, caps, .inr last⟩, extended⟩

theorem telnetSession_restores (url : List UInt8) (host : UInt8 → UInt8) (h : Host τ) :
    (telnetSession url host).wp (answers s) (fun _ => True) (fun _ later =>
      h.mos.SameKeys later.mos ∧ later.mos.capsLock = h.mos.capsLock ∧
        Closed .urlClose later.trace) h := by
  apply wp_mono _ (setupKeyboard_saves h)
  rintro saved later ⟨rfl, trace⟩
  have leaves : ∀ later, _ := fun later =>
    wp_mono (fun _ _ => And.left) (leaving_restores (s := s) h.mos .urlClose later)
  refine wp_anything fun _ _ _ => wp_anything fun _ _ _ => wp_anything fun _ _ _ => ?_
  refine wp_anything fun opened _ _ => ?_
  split
  · refine wp_anything fun _ _ _ => wp_anything fun _ _ _ => wp_anything fun _ _ _ => ?_
    exact leaves _
  · exact wp_anything fun _ _ _ => leaves _

theorem telnet_restores (url : Option (List UInt8)) (host : UInt8 → UInt8) {h : Host τ}
    (fresh : h.trace = []) : (telnet url host).wp (answers s) (fun _ => True) (fun _ later =>
      h.mos.SameKeys later.mos ∧ later.mos.capsLock = h.mos.capsLock ∧
        Closed .urlClose later.trace) h := by
  have unopened : ∀ text, Closed .urlClose (h.trace ++ [.printed text]) := by
    intro text
    rw [fresh]
    exact .inl nofun
  have idle : Closed .urlClose h.trace := by
    rw [fresh]
    exact .inl nofun
  cases url with
  | none =>
    refine ⟨trivial, fun checked => ?_⟩
    dsimp only
    split
    · exact ⟨⟨rfl, rfl, rfl⟩, rfl, idle⟩
    · exact ⟨trivial, fun _ => ⟨⟨rfl, rfl, rfl⟩, rfl, unopened _⟩⟩
  | some url =>
    refine ⟨trivial, fun checked => ?_⟩
    dsimp only
    split
    · exact ⟨⟨rfl, rfl, rfl⟩, rfl, idle⟩
    refine ⟨trivial, fun present => ?_⟩
    dsimp only
    split
    · exact ⟨trivial, fun _ => ⟨⟨rfl, rfl, rfl⟩, rfl, unopened _⟩⟩
    · exact telnetSession_restores url host h

end Closing

end Pi1MHz.HostTools
