import Pi1MHz.Foundation.Dialogue
import Mathlib.Data.List.Basic

/-! What the programs of the host tools ask for: the MOS calls (`mos.inc`) and the commands of the
service (`pi1mhz_net.asm`, `pi1mhz_secure.asm`). The MOS keeps the four settings that the programs
change; what is typed and what the service answers is decided outside. -/
namespace Pi1MHz.HostTools
open Dialogue

def netOk : UInt8 := 0x00
def netPending : UInt8 := 0x01
def netEof : UInt8 := 0x20
def netErrUnsupported : UInt8 := 0x27
def netLocalTimeout : UInt8 := 0x2a
def netHostkeyUnknown : UInt8 := 0x2c
def netAuthFailed : UInt8 := 0x2d
def netIoMax : Nat := 240

/-- The re-dispatches of `net_wait_hi` and `net_wait_lo`. -/
def netWait : Nat := 0x0bb8

section Calls

/-- A command block with the strings and windows that it points to. -/
inductive Command
  | caps
  | sshOpen (flags : UInt8)
  | sshRead
  | sshWrite (window : List UInt8)
  | sshClose
  | sshPassword (length : UInt8)
  | urlOpen (url : List UInt8)
  | urlRead
  | urlWrite (window : List UInt8)
  | urlClose
deriving DecidableEq, Repr

/-- The fixed string buffers in JIM. -/
inductive Place
  | url
  | user
  | password
deriving DecidableEq, Repr

/-- The result, the command block afterwards and the RX window. -/
structure Reply where
  code : UInt8
  block : List UInt8
  rx : List UInt8
deriving DecidableEq, Repr

inductive Call
  /-- `application_check_workspace` -/
  | checkWorkspace
  | netProbe
  | store (place : Place) (bytes : List UInt8)
  | dispatch (command : Command)
  /-- The string at JIM `&020500`, by `net_copy_selected_string`. -/
  | fingerprint
  | print (text : List UInt8)
  | osrdch
  | osbyte (a x y : UInt8)
  | vtInit
  | vtProcess (byte : UInt8)
deriving DecidableEq, Repr

def Answer : Call → Type
  | .checkWorkspace | .netProbe => Bool
  | .dispatch _ => Reply
  | .fingerprint => List UInt8
  | .osrdch => UInt8
  | .osbyte .. => UInt8 × UInt8
  | .store .. | .print _ | .vtInit | .vtProcess _ => Unit

abbrev HostProgram := Program Call Answer

def call (c : Call) : HostProgram (Answer c) := .ask c

def print (text : List UInt8) : HostProgram Unit := call (.print text)

def osrdch : HostProgram UInt8 := call .osrdch

/-- `net_dispatch`; the service answers before the busy wait runs out. -/
def netDispatch (command : Command) : HostProgram Reply := call (.dispatch command)

/-- `JSR OSBYTE`, with X and Y afterwards. -/
def osbyteXy (a x y : UInt8) : HostProgram (UInt8 × UInt8) := call (.osbyte a x y)

def osbyteX (a x y : UInt8) : HostProgram UInt8 := do
  let result ← osbyteXy a x y
  pure result.1

def osbyte (a x y : UInt8) : HostProgram Unit := do
  let _ ← osbyteXy a x y
  pure ()

def applicationCheckWorkspace : HostProgram Bool := call .checkWorkspace

def netProbe : HostProgram Bool := call .netProbe

def store (place : Place) (bytes : List UInt8) : HostProgram Unit := call (.store place bytes)

def fingerprint : HostProgram (List UInt8) := call .fingerprint

def vtInit : HostProgram Unit := call .vtInit

def vtProcess (byte : UInt8) : HostProgram Unit := call (.vtProcess byte)

def vsync : HostProgram Unit := osbyte 19 0 0

/-- `net_dispatch_wait`: dispatch again while the answer is `NET_PENDING`. -/
def netDispatchWait (command : Command) : HostProgram Reply :=
  .loop (fun waits : Nat => do
    let reply ← netDispatch command
    if reply.code ≠ netPending then Program.leave reply
    else
      vsync
      if waits = 0 then Program.leave { reply with code := netLocalTimeout }
      else Program.again (waits - 1)) netWait

/-- The count that a command leaves in its block. -/
def Reply.lengthLo (reply : Reply) : UInt8 := reply.block.getD 1 0

def Reply.lengthHi (reply : Reply) : UInt8 := reply.block.getD 2 0

/-- `net_copy_rx_to_host`: X counts up to the low byte of the count. -/
def netCopyRxToHost (reply : Reply) (host : UInt8 → UInt8) : UInt8 → UInt8 :=
  fun x => if x < reply.lengthLo then reply.rx.getD x.toNat 0 else host x

end Calls

section Asking

variable {asked : Call → Prop}

@[simp] theorem asks_applicationCheckWorkspace :
    applicationCheckWorkspace.Asks asked ↔ asked .checkWorkspace := Iff.rfl

@[simp] theorem asks_netProbe : netProbe.Asks asked ↔ asked .netProbe := Iff.rfl

@[simp] theorem asks_store (place : Place) (bytes : List UInt8) :
    (store place bytes).Asks asked ↔ asked (.store place bytes) := Iff.rfl

@[simp] theorem asks_fingerprint : fingerprint.Asks asked ↔ asked .fingerprint := Iff.rfl

@[simp] theorem asks_print (text : List UInt8) : (print text).Asks asked ↔ asked (.print text) :=
  Iff.rfl

@[simp] theorem asks_osrdch : osrdch.Asks asked ↔ asked .osrdch := Iff.rfl

@[simp] theorem asks_netDispatch (command : Command) :
    (netDispatch command).Asks asked ↔ asked (.dispatch command) := Iff.rfl

@[simp] theorem asks_osbyteXy (a x y : UInt8) :
    (osbyteXy a x y).Asks asked ↔ asked (.osbyte a x y) := Iff.rfl

@[simp] theorem asks_osbyteX (a x y : UInt8) :
    (osbyteX a x y).Asks asked ↔ asked (.osbyte a x y) := by
  simp [osbyteX]

@[simp] theorem asks_osbyte (a x y : UInt8) : (osbyte a x y).Asks asked ↔ asked (.osbyte a x y) := by
  simp [osbyte]

@[simp] theorem asks_vtInit : vtInit.Asks asked ↔ asked .vtInit := Iff.rfl

@[simp] theorem asks_vtProcess (byte : UInt8) : (vtProcess byte).Asks asked ↔ asked (.vtProcess byte) :=
  Iff.rfl

@[simp] theorem asks_vsync : vsync.Asks asked ↔ asked (.osbyte 19 0 0) := asks_osbyte 19 0 0

@[simp] theorem asks_netDispatchWait (command : Command) :
    (netDispatchWait command).Asks asked ↔ asked (.dispatch command) ∧ asked (.osbyte 19 0 0) := by
  constructor
  · intro asks
    obtain ⟨dispatch, next⟩ := asks 0
    have pending := next ⟨netPending, [], []⟩
    simp at pending
    exact ⟨dispatch, pending⟩
  · rintro ⟨dispatch, wait⟩
    simp [netDispatchWait, dispatch, wait]

end Asking

section World

/-- The MOS settings read and written by OSBYTE 200, 4, 229 and 202. -/
structure Mos where
  escapeBreak : UInt8
  cursorKeys : UInt8
  escapeAscii : UInt8
  keyboardStatus : UInt8
deriving DecidableEq, Repr

inductive Event
  | printed (text : List UInt8)
  | typed (key : UInt8)
  /-- A key that OSBYTE &81 found. -/
  | polled (key : UInt8)
  | rendered (byte : UInt8)
  | dispatched (command : Command) (reply : Reply)
deriving DecidableEq, Repr

structure Host (τ : Type) where
  mos : Mos
  service : τ
  trace : List Event

/-- A service: what a store does to it, what it answers to a command, and the fingerprint it has
left in JIM. -/
structure Service (τ δ : Type) where
  store : τ → Place → List UInt8 → τ
  dispatch : τ → Command → δ → τ × Reply
  fingerprint : τ → List UInt8

/-- What is decided outside: the typing, the keyboard status the keys leave, and the service's
part. -/
structure Choice (δ : Type) where
  present : Bool
  key : UInt8
  polled : UInt8 × UInt8
  keyboardStatus : UInt8
  service : δ

/-- `(old AND Y) EOR X`, the update of a MOS variable. -/
def updated (old x y : UInt8) : UInt8 := old &&& y ^^^ x

/-- OSBYTE, with the old value in X where there is one. -/
def Mos.osbyte (mos : Mos) (a x y : UInt8) (polled : UInt8 × UInt8) (keyboardStatus : UInt8) :
    Mos × UInt8 × UInt8 :=
  if a = 0xc8 then ({ mos with escapeBreak := updated mos.escapeBreak x y }, mos.escapeBreak, 0)
  else if a = 4 then ({ mos with cursorKeys := updated mos.cursorKeys x 0 }, mos.cursorKeys, 0)
  else if a = 0xe5 then ({ mos with escapeAscii := updated mos.escapeAscii x y }, mos.escapeAscii, 0)
  else if a = 0xca then
    ({ mos with keyboardStatus := updated mos.keyboardStatus x y }, mos.keyboardStatus, 0)
  -- CAPS LOCK and SHIFT LOCK are typed while a key is waited for.
  else if a = 0x81 then ({ mos with keyboardStatus }, polled.1, polled.2)
  else (mos, x, y)

variable {τ δ : Type}

def Host.note (h : Host τ) (event : Event) : Host τ := { h with trace := h.trace ++ [event] }

def answers (s : Service τ δ) (h : Host τ) : (c : Call) → Choice δ → Host τ × Answer c
  | .checkWorkspace, d => (h, d.present)
  | .netProbe, d => (h, d.present)
  | .store place bytes, _ => ({ h with service := s.store h.service place bytes }, ())
  | .dispatch command, d =>
    let (service, reply) := s.dispatch h.service command d.service
    ({ h with service }.note (.dispatched command reply), reply)
  | .fingerprint, _ => (h, s.fingerprint h.service)
  | .print text, _ => (h.note (.printed text), ())
  | .osrdch, d => ({ h with mos.keyboardStatus := d.keyboardStatus }.note (.typed d.key), d.key)
  | .osbyte a x y, d =>
    let (mos, result) := h.mos.osbyte a x y d.polled d.keyboardStatus
    let h := { h with mos }
    (if a = 0x81 ∧ d.polled.2 = 0 then h.note (.polled d.polled.1) else h, result)
  | .vtInit, _ => (h, ())
  | .vtProcess byte, _ => (h.note (.rendered byte), ())

theorem answers_trace (s : Service τ δ) (h : Host τ) (c : Call) (d : Choice δ) :
    ∃ more, (answers s h c d).1.trace = h.trace ++ more := by
  cases c with
  | print text => exact ⟨_, rfl⟩
  | osrdch => exact ⟨_, rfl⟩
  | dispatch command => exact ⟨_, rfl⟩
  | vtProcess byte => exact ⟨_, rfl⟩
  | osbyte a x y =>
    dsimp only [answers]
    split
    · exact ⟨_, rfl⟩
    · exact ⟨[], (List.append_nil _).symm⟩
  | _ => exact ⟨[], (List.append_nil _).symm⟩

end World

section Conditions

variable {τ δ : Type} {s : Service τ δ} {mid : Host τ → Prop} {h : Host τ}

@[simp] theorem wp_netDispatch (command : Command) (post : Reply → Host τ → Prop) :
    (netDispatch command).wp (answers s) mid post h ↔ mid h ∧ ∀ d : Choice δ,
      post (s.dispatch h.service command d.service).2
        ({ h with service := (s.dispatch h.service command d.service).1 }.note
          (.dispatched command (s.dispatch h.service command d.service).2)) := Iff.rfl

@[simp] theorem wp_print (text : List UInt8) (post : Unit → Host τ → Prop) :
    (print text).wp (answers s) mid post h ↔
      mid h ∧ (Choice δ → post () (h.note (.printed text))) := Iff.rfl

@[simp] theorem wp_fingerprint (post : List UInt8 → Host τ → Prop) :
    fingerprint.wp (answers s) mid post h ↔
      mid h ∧ (Choice δ → post (s.fingerprint h.service) h) := Iff.rfl

@[simp] theorem wp_osrdch (post : UInt8 → Host τ → Prop) :
    osrdch.wp (answers s) mid post h ↔ mid h ∧ ∀ d : Choice δ,
      post d.key ({ h with mos.keyboardStatus := d.keyboardStatus }.note (.typed d.key)) := Iff.rfl

@[simp] theorem wp_vtProcess (byte : UInt8) (post : Unit → Host τ → Prop) :
    (vtProcess byte).wp (answers s) mid post h ↔
      mid h ∧ (Choice δ → post () (h.note (.rendered byte))) := Iff.rfl

end Conditions

end Pi1MHz.HostTools
