import Pi1MHz.Foundation.Loop
import Pi1MHz.Foundation.Memory

/-! `*UEF LOAD` of the ROM (`uef.asm`), from `.uef_opened` on. What it calls, OSFIND, OSBGET, the
service driver, the Escape test and the switch to tape, is answered by an environment that sees
every call before, and may change the JIM as it answers. -/
namespace Pi1MHz.UefImport
open Loop

section Hardware

/-- The three JIM selectors and the memory behind them. -/
structure Jim where
  high : UInt8
  middle : UInt8
  page : UInt8
  memory : Memory UInt8

/-- Where `pageram,Y` is. Through an AP5 only `pagereg` reaches the Pi. -/
def Jim.address (ap5 : Bool) (jim : Jim) (y : UInt8) : Nat :=
  (if ap5 then 0 else jim.high.toNat * 0x1000000 + jim.middle.toNat * 0x10000) +
    jim.page.toNat * 0x100 + y.toNat

def Jim.poke (ap5 : Bool) (jim : Jim) (y value : UInt8) : Jim :=
  { jim with memory := jim.memory.write (jim.address ap5 y) [value] }

def Jim.peek (ap5 : Bool) (jim : Jim) (y : UInt8) : UInt8 := jim.memory (jim.address ap5 y)

/-- `wicfs_select_public_zero`; X and A are kept. -/
def selectPublicZero (ap5 : Bool) (jim : Jim) : Jim :=
  if ap5 then { jim with page := 0 } else { jim with high := 0, middle := 0, page := 0 }

/-- `uef_select_length` -/
def selectLength (ap5 : Bool) (jim : Jim) : Jim := { selectPublicZero ap5 jim with page := 0xff }

/-- `uef_commit_length`: A and Y to the last two bytes of the public window. -/
def commitLength (ap5 : Bool) (jim : Jim) (a y : UInt8) : Jim :=
  ((selectLength ap5 jim).poke ap5 0xfe a).poke ap5 0xff y

end Hardware

section Calls

inductive Call
  | osbget (handle : UInt8)
  | close (handle : UInt8)
  | probe
  | begin
  | append
  | finalize
  | streamClose
  | normalize
  | escape
  | selectTape
deriving DecidableEq, Repr

/-- The carry and A of a call that returned, and what it did to the JIM. For a FINALIZE, A is
`drv_uef_format`. -/
structure Answer where
  carry : Bool
  a : UInt8
  effect : Jim → Jim

/-- A call that was made: the JIM it found, and its answer. -/
structure Event where
  call : Call
  jim : Jim
  carry : Bool
  a : UInt8

structure Environment where
  /-- `wicfs_machine` is 1 -/
  ap5 : Bool
  answer : List Event → Call → Answer

end Calls

inductive Exit
  | escaped
  | readError (code : UInt8)
  | full
  | empty
  | invalid
  | tooLarge
  | streamFailed
  | tapeFailed
  | loaded (format : UInt8)
deriving DecidableEq, Repr

/-- The stack, its top first, `temp`, `drv_uef_upload_active`, the JIM and the calls made. -/
structure State where
  stack : List UInt8
  temp : UInt8
  uploadActive : UInt8
  jim : Jim
  trace : List Event
  exit : Option Exit

section Machine

def State.push (s : State) (value : UInt8) : State := { s with stack := value :: s.stack }

/-- `PLA` and `PLP` -/
def State.pull (s : State) : State := { s with stack := s.stack.tail }

/-- `PHP`; the flags are never looked at on the stack. -/
def State.php (s : State) : State := s.push 0

/-- The byte at `&0100 + i,X` after TSX. -/
def State.frame (s : State) (i : Nat) : UInt8 := s.stack.getD (i - 1) 0

def State.setFrame (s : State) (i : Nat) (value : UInt8) : State :=
  { s with stack := s.stack.set (i - 1) value }

def State.call (s : State) (env : Environment) (call : Call) : State :=
  let answer := env.answer s.trace call
  { s with
    jim := answer.effect s.jim
    trace := s.trace ++ [⟨call, s.jim, answer.carry, answer.a⟩] }

def State.leave (s : State) (exit : Exit) : State := { s.pull.pull.pull with exit := some exit }

end Machine

section Command

variable (env : Environment)

/-- `uef_commit_length` between PHP and PLP, with A and Y loaded before the PHP. -/
def commit (s : State) (a y : UInt8) : State :=
  let s := s.php
  { s with jim := commitLength env.ap5 s.jim a y }.pull

/-- `uef_close`: the return address of the JSR lies above the frame. -/
def uefClose (s : State) : State :=
  let s := (s.push 0).push 0
  (s.call env (.close (s.frame 5))).pull.pull

def uefFull (s : State) : State := (uefClose env s).leave .full

def uefStreamFailed (s : State) : State :=
  let s := if s.uploadActive = 0 then s else s.call env .streamClose
  { s.leave .streamFailed with uploadActive := 0 }

def uefStreamReadFailed (s : State) : State := uefStreamFailed env (uefClose env s)

def uefEscape (s : State) : State :=
  let s := uefClose env s
  let s := if s.uploadActive = 0 then s else { s.call env .streamClose with uploadActive := 0 }
  s.leave .escaped

/-- The length in the public window goes to the frame, found above `saved` bytes. -/
def readLength (s : State) (saved : Nat) : State :=
  let s := { s with jim := selectLength env.ap5 s.jim }
  let low := s.jim.peek env.ap5 0xfe
  let high := s.jim.peek env.ap5 0xff
  ({ s with temp := low }.setFrame (saved + 2) high).setFrame (saved + 1) low

/-- `uef_normalized`, with the format in A. -/
def uefNormalized (s : State) (format : UInt8) : State :=
  let s := (readLength env (s.push format).php 2).pull
  let s := { s with temp := s.frame 1 }.pull
  if (env.answer s.trace .selectTape).carry then (s.call env .selectTape).leave .tapeFailed
  else (s.call env .selectTape).leave (.loaded format)

def uefStreamFinalize (s : State) : State :=
  let s := uefClose env s
  let answer := env.answer s.trace .finalize
  let s := s.call env .finalize
  if answer.carry then uefStreamFailed env s else uefNormalized env s answer.a

/-- The letters are `I` and `T`. -/
def uefLegacyNormalize (s : State) : State :=
  let answer := env.answer s.trace .normalize
  let s := s.call env .normalize
  if answer.a = 73 then s.leave .invalid
  else if answer.a = 84 then s.leave .tooLarge
  else uefNormalized env s answer.a

/-- The head of `uef_complete`: the length is published and read back. -/
def settleLength (s : State) : State :=
  let s := s.php
  let s := { s with jim := commitLength env.ap5 s.jim (s.frame 2) (s.frame 3) }
  (readLength env s 1).pull

def uefComplete (s : State) : State :=
  let s := settleLength env s
  if s.frame 2 ||| s.frame 1 = 0 then
    if s.uploadActive ≠ 0 then uefStreamFinalize env s else (uefClose env s).leave .empty
  else if s.uploadActive = 0 then uefLegacyNormalize env (uefClose env s)
  else
    let answer := env.answer s.trace .append
    let s := s.call env .append
    if answer.carry then uefStreamReadFailed env s else uefStreamFinalize env s

def uefReadEnd (s : State) (a : UInt8) : State :=
  if a = 0xfe then uefComplete env s
  else (uefClose env { s with temp := a }).leave (.readError a)

/-- The byte in `temp` goes to the window at the length in the frame, and the length moves on. -/
def storeByte (s : State) : State :=
  let s := s.php
  let s := { s with jim := { selectPublicZero env.ap5 s.jim with page := s.frame 3 } }
  let s := { s with jim := s.jim.poke env.ap5 (s.frame 2) s.temp }
  let s := s.setFrame 2 (s.frame 2 + 1)
  let s := if s.frame 2 = 0 then s.setFrame 3 (s.frame 3 + 1) else s
  s.pull

/-- `uef_checkpoint`: at the end of a page, publish the length and look for Escape. -/
def uefCheckpoint (s : State) : Pass State :=
  if s.frame 1 ≠ 0 then .again s
  else
    let s := commit env s (s.frame 1) (s.frame 2)
    let answer := env.answer s.trace .escape
    let s := s.call env .escape
    if answer.carry then .leave (uefEscape env s) else .again s

/-- `uef_read` -/
def uefRead (s : State) : Pass State :=
  let answer := env.answer s.trace (.osbget (s.frame 3))
  let s := s.call env (.osbget (s.frame 3))
  if answer.carry then .leave (uefReadEnd env s answer.a)
  else
    let s := { s with temp := answer.a }
    if s.frame 2 = 0xff ∧ 0xfe ≤ s.frame 1 then .leave (uefFull env s)
    else
      let s := storeByte env s
      if s.uploadActive ≠ 0 ∧ s.frame 1 = 0 ∧ s.frame 2 = 0xff then
        let s := commit env s 0 0xff
        let answer := env.answer s.trace .append
        let s := s.call env .append
        if answer.carry then .leave (uefStreamReadFailed env s)
        else uefCheckpoint env ((s.setFrame 1 0).setFrame 2 0)
      else uefCheckpoint env s

/-- `uef_opened`: the handle and an empty length on the stack, and a stream begun if the Pi has
one. -/
def uefOpened (handle : UInt8) (s : State) : State :=
  let s := ((s.push handle).push 0).push 0
  let s := { commit env s 0 0 with uploadActive := 0 }
  let probe := env.answer s.trace .probe
  let s := s.call env .probe
  if probe.carry then s
  else
    let begun := env.answer s.trace .begin
    let s := s.call env .begin
    if begun.carry then s else { s with uploadActive := 0xff }

/-- `uef_cmd` with the file open. -/
def uefCmd (fuel : Nat) (handle : UInt8) (s : State) : Option State :=
  repeatPass (fun s => some (uefRead env s)) fuel (uefOpened env handle s)

end Command

/-! What the steps do to a stack with the length and the handle on it, and to the window. -/
section Effects

variable {env : Environment} {s : State} {low high handle : UInt8} {base : List UInt8}

/-- The event of a call. -/
def State.event (s : State) (env : Environment) (call : Call) : Event :=
  ⟨call, s.jim, (env.answer s.trace call).carry, (env.answer s.trace call).a⟩

theorem State.call_trace (s : State) (env : Environment) (call : Call) :
    (s.call env call).trace = s.trace ++ [s.event env call] := rfl

/-- Any page of the public window, on either machine. -/
theorem address_public (ap5 : Bool) (jim : Jim) (page y : UInt8) :
    ({ selectPublicZero ap5 jim with page } : Jim).address ap5 y = page.toNat * 0x100 + y.toNat := by
  cases ap5 <;> simp [Jim.address, selectPublicZero]

theorem address_length (ap5 : Bool) (jim : Jim) (y : UInt8) :
    (selectLength ap5 jim).address ap5 y = 0xff00 + y.toNat := address_public ap5 jim 0xff y

theorem commitLength_memory (ap5 : Bool) (jim : Jim) (a y : UInt8) :
    (commitLength ap5 jim a y).memory = (jim.memory.write 0xfffe [a]).write 0xffff [y] := by
  have low := address_length ap5 jim 0xfe
  have high := address_length ap5 jim 0xff
  have same : ((selectLength ap5 jim).poke ap5 0xfe a).address ap5 0xff =
      (selectLength ap5 jim).address ap5 0xff := by
    rw [Jim.address, Jim.address, Jim.poke]
  have kept : (selectLength ap5 jim).memory = jim.memory := by
    cases ap5 <;> rfl
  rw [commitLength, Jim.poke, same, high, Jim.poke, low, kept]
  rfl

theorem commitLength_peek (ap5 : Bool) (jim : Jim) (a y : UInt8) :
    (selectLength ap5 (commitLength ap5 jim a y)).peek ap5 0xfe = a ∧
      (selectLength ap5 (commitLength ap5 jim a y)).peek ap5 0xff = y := by
  have kept : (selectLength ap5 (commitLength ap5 jim a y)).memory =
      (commitLength ap5 jim a y).memory := by
    cases ap5 <;> rfl
  constructor
  · rw [Jim.peek, address_length, kept, commitLength_memory]
    simp [Memory.write]
  · rw [Jim.peek, address_length, kept, commitLength_memory]
    simp [Memory.write]

theorem commit_eq (env : Environment) (s : State) (a y : UInt8) :
    commit env s a y = { s with jim := commitLength env.ap5 s.jim a y } := rfl

/-- `uef_close` finds the handle under the frame and its own return address. -/
theorem uefClose_eq (stack : s.stack = low :: high :: handle :: base) :
    uefClose env s = s.call env (.close handle) := by
  obtain ⟨stack_, temp, uploadActive, jim, trace, exit⟩ := s
  dsimp only at stack
  subst stack
  rfl

/-- The length that is read back is the one in the frame. -/
theorem settleLength_eq (stack : s.stack = low :: high :: handle :: base) :
    settleLength env s = { s with
      temp := low
      jim := selectLength env.ap5 (commitLength env.ap5 s.jim low high) } := by
  obtain ⟨stack_, temp, uploadActive, jim, trace, exit⟩ := s
  dsimp only at stack
  subst stack
  obtain ⟨first, second⟩ := commitLength_peek env.ap5 jim low high
  change State.mk
    ((selectLength env.ap5 (commitLength env.ap5 jim low high)).peek env.ap5 0xfe ::
      (selectLength env.ap5 (commitLength env.ap5 jim low high)).peek env.ap5 0xff :: handle :: base)
    ((selectLength env.ap5 (commitLength env.ap5 jim low high)).peek env.ap5 0xfe) _ _ _ _ = _
  rw [first, second]
  rfl

/-- What `uef_normalized` finds again under the length of the published window. -/
theorem readLength_normalized (stack : s.stack = low :: high :: handle :: base) (format : UInt8) :
    ∃ low' high' temp, (readLength env (s.push format).php 2).pull =
      { s with
        stack := format :: low' :: high' :: handle :: base, temp, jim := selectLength env.ap5 s.jim } := by
  obtain ⟨stack_, temp, uploadActive, jim, trace, exit⟩ := s
  dsimp only at stack
  subst stack
  exact ⟨_, _, _, rfl⟩

/-- One byte more in the window, and the length in the frame one higher. -/
theorem storeByte_eq (stack : s.stack = low :: high :: handle :: base) :
    storeByte env s = { s with
      stack := (low + 1) :: (if low + 1 = 0 then high + 1 else high) :: handle :: base
      jim := ({ selectPublicZero env.ap5 s.jim with page := high } : Jim).poke env.ap5 low s.temp } := by
  obtain ⟨stack_, temp, uploadActive, jim, trace, exit⟩ := s
  dsimp only at stack
  subst stack
  rw [storeByte]
  dsimp only
  by_cases wraps : low + 1 = 0
  · rw [if_pos wraps]
    exact congrArg State.pull (if_pos wraps)
  · rw [if_neg wraps]
    exact congrArg State.pull (if_neg wraps)

end Effects

end Pi1MHz.UefImport
