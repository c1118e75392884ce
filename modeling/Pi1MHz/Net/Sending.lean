import Pi1MHz.Foundation.Loop

/-! The writing of terminal input: `ssh_send_all` (`ssh.asm`) and `send_all` (`telnet.asm`) over
`secure_ssh_write` and `net_url_write`. OSBYTE 19, the wait between two tries, changes nothing
here. -/
namespace Pi1MHz.TerminalInput
open Loop

def netOk : UInt8 := 0x00
def netLocalTimeout : UInt8 := 0x2a

/-- Result and count of the service for a write. -/
structure Reply where
  code : UInt8
  count : Nat
deriving DecidableEq, Repr

/-- A write: the TX window and what the service replied. -/
structure Write where
  window : List UInt8
  reply : Reply
deriving DecidableEq, Repr

/-- The count in the command block: never more than was asked for. -/
def Write.length (write : Write) : Nat := min write.reply.count write.window.length

/-- What the service took of the window. A write that fails takes nothing, whatever is left in the
block. -/
def Write.taken (write : Write) : List UInt8 :=
  if write.reply.code = netOk then write.window.take write.length else []

/-- The bytes the service accepted, in order. -/
def accepted (writes : List Write) : List UInt8 := writes.flatMap Write.taken

/-- `send_remaining`, `send_pointer`, `send_retries`, A at the return, and the writes so far. -/
structure Sender where
  remaining : UInt8
  pointerLo : UInt8
  pointerHi : UInt8
  retries : UInt8
  result : UInt8
  writes : List Write
deriving DecidableEq, Repr

def address (lo hi : UInt8) : UInt16 := 256 * hi.toUInt16 + lo.toUInt16

/-- The copy to the TX window: Y counts from 0 to the length, and the loop ends when it wraps. -/
def copyWindow (memory : UInt16 → UInt8) (pointer : UInt16) (length : UInt8) : Nat → UInt8 → List UInt8
  | 0, _ => []
  | passes + 1, y =>
    if y = length then []
    else memory (pointer + y.toUInt16) :: copyWindow memory pointer length passes (y + 1)

section Routines

variable (memory : UInt16 → UInt8) (replies : Nat → Reply)

/-- `secure_ssh_write` and `net_url_write` are the same but for the command number. -/
def urlWrite (s : Sender) : Write where
  window := copyWindow memory (address s.pointerLo s.pointerHi) s.remaining 256 0
  reply := replies s.writes.length

def secureSshWrite (s : Sender) : Write := urlWrite memory replies s

/-- The pointer and the count after `length` bytes were taken. -/
def Sender.advance (s : Sender) (length : UInt8) : Sender :=
  { s with
    pointerLo := length + s.pointerLo
    pointerHi := if 256 ≤ length.toNat + s.pointerLo.toNat then s.pointerHi + 1 else s.pointerHi
    remaining := s.remaining - length }

/-- An empty write: wait, and try again while there are retries. -/
def Sender.retry (s : Sender) : Pass Sender :=
  let s := { s with retries := s.retries - 1 }
  if s.retries ≠ 0 then .again s else .leave { s with result := netLocalTimeout }

/-- `ssh_send_loop` -/
def sshSendPass (s : Sender) : Option (Pass Sender) :=
  let write := secureSshWrite memory replies s
  let s := { s with writes := s.writes ++ [write] }
  let length := write.length.toUInt8
  if write.reply.code ≠ netOk then some (.leave { s with result := write.reply.code })
  else if length = 0 then some s.retry
  else
    let s := s.advance length
    if s.remaining ≠ 0 then some (.again s) else some (.leave { s with result := netOk })

/-- `send_all_loop` -/
def sendPass (s : Sender) : Option (Pass Sender) :=
  if s.remaining = 0 then some (.leave { s with result := netOk })
  else
    let write := urlWrite memory replies s
    let s := { s with writes := s.writes ++ [write] }
    let length := write.length.toUInt8
    if write.reply.code ≠ netOk then some (.leave { s with result := write.reply.code })
    else if length = 0 then some s.retry
    else some (.again (s.advance length))

/-- A bytes from X/Y. -/
def entry (a x y : UInt8) : Sender := ⟨a, x, y, 100, a, []⟩

/-- `ssh_send_all` -/
def sshSendAll (fuel : Nat) (a x y : UInt8) : Option Sender :=
  repeatPass (sshSendPass memory replies) fuel (entry a x y)

/-- `send_all` of the TELNET client -/
def sendAll (fuel : Nat) (a x y : UInt8) : Option Sender :=
  repeatPass (sendPass memory replies) fuel (entry a x y)

end Routines

/-- The bytes of memory from an address on, around its end. -/
def bytesAt (memory : UInt16 → UInt8) (start : UInt16) (count : Nat) : List UInt8 :=
  (List.range count).map fun i => memory (start + i.toUInt16)

section Windows

variable {memory : UInt16 → UInt8}

theorem bytesAt_length (start : UInt16) (count : Nat) : (bytesAt memory start count).length = count := by
  simp [bytesAt]

theorem bytesAt_succ (start : UInt16) (count : Nat) :
    bytesAt memory start (count + 1) = memory start :: bytesAt memory (start + 1) count := by
  rw [bytesAt, List.range_succ_eq_map, List.map_cons, List.map_map, bytesAt]
  congr 1
  · simp
  · refine List.map_congr_left fun i _ => ?_
    simp only [Function.comp_apply, Nat.succ_eq_add_one, Nat.toUInt16_eq, UInt16.ofNat_add]
    rw [UInt16.add_assoc, UInt16.add_comm (UInt16.ofNat i)]
    rfl

theorem bytesAt_drop (start : UInt16) (count skip : Nat) :
    (bytesAt memory start count).drop skip = bytesAt memory (start + skip.toUInt16) (count - skip) := by
  induction skip generalizing start count with
  | zero => simp
  | succ skip ih =>
    cases count with
    | zero => simp [bytesAt]
    | succ count =>
      rw [bytesAt_succ, List.drop_succ_cons, ih, Nat.add_sub_add_right]
      congr 1
      simp only [Nat.toUInt16_eq, UInt16.ofNat_add]
      rw [UInt16.add_assoc, UInt16.add_comm 1]
      rfl

/-- From Y on, the copy takes the rest of the length. -/
theorem copyWindow_from (pointer : UInt16) {length y : UInt8} {passes : Nat} (le : y ≤ length)
    (enough : 256 ≤ passes + y.toNat) :
    copyWindow memory pointer length passes y =
      bytesAt memory (pointer + y.toUInt16) (length.toNat - y.toNat) := by
  have small := length.toNat_lt
  rw [UInt8.le_iff_toNat_le] at le
  induction passes generalizing y with
  | zero => omega
  | succ passes ih =>
    rw [copyWindow]
    split
    · rename_i done
      rw [done, Nat.sub_self]
      rfl
    · rename_i more
      have below : y.toNat < length.toNat :=
        Nat.lt_of_le_of_ne le fun same => more (UInt8.toNat_inj.mp same)
      have next : (y + 1).toNat = y.toNat + 1 := by
        rw [UInt8.toNat_add, UInt8.toNat_one]
        omega
      have step : pointer + (y + 1).toUInt16 = pointer + y.toUInt16 + 1 := by
        rw [← UInt16.toNat_inj]
        simp only [UInt16.toNat_add, UInt8.toNat_toUInt16, next, UInt16.toNat_one]
        omega
      rw [ih (by omega) (by omega), step, next, ← bytesAt_succ]
      congr 1
      omega

theorem copyWindow_eq (pointer : UInt16) (length : UInt8) :
    copyWindow memory pointer length 256 0 = bytesAt memory pointer length.toNat := by
  have whole := @copyWindow_from memory pointer length 0 256 (UInt8.le_iff_toNat_le.mpr (Nat.zero_le _))
    (Nat.le_add_right _ _)
  rw [whole, UInt8.toNat_zero, Nat.sub_zero]
  congr 1
  exact UInt16.add_zero pointer

/-- The carry of the pointer. -/
theorem address_advance (s : Sender) (length : UInt8) :
    address (s.advance length).pointerLo (s.advance length).pointerHi =
      address s.pointerLo s.pointerHi + length.toUInt16 := by
  rw [← UInt16.toNat_inj]
  have sizes := And.intro length.toNat_lt (And.intro s.pointerLo.toNat_lt s.pointerHi.toNat_lt)
  simp only [address, Sender.advance]
  split <;> simp only [UInt16.toNat_add, UInt16.toNat_mul, UInt8.toNat_toUInt16, UInt8.toNat_add,
    UInt16.toNat_ofNat, UInt8.toNat_one] <;> omega

end Windows

theorem accepted_append (writes : List Write) (write : Write) :
    accepted (writes ++ [write]) = accepted writes ++ write.taken := by
  simp [accepted]

/-- Each write offered what had not been accepted before it. -/
def Offered (bytes : List UInt8) (writes : List Write) : Prop :=
  ∀ before write after, writes = before ++ write :: after →
    write.window = bytes.drop (accepted before).length

/-- How many writes accepted nothing. -/
def empties (writes : List Write) : Nat := writes.countP (·.taken = [])

/-- The sending of `bytes` when it returned. -/
structure Sent (bytes : List UInt8) (done : Sender) : Prop where
  front : accepted done.writes <+: bytes
  ok : done.result = netOk ↔ accepted done.writes = bytes
  timeout : (∀ write ∈ done.writes, write.reply.code = netOk) → done.result = netLocalTimeout →
    empties done.writes = 100
  offered : Offered bytes done.writes

/-- Between two writes. -/
structure Sending (memory : UInt16 → UInt8) (start : UInt16) (bytes : List UInt8) (s : Sender) : Prop where
  source : bytes = bytesAt memory start bytes.length
  left : s.remaining.toNat + (accepted s.writes).length = bytes.length
  front : accepted s.writes <+: bytes
  pointer : address s.pointerLo s.pointerHi = start + (accepted s.writes).length.toUInt16
  tries : s.retries.toNat + empties s.writes = 100
  more : s.retries ≠ 0
  good : ∀ write ∈ s.writes, write.reply.code = netOk
  offered : Offered bytes s.writes

section Passes

variable {memory : UInt16 → UInt8} {replies : Nat → Reply} {start : UInt16} {bytes : List UInt8}
  {s : Sender}

theorem Offered.append {writes : List Write} {write : Write} (offered : Offered bytes writes)
    (window : write.window = bytes.drop (accepted writes).length) : Offered bytes (writes ++ [write]) := by
  intro before other after split
  rcases List.eq_nil_or_concat after with rfl | ⟨others, last, rfl⟩
  · obtain ⟨rfl, same⟩ := List.append_inj' split rfl
    cases same
    exact window
  · have shorter : writes = before ++ other :: others := by
      have joined : writes ++ [write] = (before ++ other :: others) ++ [last] := by
        rw [split, List.append_assoc]
        simp
      exact (List.append_inj' joined rfl).1
    exact offered before other others shorter

/-- The write offers all that is left. -/
theorem Sending.window (sending : Sending memory start bytes s) (replies : Nat → Reply) :
    (urlWrite memory replies s).window = bytes.drop (accepted s.writes).length := by
  have left := sending.left
  have rest : s.remaining.toNat = bytes.length - (accepted s.writes).length := by omega
  have window : (urlWrite memory replies s).window =
      copyWindow memory (address s.pointerLo s.pointerHi) s.remaining 256 0 := rfl
  rw [window, copyWindow_eq, sending.pointer, rest]
  conv => rhs; rw [sending.source]
  rw [bytesAt_drop]

theorem Sending.window_length (sending : Sending memory start bytes s) (replies : Nat → Reply) :
    (urlWrite memory replies s).window.length = s.remaining.toNat := by
  have left := sending.left
  rw [sending.window, List.length_drop]
  omega

/-- The service failed the write. -/
theorem Sending.failed (sending : Sending memory start bytes s) (rest : s.remaining ≠ 0)
    (code : (urlWrite memory replies s).reply.code ≠ netOk) :
    Sent bytes { s with
      writes := s.writes ++ [urlWrite memory replies s]
      result := (urlWrite memory replies s).reply.code } := by
  have left := sending.left
  have nothing : (urlWrite memory replies s).taken = [] := if_neg code
  have same : accepted (s.writes ++ [urlWrite memory replies s]) = accepted s.writes := by
    rw [accepted_append, nothing, List.append_nil]
  refine ⟨?_, ?_, ?_, sending.offered.append (sending.window replies)⟩
  · rw [same]
    exact sending.front
  · refine ⟨fun ok => absurd ok code, fun all => ?_⟩
    rw [same] at all
    rw [all] at left
    exact absurd (UInt8.toNat_inj.mp (by rw [UInt8.toNat_zero]; omega)) rest
  · intro good
    exact absurd (good _ (List.mem_append_right _ List.mem_cons_self)) code

/-- An empty write either is tried again or was the hundredth. -/
theorem Sending.empty (sending : Sending memory start bytes s) (rest : s.remaining ≠ 0)
    (code : (urlWrite memory replies s).reply.code = netOk)
    (nothing : (urlWrite memory replies s).taken = []) :
    (Sender.retry { s with writes := s.writes ++ [urlWrite memory replies s] }).Holds
      (fun next => Sending memory start bytes next ∧ next.remaining = s.remaining ∧
        next.retries.toNat < s.retries.toNat)
      (Sent bytes) := by
  have left := sending.left
  have tries := sending.tries
  have same : accepted (s.writes ++ [urlWrite memory replies s]) = accepted s.writes := by
    rw [accepted_append, nothing, List.append_nil]
  have counted : empties (s.writes ++ [urlWrite memory replies s]) = empties s.writes + 1 := by
    simp [empties, nothing]
  have offered := sending.offered.append (sending.window replies)
  have positive : 0 < s.retries.toNat := by
    have more := mt UInt8.toNat_inj.mp sending.more
    rw [UInt8.toNat_zero] at more
    omega
  have lower : (s.retries - 1).toNat = s.retries.toNat - 1 := by
    rw [UInt8.toNat_sub, UInt8.toNat_one]
    omega
  simp only [Sender.retry]
  split
  · rename_i again
    refine ⟨⟨sending.source, ?_, ?_, ?_, ?_, again, ?_, offered⟩, rfl, ?_⟩
    · rw [same]
      exact left
    · rw [same]
      exact sending.front
    · rw [same]
      exact sending.pointer
    · rw [counted, lower]
      omega
    · intro write member
      rcases List.mem_append.mp member with old | new
      · exact sending.good write old
      · rw [List.mem_singleton.mp new]
        exact code
    · rw [lower]
      omega
  · rename_i last
    rw [not_not] at last
    rw [last, UInt8.toNat_zero] at lower
    refine ⟨?_, ?_, ?_, offered⟩
    · rw [same]
      exact sending.front
    · refine ⟨fun ok => absurd ok (show netLocalTimeout ≠ netOk by decide), fun all => ?_⟩
      rw [same] at all
      rw [all] at left
      exact absurd (UInt8.toNat_inj.mp (by rw [UInt8.toNat_zero]; omega)) rest
    · intro _ _
      rw [counted]
      omega

/-- Some of the window was taken. -/
theorem Sending.advanced (sending : Sending memory start bytes s)
    (code : (urlWrite memory replies s).reply.code = netOk)
    (nonempty : (urlWrite memory replies s).taken ≠ []) :
    Sending memory start bytes (Sender.advance { s with writes := s.writes ++ [urlWrite memory replies s] }
        (urlWrite memory replies s).length.toUInt8) ∧
      (s.remaining - (urlWrite memory replies s).length.toUInt8).toNat < s.remaining.toNat := by
  have window := sending.window replies
  have size := sending.window_length replies
  have left := sending.left
  have small := s.remaining.toNat_lt
  generalize urlWrite memory replies s = write at code nonempty window size ⊢
  have inside : write.length ≤ s.remaining.toNat := by
    rw [← size]
    exact Nat.min_le_right _ _
  have taken : write.taken = write.window.take write.length := if_pos code
  have count : write.taken.length = write.length := by
    rw [taken, List.length_take]
    omega
  have positive : 0 < write.length := by
    rw [← count]
    exact List.length_pos_iff.mpr nonempty
  have byte : write.length.toUInt8.toNat = write.length := by
    rw [Nat.toUInt8_eq, UInt8.toNat_ofNat']
    omega
  have after : (s.remaining - write.length.toUInt8).toNat = s.remaining.toNat - write.length := by
    rw [UInt8.toNat_sub, byte]
    omega
  have total : (accepted (s.writes ++ [write])).length = (accepted s.writes).length + write.length := by
    rw [accepted_append, List.length_append, count]
  refine ⟨⟨sending.source, ?_, ?_, ?_, ?_, sending.more, ?_, sending.offered.append window⟩, ?_⟩
  · change (s.remaining - write.length.toUInt8).toNat + _ = _
    rw [after, Sender.advance, total]
    omega
  · obtain ⟨others, whole⟩ := sending.front
    have tail : bytes.drop (accepted s.writes).length = others := by
      rw [← whole, List.drop_left]
    change accepted (s.writes ++ [write]) <+: bytes
    rw [accepted_append, taken, window, tail]
    conv => rhs; rw [← whole]
    rw [List.prefix_append_right_inj]
    exact List.take_prefix _ _
  · rw [address_advance]
    change address s.pointerLo s.pointerHi + _ = start + (accepted (s.writes ++ [write])).length.toUInt16
    rw [sending.pointer, total, ← UInt16.toNat_inj]
    simp only [UInt16.toNat_add, UInt8.toNat_toUInt16, byte, Nat.toUInt16_eq, UInt16.toNat_ofNat']
    omega
  · have counted : empties (s.writes ++ [write]) = empties s.writes := by
      simp [empties, nonempty]
    change s.retries.toNat + empties (s.writes ++ [write]) = 100
    rw [counted]
    exact sending.tries
  · intro other member
    rcases List.mem_append.mp member with old | new
    · exact sending.good other old
    · rw [List.mem_singleton.mp new]
      exact code
  · rw [after]
    omega

theorem Sending.length_zero (sending : Sending memory start bytes s)
    (code : (urlWrite memory replies s).reply.code = netOk) :
    (urlWrite memory replies s).length.toUInt8 = 0 ↔ (urlWrite memory replies s).taken = [] := by
  have size := sending.window_length replies
  have small := s.remaining.toNat_lt
  generalize urlWrite memory replies s = write at code size ⊢
  have inside : write.length ≤ write.window.length := Nat.min_le_right _ _
  have count : write.taken.length = write.length := by
    rw [Write.taken, if_pos code, List.length_take]
    omega
  rw [← UInt8.toNat_inj, Nat.toUInt8_eq, UInt8.toNat_ofNat', UInt8.toNat_zero, ← List.length_eq_zero_iff,
    count]
  omega

theorem sshSendPass_eq (s : Sender) : sshSendPass memory replies s =
    let write := urlWrite memory replies s
    let next := { s with writes := s.writes ++ [write] }
    if write.reply.code ≠ netOk then some (.leave { next with result := write.reply.code })
    else if write.length.toUInt8 = 0 then some next.retry
    else
      if (next.advance write.length.toUInt8).remaining ≠ 0 then
        some (.again (next.advance write.length.toUInt8))
      else some (.leave { next.advance write.length.toUInt8 with result := netOk }) := rfl

/-- What is left to send and to retry. -/
def Sender.effort (s : Sender) : Nat := s.remaining.toNat + s.retries.toNat

theorem Sending.pass (sending : Sending memory start bytes s) (rest : s.remaining ≠ 0) :
    Settles (sshSendPass memory replies s) (Pass.Holds
      (fun next => (Sending memory start bytes next ∧ next.remaining ≠ 0) ∧ next.effort < s.effort)
      (Sent bytes)) := by
  rw [sshSendPass_eq]
  dsimp only
  split
  · rename_i code
    exact settles_some (sending.failed rest code)
  rename_i code
  rw [not_not] at code
  split
  · rename_i zero
    have nothing := (sending.length_zero code).mp zero
    refine settles_some ?_
    have tried := sending.empty rest code nothing
    cases outcome : Sender.retry { s with writes := s.writes ++ [urlWrite memory replies s] } with
    | again next =>
      rw [outcome] at tried
      obtain ⟨again, same, lower⟩ := tried
      refine ⟨⟨again, by rw [same]; exact rest⟩, ?_⟩
      rw [Sender.effort, Sender.effort, same]
      omega
    | leave done =>
      rw [outcome] at tried
      exact tried
  · rename_i nonempty
    have taken := mt (sending.length_zero code).mpr nonempty
    obtain ⟨next, lower⟩ := sending.advanced code taken
    split
    · rename_i more
      refine settles_some ⟨⟨next, more⟩, ?_⟩
      exact Nat.add_lt_add_right lower _
    · rename_i all
      rw [not_not] at all
      refine settles_some ⟨next.front, ⟨fun _ => ?_, fun _ => rfl⟩, fun _ wrong => ?_, next.offered⟩
      · have left := next.left
        rw [all, UInt8.toNat_zero, Nat.zero_add] at left
        exact next.front.eq_of_length left
      · exact absurd wrong (show netOk ≠ netLocalTimeout by decide)

/-- The TELNET loop makes the same writes, and sees at the head of one more pass that nothing is
left. -/
theorem send_of_sshSend {fuel : Nat} {done : Sender} (rest : s.remaining ≠ 0)
    (returned : repeatPass (sshSendPass memory replies) fuel s = some done) :
    repeatPass (sendPass memory replies) (fuel + 1) s = some done := by
  induction fuel generalizing s with
  | zero => cases returned
  | succ fuel ih =>
    rw [repeatPass, sshSendPass_eq] at returned
    rw [repeatPass, sendPass, if_neg rest]
    dsimp only at returned ⊢
    by_cases code : (urlWrite memory replies s).reply.code ≠ netOk
    · rw [if_pos code] at returned ⊢
      exact returned
    rw [if_neg code] at returned ⊢
    by_cases zero : (urlWrite memory replies s).length.toUInt8 = 0
    · rw [if_pos zero] at returned ⊢
      simp only [Sender.retry] at returned ⊢
      by_cases again : s.retries - 1 ≠ 0
      · rw [if_pos again] at returned ⊢
        exact ih rest returned
      · rw [if_neg again] at returned ⊢
        exact returned
    rw [if_neg zero] at returned ⊢
    by_cases more : (Sender.advance { s with writes := s.writes ++ [urlWrite memory replies s] }
        (urlWrite memory replies s).length.toUInt8).remaining ≠ 0
    · rw [if_pos more] at returned
      exact ih more returned
    · rw [if_neg more] at returned
      rw [not_not] at more
      dsimp only
      rw [repeatPass, sendPass, if_pos more]
      exact returned

end Passes

section Runs

variable (memory : UInt16 → UInt8) (replies : Nat → Reply) {a x y : UInt8}

theorem entry_sending (a x y : UInt8) :
    Sending memory (address x y) (bytesAt memory (address x y) a.toNat) (entry a x y) where
  source := by rw [bytesAt_length]
  left := by rw [bytesAt_length]; rfl
  front := List.nil_prefix
  pointer := by
    change address x y = address x y + 0
    rw [UInt16.add_zero]
  tries := rfl
  more := by simp only [entry]; decide
  good write member := by cases member
  offered before write after split := by
    cases before <;> cases split

/-- With enough passes both routines return, with the same result and the same writes, and what
the service accepted is a front of the buffer. -/
theorem sends_exactly {fuel : Nat} (nonempty : a ≠ 0) (enough : 357 ≤ fuel) :
    ∃ done, sshSendAll memory replies fuel a x y = some done ∧
      sendAll memory replies fuel a x y = some done ∧
      Sent (bytesAt memory (address x y) a.toNat) done := by
  obtain ⟨fuel, rfl⟩ : ∃ less, fuel = less + 1 := ⟨fuel - 1, by omega⟩
  have small := a.toNat_lt
  have effort : (entry a x y).effort = a.toNat + 100 := rfl
  obtain ⟨done, returned, sent⟩ := repeatPass_settles
    (fun s => Sending memory (address x y) (bytesAt memory (address x y) a.toNat) s ∧ s.remaining ≠ 0)
    Sender.effort (fun s before => @Sending.pass memory replies _ _ s before.1 before.2)
    ⟨entry_sending memory a x y, nonempty⟩ (show (entry a x y).effort < fuel by omega)
  exact ⟨done, repeatPass_more returned (Nat.le_succ fuel), send_of_sshSend nonempty returned, sent⟩

end Runs

/-- A memory that holds the low byte of each address. -/
def lowBytes (address : UInt16) : UInt8 := address.toUInt8

/-- A service that takes at most two bytes, and none every third time. -/
def slow (dispatch : Nat) : Reply := ⟨netOk, dispatch % 3⟩

/-- Four bytes over the end of a page. -/
theorem slow_sends_exactly :
    (sshSendAll lowBytes slow 357 4 0xfe 0x12).map (fun done => (done.result, accepted done.writes)) =
        some (netOk, [0xfe, 0xff, 0x00, 0x01]) ∧
      ∃ done, sshSendAll lowBytes slow 357 4 0xfe 0x12 = some done ∧
        sendAll lowBytes slow 357 4 0xfe 0x12 = some done ∧
        Sent (bytesAt lowBytes (address 0xfe 0x12) 4) done :=
  ⟨by decide +kernel, sends_exactly lowBytes slow (by decide) (Nat.le_refl 357)⟩

end Pi1MHz.TerminalInput
