import Pi1MHz.Foundation.Conduit
import Pi1MHz.Net.Fixture

/-! Handles used again. A close leaves some fields as they are; which of them the next user of the
handle can see decides whether a closed handle is like one never used. -/
namespace Pi1MHz.NetFixture
open FtpService (ascii lower)

/-- What the caller of each command sees: its result and the memory after it. -/
def answers (h : NetHandle) (calls : List Call) : List Answer :=
  Conduit.traffic (fun h c => (dispatch h c).1) (fun h c => [(dispatch h c).2]) h calls

def handleAfter (h : NetHandle) (calls : List Call) : NetHandle :=
  Conduit.run (fun h c => (dispatch h c).1) h calls

theorem handleAfter_cons (h : NetHandle) (c : Call) (calls : List Call) :
    handleAfter h (c :: calls) = handleAfter (dispatch h c).1 calls := rfl

section Simulation

/-- One handle, or two that differ in the URL of an open that has not begun. -/
def Alike (h k : NetHandle) : Prop :=
  h = k ∨ h.opened = false ∧ h.openPolls = 0 ∧ ∃ url, k = { h with url }

/-- A function that answers alike on handles that are alike, and leaves them alike. -/
def KeepsAlike (command : NetHandle → Call → NetHandle × Answer) : Prop :=
  ∀ h k c, Alike h k → Alike (command h c).1 (command k c).1 ∧ (command h c).2 = (command k c).2

/-- A handle as a close leaves it before any open has been polled. -/
def idle (h : NetHandle) : NetHandle := { h with opened := false, openPolls := 0 }

/-- It is enough to look at such handles. -/
theorem keepsAlike_of_idle {command : NetHandle → Call → NetHandle × Answer}
    (same : ∀ (h : NetHandle) c url,
      Alike (command (idle h) c).1 (command { idle h with url } c).1 ∧
        (command (idle h) c).2 = (command { idle h with url } c).2) : KeepsAlike command := by
  rintro h k c (rfl | ⟨opened, polls, url, rfl⟩)
  · exact ⟨.inl rfl, rfl⟩
  · have own : h = idle h := by
      cases h
      cases opened
      cases polls
      rfl
    rw [own]
    exact same h c url

/-- A function that does nothing to them. -/
theorem keepsAlike_of_frame {command : NetHandle → Call → NetHandle × Answer}
    (frame : ∀ (h : NetHandle) c, h.opened = false → (command h c).1 = h)
    (blind : ∀ (h : NetHandle) c url, h.opened = false →
      (command h c).2 = (command { h with url } c).2) : KeepsAlike command := by
  apply keepsAlike_of_idle
  intro h c url
  refine ⟨?_, blind (idle h) c url rfl⟩
  rw [frame (idle h) c rfl, frame { idle h with url } c rfl]
  exact .inr ⟨rfl, rfl, url, rfl⟩

theorem keepsAlike_read : KeepsAlike doRead :=
  keepsAlike_of_frame (fun h c opened => by simp [doRead, opened])
    fun h c url opened => by simp [doRead, opened]

theorem keepsAlike_write : KeepsAlike doWrite :=
  keepsAlike_of_frame (fun h c opened => by simp [doWrite, opened])
    fun h c url opened => by simp [doWrite, opened]

theorem keepsAlike_path (reply : List UInt8) : KeepsAlike (doSftpPath reply) :=
  keepsAlike_of_frame (fun h c opened => by simp [doSftpPath, opened])
    fun h c url opened => by simp [doSftpPath, opened]

theorem keepsAlike_transferOpen : KeepsAlike doSftpTransferOpen :=
  keepsAlike_of_frame (fun h c opened => by simp [doSftpTransferOpen, opened])
    fun h c url opened => by simp [doSftpTransferOpen, opened]

/-- A function that does not look at the handle. -/
theorem keepsAlike_of_blind {command : NetHandle → Call → NetHandle × Answer}
    (blind : ∀ h c, command h c = (h, (command .unused c).2)) : KeepsAlike command := by
  apply keepsAlike_of_frame
  · intro h c _
    rw [blind]
  · intro h c url _
    rw [blind, blind { h with url }]

theorem keepsAlike_caps : KeepsAlike doCaps := keepsAlike_of_blind fun _ _ => rfl

theorem keepsAlike_random : KeepsAlike doRandom := by
  apply keepsAlike_of_blind
  intro h c
  simp only [doRandom]
  split <;> rfl

theorem keepsAlike_password : KeepsAlike doSshPassword := by
  apply keepsAlike_of_blind
  intro h c
  simp only [doSshPassword]
  split <;> rfl

theorem keepsAlike_copyPublic : KeepsAlike doCopyPublic := by
  apply keepsAlike_of_blind
  intro h c
  simp only [doCopyPublic]
  split <;> rfl

theorem keepsAlike_dns : KeepsAlike doRawDns := by
  apply keepsAlike_of_frame
  · intro h c _
    simp only [doRawDns]
    split
    · rfl
    · split <;> rfl
  · intro h c url _
    simp only [doRawDns]
    split
    · rfl
    · split <;> rfl

theorem keepsAlike_close : KeepsAlike doClose := by
  apply keepsAlike_of_idle
  intro h c url
  exact ⟨.inr ⟨rfl, rfl, url, rfl⟩, rfl⟩

theorem keepsAlike_transferClose : KeepsAlike doSftpTransferClose := by
  apply keepsAlike_of_idle
  intro h c url
  exact ⟨.inr ⟨rfl, rfl, url, rfl⟩, rfl⟩

theorem keepsAlike_rawOpen : KeepsAlike doRawOpen := by
  apply keepsAlike_of_idle
  intro h c url
  by_cases large : 1 < c.command 1
  · simp only [doRawOpen, if_pos large, and_true]
    exact .inr ⟨rfl, rfl, url, rfl⟩
  by_cases allocated : h.rawAllocated = true
  · simp only [doRawOpen, idle, if_neg large, allocated, Bool.true_or, if_true, and_true]
    exact .inr ⟨rfl, rfl, url, rfl⟩
  · simp only [doRawOpen, idle, if_neg large, allocated, Bool.or_false, Bool.false_eq_true, if_false,
      and_true]
    exact .inr ⟨rfl, rfl, url, rfl⟩

/-- The first poll of an open stores the URL. -/
theorem keepsAlike_open : KeepsAlike doOpen := by
  apply keepsAlike_of_idle
  intro h c url
  simp only [doOpen, idle]
  split
  · exact ⟨.inr ⟨rfl, rfl, url, rfl⟩, rfl⟩
  · exact ⟨.inl rfl, rfl⟩

theorem keepsAlike_connect : KeepsAlike doRawConnect := by
  apply keepsAlike_of_idle
  intro h c url
  by_cases allocated : h.rawAllocated = true
  swap
  · simp only [doRawConnect, idle, allocated, Bool.not_false, if_true, and_true]
    exact .inr ⟨rfl, rfl, url, rfl⟩
  by_cases port : c.rd16 5 = 0
  · simp only [doRawConnect, idle, allocated, Bool.not_true, Bool.false_eq_true, if_false, if_pos port,
      and_true]
    exact .inr ⟨rfl, rfl, url, rfl⟩
  · simp only [doRawConnect, idle, allocated, Bool.not_true, Bool.false_eq_true, if_false, if_neg port,
      and_true]
    exact .inl rfl

theorem keepsAlike_sshOpen : KeepsAlike doSshOpen := by
  apply keepsAlike_of_idle
  intro h c url
  simp only [doSshOpen, idle]
  split
  · exact ⟨.inr ⟨rfl, rfl, url, rfl⟩, rfl⟩
  · exact ⟨.inl rfl, rfl⟩

theorem keepsAlike_sftpOpen : KeepsAlike doSftpOpen := by
  apply keepsAlike_of_idle
  intro h c url
  simp only [doSftpOpen, idle]
  split
  · exact ⟨.inr ⟨rfl, rfl, url, rfl⟩, rfl⟩
  · exact ⟨.inl rfl, rfl⟩

theorem keepsAlike_unsupported :
    KeepsAlike fun h c => (h, answer c .unsupported) :=
  keepsAlike_of_blind fun _ _ => rfl

theorem keepsAlike_handler (command : UInt8) : KeepsAlike (handler command) := by
  have choose : ∀ {p : Prop} [Decidable p] {f g : NetHandle → Call → NetHandle × Answer},
      KeepsAlike f → KeepsAlike g → KeepsAlike (if p then f else g) := by
    intro p _ f g left right
    split
    · exact left
    · exact right
  exact choose keepsAlike_rawOpen <| choose keepsAlike_dns <| choose keepsAlike_connect <|
    choose keepsAlike_copyPublic <| choose keepsAlike_open <| choose keepsAlike_read <|
    choose keepsAlike_write <| choose keepsAlike_close <| choose keepsAlike_caps <|
    choose keepsAlike_random <| choose keepsAlike_sshOpen <| choose keepsAlike_password <|
    choose keepsAlike_sftpOpen <| choose (keepsAlike_path _) <| choose (keepsAlike_path _) <|
    choose (keepsAlike_path _) <| choose keepsAlike_transferOpen <|
    choose keepsAlike_transferClose keepsAlike_unsupported

theorem Alike.answers {h k : NetHandle} (alike : Alike h k) (calls : List Call) :
    answers h calls = answers k calls := by
  induction calls generalizing h k with
  | nil => rfl
  | cons c calls ih =>
    obtain ⟨after, same⟩ := keepsAlike_handler (c.command 0) h k c alike
    have first : (dispatch h c).2 = (dispatch k c).2 := same
    have rest : NetFixture.answers (dispatch h c).1 calls = NetFixture.answers (dispatch k c).1 calls :=
      ih after
    simp only [NetFixture.answers, Conduit.traffic] at rest ⊢
    rw [first, rest]

end Simulation

section Probes
variable {h : NetHandle} {c : Call}

theorem doOpen_waits (short : (c.text 2 221).length < 221) (closed : h.opened = false)
    (polls : h.openPolls = 0) :
    doOpen h c = ({ h with url := c.text 2 221, openPolls := 1 }, answer c .pending) := by
  simp only [doOpen, if_neg (Nat.not_le.mpr short), closed, polls]
  rfl

theorem doOpen_polled (short : (c.text 2 221).length < 221) (polls : h.openPolls ≠ 0) :
    (doOpen h c).2.code ≠ .pending := by
  have kept : (!h.opened && h.openPolls = 0) = false := by simp [polls]
  simp only [doOpen, if_neg (Nat.not_le.mpr short), kept, Bool.false_eq_true, if_false, if_neg polls]
  split
  · exact fun waits => by cases waits
  · split <;> exact fun waits => by cases waits

theorem doOpen_tcp (short : (c.text 2 221).length < 221) (polls : h.openPolls ≠ 0)
    (telnet : (h.url.take 9).map lower ≠ ascii "telnet://")
    (tcp : (h.url.take 6).map lower = ascii "tcp://") :
    doOpen h c =
      ({ h with
          openPolls := h.openPolls + 1, opened := true
          fixture := fixtureSshIdentification ++ buildFixtureKexinit }, answer c .ok) := by
  have kept : (!h.opened && h.openPolls = 0) = false := by simp [polls]
  simp only [doOpen, if_neg (Nat.not_le.mpr short), kept, Bool.false_eq_true, if_false, if_neg polls,
    if_neg telnet, if_pos tcp]

/-- A read that finds bytes. -/
theorem doRead_some (opened : h.opened = true) (inside : insideWindow (c.rd32 4) (c.rd24 1) = true)
    (more : h.fixturePos < h.fixture.length) :
    let count := min (min (c.rd24 1) (fixtureChunk h.readIndex)) (h.fixture.length - h.fixturePos)
    doRead h c =
      ({ h with readIndex := h.readIndex + 1, fixturePos := h.fixturePos + count },
        ⟨.ok, wr24 c count
          (c.jim.write (c.base + c.rd32 4) ((h.fixture.drop h.fixturePos).take count))⟩) := by
  simp only [doRead, opened, inside, Bool.not_true, Bool.false_eq_true, if_false,
    if_neg (Nat.not_le.mpr more)]

theorem doRead_end (opened : h.opened = true) (inside : insideWindow (c.rd32 4) (c.rd24 1) = true)
    (last : h.fixture.length ≤ h.fixturePos) : doRead h c = (h, ⟨.eof, wr24 c 0 c.jim⟩) := by
  simp only [doRead, opened, inside, Bool.not_true, Bool.false_eq_true, if_false, if_pos last]

/-- A command block at the bottom of an empty memory. -/
def hostCall (block : List UInt8) : Call where
  jim := Memory.write (fun _ => 0) 0 block
  base := 0
  cp := 0
  placed := by decide
  resolve _ _ := none
  random := []

/-- The address `&10000`, where the probes read and have their strings. -/
def probeArea : List UInt8 := [0, 0, 1, 0]

def tcpOpen : Call := hostCall (netCmdUrlOpen :: 0 :: ascii "TCP://host")
def sftpOpen : Call := hostCall (secCmdSftpOpen :: 0 :: probeArea ++ probeArea)
def getOpen : Call := hostCall [secCmdSftpGetOpen]
def readUpTo (maximum : UInt8) : Call := hostCall (netCmdUrlRead :: maximum :: 0 :: 0 :: probeArea)

theorem tcpOpen_text : tcpOpen.text 2 221 = ascii "TCP://host" := by decide +kernel

theorem tcpOpen_waits (closed : h.opened = false) (polls : h.openPolls = 0) :
    dispatch h tcpOpen =
      ({ h with url := ascii "TCP://host", openPolls := 1 }, answer tcpOpen .pending) := by
  rw [← tcpOpen_text]
  exact doOpen_waits (by rw [tcpOpen_text]; decide) closed polls

theorem tcpOpen_polled (polls : h.openPolls ≠ 0) : (dispatch h tcpOpen).2.code ≠ .pending :=
  doOpen_polled (c := tcpOpen) (by rw [tcpOpen_text]; decide) polls

theorem tcpOpen_opens (polls : h.openPolls ≠ 0) (url : h.url = ascii "TCP://host") :
    dispatch h tcpOpen =
      ({ h with
          openPolls := h.openPolls + 1, opened := true
          fixture := fixtureSshIdentification ++ buildFixtureKexinit }, answer tcpOpen .ok) := by
  refine doOpen_tcp (c := tcpOpen) (by rw [tcpOpen_text]; decide) polls ?_ ?_
  · rw [url]
    decide
  · rw [url]
    decide

theorem terminated_of_zero {offset : Nat} (within : offset < serviceSize)
    (zero : c.jim (c.base + offset) = 0) : c.terminated offset = true := by
  obtain ⟨size, more⟩ := Nat.exists_eq_add_of_lt within
  have count : serviceSize - offset = size + 1 := by omega
  rw [Call.terminated, Call.window, count, Memory.read_succ, zero]
  simp [within]

theorem doSftpOpen_opens (host : c.terminated (c.rd32 2) = true)
    (user : c.terminated (c.rd32 6) = true) :
    doSftpOpen h c =
      ({ h with opened := true, url := storedUrl (c.string (c.rd32 2)) }, answer c .ok) := by
  simp only [doSftpOpen, host, user, Bool.and_self, Bool.not_true, Bool.false_eq_true, if_false]

theorem sftpOpen_opens :
    ∃ url, dispatch h sftpOpen = ({ h with opened := true, url }, answer sftpOpen .ok) := by
  have host : sftpOpen.rd32 2 = 65536 := by decide +kernel
  have user : sftpOpen.rd32 6 = 65536 := by decide +kernel
  have string : sftpOpen.terminated 65536 = true :=
    terminated_of_zero (by decide) (by decide +kernel)
  have opens := @doSftpOpen_opens h sftpOpen ((congrArg sftpOpen.terminated host).trans string)
    ((congrArg sftpOpen.terminated user).trans string)
  have command : sftpOpen.command 0 = secCmdSftpOpen := rfl
  have picked : handler secCmdSftpOpen = doSftpOpen := rfl
  refine ⟨storedUrl (sftpOpen.string (sftpOpen.rd32 2)), ?_⟩
  rw [dispatch, command, picked, opens]

theorem doSftpTransferOpen_opens (opened : h.opened = true) :
    doSftpTransferOpen h c = ({ h with fixture := fixtureSftp, fixturePos := 0 }, answer c .ok) := by
  simp only [doSftpTransferOpen, opened, Bool.not_true, Bool.false_eq_true, if_false]

theorem getOpen_opens (opened : h.opened = true) :
    dispatch h getOpen = ({ h with fixture := fixtureSftp, fixturePos := 0 }, answer getOpen .ok) :=
  doSftpTransferOpen_opens opened

theorem rd24_of_bytes {first second third : UInt8} {i : Nat}
    (bytes : c.command i = first ∧ c.command (i + 1) = second ∧ c.command (i + 2) = third) :
    c.rd24 i = first.toNat + second.toNat * 256 + third.toNat * 65536 := by
  rw [Call.rd24, Call.rd16, bytes.1, bytes.2.1, bytes.2.2]

theorem readUpTo_maximum (maximum : UInt8) : (readUpTo maximum).rd24 1 = maximum.toNat := by
  have bytes : (readUpTo maximum).command 1 = maximum ∧ (readUpTo maximum).command 2 = 0 ∧
      (readUpTo maximum).command 3 = 0 := ⟨rfl, rfl, rfl⟩
  exact rd24_of_bytes bytes

theorem readUpTo_address (maximum : UInt8) : (readUpTo maximum).rd32 4 = 65536 := by
  have bytes : (readUpTo maximum).command 4 = 0 ∧ (readUpTo maximum).command 5 = 0 ∧
      (readUpTo maximum).command 6 = 1 := ⟨rfl, rfl, rfl⟩
  have last : (readUpTo maximum).command 7 = 0 := rfl
  rw [Call.rd32, rd24_of_bytes bytes, last]
  rfl

theorem inside_readUpTo (maximum : UInt8) :
    insideWindow ((readUpTo maximum).rd32 4) ((readUpTo maximum).rd24 1) = true := by
  have small := maximum.toNat_lt
  have within : 65536 < serviceSize ∧ maximum.toNat ≤ serviceSize - 65536 := by
    simp only [serviceSize]
    omega
  rw [readUpTo_maximum, readUpTo_address, insideWindow, decide_eq_true within.1, decide_eq_true within.2]
  rfl

/-- The bytes that a read takes. -/
def taken (h : NetHandle) (maximum : UInt8) : Nat :=
  min (min maximum.toNat (fixtureChunk h.readIndex)) (h.fixture.length - h.fixturePos)

theorem readUpTo_some (opened : h.opened = true) (maximum : UInt8)
    (more : h.fixturePos < h.fixture.length) :
    dispatch h (readUpTo maximum) =
      ({ h with readIndex := h.readIndex + 1, fixturePos := h.fixturePos + taken h maximum },
        ⟨.ok, wr24 (readUpTo maximum) (taken h maximum)
          ((readUpTo maximum).jim.write 65536
            ((h.fixture.drop h.fixturePos).take (taken h maximum)))⟩) := by
  have read := @doRead_some h (readUpTo maximum) opened (inside_readUpTo maximum) more
  simp only [readUpTo_maximum, readUpTo_address] at read
  refine Eq.trans read ?_
  simp only [taken, hostCall, readUpTo, Nat.zero_add]

theorem readUpTo_end (opened : h.opened = true) (maximum : UInt8)
    (last : h.fixture.length ≤ h.fixturePos) :
    (dispatch h (readUpTo maximum)).2.code = .eof := by
  have read := @doRead_end h (readUpTo maximum) opened (inside_readUpTo maximum) last
  exact congrArg (fun after => after.2.code) read

/-- The length that a read leaves. -/
theorem readUpTo_length (opened : h.opened = true) (maximum : UInt8)
    (more : h.fixturePos < h.fixture.length) :
    (dispatch h (readUpTo maximum)).2.jim 1 = (taken h maximum).toUInt8 := by
  rw [readUpTo_some opened maximum more]
  rfl

theorem wr24_outside (value : Nat) (jim : Memory UInt8) {i : Nat} (far : c.cp + 4 ≤ i) :
    wr24 c value jim i = jim i :=
  Memory.write_outside _ _ _ _ (.inr far)

/-- The first byte that a read leaves. -/
theorem readUpTo_first (opened : h.opened = true) (maximum : UInt8)
    (more : h.fixturePos < h.fixture.length) (any : 0 < taken h maximum) :
    (dispatch h (readUpTo maximum)).2.jim 65536 = h.fixture[h.fixturePos] := by
  let bytes := (h.fixture.drop h.fixturePos).take (taken h maximum)
  have front : 0 < bytes.length := by
    rw [List.length_take, List.length_drop]
    omega
  have stored := Memory.write_inside (readUpTo maximum).jim 65536 bytes 0 front
  have far : (readUpTo maximum).cp + 4 ≤ 65536 := show 0 + 4 ≤ 65536 by decide
  have kept : (dispatch h (readUpTo maximum)).2.jim 65536 =
      (readUpTo maximum).jim.write 65536 bytes 65536 := by
    rw [readUpTo_some opened maximum more]
    exact wr24_outside (taken h maximum) _ far
  have first : bytes[0] = h.fixture[h.fixturePos] := by
    simp only [bytes, List.getElem_take, List.getElem_drop, Nat.add_zero]
  rw [kept, ← first]
  exact stored

theorem fixtureChunk_pos (readIndex : UInt32) : 0 < fixtureChunk readIndex := by
  have chunks : ∀ i < 5, 0 < [1, 2, 7, 3, 31].getD i 0 := by decide
  exact chunks _ (Nat.mod_lt _ (by decide))

/-- Reads of no bytes only count. -/
theorem handleAfter_emptyReads (opened : h.opened = true) (more : h.fixturePos < h.fixture.length)
    (count : Nat) :
    handleAfter h (List.replicate count (readUpTo 0)) =
      { h with readIndex := h.readIndex + UInt32.ofNat count } := by
  induction count generalizing h with
  | zero =>
    have same : h.readIndex + UInt32.ofNat 0 = h.readIndex := UInt32.add_zero h.readIndex
    rw [same]
    rfl
  | succ count ih =>
    have nothing : taken h 0 = 0 := by simp [taken]
    have step := ih (h := { h with readIndex := h.readIndex + 1 }) opened more
    have sum : h.readIndex + 1 + UInt32.ofNat count = h.readIndex + UInt32.ofNat (count + 1) := by
      rw [UInt32.add_assoc, UInt32.ofNat_add, UInt32.add_comm 1]
      rfl
    have first : (dispatch h (readUpTo 0)).1 = { h with readIndex := h.readIndex + 1 } := by
      rw [readUpTo_some opened 0 more, nothing]
      rfl
    rw [List.replicate_succ, handleAfter_cons, first, step, sum]

end Probes

section Distinguishing
variable {h : NetHandle}

/-- The handles answer every sequence of commands alike. -/
def Agree (h k : NetHandle) : Prop := ∀ later, answers h later = answers k later

theorem answers_snoc (h : NetHandle) (calls : List Call) (c : Call) :
    answers h (calls ++ [c]) = answers h calls ++ [(dispatch (handleAfter h calls) c).2] := by
  induction calls generalizing h with
  | nil => rfl
  | cons first calls ih => exact congrArg ((dispatch h first).2 :: ·) (ih (dispatch h first).1)

theorem Agree.last {h k : NetHandle} (agree : Agree h k) (calls : List Call) (c : Call) :
    (dispatch (handleAfter h calls) c).2 = (dispatch (handleAfter k calls) c).2 := by
  have whole := agree (calls ++ [c])
  rw [answers_snoc, answers_snoc, agree calls] at whole
  exact List.singleton_inj.mp (List.append_cancel_left whole)

/-- A handle that was polled does not wait at its next open. -/
theorem Agree.openPolls (agree : Agree h .unused) : h.openPolls = 0 := by
  by_contra polls
  have same := agree.last [] tcpOpen
  have waits := @tcpOpen_waits .unused rfl rfl
  refine tcpOpen_polled polls ?_
  rw [show dispatch h tcpOpen = dispatch (handleAfter h []) tcpOpen from rfl, same]
  exact congrArg (fun after => after.2.code) waits

/-- Two polls of an open. -/
theorem handleAfter_tcp (closed : h.opened = false) (polls : h.openPolls = 0) :
    handleAfter h [tcpOpen, tcpOpen] =
      { h with
        url := ascii "TCP://host", openPolls := 2, opened := true
        fixture := fixtureSshIdentification ++ buildFixtureKexinit } := by
  have first := tcpOpen_waits closed polls
  have polled : (1 : UInt32) ≠ 0 := by decide
  have second := @tcpOpen_opens (dispatch h tcpOpen).1 (by rwa [first]) (by rw [first])
  rw [handleAfter_cons, handleAfter_cons, second, first]
  rfl

/-- The byte that a read of one byte brings, if it does. -/
def Answer.byte (a : Answer) : Option UInt8 := if a.code = .ok then some (a.jim 65536) else none

theorem readUpTo_byte (opened : h.opened = true) :
    (dispatch h (readUpTo 1)).2.byte = h.fixture[h.fixturePos]? := by
  rcases Nat.lt_or_ge h.fixturePos h.fixture.length with more | last
  · have chunk := fixtureChunk_pos h.readIndex
    have one : (1 : UInt8).toNat = 1 := rfl
    have any : 0 < taken h 1 := by
      rw [taken, one]
      omega
    have ok : (dispatch h (readUpTo 1)).2.code = .ok := by rw [readUpTo_some opened 1 more]
    rw [Answer.byte, if_pos ok, readUpTo_first opened 1 more any, List.getElem?_eq_getElem more]
  · have eof := readUpTo_end opened 1 last
    rw [Answer.byte, eof, List.getElem?_eq_none last]
    rfl

/-- The first byte that the service sends does not come again. -/
theorem fixtureSsh_first :
    let bytes := fixtureSshIdentification ++ buildFixtureKexinit
    bytes[0]? = some 69 ∧ ∀ i < bytes.length, bytes[i]? = some 69 → i = 0 := by
  intro bytes
  have begins : bytes = 69 :: bytes.tail := by decide +kernel
  have alone : 69 ∉ bytes.tail := by decide +kernel
  generalize bytes.tail = rest at begins alone
  rw [begins]
  refine ⟨rfl, fun i _ found => ?_⟩
  cases i with
  | zero => rfl
  | succ i =>
    have later : rest[i]? = some 69 := found
    exact absurd (List.mem_of_getElem? later) alone

theorem Agree.fixturePos (agree : Agree h .unused) (closed : h.opened = false) :
    h.fixturePos = 0 := by
  have polls := agree.openPolls
  have same := congrArg Answer.byte (agree.last [tcpOpen, tcpOpen] (readUpTo 1))
  rw [handleAfter_tcp closed polls, @handleAfter_tcp .unused rfl rfl, readUpTo_byte rfl,
    readUpTo_byte rfl] at same
  obtain ⟨first, others⟩ := fixtureSsh_first
  have byte := same.trans first
  exact others _ (List.getElem?_eq_some_iff.mp byte).1 byte

theorem handleAfter_sftp : ∃ url, handleAfter h [sftpOpen] = { h with opened := true, url } := by
  obtain ⟨url, opens⟩ := @sftpOpen_opens h
  refine ⟨url, ?_⟩
  rw [handleAfter_cons, opens]
  rfl

theorem Agree.fixture (agree : Agree h .unused) (closed : h.opened = false) : h.fixture = [] := by
  have same := congrArg Answer.byte (agree.last [sftpOpen] (readUpTo 1))
  obtain ⟨url, mine⟩ := @handleAfter_sftp h
  obtain ⟨other, fresh⟩ := @handleAfter_sftp .unused
  rw [mine, fresh, readUpTo_byte rfl, readUpTo_byte rfl] at same
  have byte : h.fixture[h.fixturePos]? = none := same
  rw [agree.fixturePos closed, List.getElem?_eq_none_iff] at byte
  exact List.eq_nil_of_length_eq_zero (Nat.le_zero.mp byte)

theorem fixtureSftp_length : fixtureSftp.length = 13 := by decide +kernel

/-- A transfer opened and some empty reads of it. -/
theorem handleAfter_transfer (count : Nat) :
    ∃ url, handleAfter h (sftpOpen :: getOpen :: List.replicate count (readUpTo 0)) =
      { h with
        opened := true, url, fixture := fixtureSftp, fixturePos := 0
        readIndex := h.readIndex + UInt32.ofNat count } := by
  obtain ⟨url, first⟩ := @sftpOpen_opens h
  have second := @getOpen_opens (dispatch h sftpOpen).1 (by rw [first])
  have more : 0 < fixtureSftp.length := by rw [fixtureSftp_length]; decide
  have empty := @handleAfter_emptyReads (dispatch (dispatch h sftpOpen).1 getOpen).1
    (by rw [second, first]) (by rwa [second]) count
  refine ⟨url, ?_⟩
  rw [handleAfter_cons, handleAfter_cons, empty, second, first]

/-- Reads long enough tell the phase of the cycle of lengths. -/
theorem chunk_of_length : ∀ i < 5, ∀ j < 5,
    (min (min 16 ([1, 2, 7, 3, 31].getD i 0)) 13).toUInt8 =
      (min (min 16 ([1, 2, 7, 3, 31].getD j 0)) 13).toUInt8 → i = j := by
  decide

/-- Some number of further reads tells a count of reads from none: at once, or when it wraps. -/
theorem exists_phase {readIndex : UInt32} (read : readIndex ≠ 0) :
    ∃ count : Nat,
      (readIndex + UInt32.ofNat count).toNat % 5 ≠ (0 + UInt32.ofNat count).toNat % 5 := by
  have small := readIndex.toNat_lt
  have positive : readIndex.toNat ≠ 0 := fun zero => read (UInt32.toNat_inj.mp zero)
  by_cases phase : readIndex.toNat % 5 = 0
  · have rest : 2 ^ 32 - readIndex.toNat < 2 ^ 32 :=
      Nat.sub_lt (by decide) (Nat.pos_of_ne_zero positive)
    have own : (UInt32.ofNat (2 ^ 32 - readIndex.toNat)).toNat = 2 ^ 32 - readIndex.toNat := by
      rw [UInt32.toNat_ofNat', Nat.mod_eq_of_lt rest]
    have wraps : (readIndex + UInt32.ofNat (2 ^ 32 - readIndex.toNat)).toNat = 0 := by
      rw [UInt32.toNat_add, own, Nat.add_sub_cancel' (Nat.le_of_lt small), Nat.mod_self]
    refine ⟨2 ^ 32 - readIndex.toNat, ?_⟩
    rw [wraps, UInt32.zero_add, own]
    clear own wraps rest
    omega
  · refine ⟨0, ?_⟩
    have nothing : UInt32.ofNat 0 = 0 := rfl
    rw [nothing, UInt32.add_zero, UInt32.add_zero]
    exact phase

theorem Agree.readIndex (agree : Agree h .unused) : h.readIndex = 0 := by
  by_contra read
  obtain ⟨count, phase⟩ := exists_phase read
  have same := agree.last (sftpOpen :: getOpen :: List.replicate count (readUpTo 0)) (readUpTo 16)
  obtain ⟨url, mine⟩ := @handleAfter_transfer h count
  obtain ⟨other, fresh⟩ := @handleAfter_transfer .unused count
  rw [mine, fresh] at same
  have more : 0 < fixtureSftp.length := by rw [fixtureSftp_length]; decide
  have length := congrFun (congrArg Answer.jim same) 1
  rw [readUpTo_length rfl 16 more, readUpTo_length rfl 16 more, taken, taken, fixtureSftp_length]
    at length
  exact phase (chunk_of_length _ (Nat.mod_lt _ (by decide)) _ (Nat.mod_lt _ (by decide)) length)

end Distinguishing

section Reuse

/-- Nothing that an earlier user did to the handle is left on it, but for the URL. -/
def Untouched (h : NetHandle) : Prop :=
  h.openPolls = 0 ∧ h.readIndex = 0 ∧ h.fixture = [] ∧ h.fixturePos = 0

def closeCommands : List UInt8 := [netCmdClose, netCmdUrlClose, secCmdSshClose, secCmdSftpClose]

theorem handler_close {command : UInt8} (close : command ∈ closeCommands) :
    handler command = doClose := by
  simp only [closeCommands, List.mem_cons, List.not_mem_nil, or_false] at close
  rcases close with rfl | rfl | rfl | rfl <;> rfl

theorem handleAfter_close (calls : List Call) {close : Call}
    (closes : close.command 0 ∈ closeCommands) :
    handleAfter .unused (calls ++ [close]) =
      { handleAfter .unused calls with opened := false, rawAllocated := false, rawType := 0 } := by
  have last : handleAfter .unused (calls ++ [close]) =
      (dispatch (handleAfter .unused calls) close).1 := List.foldl_append
  rw [last, dispatch, handler_close closes]
  rfl

/-- A closed handle answers like one never used exactly when it is untouched. -/
theorem agree_iff_untouched {h : NetHandle} (closed : h.opened = false)
    (raw : h.rawAllocated = false) (type : h.rawType = 0) : Agree h .unused ↔ Untouched h := by
  constructor
  · intro agree
    exact ⟨agree.openPolls, agree.readIndex, agree.fixture closed, agree.fixturePos closed⟩
  · rintro ⟨polls, read, fixture, position⟩ later
    obtain ⟨_, _, _, url, _, _, _, _⟩ := h
    subst closed raw type polls read fixture position
    have alike : Alike .unused { NetHandle.unused with url } := .inr ⟨rfl, rfl, url, rfl⟩
    exact (alike.answers later).symm

/-- A handle closed in any state answers every later user like a handle never used exactly when,
before the close, no open of it had been polled, no bytes of a fixture had been read and none of
a transfer were left. -/
theorem closed_handle_fresh_iff (calls : List Call) {close : Call}
    (closes : close.command 0 ∈ closeCommands) :
    (∀ later, answers (handleAfter .unused (calls ++ [close])) later = answers .unused later) ↔
      Untouched (handleAfter .unused calls) := by
  rw [handleAfter_close calls closes]
  exact agree_iff_untouched rfl rfl rfl

def closeCall : Call := hostCall [netCmdUrlClose]

/-- A connection is opened, read twice and written to. -/
def visit : List Call :=
  [tcpOpen, tcpOpen, readUpTo 3, readUpTo 2,
    hostCall (netCmdUrlWrite :: 2 :: 0 :: 0 :: probeArea)]

/-- A raw handle is asked for twice and never connected. -/
def reservation : List Call := [hostCall [netCmdOpen, 1], hostCall [netCmdOpen, 0]]

/-- A close after the visit leaves it to be seen; one after the reservation leaves nothing. -/
theorem closed_handle_fresh_iff_visit :
    (¬ ∀ later, answers (handleAfter .unused (visit ++ [closeCall])) later =
      answers .unused later) ∧
    ∀ later, answers (handleAfter .unused (reservation ++ [closeCall])) later =
      answers .unused later := by
  have closes : closeCall.command 0 ∈ closeCommands := by decide +kernel
  have polled : (handleAfter .unused visit).openPolls = 2 := by decide +kernel
  have reserved : handleAfter .unused reservation =
      { NetHandle.unused with rawAllocated := true, rawType := 1 } := by decide +kernel
  constructor
  · intro fresh
    have untouched := (closed_handle_fresh_iff visit closes).mp fresh
    exact absurd (polled.symm.trans untouched.1) (by decide)
  · apply (closed_handle_fresh_iff reservation closes).mpr
    rw [reserved]
    exact ⟨rfl, rfl, rfl, rfl⟩

/-- A close after two polls of an open: the next user's open does not wait, and answers for the
first user's address. -/
theorem reopened_handle_keeps_state :
    ¬ ∀ calls close later, close.command 0 ∈ closeCommands →
      answers (handleAfter .unused (calls ++ [close])) later = answers .unused later := by
  intro fresh
  have closes : closeCall.command 0 ∈ closeCommands := by decide +kernel
  have agree : Agree (handleAfter .unused ([tcpOpen, tcpOpen] ++ [closeCall])) .unused :=
    fun later => fresh _ _ later closes
  have polls := agree.openPolls
  rw [handleAfter_close _ closes, handleAfter_tcp rfl rfl] at polls
  exact absurd polls (by decide)

end Reuse

end Pi1MHz.NetFixture
