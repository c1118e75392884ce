import Pi1MHz.Tube.Channels

/-! What the host reads from register 3, for any interleaving of accesses: the bytes that the
parasite wrote, kept beside the Tube until they are read. -/
namespace Pi1MHz.Ap5Tube

/-- The byte that a reset leaves for the host: not read yet, read with nothing written by the
parasite since, or behind the parasite's first byte. -/
inductive Dummy
  | available
  | taken
  | gone
deriving DecidableEq, Repr

/-- A Tube with the bytes that the parasite wrote to register 3 and the host has not read. -/
structure Watched where
  tube : Tube
  unread : List UInt8
  dummy : Dummy

def readsR3 (t : Tube) : Access → Bool
  | .hostRead address => decide (hostReaches t address 5)
  | _ => false

def writesR3 : Access → Option UInt8
  | .parasiteWrite address value => if parasiteReaches address 5 then some value else none
  | _ => none

def watch (w : Watched) (a : Access) : Watched :=
  let tube := access w.tube a
  if readsR3 w.tube a then
    ⟨tube, w.unread.tail, if w.dummy = .available then .taken else w.dummy⟩
  else match writesR3 a with
    | some value => ⟨tube, w.unread ++ [value], .gone⟩
    | none => ⟨tube, w.unread, w.dummy⟩

/-- A host read of register 3 with DATA set returns the next byte that the parasite wrote and
the host has not read, unless it is the byte left by the reset. -/
def Faithful (w : Watched) : Access → Prop
  | .hostRead address => hostReaches w.tube address 5 →
      flagged (w.tube.ula.hostStatus 2) flowData = true → w.dummy ≠ .available →
      ∃ rest, w.unread = (hostRead w.tube address).2 :: rest
  | _ => True

/-- The three accesses that lead the flag or the queue astray: a second read before the parasite
has written anything, a parasite read that empties its own queue while the host's is empty and
its DATA flag clear, and a parasite write into a full queue. -/
def Sensible (w : Watched) : Access → Prop
  | .hostRead address => hostReaches w.tube address 5 → w.dummy ≠ .taken
  | .parasiteRead address => parasiteReaches address 5 → ¬(w.tube.ula.h2pR3Count = 1 ∧
      w.tube.ula.p2hR3Count = 0 ∧ flagged (w.tube.ula.hostStatus 2) flowData = false)
  | .parasiteWrite address _ => parasiteReaches address 5 → w.tube.ula.p2hR3Count < 2
  | .hostWrite _ _ => True

/-- The queue to the host holds the unread bytes, and DATA tells of one once the parasite has
written. -/
structure InStep (w : Watched) : Prop where
  count : w.tube.ula.p2hR3Count = w.unread.length
  room : w.unread.length ≤ 2
  queue : w.tube.ula.p2hR3.read 0 w.unread.length = w.unread
  before : w.dummy ≠ .gone → w.unread = [] ∧ flagged (w.tube.ula.hostStatus 2) flowData = true
  after : w.dummy = .gone → flagged (w.tube.ula.hostStatus 2) flowData = true → w.unread ≠ []

section Frame

/-- Nothing that the host's side of register 3 consists of differs. -/
structure SameR3 (u v : TubeUla) : Prop where
  queue : v.p2hR3 = u.p2hR3
  count : v.p2hR3Count = u.p2hR3Count
  data : flagged (v.hostStatus 2) flowData = flagged (u.hostStatus 2) flowData

theorem InStep.frame {w : Watched} (inStep : InStep w) {tube : Tube}
    (same : SameR3 w.tube.ula tube.ula) : InStep ⟨tube, w.unread, w.dummy⟩ := by
  constructor
  · exact same.count.trans inStep.count
  · exact inStep.room
  · rw [same.queue]
    exact inStep.queue
  · rw [same.data]
    exact inStep.before
  · rw [same.data]
    exact inStep.after

variable (u : TubeUla)

theorem hostReadRegister_sameR3 {register : Nat} (apart : register ≠ 5) :
    SameR3 u (hostReadRegister u register).1 := by
  unfold hostReadRegister
  split
  case h_2 =>
    rw [hostTakesR1]
    split
    · dsimp only
      split
      · exact ⟨rfl, rfl, by simp⟩
      · exact ⟨rfl, rfl, rfl⟩
    · exact ⟨rfl, rfl, rfl⟩
  case h_4 => exact ⟨rfl, rfl, by simp [hostTakes]⟩
  case h_6 => exact absurd rfl apart
  case h_8 => exact ⟨rfl, rfl, by simp [hostTakes]⟩
  all_goals exact ⟨rfl, rfl, rfl⟩

theorem parasiteReadRegister_sameR3 {register : Nat} (apart : register ≠ 5) :
    SameR3 u (parasiteReadRegister u register).1 := by
  unfold parasiteReadRegister
  split
  case h_6 => exact absurd rfl apart
  all_goals exact ⟨rfl, rfl, by simp [parasiteTakes]⟩

theorem parasiteWriteRegister_sameR3 {register : Nat} (apart : register ≠ 5) (value : UInt8) :
    SameR3 u (parasiteWriteRegister u register value) := by
  unfold parasiteWriteRegister
  dsimp only
  split
  · rw [parasitePutsR1]
    split
    · dsimp only
      split <;> exact ⟨rfl, rfl, by simp⟩
    · exact ⟨rfl, rfl, rfl⟩
  · exact ⟨rfl, rfl, by simp [parasitePuts]⟩
  · exact absurd rfl apart
  · exact ⟨rfl, rfl, by simp [parasitePuts]⟩
  · exact ⟨rfl, rfl, rfl⟩

theorem hostWriteRegister_sameR3 (register : Nat) (value : UInt8) :
    SameR3 u (hostWriteRegister u register value) := by
  unfold hostWriteRegister
  split
  case h_3 =>
    rw [hostPutsR3]
    split
    · dsimp only
      split
      · exact ⟨rfl, rfl, by simp⟩
      · exact ⟨rfl, rfl, rfl⟩
    · exact ⟨rfl, rfl, rfl⟩
  case h_5 => exact ⟨rfl, rfl, rfl⟩
  all_goals exact ⟨rfl, rfl, by simp [hostPuts]⟩

theorem hostControl_sameR3 (t : Tube) (value : UInt8) (steady : resets t.ula value = false) :
    SameR3 t.ula (hostControl t value).ula := by
  have masked : ∀ (u : TubeUla) (control : UInt8), SameR3 u { u with
      control, hostStatus := Function.update u.hostStatus 0 (u.hostStatus 0 &&& flowBoth) } :=
    fun u control => ⟨rfl, rfl, by simp⟩
  rw [hostControl]
  dsimp only
  split
  · rw [if_neg (by simp [steady])]
    exact masked t.ula _
  · split
    · exact masked t.ula _
    · exact masked t.ula _

end Frame

section Steps

variable {w : Watched}

theorem hostRead_r3 {t : Tube} {address : UInt16} (reaches : hostReaches t address 5) :
    (hostRead t address).1.ula = (hostTakesR3 t.ula).1 ∧
      (hostRead t address).2 = (hostTakesR3 t.ula).2 := by
  have read := hostRead_ula t address reaches.1
  rw [reaches.2] at read
  exact read

/-- The front of the queue is the next unread byte. -/
theorem InStep.front (inStep : InStep w) {byte : UInt8} {rest : List UInt8}
    (unread : w.unread = byte :: rest) :
    (hostTakesR3 w.tube.ula).2 = byte ∧
      (hostTakesR3 w.tube.ula).1.p2hR3.read 0 rest.length = rest ∧
      (hostTakesR3 w.tube.ula).1.p2hR3Count = rest.length ∧
      (rest = [] → flagged ((hostTakesR3 w.tube.ula).1.hostStatus 2) flowData = false) := by
  have count := inStep.count
  have room := inStep.room
  have queue := inStep.queue
  rw [unread] at count room queue
  rw [List.length_cons, Memory.read_succ, List.cons.injEq] at queue
  obtain ⟨first, others⟩ := queue
  simp only [List.length_cons] at count room
  have nonempty : w.tube.ula.p2hR3Count ≠ 0 := by omega
  rw [hostTakesR3, if_pos nonempty]
  dsimp only
  refine ⟨first, ?_, ?_, ?_⟩
  · cases rest with
    | nil => rfl
    | cons second last =>
      obtain rfl : last = [] := by
        apply List.eq_nil_of_length_eq_zero
        simp only [List.length_cons] at room
        omega
      have moved : w.tube.ula.p2hR3 1 = second := by simpa [Memory.read] using others
      split <;> simp [Memory.read, moved]
  · split
    · dsimp only
      omega
    · dsimp only
      omega
  · rintro rfl
    rw [if_pos (by simp only [List.length_nil] at count; omega)]
    simp

theorem hostTakesR3_empty {u : TubeUla} (nothing : u.p2hR3Count = 0) :
    hostTakesR3 u = (u, u.lastParasiteWrite) := by
  rw [hostTakesR3, if_neg (by omega)]

theorem InStep.faithful (inStep : InStep w) {a : Access} (sensible : Sensible w a) :
    Faithful w a := by
  cases a with
  | hostRead address =>
    intro reaches data used
    have gone : w.dummy = .gone := by
      have untaken := sensible reaches
      cases here : w.dummy with
      | available => exact absurd here used
      | taken => exact absurd here untaken
      | gone => rfl
    obtain ⟨byte, rest, unread⟩ := List.exists_cons_of_ne_nil (inStep.after gone data)
    rw [(hostRead_r3 reaches).2, (inStep.front unread).1]
    exact ⟨rest, unread⟩
  | _ => trivial

theorem watch_hostRead (inStep : InStep w) {address : UInt16}
    (reaches : hostReaches w.tube address 5) : InStep (watch w (.hostRead address)) := by
  have read := (hostRead_r3 reaches).1
  have watched : watch w (.hostRead address) = ⟨(hostRead w.tube address).1, w.unread.tail,
      if w.dummy = .available then .taken else w.dummy⟩ := by
    rw [watch, if_pos (by simpa [readsR3] using reaches)]
    rfl
  rw [watched]
  cases unread : w.unread with
  | nil =>
    have nothing : w.tube.ula.p2hR3Count = 0 := by rw [inStep.count, unread]; rfl
    rw [hostTakesR3_empty nothing] at read
    constructor
    · exact (congrArg TubeUla.p2hR3Count read).trans nothing
    · simp
    · rfl
    · intro notGone
      refine ⟨rfl, ?_⟩
      rw [read]
      apply (inStep.before ?_).2
      intro gone
      simp [gone] at notGone
    · intro gone data
      have was : w.dummy = .gone := by
        by_contra other
        split at gone
        · cases gone
        · exact other gone
      rw [read] at data
      exact absurd unread (inStep.after was data)
  | cons byte rest =>
    obtain ⟨_, queue, count, last⟩ := inStep.front unread
    rw [← read] at queue count last
    have room := inStep.room
    rw [unread] at room
    have gone : w.dummy = .gone := by
      by_contra other
      rw [(inStep.before other).1] at unread
      cases unread
    constructor
    · exact count
    · simp only [List.length_cons] at room
      simp only [List.tail_cons]
      omega
    · exact queue
    · intro notGone
      rw [if_neg (by rw [gone]; nofun)] at notGone
      exact absurd gone notGone
    · intro _ data
      rintro rfl
      rw [last rfl] at data
      cases data

theorem watch_parasiteWrite (inStep : InStep w) {address : UInt16} {value : UInt8}
    (reaches : parasiteReaches address 5) (room : w.tube.ula.p2hR3Count < 2) :
    InStep (watch w (.parasiteWrite address value)) := by
  have count := inStep.count
  have watched : watch w (.parasiteWrite address value) =
      ⟨parasiteWrite w.tube address value, w.unread ++ [value], .gone⟩ := by
    simp [watch, readsR3, writesR3, reaches, access]
  have wrote : (parasiteWrite w.tube address value).ula =
      parasitePutsR3 { w.tube.ula with lastParasiteWrite := value } value := by
    rw [parasiteWrite_ula _ _ _ reaches.1, reaches.2]
    rfl
  have queued : (parasitePutsR3 { w.tube.ula with lastParasiteWrite := value } value).p2hR3 =
        w.tube.ula.p2hR3.write w.tube.ula.p2hR3Count [value] ∧
      (parasitePutsR3 { w.tube.ula with lastParasiteWrite := value } value).p2hR3Count =
        w.tube.ula.p2hR3Count + 1 := by
    rw [parasitePutsR3, if_pos room]
    dsimp only
    split <;> exact ⟨rfl, rfl⟩
  rw [watched]
  constructor
  · rw [wrote, queued.2, count, List.length_append, List.length_singleton]
  · rw [List.length_append, List.length_singleton]
    omega
  · rw [wrote, queued.1, count]
    exact w.tube.ula.p2hR3.read_write_snoc w.unread value inStep.queue
  · intro notGone
    exact absurd rfl notGone
  · intro _ _
    simp

/-- The parasite's own read sets the host's flags when it empties its queue. -/
theorem watch_parasiteRead (inStep : InStep w) {address : UInt16}
    (reaches : parasiteReaches address 5) (sensible : Sensible w (.parasiteRead address)) :
    InStep (watch w (.parasiteRead address)) := by
  have watched : watch w (.parasiteRead address) =
      ⟨(parasiteRead w.tube address).1, w.unread, w.dummy⟩ := by
    simp [watch, readsR3, writesR3, access]
  have took : (parasiteRead w.tube address).1.ula = (parasiteTakesR3 w.tube.ula).1 := by
    rw [(parasiteRead_ula _ _ reaches.1).1, reaches.2]
    rfl
  by_cases drained : w.tube.ula.h2pR3Count = 1
  · have shape : (parasiteTakesR3 w.tube.ula).1.p2hR3 = w.tube.ula.p2hR3 ∧
        (parasiteTakesR3 w.tube.ula).1.p2hR3Count = w.tube.ula.p2hR3Count ∧
        flagged ((parasiteTakesR3 w.tube.ula).1.hostStatus 2) flowData = true := by
      rw [parasiteTakesR3, if_pos (by omega)]
      dsimp only
      rw [if_pos (by omega)]
      refine ⟨rfl, rfl, ?_⟩
      simp only [flagged_setFlags]
      rw [show flagged flowBoth flowData = true from rfl]
      simp
    rw [watched]
    constructor
    · rw [took, shape.2.1]
      exact inStep.count
    · exact inStep.room
    · rw [took, shape.1]
      exact inStep.queue
    · intro notGone
      exact ⟨(inStep.before notGone).1, by rw [took]; exact shape.2.2⟩
    · intro gone _ empty
      have nothing : w.tube.ula.p2hR3Count = 0 := by rw [inStep.count, empty]; rfl
      by_cases data : flagged (w.tube.ula.hostStatus 2) flowData = true
      · exact inStep.after gone data empty
      · exact sensible reaches ⟨drained, nothing, Bool.not_eq_true _ ▸ data⟩
  · have same : SameR3 w.tube.ula (parasiteTakesR3 w.tube.ula).1 := by
      rw [parasiteTakesR3]
      split
      · dsimp only
        rw [if_neg (by omega)]
        exact ⟨rfl, rfl, rfl⟩
      · exact ⟨rfl, rfl, rfl⟩
    rw [watched]
    apply inStep.frame
    rw [took]
    exact same

/-- An access that neither reads nor writes the host's side of register 3. -/
theorem watch_other (inStep : InStep w) {a : Access} (reads : readsR3 w.tube a = false)
    (writes : writesR3 a = none) (same : SameR3 w.tube.ula (access w.tube a).ula) :
    InStep (watch w a) := by
  have watched : watch w a = ⟨access w.tube a, w.unread, w.dummy⟩ := by
    simp [watch, reads, writes]
  rw [watched]
  exact inStep.frame same

theorem watch_inStep (inStep : InStep w) {a : Access} (steady : Steady w.tube a)
    (sensible : Sensible w a) : InStep (watch w a) := by
  cases a with
  | hostRead address =>
    by_cases reaches : hostReaches w.tube address 5
    · exact watch_hostRead inStep reaches
    · apply watch_other inStep (by simpa [readsR3] using reaches) rfl
      by_cases selected : w.tube.selected = true
      · rw [access, (hostRead_ula _ _ selected).1]
        exact hostReadRegister_sameR3 _ fun five => reaches ⟨selected, five⟩
      · rw [access, hostRead_unselected _ _ selected]
        exact ⟨rfl, rfl, rfl⟩
  | hostWrite address value =>
    apply watch_other inStep rfl rfl
    rw [access]
    by_cases selected : w.tube.selected = true
    · by_cases control : (address &&& 7).toNat = 0
      · have same := hostControl_sameR3
          { w.tube with ula := { w.tube.ula with lastHostWrite := value } } value
          (steady.2 ⟨selected, control⟩)
        rw [hostWrite_control _ _ _ selected control]
        exact ⟨same.queue, same.count, same.data⟩
      · have same := hostWriteRegister_sameR3 { w.tube.ula with lastHostWrite := value }
          (address &&& 7).toNat value
        rw [hostWrite_register _ _ _ selected steady.1 control]
        exact ⟨same.queue, same.count, same.data⟩
    · rw [hostWrite_unselected _ _ _ selected steady.1]
      exact ⟨rfl, rfl, rfl⟩
  | parasiteRead address =>
    by_cases reaches : parasiteReaches address 5
    · exact watch_parasiteRead inStep reaches sensible
    · apply watch_other inStep rfl rfl
      rw [access]
      by_cases mapped : isUlaAddress address = true
      · rw [(parasiteRead_ula _ _ mapped).1]
        exact parasiteReadRegister_sameR3 _ fun five => reaches ⟨mapped, five⟩
      · rw [parasiteRead_memory _ _ mapped]
        exact ⟨rfl, rfl, rfl⟩
  | parasiteWrite address value =>
    by_cases reaches : parasiteReaches address 5
    · exact watch_parasiteWrite inStep reaches (sensible reaches)
    · apply watch_other inStep rfl (by simp [writesR3, reaches])
      rw [access]
      by_cases mapped : isUlaAddress address = true
      · rw [parasiteWrite_ula _ _ _ mapped]
        exact parasiteWriteRegister_sameR3 _ (fun five => reaches ⟨mapped, five⟩) value
      · rw [parasiteWrite_memory _ _ _ mapped]
        exact ⟨rfl, rfl, rfl⟩

end Steps

def watched (t : Tube) : Watched := ⟨resetUlaChannels t, [], .available⟩

theorem watched_inStep (t : Tube) : InStep (watched t) := by
  refine ⟨rfl, Nat.zero_le 2, rfl, fun _ => ⟨rfl, ?_⟩, nofun⟩
  exact (by decide : flagged (resetUla.hostStatus 2) flowData = true)

/-- Along every run from a reset whose accesses are all sensible, each read of register 3 that
the host makes with its DATA flag set returns the next byte that the parasite wrote. -/
theorem hostR3_faithful (t : Tube) (accesses : List Access)
    (sensible : Conduit.Follows watch (fun w a => Steady w.tube a ∧ Sensible w a) (watched t) accesses) :
    Conduit.Follows watch Faithful (watched t) accesses := by
  apply Conduit.Follows.imp_of_invariant _ _ (watched_inStep t) sensible
  · intro w a inStep rules
    exact watch_inStep inStep rules.1 rules.2
  · intro w a inStep rules
    exact inStep.faithful rules.2

/-- The rules are needed: after a parasite read that raises the host's flag with nothing in the
queue, the host's next read of register 3 returns a byte that nobody sent. -/
theorem stray_flag_invents {w : Watched} (inStep : InStep w) {address hostAddress : UInt16}
    (reaches : parasiteReaches address 5) (reads : hostReaches w.tube hostAddress 5)
    (stray : w.tube.ula.h2pR3Count = 1 ∧ w.tube.ula.p2hR3Count = 0 ∧
      flagged (w.tube.ula.hostStatus 2) flowData = false) :
    ¬Faithful (watch w (.parasiteRead address)) (.hostRead hostAddress) := by
  obtain ⟨last, nothing, clear⟩ := stray
  have empty : w.unread = [] := List.eq_nil_of_length_eq_zero (inStep.count ▸ nothing)
  have gone : w.dummy = .gone := by
    by_contra other
    rw [(inStep.before other).2] at clear
    cases clear
  have next : watch w (.parasiteRead address) =
      ⟨(parasiteRead w.tube address).1, w.unread, w.dummy⟩ := by
    simp [watch, readsR3, writesR3, access]
  have selected : (parasiteRead w.tube address).1.selected = true := by
    rw [parasiteRead, if_pos reaches.1]
    exact reads.1
  have data : flagged ((parasiteRead w.tube address).1.ula.hostStatus 2) flowData = true := by
    rw [(parasiteRead_ula _ _ reaches.1).1, reaches.2, parasiteReadRegister, parasiteTakesR3,
      if_pos (by omega)]
    dsimp only
    rw [if_pos (by omega), flagged_setFlags, show flagged flowBoth flowData = true from rfl]
    simp
  have past : w.dummy ≠ .available := by
    rw [gone]
    decide
  rw [next]
  intro faithful
  obtain ⟨rest, front⟩ := faithful ⟨selected, reads.2⟩ data past
  rw [empty] at front
  cases front

/-- So does a second read of register 3 right after the byte that the reset left. -/
theorem second_read_invents {w : Watched} (inStep : InStep w) {address : UInt16}
    (reaches : hostReaches w.tube address 5) (taken : w.dummy = .taken) :
    ¬Faithful w (.hostRead address) := by
  obtain ⟨empty, data⟩ := inStep.before (by rw [taken]; nofun)
  intro faithful
  obtain ⟨rest, front⟩ := faithful reaches data (by rw [taken]; nofun)
  rw [empty] at front
  cases front

/-- The host fetches the reset's byte and one byte of the parasite, then sends one back. -/
def echoed : List Access :=
  [.hostRead 0xfce5, .parasiteWrite 0xfefd 0x41, .hostRead 0xfce5, .hostWrite 0xfce5 0x42]

theorem echoed_faithful : Conduit.Follows watch Faithful (watched bare) echoed := by
  have sensible : Conduit.Follows watch (fun w a => Steady w.tube a ∧ Sensible w a) (watched bare)
      echoed := by
    refine ⟨⟨trivial, ?_⟩, ⟨trivial, ?_⟩, ⟨trivial, ?_⟩, ⟨⟨by decide, ?_⟩, trivial⟩, trivial⟩
    · exact fun _ => (by decide : Dummy.available ≠ .taken)
    · exact fun _ => (by decide : 0 < 2)
    · exact fun _ => (by decide : Dummy.gone ≠ .taken)
    · exact fun reaches => absurd reaches.2 (by decide)
  exact hostR3_faithful bare echoed sensible

/-- The parasite takes what was sent back: that sets the host's DATA flag, and the host reads the
parasite's byte a second time. -/
theorem r3_byte_read_twice :
    let run := echoed ++ [.parasiteRead 0xfefd, .hostRead 0xfce5]
    Conduit.Follows access Steady (resetUlaChannels bare) run ∧
      ¬Conduit.Follows watch Faithful (watched bare) run := by
  refine ⟨⟨trivial, trivial, trivial, ⟨by decide, ?_⟩, trivial, trivial, trivial⟩, ?_⟩
  · exact fun reaches => absurd reaches.2 (by decide)
  rintro ⟨-, -, -, -, -, last, -⟩
  obtain ⟨rest, front⟩ := last (by decide) (by decide) (by decide)
  have empty : (Conduit.run watch (watched bare) (echoed ++ [.parasiteRead 0xfefd])).unread = [] := by
    decide
  have nonempty := front.symm.trans empty
  cases nonempty

end Pi1MHz.Ap5Tube
