import Pi1MHz.Foundation.Conduit
import Pi1MHz.Tube.Ula

/-! Registers 1, 2 and 4 of the Tube as six one-way byte channels, for any interleaving of host
and parasite accesses. -/
namespace Pi1MHz.Ap5Tube

inductive Access
  | hostRead (address : UInt16)
  | hostWrite (address : UInt16) (value : UInt8)
  | parasiteRead (address : UInt16)
  | parasiteWrite (address : UInt16) (value : UInt8)

def access (t : Tube) : Access → Tube
  | .hostRead address => (hostRead t address).1
  | .hostWrite address value => hostWrite t address value
  | .parasiteRead address => (parasiteRead t address).1
  | .parasiteWrite address value => parasiteWrite t address value

inductive Channel
  | r1
  | r2
  | r4
deriving DecidableEq, Repr

instance {P : Channel → Prop} [DecidablePred P] : Decidable (∀ c, P c) :=
  decidable_of_iff (P .r1 ∧ P .r2 ∧ P .r4)
    ⟨fun ⟨r1, r2, r4⟩ c => by cases c <;> assumption, fun all => ⟨all .r1, all .r2, all .r4⟩⟩

/-- The data register of the channel. -/
def Channel.register : Channel → Nat
  | .r1 => 1
  | .r2 => 3
  | .r4 => 7

/-- Its place in the status and latch arrays. -/
def Channel.index : Channel → Nat
  | .r1 => 0
  | .r2 => 1
  | .r4 => 3

inductive Direction
  | hostToParasite
  | parasiteToHost
deriving DecidableEq, Repr

/-- A host access with no coprocessor selected reaches no register. -/
def hostReaches (t : Tube) (address : UInt16) (register : Nat) : Prop :=
  t.selected = true ∧ (address &&& 7).toNat = register

def parasiteReaches (address : UInt16) (register : Nat) : Prop :=
  isUlaAddress address = true ∧ (address &&& 7).toNat = register

instance (t : Tube) (address : UInt16) (register : Nat) : Decidable (hostReaches t address register) :=
  inferInstanceAs (Decidable (_ ∧ _))

instance (address : UInt16) (register : Nat) : Decidable (parasiteReaches address register) :=
  inferInstanceAs (Decidable (_ ∧ _))

/-- What the access writes into the channel. -/
def sent (d : Direction) (c : Channel) (t : Tube) : Access → List UInt8
  | .hostWrite address value =>
    if d = .hostToParasite ∧ hostReaches t address c.register then [value] else []
  | .parasiteWrite address value =>
    if d = .parasiteToHost ∧ parasiteReaches address c.register then [value] else []
  | _ => []

/-- What the access reads from the channel. -/
def received (d : Direction) (c : Channel) (t : Tube) : Access → List UInt8
  | .hostRead address =>
    if d = .parasiteToHost ∧ hostReaches t address c.register then [(hostRead t address).2] else []
  | .parasiteRead address =>
    if d = .hostToParasite ∧ parasiteReaches address c.register then [(parasiteRead t address).2]
    else []
  | _ => []

/-- Each side writes a channel only with its SPACE flag set and reads it only with its DATA flag
set. -/
def Obeys (t : Tube) : Access → Prop
  | .hostRead address => ∀ c : Channel, hostReaches t address c.register →
      flagged (t.ula.hostStatus c.index) flowData = true
  | .hostWrite address _ => ∀ c : Channel, hostReaches t address c.register →
      flagged (t.ula.hostStatus c.index) flowSpace = true
  | .parasiteRead address => ∀ c : Channel, parasiteReaches address c.register →
      flagged (t.ula.parasiteStatus c.index) flowData = true
  | .parasiteWrite address _ => ∀ c : Channel, parasiteReaches address c.register →
      flagged (t.ula.parasiteStatus c.index) flowSpace = true

instance (t : Tube) : DecidablePred (Obeys t)
  | .hostRead address => inferInstanceAs (Decidable (∀ c : Channel,
      hostReaches t address c.register → flagged (t.ula.hostStatus c.index) flowData = true))
  | .hostWrite address _ => inferInstanceAs (Decidable (∀ c : Channel,
      hostReaches t address c.register → flagged (t.ula.hostStatus c.index) flowSpace = true))
  | .parasiteRead address => inferInstanceAs (Decidable (∀ c : Channel,
      parasiteReaches address c.register → flagged (t.ula.parasiteStatus c.index) flowData = true))
  | .parasiteWrite address _ => inferInstanceAs (Decidable (∀ c : Channel,
      parasiteReaches address c.register → flagged (t.ula.parasiteStatus c.index) flowSpace = true))

/-- Neither a reselection nor a reset through the T bit. -/
def Steady (t : Tube) : Access → Prop
  | .hostWrite address value => (address &&& 7).toNat ≠ 6 ∧
      (hostReaches t address 0 → resets t.ula value = false)
  | _ => True

instance (t : Tube) : DecidablePred (Steady t)
  | .hostWrite _ _ => inferInstanceAs (Decidable (_ ∧ (_ → _)))
  | .hostRead _ | .parasiteRead _ | .parasiteWrite _ _ => .isTrue trivial

/-- The FIFO of register 1, written at its tail and read at its head. -/
def fifo (u : TubeUla) : RingBuffer UInt8 :=
  ⟨u.parasiteToHostR1, u.p2hR1Tail, u.p2hR1Head, u.p2hR1Count⟩

/-- The bytes that the channel still holds, oldest first. -/
def held (u : TubeUla) : Direction → Channel → List UInt8
  | .parasiteToHost, .r1 => (fifo u).contents r1FifoSize
  | .parasiteToHost, c =>
    bif flagged (u.hostStatus c.index) flowData then [u.parasiteToHost c.index] else []
  | .hostToParasite, c =>
    bif flagged (u.parasiteStatus c.index) flowData then [u.hostToParasite c.index] else []

def capacity : Direction → Channel → Nat
  | .parasiteToHost, .r1 => r1FifoSize
  | _, _ => 1

/-- The flags of both sides agree with what the channels hold. -/
structure Coherent (u : TubeUla) : Prop where
  wellFormed : (fifo u).WellFormed r1FifoSize
  fifoData : flagged (u.hostStatus 0) flowData = true ↔ 0 < u.p2hR1Count
  fifoSpace : flagged (u.parasiteStatus 0) flowSpace = true ↔ u.p2hR1Count < r1FifoSize
  toHost : ∀ c : Channel, c ≠ .r1 → flagged (u.parasiteStatus c.index) flowSpace =
    !flagged (u.hostStatus c.index) flowData
  toParasite : ∀ c : Channel, flagged (u.hostStatus c.index) flowSpace =
    !flagged (u.parasiteStatus c.index) flowData

section Flags

theorem flagged_or (status mask flag : UInt8) :
    flagged (status ||| mask) flag = (flagged status flag || flagged mask flag) := by
  have zero : ∀ x y : UInt8, (x ||| y) = 0 ↔ x = 0 ∧ y = 0 := by
    intro x y
    simp only [← UInt8.toNat_inj, UInt8.toNat_or, UInt8.toNat_zero]
    exact Nat.or_eq_zero_iff
  have distrib : (status ||| mask) &&& flag = (status &&& flag) ||| (mask &&& flag) := by
    rw [← UInt8.toNat_inj]
    simp only [UInt8.toNat_and, UInt8.toNat_or, Nat.and_or_distrib_right]
  rw [Bool.eq_iff_iff]
  simp only [flagged, distrib, bne_iff_ne, ne_eq, zero, Bool.or_eq_true]
  exact Decidable.not_and_iff_or_not

theorem flagged_and (status mask flag : UInt8) :
    flagged (status &&& mask) flag = flagged status (mask &&& flag) := by
  rw [flagged, flagged, UInt8.and_assoc]

theorem setFlags_of_ne (status : Memory UInt8) {i j : Nat} (apart : j ≠ i) (mask : UInt8) :
    setFlags status i mask j = status j :=
  Function.update_of_ne apart _ _

theorem clearFlags_of_ne (status : Memory UInt8) {i j : Nat} (apart : j ≠ i) (mask : UInt8) :
    clearFlags status i mask j = status j :=
  Function.update_of_ne apart _ _

variable (status : Memory UInt8) (i j : Nat)

theorem flagged_setFlags (mask flag : UInt8) :
    flagged (setFlags status i mask j) flag =
      (flagged (status j) flag || (decide (j = i) && flagged mask flag)) := by
  by_cases same : j = i
  · subst same
    simp [setFlags, flagged_or]
  · simp [setFlags_of_ne _ same, same]

theorem flagged_clearFlags (mask flag : UInt8) :
    flagged (clearFlags status i mask j) flag =
      flagged (status j) (if j = i then ~~~mask &&& flag else flag) := by
  by_cases same : j = i
  · subst same
    simp [clearFlags, flagged_and]
  · simp [clearFlags_of_ne _ same, same]

@[simp] theorem setFlags_data_data : flagged (setFlags status i flowData j) flowData =
    (flagged (status j) flowData || decide (j = i)) := by
  rw [flagged_setFlags, show flagged flowData flowData = true from rfl, Bool.and_true]

@[simp] theorem setFlags_data_space : flagged (setFlags status i flowData j) flowSpace =
    flagged (status j) flowSpace := by
  rw [flagged_setFlags, show flagged flowData flowSpace = false from rfl, Bool.and_false, Bool.or_false]

@[simp] theorem setFlags_space_space : flagged (setFlags status i flowSpace j) flowSpace =
    (flagged (status j) flowSpace || decide (j = i)) := by
  rw [flagged_setFlags, show flagged flowSpace flowSpace = true from rfl, Bool.and_true]

@[simp] theorem setFlags_space_data : flagged (setFlags status i flowSpace j) flowData =
    flagged (status j) flowData := by
  rw [flagged_setFlags, show flagged flowSpace flowData = false from rfl, Bool.and_false, Bool.or_false]

theorem flagged_zero (byte : UInt8) : flagged byte 0 = false := by simp [flagged]

@[simp] theorem clearFlags_data_data : flagged (clearFlags status i flowData j) flowData =
    (flagged (status j) flowData && !decide (j = i)) := by
  rw [flagged_clearFlags, show ~~~flowData &&& flowData = 0 from rfl]
  by_cases same : j = i <;> simp [same, flagged_zero]

@[simp] theorem clearFlags_data_space : flagged (clearFlags status i flowData j) flowSpace =
    flagged (status j) flowSpace := by
  rw [flagged_clearFlags, show ~~~flowData &&& flowSpace = flowSpace from rfl, ite_self]

@[simp] theorem clearFlags_space_space : flagged (clearFlags status i flowSpace j) flowSpace =
    (flagged (status j) flowSpace && !decide (j = i)) := by
  rw [flagged_clearFlags, show ~~~flowSpace &&& flowSpace = 0 from rfl]
  by_cases same : j = i <;> simp [same, flagged_zero]

@[simp] theorem clearFlags_space_data : flagged (clearFlags status i flowSpace j) flowData =
    flagged (status j) flowData := by
  rw [flagged_clearFlags, show ~~~flowSpace &&& flowData = flowData from rfl, ite_self]

end Flags

@[simp] theorem Channel.index_inj {c other : Channel} : other.index = c.index ↔ other = c := by
  cases c <;> cases other <;> simp [Channel.index]

theorem Channel.index_ne_two (c : Channel) : c.index ≠ 2 := by
  cases c <;> decide

section Frame

/-- Nothing that the channels consist of differs. -/
structure Unchanged (u v : TubeUla) : Prop where
  fifo : fifo v = fifo u
  hostStatus : ∀ (c : Channel) (flag : UInt8), flag = flowData ∨ flag = flowSpace →
    flagged (v.hostStatus c.index) flag = flagged (u.hostStatus c.index) flag
  parasiteStatus : ∀ (c : Channel) (flag : UInt8), flag = flowData ∨ flag = flowSpace →
    flagged (v.parasiteStatus c.index) flag = flagged (u.parasiteStatus c.index) flag
  parasiteToHost : v.parasiteToHost = u.parasiteToHost
  hostToParasite : v.hostToParasite = u.hostToParasite

variable {u v : TubeUla}

theorem Unchanged.held (same : Unchanged u v) (d : Direction) (c : Channel) : held v d c = held u d c := by
  have host := same.hostStatus c flowData (.inl rfl)
  have parasite := same.parasiteStatus c flowData (.inl rfl)
  cases d with
  | hostToParasite => simp only [Ap5Tube.held, parasite, same.hostToParasite]
  | parasiteToHost =>
    cases c with
    | r1 => simp only [Ap5Tube.held, same.fifo]
    | r2 => simp only [Ap5Tube.held, host, same.parasiteToHost]
    | r4 => simp only [Ap5Tube.held, host, same.parasiteToHost]

theorem Unchanged.coherent (same : Unchanged u v) (coherent : Coherent u) : Coherent v := by
  have count : v.p2hR1Count = u.p2hR1Count := congrArg RingBuffer.count same.fifo
  constructor
  · rw [same.fifo]
    exact coherent.wellFormed
  · rw [count, ← coherent.fifoData]
    exact Bool.eq_iff_iff.mp (same.hostStatus .r1 _ (.inl rfl))
  · rw [count, ← coherent.fifoSpace]
    exact Bool.eq_iff_iff.mp (same.parasiteStatus .r1 _ (.inr rfl))
  · intro c apart
    rw [same.hostStatus c _ (.inl rfl), same.parasiteStatus c _ (.inr rfl), coherent.toHost c apart]
  · intro c
    rw [same.hostStatus c _ (.inr rfl), same.parasiteStatus c _ (.inl rfl), coherent.toParasite c]

theorem Unchanged.refl (u : TubeUla) : Unchanged u u :=
  ⟨rfl, fun _ _ _ => rfl, fun _ _ _ => rfl, rfl, rfl⟩

/-- Register 3 has flags of its own. -/
theorem Unchanged.ofR3 (fifo : Ap5Tube.fifo v = Ap5Tube.fifo u)
    (host : ∀ i, i ≠ 2 → v.hostStatus i = u.hostStatus i)
    (parasite : ∀ i, i ≠ 2 → v.parasiteStatus i = u.parasiteStatus i)
    (toHost : v.parasiteToHost = u.parasiteToHost) (toParasite : v.hostToParasite = u.hostToParasite) :
    Unchanged u v := by
  refine ⟨fifo, ?_, ?_, toHost, toParasite⟩
  · intro c flag _
    rw [host _ c.index_ne_two]
  · intro c flag _
    rw [parasite _ c.index_ne_two]

theorem parasiteTakesR3_unchanged (u : TubeUla) : Unchanged u (parasiteTakesR3 u).1 := by
  rw [parasiteTakesR3]
  split
  · dsimp only
    split
    · exact .ofR3 rfl (fun _ apart => setFlags_of_ne _ apart _)
        (fun _ apart => clearFlags_of_ne _ apart _) rfl rfl
    · exact .ofR3 rfl (fun _ _ => rfl) (fun _ _ => rfl) rfl rfl
  · exact .refl u

theorem hostTakesR3_unchanged (u : TubeUla) : Unchanged u (hostTakesR3 u).1 := by
  rw [hostTakesR3]
  split
  · dsimp only
    split
    · exact .ofR3 rfl (fun _ apart => clearFlags_of_ne _ apart _)
        (fun _ apart => setFlags_of_ne _ apart _) rfl rfl
    · exact .ofR3 rfl (fun _ _ => rfl) (fun _ _ => rfl) rfl rfl
  · exact .refl u

theorem parasitePutsR3_unchanged (u : TubeUla) (value : UInt8) :
    Unchanged u (parasitePutsR3 u value) := by
  rw [parasitePutsR3]
  split
  · dsimp only
    split
    · exact .ofR3 rfl (fun _ apart => setFlags_of_ne _ apart _)
        (fun _ apart => clearFlags_of_ne _ apart _) rfl rfl
    · exact .ofR3 rfl (fun _ _ => rfl) (fun _ _ => rfl) rfl rfl
  · exact .refl u

theorem hostPutsR3_unchanged (u : TubeUla) (value : UInt8) : Unchanged u (hostPutsR3 u value) := by
  rw [hostPutsR3]
  split
  · dsimp only
    split
    · exact .ofR3 rfl (fun _ apart => clearFlags_of_ne _ apart _)
        (fun _ apart => setFlags_of_ne _ apart _) rfl rfl
    · exact .ofR3 rfl (fun _ _ => rfl) (fun _ _ => rfl) rfl rfl
  · exact .refl u

/-- A control write masks a status byte, and keeps its flags. -/
theorem hostControl_unchanged (t : Tube) (value : UInt8) (steady : resets t.ula value = false) :
    Unchanged t.ula (hostControl t value).ula := by
  have masked : ∀ (u : TubeUla) (control : UInt8), Unchanged u { u with
      control, hostStatus := Function.update u.hostStatus 0 (u.hostStatus 0 &&& flowBoth) } := by
    intro u control
    refine ⟨rfl, fun c flag which => ?_, fun _ _ _ => rfl, rfl, rfl⟩
    by_cases first : c = .r1
    · subst first
      dsimp only [Channel.index]
      rw [Function.update_self, flagged_and]
      rcases which with rfl | rfl <;> rfl
    · have apart : c.index ≠ 0 := fun same => first (Channel.index_inj.mp same)
      dsimp only
      rw [Function.update_of_ne apart]
  rw [hostControl]
  dsimp only
  split
  · rw [if_neg (by simp [steady])]
    exact masked t.ula _
  · split
    · exact masked t.ula _
    · exact masked t.ula _

end Frame

section Channels

/-- One channel holds `contents` afterwards and the five others hold what they held. -/
structure Moves (u v : TubeUla) (d : Direction) (c : Channel) (contents : List UInt8) : Prop where
  here : held v d c = contents
  elsewhere : ∀ d' c', ¬(d' = d ∧ c' = c) → held v d' c' = held u d' c'
  coherent : Coherent v

variable {u : TubeUla}

theorem hostPuts_moves (coherent : Coherent u) (c : Channel) (value : UInt8) :
    Moves u (hostPuts u c.index value) .hostToParasite c [value] := by
  constructor
  · simp [held, hostPuts]
  · intro d' c' apart
    cases d' with
    | hostToParasite =>
      have other : c' ≠ c := fun same => apart ⟨rfl, same⟩
      simp [held, hostPuts, other]
    | parasiteToHost => cases c' <;> simp [held, hostPuts, fifo]
  · refine ⟨coherent.wellFormed, ?_, ?_, ?_, ?_⟩
    · simpa [hostPuts] using coherent.fifoData
    · simpa [hostPuts] using coherent.fifoSpace
    · intro c' first
      simpa [hostPuts] using coherent.toHost c' first
    · intro c'
      simp [hostPuts, coherent.toParasite c']

theorem parasiteTakes_moves (coherent : Coherent u) (c : Channel) :
    Moves u (parasiteTakes u c.index).1 .hostToParasite c [] := by
  constructor
  · simp [held, parasiteTakes]
  · intro d' c' apart
    cases d' with
    | hostToParasite =>
      have other : c' ≠ c := fun same => apart ⟨rfl, same⟩
      simp [held, parasiteTakes, other]
    | parasiteToHost => cases c' <;> simp [held, parasiteTakes, fifo]
  · refine ⟨coherent.wellFormed, ?_, ?_, ?_, ?_⟩
    · simpa [parasiteTakes] using coherent.fifoData
    · simpa [parasiteTakes] using coherent.fifoSpace
    · intro c' first
      simpa [parasiteTakes] using coherent.toHost c' first
    · intro c'
      simp [parasiteTakes, coherent.toParasite c']

theorem parasitePuts_moves (coherent : Coherent u) {c : Channel} (latch : c ≠ .r1) (value : UInt8) :
    Moves u (parasitePuts u c.index value) .parasiteToHost c [value] := by
  have zero : ¬0 = c.index := fun same => latch (@Channel.index_inj .r1 c |>.mp same.symm)
  constructor
  · cases c with
    | r1 => exact absurd rfl latch
    | r2 => simp [held, parasitePuts]
    | r4 => simp [held, parasitePuts]
  · intro d' c' apart
    cases d' with
    | hostToParasite => simp [held, parasitePuts]
    | parasiteToHost =>
      have other : c' ≠ c := fun same => apart ⟨rfl, same⟩
      cases c' <;> simp [held, parasitePuts, fifo, other]
  · refine ⟨coherent.wellFormed, ?_, ?_, ?_, ?_⟩
    · simpa [parasitePuts, zero] using coherent.fifoData
    · simpa [parasitePuts, zero] using coherent.fifoSpace
    · intro c' first
      simp [parasitePuts, coherent.toHost c' first]
    · intro c'
      simpa [parasitePuts] using coherent.toParasite c'

theorem hostTakes_moves (coherent : Coherent u) {c : Channel} (latch : c ≠ .r1) :
    Moves u (hostTakes u c.index).1 .parasiteToHost c [] := by
  have zero : ¬0 = c.index := fun same => latch (@Channel.index_inj .r1 c |>.mp same.symm)
  constructor
  · cases c with
    | r1 => exact absurd rfl latch
    | r2 => simp [held, hostTakes]
    | r4 => simp [held, hostTakes]
  · intro d' c' apart
    cases d' with
    | hostToParasite => simp [held, hostTakes]
    | parasiteToHost =>
      have other : c' ≠ c := fun same => apart ⟨rfl, same⟩
      cases c' <;> simp [held, hostTakes, fifo, other]
  · refine ⟨coherent.wellFormed, ?_, ?_, ?_, ?_⟩
    · simpa [hostTakes, zero] using coherent.fifoData
    · simpa [hostTakes, zero] using coherent.fifoSpace
    · intro c' first
      simp [hostTakes, coherent.toHost c' first]
    · intro c'
      simpa [hostTakes] using coherent.toParasite c'

theorem parasitePutsR1_eq (room : u.p2hR1Count < r1FifoSize) (value : UInt8) :
    parasitePutsR1 u value = { u with
      parasiteToHostR1 := u.parasiteToHostR1.write u.p2hR1Tail [value]
      p2hR1Tail := (u.p2hR1Tail + 1) % r1FifoSize
      p2hR1Count := u.p2hR1Count + 1
      hostStatus := setFlags u.hostStatus 0 flowData
      parasiteStatus :=
        if u.p2hR1Count + 1 = r1FifoSize then clearFlags u.parasiteStatus 0 flowSpace
        else u.parasiteStatus } := by
  rw [parasitePutsR1, if_pos room]
  dsimp only
  split <;> rfl

theorem hostTakesR1_eq (nonempty : 0 < u.p2hR1Count) :
    hostTakesR1 u = ({ u with
      p2hR1Head := (u.p2hR1Head + 1) % r1FifoSize
      p2hR1Count := u.p2hR1Count - 1
      hostStatus := if u.p2hR1Count - 1 = 0 then clearFlags u.hostStatus 0 flowData else u.hostStatus
      parasiteStatus := setFlags u.parasiteStatus 0 flowSpace },
      u.parasiteToHostR1 u.p2hR1Head) := by
  rw [hostTakesR1, if_pos (Nat.pos_iff_ne_zero.mp nonempty)]
  dsimp only
  split <;> rfl

/-- With SPACE set, the byte goes to the end of the FIFO. -/
theorem parasitePutsR1_moves (coherent : Coherent u) (room : u.p2hR1Count < r1FifoSize) (value : UInt8) :
    Moves u (parasitePutsR1 u value) .parasiteToHost .r1 (held u .parasiteToHost .r1 ++ [value]) := by
  have shape := parasitePutsR1_eq room value
  have pushed : fifo (parasitePutsR1 u value) = (fifo u).push r1FifoSize value := by
    rw [shape]
    rfl
  have count : (parasitePutsR1 u value).p2hR1Count = u.p2hR1Count + 1 :=
    congrArg RingBuffer.count pushed
  have latches : (parasitePutsR1 u value).hostToParasite = u.hostToParasite ∧
      (parasitePutsR1 u value).parasiteToHost = u.parasiteToHost := by
    rw [shape]
    exact ⟨rfl, rfl⟩
  have host : (parasitePutsR1 u value).hostStatus = setFlags u.hostStatus 0 flowData := by
    rw [shape]
  have parasite : (parasitePutsR1 u value).parasiteStatus =
      if u.p2hR1Count + 1 = r1FifoSize then clearFlags u.parasiteStatus 0 flowSpace
      else u.parasiteStatus := by
    rw [shape]
  have parasiteData : ∀ i, flagged ((parasitePutsR1 u value).parasiteStatus i) flowData =
      flagged (u.parasiteStatus i) flowData := by
    intro i
    rw [parasite]
    split <;> simp
  constructor
  · rw [held, pushed]
    exact coherent.wellFormed.contents_push room value
  · intro d' c' apart
    cases d' with
    | hostToParasite => simp [held, parasiteData, latches.1]
    | parasiteToHost =>
      cases c' with
      | r1 => exact absurd ⟨rfl, rfl⟩ apart
      | r2 => simp [held, latches.2, host, Channel.index]
      | r4 => simp [held, latches.2, host, Channel.index]
  · refine ⟨?_, ?_, ?_, ?_, ?_⟩
    · rw [pushed]
      exact coherent.wellFormed.push room value
    · rw [count, host]
      simp
    · rw [count, parasite]
      have space := coherent.fifoSpace.mpr room
      by_cases full : u.p2hR1Count + 1 = r1FifoSize
      · rw [if_pos full]
        simp [full]
      · rw [if_neg full]
        simp only [space, true_iff]
        omega
    · intro c' first
      have zero : c'.index ≠ 0 := fun same => first (@Channel.index_inj .r1 c' |>.mp same)
      have kept : (parasitePutsR1 u value).parasiteStatus c'.index = u.parasiteStatus c'.index := by
        rw [parasite]
        split
        · exact clearFlags_of_ne _ zero _
        · rfl
      rw [kept, host, setFlags_of_ne _ zero, coherent.toHost c' first]
    · intro c'
      rw [parasiteData, host, setFlags_data_space, coherent.toParasite c']

/-- With DATA set, the byte comes from the front of the FIFO. -/
theorem hostTakesR1_moves (coherent : Coherent u) (nonempty : 0 < u.p2hR1Count) :
    ∃ rest, held u .parasiteToHost .r1 = (hostTakesR1 u).2 :: rest ∧
      Moves u (hostTakesR1 u).1 .parasiteToHost .r1 rest := by
  have wellFormed := (@RingBuffer.WellFormed.drain _ _ _ coherent.wellFormed 1 nonempty).1
  have front := RingBuffer.contents_of_pos nonempty coherent.wellFormed
  rw [hostTakesR1_eq nonempty]
  refine ⟨_, front, rfl, ?_, wellFormed, ?_, ?_, ?_, ?_⟩
  · intro d' c' apart
    cases d' with
    | hostToParasite => simp [held]
    | parasiteToHost =>
      cases c' with
      | r1 => exact absurd ⟨rfl, rfl⟩ apart
      | r2 => by_cases last : u.p2hR1Count - 1 = 0 <;> simp [held, last, Channel.index]
      | r4 => by_cases last : u.p2hR1Count - 1 = 0 <;> simp [held, last, Channel.index]
  · have data := coherent.fifoData.mpr nonempty
    by_cases last : u.p2hR1Count - 1 = 0
    · simp [last]
    · simp only [last, if_false, data, true_iff]
      omega
  · have bound := coherent.wellFormed.count_le
    simp only [fifo] at bound
    simp only [setFlags_space_space, decide_true, Bool.or_true, true_iff]
    omega
  · intro c' first
    have zero : c'.index ≠ 0 := fun same => first (@Channel.index_inj .r1 c' |>.mp same)
    by_cases last : u.p2hR1Count - 1 = 0 <;> simp [last, zero, coherent.toHost c' first]
  · intro c'
    by_cases last : u.p2hR1Count - 1 = 0 <;> simp [last, coherent.toParasite c']

end Channels

section Registers

@[simp] theorem Channel.register_inj {c other : Channel} : other.register = c.register ↔ other = c := by
  cases c <;> cases other <;> simp [Channel.register]

/-- What one access puts into the channels and what it takes out of them. -/
def Accounts (u v : TubeUla) (put got : Direction → Channel → List UInt8) : Prop :=
  Coherent v ∧ ∀ d c, held u d c ++ put d c = got d c ++ held v d c

/-- The byte of an access to the data register of one channel. -/
def only (d : Direction) (register : Nat) (value : UInt8) (d' : Direction) (c : Channel) : List UInt8 :=
  if d' = d ∧ register = c.register then [value] else []

theorem only_other {d : Direction} {register : Nat} (nothing : ∀ c : Channel, register ≠ c.register)
    (value : UInt8) (d' : Direction) (c : Channel) : only d register value d' c = [] :=
  if_neg fun both => nothing c both.2

variable {u v : TubeUla}

theorem Unchanged.accounts (same : Unchanged u v) (coherent : Coherent u)
    {put got : Direction → Channel → List UInt8} (quiet : ∀ d c, put d c = [] ∧ got d c = []) :
    Accounts u v put got := by
  refine ⟨same.coherent coherent, fun d c => ?_⟩
  rw [(quiet d c).1, (quiet d c).2, same.held, List.append_nil, List.nil_append]

theorem Moves.takes {d : Direction} {c : Channel} {contents : List UInt8} {value : UInt8}
    (moves : Moves u v d c contents) (was : held u d c = value :: contents) :
    Accounts u v (fun _ _ => []) (only d c.register value) := by
  refine ⟨moves.coherent, fun d' c' => ?_⟩
  rw [List.append_nil, only]
  by_cases here : d' = d ∧ c' = c
  · obtain ⟨rfl, rfl⟩ := here
    rw [if_pos ⟨rfl, rfl⟩, moves.here, was, List.singleton_append]
  · rw [if_neg fun both => here ⟨both.1, (Channel.register_inj.mp both.2).symm⟩,
      moves.elsewhere d' c' here, List.nil_append]

theorem Moves.puts {d : Direction} {c : Channel} {value : UInt8}
    (moves : Moves u v d c (held u d c ++ [value])) :
    Accounts u v (only d c.register value) (fun _ _ => []) := by
  refine ⟨moves.coherent, fun d' c' => ?_⟩
  rw [List.nil_append, only]
  by_cases here : d' = d ∧ c' = c
  · obtain ⟨rfl, rfl⟩ := here
    rw [if_pos ⟨rfl, rfl⟩, moves.here]
  · rw [if_neg fun both => here ⟨both.1, (Channel.register_inj.mp both.2).symm⟩,
      moves.elsewhere d' c' here, List.append_nil]

theorem parasiteTakes_accounts (coherent : Coherent u) {c : Channel}
    (data : flagged (u.parasiteStatus c.index) flowData = true) :
    Accounts u (parasiteTakes u c.index).1 (fun _ _ => [])
      (only .hostToParasite c.register (parasiteTakes u c.index).2) :=
  (parasiteTakes_moves coherent c).takes (by simp [held, data, parasiteTakes])

theorem hostTakes_accounts (coherent : Coherent u) {c : Channel} (latch : c ≠ .r1)
    (data : flagged (u.hostStatus c.index) flowData = true) :
    Accounts u (hostTakes u c.index).1 (fun _ _ => [])
      (only .parasiteToHost c.register (hostTakes u c.index).2) := by
  apply (hostTakes_moves coherent latch).takes
  cases c with
  | r1 => exact absurd rfl latch
  | r2 => simp [held, data, hostTakes]
  | r4 => simp [held, data, hostTakes]

theorem hostPuts_accounts (coherent : Coherent u) {c : Channel}
    (space : flagged (u.hostStatus c.index) flowSpace = true) (value : UInt8) :
    Accounts u (hostPuts u c.index value) (only .hostToParasite c.register value) (fun _ _ => []) := by
  have empty : held u .hostToParasite c = [] := by
    have clear := coherent.toParasite c
    rw [space] at clear
    simp_all [held]
  apply Moves.puts
  rw [empty]
  exact hostPuts_moves coherent c value

theorem parasitePuts_accounts (coherent : Coherent u) {c : Channel} (latch : c ≠ .r1)
    (space : flagged (u.parasiteStatus c.index) flowSpace = true) (value : UInt8) :
    Accounts u (parasitePuts u c.index value) (only .parasiteToHost c.register value)
      (fun _ _ => []) := by
  have clear := coherent.toHost c latch
  rw [space] at clear
  have empty : held u .parasiteToHost c = [] := by
    cases c with
    | r1 => exact absurd rfl latch
    | r2 => simp_all [held]
    | r4 => simp_all [held]
  apply Moves.puts
  rw [empty]
  exact parasitePuts_moves coherent latch value

theorem hostReadRegister_accounts (coherent : Coherent u) {register : Nat} (small : register < 8)
    (data : ∀ c : Channel, register = c.register → flagged (u.hostStatus c.index) flowData = true) :
    Accounts u (hostReadRegister u register).1 (fun _ _ => [])
      (only .parasiteToHost register (hostReadRegister u register).2) := by
  have quiet : (∀ c : Channel, register ≠ c.register) → Unchanged u (hostReadRegister u register).1 →
      Accounts u (hostReadRegister u register).1 (fun _ _ => [])
        (only .parasiteToHost register (hostReadRegister u register).2) :=
    fun none same => same.accounts coherent fun d c => ⟨rfl, only_other none _ d c⟩
  match register, small with
  | 0, _ => exact quiet (by intro c; cases c <;> decide) (.refl u)
  | 1, _ =>
    obtain ⟨rest, front, moves⟩ := hostTakesR1_moves coherent (coherent.fifoData.mp (data .r1 rfl))
    exact moves.takes front
  | 2, _ => exact quiet (by intro c; cases c <;> decide) (.refl u)
  | 3, _ => exact @hostTakes_accounts u coherent .r2 (by decide) (data .r2 rfl)
  | 4, _ => exact quiet (by intro c; cases c <;> decide) (.refl u)
  | 5, _ => exact quiet (by intro c; cases c <;> decide) (hostTakesR3_unchanged u)
  | 6, _ => exact quiet (by intro c; cases c <;> decide) (.refl u)
  | 7, _ => exact @hostTakes_accounts u coherent .r4 (by decide) (data .r4 rfl)

theorem parasiteReadRegister_accounts (coherent : Coherent u) {register : Nat} (small : register < 8)
    (data : ∀ c : Channel, register = c.register → flagged (u.parasiteStatus c.index) flowData = true) :
    Accounts u (parasiteReadRegister u register).1 (fun _ _ => [])
      (only .hostToParasite register (parasiteReadRegister u register).2) := by
  have quiet : (∀ c : Channel, register ≠ c.register) →
      Unchanged u (parasiteReadRegister u register).1 →
      Accounts u (parasiteReadRegister u register).1 (fun _ _ => [])
        (only .hostToParasite register (parasiteReadRegister u register).2) :=
    fun none same => same.accounts coherent fun d c => ⟨rfl, only_other none _ d c⟩
  match register, small with
  | 0, _ => exact quiet (by intro c; cases c <;> decide) (.refl u)
  | 1, _ => exact @parasiteTakes_accounts u coherent .r1 (data .r1 rfl)
  | 2, _ => exact quiet (by intro c; cases c <;> decide) (.refl u)
  | 3, _ => exact @parasiteTakes_accounts u coherent .r2 (data .r2 rfl)
  | 4, _ => exact quiet (by intro c; cases c <;> decide) (.refl u)
  | 5, _ => exact quiet (by intro c; cases c <;> decide) (parasiteTakesR3_unchanged u)
  | 6, _ => exact quiet (by intro c; cases c <;> decide) (.refl u)
  | 7, _ => exact @parasiteTakes_accounts u coherent .r4 (data .r4 rfl)

theorem Accounts.after {w : TubeUla} {put got : Direction → Channel → List UInt8}
    (accounts : Accounts v w put got) (same : Unchanged u v) : Accounts u w put got := by
  refine ⟨accounts.1, fun d c => ?_⟩
  rw [← same.held, accounts.2]

theorem parasiteWriteRegister_accounts (coherent : Coherent u) {register : Nat} (small : register < 8)
    (value : UInt8) (space : ∀ c : Channel, register = c.register →
      flagged (u.parasiteStatus c.index) flowSpace = true) :
    Accounts u (parasiteWriteRegister u register value) (only .parasiteToHost register value)
      (fun _ _ => []) := by
  have noted : Unchanged u { u with lastParasiteWrite := value } :=
    ⟨rfl, fun _ _ _ => rfl, fun _ _ _ => rfl, rfl, rfl⟩
  have coherent' := noted.coherent coherent
  have quiet : (∀ c : Channel, register ≠ c.register) →
      Unchanged { u with lastParasiteWrite := value } (parasiteWriteRegister u register value) →
      Accounts u (parasiteWriteRegister u register value) (only .parasiteToHost register value)
        (fun _ _ => []) :=
    fun none same => (same.accounts coherent' fun d c => ⟨only_other none _ d c, rfl⟩).after noted
  match register, small with
  | 0, _ => exact quiet (by intro c; cases c <;> decide) (.refl _)
  | 1, _ =>
    have room := coherent'.fifoSpace.mp (space .r1 rfl)
    exact (parasitePutsR1_moves coherent' room value).puts.after noted
  | 2, _ => exact quiet (by intro c; cases c <;> decide) (.refl _)
  | 3, _ =>
    exact (@parasitePuts_accounts _ coherent' .r2 (by decide) (space .r2 rfl) value).after noted
  | 4, _ => exact quiet (by intro c; cases c <;> decide) (.refl _)
  | 5, _ => exact quiet (by intro c; cases c <;> decide) (parasitePutsR3_unchanged _ value)
  | 6, _ => exact quiet (by intro c; cases c <;> decide) (.refl _)
  | 7, _ =>
    exact (@parasitePuts_accounts _ coherent' .r4 (by decide) (space .r4 rfl) value).after noted

theorem hostWriteRegister_accounts (coherent : Coherent u) {register : Nat} (small : register < 8)
    (value : UInt8) (space : ∀ c : Channel, register = c.register →
      flagged (u.hostStatus c.index) flowSpace = true) :
    Accounts u (hostWriteRegister u register value) (only .hostToParasite register value)
      (fun _ _ => []) := by
  have quiet : (∀ c : Channel, register ≠ c.register) →
      Unchanged u (hostWriteRegister u register value) →
      Accounts u (hostWriteRegister u register value) (only .hostToParasite register value)
        (fun _ _ => []) :=
    fun none same => same.accounts coherent fun d c => ⟨only_other none _ d c, rfl⟩
  match register, small with
  | 0, _ => exact quiet (by intro c; cases c <;> decide) (.refl u)
  | 1, _ => exact @hostPuts_accounts u coherent .r1 (space .r1 rfl) value
  | 2, _ => exact quiet (by intro c; cases c <;> decide) (.refl u)
  | 3, _ => exact @hostPuts_accounts u coherent .r2 (space .r2 rfl) value
  | 4, _ => exact quiet (by intro c; cases c <;> decide) (.refl u)
  | 5, _ => exact quiet (by intro c; cases c <;> decide) (hostPutsR3_unchanged u value)
  | 6, _ => exact quiet (by intro c; cases c <;> decide) (.refl u)
  | 7, _ => exact @hostPuts_accounts u coherent .r4 (space .r4 rfl) value

end Registers

section Accesses

theorem register_lt (address : UInt16) : (address &&& 7).toNat < 8 := by
  have bound : (address &&& 7).toNat ≤ 7 := by
    rw [UInt16.toNat_and]
    exact Nat.and_le_right
  omega

/-- Every access that keeps the rules moves the bytes of the channel it names and no others. -/
theorem access_accounts {t : Tube} (coherent : Coherent t.ula) {a : Access} (obeys : Obeys t a)
    (steady : Steady t a) :
    Accounts t.ula (access t a).ula (fun d c => sent d c t a) (fun d c => received d c t a) := by
  have idle : ∀ (a : Access), (access t a).ula = t.ula →
      (∀ d c, sent d c t a = [] ∧ received d c t a = []) →
      Accounts t.ula (access t a).ula (fun d c => sent d c t a) (fun d c => received d c t a) := by
    intro a same quiet
    rw [same]
    exact (Unchanged.refl t.ula).accounts coherent quiet
  cases a with
  | hostRead address =>
    by_cases selected : t.selected = true
    · have read := hostReadRegister_accounts coherent (register_lt address)
        fun c here => obeys c ⟨selected, here⟩
      obtain ⟨next, value⟩ := hostRead_ula t address selected
      rw [access, next]
      refine ⟨read.1, fun d c => ?_⟩
      have account := read.2 d c
      simpa only [sent, received, only, hostReaches, selected, true_and, value] using account
    · apply idle
      · rw [access, hostRead_unselected t address selected]
      · intro d c
        simp [sent, received, hostReaches, selected]
  | hostWrite address value =>
    by_cases selected : t.selected = true
    · have noted : Unchanged t.ula { t.ula with lastHostWrite := value } :=
        ⟨rfl, fun _ _ _ => rfl, fun _ _ _ => rfl, rfl, rfl⟩
      by_cases control : (address &&& 7).toNat = 0
      · have masked := hostControl_unchanged { t with ula := { t.ula with lastHostWrite := value } }
          value (steady.2 ⟨selected, control⟩)
        rw [access, hostWrite_control t address value selected control]
        apply (masked.accounts (noted.coherent coherent) ?_).after noted
        intro d c
        have apart : (address &&& 7).toNat ≠ c.register := by
          rw [control]
          cases c <;> decide
        exact ⟨if_neg fun both => apart both.2.2, rfl⟩
      · have wrote := (hostWriteRegister_accounts (noted.coherent coherent) (register_lt address) value
          fun c here => obeys c ⟨selected, here⟩).after noted
        rw [access, hostWrite_register t address value selected steady.1 control]
        refine ⟨wrote.1, fun d c => ?_⟩
        have account := wrote.2 d c
        simpa only [sent, received, only, hostReaches, selected, true_and] using account
    · apply idle
      · rw [access, hostWrite_unselected t address value selected steady.1]
      · intro d c
        simp [sent, received, hostReaches, selected]
  | parasiteRead address =>
    by_cases mapped : isUlaAddress address = true
    · have read := parasiteReadRegister_accounts coherent (register_lt address)
        fun c here => obeys c ⟨mapped, here⟩
      obtain ⟨next, value⟩ := parasiteRead_ula t address mapped
      rw [access, next]
      refine ⟨read.1, fun d c => ?_⟩
      have account := read.2 d c
      simpa only [sent, received, only, parasiteReaches, mapped, true_and, value] using account
    · apply idle
      · rw [access, parasiteRead_memory t address mapped]
      · intro d c
        simp [sent, received, parasiteReaches, mapped]
  | parasiteWrite address value =>
    by_cases mapped : isUlaAddress address = true
    · have wrote := parasiteWriteRegister_accounts coherent (register_lt address) value
        fun c here => obeys c ⟨mapped, here⟩
      rw [access, parasiteWrite_ula t address value mapped]
      refine ⟨wrote.1, fun d c => ?_⟩
      have account := wrote.2 d c
      simpa only [sent, received, only, parasiteReaches, mapped, true_and] using account
    · apply idle
      · rw [access, parasiteWrite_memory t address value mapped]
      · intro d c
        simp [sent, received, parasiteReaches, mapped]

end Accesses

theorem resetUla_coherent : Coherent resetUla := by
  refine ⟨⟨by decide, rfl, by decide⟩, ?_, ?_, ?_, ?_⟩
  · decide
  · decide
  · intro c first
    cases c with
    | r1 => exact absurd rfl first
    | r2 => decide
    | r4 => decide
  · intro c
    cases c <;> decide

theorem resetUla_held (d : Direction) (c : Channel) : held resetUla d c = [] := by
  cases d <;> cases c <;> decide

theorem held_length_le {u : TubeUla} (coherent : Coherent u) (d : Direction) (c : Channel) :
    (held u d c).length ≤ capacity d c := by
  have single : ∀ (full : Bool) (byte : UInt8), (bif full then [byte] else []).length ≤ 1 := by
    intro full byte
    cases full <;> simp
  cases d with
  | hostToParasite => exact single _ _
  | parasiteToHost =>
    cases c with
    | r1 =>
      rw [held, RingBuffer.contents_length]
      exact coherent.wellFormed.count_le
    | r2 => exact single _ _
    | r4 => exact single _ _

/-- From a reset, with both sides keeping to their flags: what was read from a channel is the
beginning of what was written to it, and what is missing is what it holds. The FIFO's count
decides both of its flags. -/
theorem channels_deliver_once (t : Tube) (accesses : List Access)
    (obeys : Conduit.Follows access (fun t a => Obeys t a ∧ Steady t a) (resetUlaChannels t) accesses) :
    let last := Conduit.run access (resetUlaChannels t) accesses
    (∀ d c, Conduit.traffic access (sent d c) (resetUlaChannels t) accesses =
        Conduit.traffic access (received d c) (resetUlaChannels t) accesses ++ held last.ula d c ∧
      (held last.ula d c).length ≤ capacity d c) ∧
    last.ula.p2hR1Count ≤ r1FifoSize ∧
    (flagged (last.ula.hostStatus 0) flowData = true ↔ 0 < last.ula.p2hR1Count) ∧
    (flagged (last.ula.parasiteStatus 0) flowSpace = true ↔ last.ula.p2hR1Count < r1FifoSize) := by
  intro last
  have keeps : ∀ (t : Tube) (a : Access), Coherent t.ula → Obeys t a ∧ Steady t a →
      Coherent (access t a).ula :=
    fun t a coherent rules => (access_accounts coherent rules.1 rules.2).1
  have start : Coherent (resetUlaChannels t).ula := resetUla_coherent
  have coherent : Coherent last.ula :=
    @Conduit.run_invariant _ _ access _ (fun t => Coherent t.ula) keeps _ start _ obeys
  refine ⟨fun d c => ⟨?_, held_length_le coherent d c⟩, coherent.wellFormed.count_le,
    coherent.fifoData, coherent.fifoSpace⟩
  have conserved := @Conduit.run_conserves _ _ _ access _ (fun t => Coherent t.ula)
    (fun t => held t.ula d c) (sent d c) (received d c) keeps
    (fun t a coherent rules => (access_accounts coherent rules.1 rules.2).2 d c) _ start _ obeys
  have empty : held (resetUlaChannels t).ula d c = [] := resetUla_held d c
  rw [empty, List.nil_append] at conserved
  exact conserved

/-- A selected Tube before its first reset. -/
def bare : Tube :=
  ⟨resetUla, true, true, fun _ => 0, fun _ => 0, true, false, false, false⟩

/-- The parasite fills the FIFO and the host takes some of it, while the host sends a command and
the parasite an answer on the other channels. -/
def conversation : List Access :=
  (List.range 24).map (fun i => .parasiteWrite 0xfef9 (0x41 + UInt8.ofNat i)) ++
    [.hostRead 0xfce1, .hostWrite 0xfce3 0x07, .hostRead 0xfce1, .parasiteRead 0xfefb,
      .parasiteWrite 0xfef9 0x0d, .hostWrite 0xfce3 0x12, .parasiteWrite 0xfefb 0x7f, .hostRead 0xfce3,
      .hostWrite 0xfce7 0x01, .parasiteRead 0xfeff, .hostRead 0xfce1]

theorem conversation_delivers_once :
    let start := resetUlaChannels bare
    let last := Conduit.run access start conversation
    (∀ d c, Conduit.traffic access (sent d c) start conversation =
      Conduit.traffic access (received d c) start conversation ++ held last.ula d c) ∧
    Conduit.traffic access (received .parasiteToHost .r1) start conversation = [0x41, 0x42, 0x43] ∧
    last.ula.p2hR1Count = 22 := by
  intro start last
  have obeys : Conduit.Follows access (fun t a => Obeys t a ∧ Steady t a) start conversation := by
    decide +kernel
  exact ⟨fun d c => ((channels_deliver_once bare conversation obeys).1 d c).1, by decide +kernel⟩

end Pi1MHz.Ap5Tube
