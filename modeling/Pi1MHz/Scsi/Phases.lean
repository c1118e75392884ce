import Mathlib.Data.List.Infix
import Pi1MHz.Foundation.Conduit
import Pi1MHz.Scsi.Drive

/-! The counters of the phase machine along every sequence of register accesses, whatever the
host file answers. -/
namespace Pi1MHz.BeebScsi

inductive Access
  | read (file : HostFile) (address : UInt16)
  | write (file : HostFile) (address : UInt16) (value : UInt8)

def step (s : State) : Access → State
  | .read file address => (registerRead file s address).1
  | .write file address value => registerWrite file s address value

/-- The write reaches `write_data`. -/
def writesData (address : UInt16) : Bool :=
  address != 0xfc44 && (address &&& 3 == 0 || address &&& 3 == 2)

def readsData (address : UInt16) : Bool := address != 0xfc44 && address &&& 3 == 0

def ScsiPhase.isData : ScsiPhase → Bool
  | .scsiRead | .scsiWrite => true
  | _ => false

/-- The data bytes a command block asks for. -/
def announcedBytes (command : Memory UInt8) : Nat :=
  match (command 0).toNat with
  | 0x03 => if command 4 ≠ 0 then (command 4).toNat else 4
  | 0x08 | 0x0a => (if command 4 ≠ 0 then (command 4).toNat else 256) * 256
  | 0x0f => 4
  | 0x15 => (command 4).toNat
  | 0x1a => min (if command 4 ≠ 0 then (command 4).toNat else 22) geometrySize
  | _ => 0

/-- The access moves a byte of the data phase. -/
def transfers (s : State) : Access → Bool
  | .read _ address => s.phase == .scsiRead && readsData address
  | .write _ address _ => s.phase == .scsiWrite && writesData address

/-- The drive with what the current data phase announced and has moved. -/
structure Tracked where
  drive : State
  announced : Nat
  moved : Nat

def track (t : Tracked) (a : Access) : Tracked :=
  let next := step t.drive a
  if t.drive.phase = .command ∧ next.phase.isData then ⟨next, announcedBytes next.command, 0⟩
  else ⟨next, t.announced, if transfers t.drive a then t.moved + 1 else t.moved⟩

def start (s : State) : Tracked := ⟨reset s, 0, 0⟩

/-- The end of the block will move a sector of the image and step to the next. -/
def MovesSectors (s : State) : Prop :=
  1 < s.blocks ∨ (s.phase = .scsiWrite ∧ s.command 0 = 0x0a)

/-- What is left of the block being moved fits in its buffer, and something is left. -/
structure Bounded (s : State) : Prop where
  commandBlock : s.phase = .command → 1 ≤ s.length ∧ s.offset + s.length ≤ commandSize
  data : s.phase.isData → 1 ≤ s.length ∧ s.offset + s.length ≤ bufferSize
  blocks : s.phase.isData → 1 ≤ s.blocks ∧ s.blocks ≤ 256
  sector : s.phase.isData → MovesSectors s → s.nextSector + s.blocks ≤ 2 ^ 21 + 256

/-- How a transfer that moved one byte of `t` may leave the data phase: not before the last
announced byte, unless a sector of the image could not be moved. -/
inductive Outcome (t next : Tracked) : Prop
  | more (phase : next.drive.phase = t.drive.phase) (left : next.moved < next.announced)
  | done (phase : next.drive.phase = .status) (good : next.drive.status = 0)
      (all : next.moved = next.announced)
  | failed (phase : next.drive.phase = .status) (bad : next.drive.status = 2)
      (boundary : next.moved % 256 = 0) (within : next.moved ≤ next.announced)

/-- The counters are in range, and the data phase ends with its last announced byte. -/
structure Keeps (t : Tracked) : Prop where
  bounded : Bounded t.drive
  unfinished : t.drive.phase.isData → t.moved < t.announced
  exact : ∀ a, transfers t.drive a = true →
    (track t a).moved = t.moved + 1 ∧ (track t a).announced = t.announced ∧ Outcome t (track t a)

/-- The access does not complete a MODE SELECT block whose parameter list length is zero. -/
def Admits (s : State) : Access → Prop
  | .read _ _ => True
  | .write _ address _ => writesData address = true → s.phase = .command → s.length = 1 →
      s.command 0 = 0x15 → s.command 4 ≠ 0

/-- The bytes of the data phase still to come. -/
def remaining (s : State) : Nat := (s.blocks - 1) * 256 + s.length

/-- The invariant of a tracked drive. -/
structure Sound (t : Tracked) : Prop where
  commandBlock : t.drive.phase = .command → 1 ≤ t.drive.length ∧
    (t.drive.offset + t.drive.length = 6 ∨
      (t.drive.offset + t.drive.length = 10 ∧ 1 ≤ t.drive.offset))
  bounded : Bounded t.drive
  accounted : t.drive.phase.isData → t.moved + remaining t.drive = t.announced
  whole : t.drive.phase.isData → MovesSectors t.drive → t.announced % 256 = 0

theorem Sound.idle {t : Tracked} (command : t.drive.phase ≠ .command)
    (data : t.drive.phase.isData = false) : Sound t := by
  constructor
  · intro phase
    exact absurd phase command
  · constructor
    · intro phase
      exact absurd phase command
    all_goals
      intro phase
      simp [data] at phase
  all_goals
    intro phase
    simp [data] at phase

/-- A data phase as a command opens it. -/
theorem Sound.opened {s : State} {announced : Nat} (data : s.phase.isData)
    (offset : s.offset = 0) (length : 1 ≤ s.length ∧ s.length ≤ bufferSize)
    (blocks : 1 ≤ s.blocks ∧ s.blocks ≤ 256) (all : remaining s = announced)
    (sectors : MovesSectors s → s.nextSector + s.blocks ≤ 2 ^ 21 + 256 ∧ announced % 256 = 0) :
    Sound ⟨s, announced, 0⟩ := by
  have apart : s.phase ≠ .command := by
    intro phase
    simp [phase, ScsiPhase.isData] at data
  refine ⟨fun phase => absurd phase apart,
    ⟨fun phase => absurd phase apart, fun _ => ?_, fun _ => blocks, fun _ moves => (sectors moves).1⟩,
    fun _ => ?_, fun _ moves => (sectors moves).2⟩
  · exact ⟨length.1, by simpa [offset] using length.2⟩
  · simpa using all

section Commands

/-- A command ends at once, or opens the data phase that it announced. -/
def Opens (s : State) : Prop :=
  s.phase = .status ∨ (s.phase.isData ∧ Sound ⟨s, announcedBytes s.command, 0⟩)

theorem readSector_frame (file : HostFile) (s : State) (sector : Nat) :
    ∃ buffer, (readSector file s sector).1 = { s with buffer } := by
  simp only [readSector]
  split
  · exact ⟨s.buffer, rfl⟩
  · exact ⟨_, rfl⟩

end Commands

section Transfers

theorem increment_of_lt {n : Nat} (small : n + 1 < 2 ^ 32) : increment n = n + 1 :=
  Nat.mod_eq_of_lt small

theorem decrement_of_pos {n : Nat} (pos : 1 ≤ n) (small : n < 2 ^ 32) : decrement n = n - 1 := by
  simp only [decrement]
  omega

/-- What moving one byte does to the counters of a data phase. -/
inductive Advance (s next : State) : Prop
  | within (nonempty : 1 < s.length) (phase : next.phase = s.phase) (command : next.command = s.command)
      (offset : next.offset = s.offset + 1) (length : next.length + 1 = s.length)
      (blocks : next.blocks = s.blocks) (sector : next.nextSector = s.nextSector)
  | block (last : s.length = 1) (phase : next.phase = s.phase) (command : next.command = s.command)
      (offset : next.offset = 0) (length : next.length = 256) (blocks : next.blocks + 1 = s.blocks)
      (nonempty : 1 ≤ next.blocks) (sector : next.nextSector ≤ s.nextSector + 1)
  | done (last : s.length = 1) (only : s.blocks = 1) (phase : next.phase = .status)
      (good : next.status = 0)
  | failed (last : s.length = 1) (sectors : MovesSectors s) (phase : next.phase = .status)
      (bad : next.status = 2)

theorem Advance.publish {s next : State} (advance : Advance s next) :
    Advance s (publishIrq next) := by
  cases advance with
  | within some phase command offset length blocks sector =>
    exact .within some phase command offset length blocks sector
  | block last phase command offset length blocks some sector =>
    exact .block last phase command offset length blocks some sector
  | done last only phase good => exact .done last only phase good
  | failed last sectors phase bad => exact .failed last sectors phase bad

theorem Advance.unframe {s next : State} {selected : Bool} {lastWrite : UInt8}
    (advance : Advance { s with selected, lastWrite } next) : Advance s next := by
  cases advance with
  | within some phase command offset length blocks sector =>
    exact .within some phase command offset length blocks sector
  | block last phase command offset length blocks some sector =>
    exact .block last phase command offset length blocks some sector
  | done last only phase good => exact .done last only phase good
  | failed last sectors phase bad => exact .failed last sectors phase bad

theorem writeSector_frame (file : HostFile) (s : State) (sector : Nat) :
    ∃ image, (writeSector file s sector).1 = { s with image } := by
  simp only [writeSector]
  split
  · exact ⟨s.image, rfl⟩
  · exact ⟨_, rfl⟩

theorem failAt_advance {s middle : State} {sector : Nat} (last : s.length = 1)
    (sectors : MovesSectors s) : Advance s (failAt middle sector) :=
  .failed last sectors rfl rfl

/-- The end of a block, with `middle` the state that has moved its last byte. -/
theorem blockDone_advance {s middle : State} (last : s.length = 1)
    (blocks : 1 ≤ s.blocks ∧ s.blocks ≤ 256) (phase : middle.phase = s.phase)
    (command : middle.command = s.command) (same : middle.blocks = s.blocks)
    (sector : middle.nextSector ≤ s.nextSector + 1) : Advance s (blockDone middle) := by
  have counted : decrement middle.blocks = s.blocks - 1 := by
    rw [same, decrement_of_pos blocks.1 (by omega)]
  by_cases only : s.blocks = 1
  · have zero : decrement middle.blocks = 0 := by omega
    rw [blockDone]
    dsimp only
    rw [if_pos zero]
    exact .done last only rfl rfl
  · have more : decrement middle.blocks ≠ 0 := by omega
    rw [blockDone]
    dsimp only
    rw [if_neg more]
    refine .block last phase command rfl rfl ?_ ?_ sector
    · change decrement middle.blocks + 1 = s.blocks
      omega
    · change 1 ≤ decrement middle.blocks
      omega

theorem dataByte_advance (file : HostFile) {s : State} (value : UInt8)
    (phase : s.phase = .scsiWrite) (bounded : Bounded s) : Advance s (dataByte file s value) := by
  have data : s.phase.isData := by rw [phase]; rfl
  obtain ⟨nonempty, fits⟩ := bounded.data data
  have blocks := bounded.blocks data
  simp only [bufferSize] at fits
  have offset : increment s.offset = s.offset + 1 := increment_of_lt (by omega)
  have length : decrement s.length = s.length - 1 := decrement_of_pos nonempty (by omega)
  rw [dataByte]
  dsimp only
  generalize (if s.offset < bufferSize then s.buffer.write s.offset [value] else s.buffer) = stored
  by_cases more : 1 < s.length
  · rw [if_pos (by change decrement s.length ≠ 0; omega)]
    refine .within more rfl rfl offset ?_ rfl rfl
    change decrement s.length + 1 = s.length
    omega
  · have last : s.length = 1 := by omega
    rw [if_neg (by change ¬decrement s.length ≠ 0; omega)]
    split
    · rename_i opcode
      have sectors : MovesSectors s := .inr ⟨phase, opcode⟩
      have bound := bounded.sector data sectors
      have next : increment s.nextSector = s.nextSector + 1 := increment_of_lt (by omega)
      obtain ⟨image, saved⟩ := writeSector_frame file (countByte { s with buffer := stored })
        (countByte { s with buffer := stored }).nextSector
      rw [saved]
      split
      · exact blockDone_advance last blocks rfl rfl rfl (Nat.le_of_eq next)
      · exact failAt_advance last sectors
    · exact blockDone_advance last blocks rfl rfl rfl (Nat.le_succ _)

theorem refill_advance (file : HostFile) {s middle : State} (last : s.length = 1)
    (blocks : 1 ≤ s.blocks ∧ s.blocks ≤ 256) (phase : middle.phase = s.phase)
    (command : middle.command = s.command) (same : middle.blocks = s.blocks)
    (sector : middle.nextSector = s.nextSector) : Advance s (refill file middle) := by
  have counted : decrement middle.blocks = s.blocks - 1 := by
    rw [same, decrement_of_pos blocks.1 (by omega)]
  rw [refill]
  dsimp only
  by_cases only : s.blocks = 1
  · rw [if_pos (by omega)]
    exact .done last only rfl rfl
  · obtain ⟨buffer, loaded⟩ := readSector_frame file
      { middle with blocks := decrement middle.blocks, nextSector := increment middle.nextSector }
      middle.nextSector
    rw [if_neg (by omega), loaded]
    split
    · refine .block last phase command rfl rfl ?_ ?_ ?_
      · change decrement middle.blocks + 1 = s.blocks
        omega
      · change 1 ≤ decrement middle.blocks
        omega
      · rw [← sector]
        exact Nat.mod_le _ _
    · exact failAt_advance last (.inl (by omega))

theorem readData_scsiRead (file : HostFile) {s : State} (phase : s.phase = .scsiRead) :
    readData file s =
      (if (countByte s).length = 0 then refill file (countByte s) else countByte s,
        s.buffer s.offset) := by
  unfold readData
  split <;> simp_all

theorem readData_advance (file : HostFile) {s : State} (phase : s.phase = .scsiRead)
    (bounded : Bounded s) : Advance s (readData file s).1 := by
  have data : s.phase.isData := by rw [phase]; rfl
  obtain ⟨nonempty, fits⟩ := bounded.data data
  simp only [bufferSize] at fits
  have length : decrement s.length = s.length - 1 := decrement_of_pos nonempty (by omega)
  rw [readData_scsiRead file phase]
  by_cases more : 1 < s.length
  · rw [if_neg (by change ¬decrement s.length = 0; omega)]
    have offset : increment s.offset = s.offset + 1 := increment_of_lt (by omega)
    refine .within more rfl rfl offset ?_ rfl rfl
    change decrement s.length + 1 = s.length
    omega
  · have last : s.length = 1 := by omega
    rw [if_pos (by change decrement s.length = 0; omega)]
    dsimp only
    exact refill_advance file last (bounded.blocks data) rfl rfl rfl rfl

/-- The counters stay in range and go on accounting for every announced byte. -/
theorem Advance.sound {s next : State} {announced moved : Nat} (advance : Advance s next)
    (sound : Sound ⟨s, announced, moved⟩) (data : s.phase.isData) :
    Sound ⟨next, announced, moved + 1⟩ := by
  have fits := sound.bounded.data data
  have blocks := sound.bounded.blocks data
  have accounted := sound.accounted data
  have apart : s.phase ≠ .command := by
    intro phase
    simp [phase, ScsiPhase.isData] at data
  simp only [remaining, bufferSize] at fits blocks accounted
  cases advance with
  | within some phase command offset length same sector =>
    have moves : MovesSectors next ↔ MovesSectors s := by
      simp only [MovesSectors, phase, command, same]
    refine ⟨fun p => absurd (phase.symm.trans p) apart,
      ⟨fun p => absurd (phase.symm.trans p) apart, fun _ => ?_, fun _ => ?_, fun _ m => ?_⟩,
      fun _ => ?_, fun _ m => sound.whole data (moves.mp m)⟩
    · simp only [bufferSize]
      omega
    · dsimp only
      omega
    · have bound := sound.bounded.sector data (moves.mp m)
      dsimp only at bound ⊢
      omega
    · simp only [remaining]
      omega
  | block last phase command offset length count some sector =>
    have moves : MovesSectors s := .inl (by omega)
    refine ⟨fun p => absurd (phase.symm.trans p) apart,
      ⟨fun p => absurd (phase.symm.trans p) apart, fun _ => ?_, fun _ => ?_, fun _ _ => ?_⟩,
      fun _ => ?_, fun _ _ => sound.whole data moves⟩
    · simp only [bufferSize]
      omega
    · dsimp only
      omega
    · have bound := sound.bounded.sector data moves
      dsimp only at bound ⊢
      omega
    · simp only [remaining]
      omega
  | done last only phase good => exact Sound.idle (by simp [phase]) (by simp [phase, ScsiPhase.isData])
  | failed last sectors phase bad =>
    exact Sound.idle (by simp [phase]) (by simp [phase, ScsiPhase.isData])

theorem Advance.outcome {s next : State} {announced moved : Nat} (advance : Advance s next)
    (sound : Sound ⟨s, announced, moved⟩) (data : s.phase.isData) :
    Outcome ⟨s, announced, moved⟩ ⟨next, announced, moved + 1⟩ := by
  have blocks := sound.bounded.blocks data
  have accounted := sound.accounted data
  simp only [remaining] at blocks accounted
  cases advance with
  | within nonempty phase => exact .more phase (by dsimp only; omega)
  | block last phase _ _ _ count nonempty => exact .more phase (by dsimp only; omega)
  | done last only phase good => exact .done phase good (by dsimp only; omega)
  | failed last sectors phase bad =>
    have whole := sound.whole data sectors
    dsimp only at whole
    exact .failed phase bad (by dsimp only; omega) (by dsimp only; omega)

end Transfers

section Steps

/-- The lines, the selection and the last byte written have no part in the counters. -/
theorem Sound.frame {s : State} {announced moved : Nat} (sound : Sound ⟨s, announced, moved⟩)
    (selected : Bool) (bus : BusLines) (lastWrite : UInt8) :
    Sound ⟨{ s with selected, bus, lastWrite }, announced, moved⟩ :=
  ⟨sound.commandBlock,
    ⟨sound.bounded.commandBlock, sound.bounded.data, sound.bounded.blocks, sound.bounded.sector⟩,
    sound.accounted, sound.whole⟩

theorem Sound.publish {s : State} {announced moved : Nat} (sound : Sound ⟨s, announced, moved⟩) :
    Sound ⟨publishIrq s, announced, moved⟩ :=
  sound.frame _ _ _

theorem registerWrite_data (file : HostFile) (s : State) {address : UInt16} (value : UInt8)
    (data : writesData address = true) : ∃ selected,
      registerWrite file s address value = publishIrq (writeData file { s with selected } value) := by
  simp only [writesData, Bool.and_eq_true, bne_iff_ne, Bool.or_eq_true, beq_iff_eq] at data
  obtain ⟨apart, register⟩ := data
  rw [registerWrite, if_neg apart]
  rcases register with register | register
  · rw [register]
    exact ⟨true, rfl⟩
  · rw [register]
    exact ⟨false, rfl⟩

theorem registerRead_data (file : HostFile) (s : State) {address : UInt16}
    (data : readsData address = true) :
    (registerRead file s address).1 = publishIrq (readData file s).1 := by
  simp only [readsData, Bool.and_eq_true, bne_iff_ne, beq_iff_eq] at data
  rw [registerRead, if_neg data.1, if_pos data.2]

theorem writeData_command (file : HostFile) {s : State} (value : UInt8)
    (phase : s.phase = .command) :
    writeData file s value = commandByte file { s with lastWrite := value } value := by
  unfold writeData
  dsimp only
  split <;> simp_all

theorem writeData_scsiWrite (file : HostFile) {s : State} (value : UInt8)
    (phase : s.phase = .scsiWrite) :
    writeData file s value = dataByte file { s with lastWrite := value } value := by
  unfold writeData
  dsimp only
  split <;> simp_all

theorem track_of_not_command {t : Tracked} {a : Access} (phase : t.drive.phase ≠ .command) :
    track t a = ⟨step t.drive a, t.announced, if transfers t.drive a then t.moved + 1 else t.moved⟩ := by
  rw [track, if_neg fun opened => phase opened.1]

theorem transfers_data {s : State} {a : Access} (moves : transfers s a = true) :
    s.phase.isData ∧ s.phase ≠ .command := by
  cases a with
  | read file address =>
    simp only [transfers, Bool.and_eq_true, beq_iff_eq] at moves
    simp [moves.1, ScsiPhase.isData]
  | write file address value =>
    simp only [transfers, Bool.and_eq_true, beq_iff_eq] at moves
    simp [moves.1, ScsiPhase.isData]

/-- An access that moves a byte of the data phase advances its counters. -/
theorem step_advance {s : State} {a : Access} (moves : transfers s a = true) (bounded : Bounded s) :
    Advance s (step s a) := by
  cases a with
  | read file address =>
    simp only [transfers, Bool.and_eq_true, beq_iff_eq] at moves
    rw [step, registerRead_data file s moves.2]
    exact (readData_advance file moves.1 bounded).publish
  | write file address value =>
    simp only [transfers, Bool.and_eq_true, beq_iff_eq] at moves
    obtain ⟨selected, wrote⟩ := registerWrite_data file s value moves.2
    rw [step, wrote, writeData_scsiWrite file value (by exact moves.1)]
    have bounded' : Bounded { s with selected, lastWrite := value } :=
      ⟨bounded.commandBlock, bounded.data, bounded.blocks, bounded.sector⟩
    exact (dataByte_advance file value (by exact moves.1) bounded').unframe.publish

theorem Opens.publish {s : State} (opens : Opens s) : Opens (publishIrq s) := by
  rcases opens with status | ⟨data, sound⟩
  · exact .inl status
  · exact .inr ⟨data, sound.publish⟩

theorem Sound.keeps {t : Tracked} (sound : Sound t) : Keeps t := by
  constructor
  · exact sound.bounded
  · intro data
    have accounted := sound.accounted data
    have nonempty := (sound.bounded.data data).1
    simp only [remaining] at accounted
    omega
  · intro a moves
    obtain ⟨data, apart⟩ := transfers_data moves
    rw [track_of_not_command apart, if_pos moves]
    exact ⟨rfl, rfl, (step_advance moves sound.bounded).outcome sound data⟩

end Steps

end Pi1MHz.BeebScsi
