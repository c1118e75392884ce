import Pi1MHz.Scsi.Phases

/-! WRITE(6) and READ(6) through the data register, byte by byte, with a host file that does
not fail. -/
namespace Pi1MHz.BeebScsi

def writeByte (s : State) (value : UInt8) : State := registerWrite .good s 0xfc40 value

def writeBytes (s : State) (bytes : List UInt8) : State := bytes.foldl writeByte s

def readByte (s : State) : State × UInt8 := registerRead .good s 0xfc40

def readBytes (s : State) : Nat → State × List UInt8
  | 0 => (s, [])
  | n + 1 =>
    let (next, value) := readByte s
    let (last, rest) := readBytes next n
    (last, value :: rest)

/-- Assert SEL with one write and drop it with another. -/
def selectTarget (s : State) (first second : UInt8) : State :=
  registerWrite .good (registerWrite .good s 0xfc40 first) 0xfc42 second

/-- A six byte command block; only the low five bits of its second byte address the sector. -/
def cdb6 (opcode lun : UInt8) (sector count : Nat) (control : UInt8) : List UInt8 :=
  [opcode, (lun &&& (0xe0 : UInt8)) ||| (sector >>> 16).toUInt8, (sector >>> 8).toUInt8, sector.toUInt8,
    count.toUInt8, control]

/-- What the drive knows of its image. -/
structure OnDisc (s : State) (image : Memory UInt8) (size : Nat) (writable : Bool) : Prop where
  image : s.image = image
  size : s.imageBytes = size
  writable : s.writable = writable

theorem writeBytes_cons (s : State) (value : UInt8) (bytes : List UInt8) :
    writeBytes s (value :: bytes) = writeBytes (writeByte s value) bytes := rfl

theorem writeBytes_append (s : State) (first second : List UInt8) :
    writeBytes s (first ++ second) = writeBytes (writeBytes s first) second :=
  List.foldl_append

theorem writeByte_eq (s : State) (value : UInt8) :
    writeByte s value = publishIrq (writeData .good { s with selected := true } value) := rfl

theorem readByte_eq (s : State) :
    readByte s = (publishIrq (readData .good s).1, (readData .good s).2) := rfl

theorem readBytes_succ (s : State) (n : Nat) :
    readBytes s (n + 1) = ((readBytes (readByte s).1 n).1,
      (readByte s).2 :: (readBytes (readByte s).1 n).2) := rfl

theorem readBytes_add (s : State) (m n : Nat) :
    readBytes s (m + n) = ((readBytes (readBytes s m).1 n).1,
      (readBytes s m).2 ++ (readBytes (readBytes s m).1 n).2) := by
  induction m generalizing s with
  | zero => simp [readBytes]
  | succ m ih =>
    rw [Nat.succ_add]
    simp only [readBytes, ih, List.cons_append]

section CommandBlock

/-- The first bytes of a command block have been stored. -/
structure Collecting (s : State) (sofar : List UInt8) : Prop where
  phase : s.phase = .command
  offset : s.offset = sofar.length
  length : s.length + sofar.length = 6
  nonempty : 1 ≤ s.length
  command : s.command.read 0 sofar.length = sofar

theorem selectTarget_collecting {s : State} (free : s.phase = .busFree) (first second : UInt8) :
    Collecting (selectTarget s first second) [] ∧
      OnDisc (selectTarget s first second) s.image s.imageBytes s.writable := by
  have asserted : registerWrite .good s 0xfc40 first = publishIrq
      { s with
        selected := true, lastWrite := first, bus := { s.bus with busy := true }, phase := .selection } := by
    change publishIrq (writeData .good { s with selected := true } first) = _
    unfold writeData
    dsimp only
    rw [free]
    rfl
  rw [selectTarget, asserted]
  exact ⟨⟨rfl, rfl, rfl, (by decide : 1 ≤ 6), rfl⟩, ⟨rfl, rfl, rfl⟩⟩

theorem commandByte_stored {s : State} {sofar : List UInt8} (collecting : Collecting s sofar)
    {value : UInt8} (short : sofar = [] → value < 0x20) :
    commandByte .good s value =
      let next := countByte { s with command := s.command.write sofar.length [value] }
      if next.length = 0 then executeCommand .good next else next := by
  have length := collecting.length
  have nonempty := collecting.nonempty
  have room : s.offset < commandSize := by
    rw [collecting.offset]
    simp only [commandSize]
    omega
  have group : ¬(s.offset = 0 ∧ 0x20 ≤ value ∧ value ≤ 0x3f) := by
    rintro ⟨zero, low, _⟩
    have empty : sofar = [] := List.length_eq_zero_iff.mp (collecting.offset.symm.trans zero)
    exact absurd low (UInt8.not_le.mpr (short empty))
  rw [commandByte]
  dsimp only
  rw [if_pos room, if_neg group, collecting.offset]

theorem writeByte_command {s : State} {sofar : List UInt8} (collecting : Collecting s sofar)
    {value : UInt8} (short : sofar = [] → value < 0x20) : ∃ next : State,
      writeByte s value = publishIrq (if next.length = 0 then executeCommand .good next else next) ∧
      next.phase = .command ∧ next.offset = sofar.length + 1 ∧
      next.length + (sofar.length + 1) = 6 ∧
      next.command.read 0 (sofar ++ [value]).length = sofar ++ [value] ∧
      OnDisc next s.image s.imageBytes s.writable := by
  have framed : Collecting { s with selected := true, lastWrite := value } sofar :=
    ⟨collecting.phase, collecting.offset, collecting.length, collecting.nonempty, collecting.command⟩
  have length := collecting.length
  have nonempty := collecting.nonempty
  rw [writeByte_eq, writeData_command .good value (by exact collecting.phase),
    commandByte_stored framed short]
  refine ⟨_, rfl, collecting.phase, ?_, ?_, ?_, ⟨rfl, rfl, rfl⟩⟩
  · change increment s.offset = _
    rw [collecting.offset, increment_of_lt (by omega)]
  · change decrement s.length + _ = 6
    rw [decrement_of_pos nonempty (by omega)]
    omega
  · exact s.command.read_write_snoc sofar value collecting.command

theorem Collecting.next {s : State} {sofar : List UInt8} (collecting : Collecting s sofar)
    {value : UInt8} (short : sofar = [] → value < 0x20) (more : sofar.length < 5) :
    Collecting (writeByte s value) (sofar ++ [value]) ∧
      OnDisc (writeByte s value) s.image s.imageBytes s.writable := by
  obtain ⟨next, wrote, phase, offset, length, command, disc⟩ := writeByte_command collecting short
  rw [wrote, if_neg (by omega)]
  have size : (sofar ++ [value]).length = sofar.length + 1 := by simp
  refine ⟨⟨phase, ?_, ?_, ?_, command⟩, ⟨disc.image, disc.size, disc.writable⟩⟩
  · rw [size]
    exact offset
  · rw [size]
    exact length
  · change 1 ≤ next.length
    omega

/-- A six byte command block is carried out with the bytes that were sent. -/
theorem command_executes {s : State} (free : s.phase = .busFree) (first second : UInt8)
    {opcode b1 b2 b3 b4 b5 : UInt8} (short : opcode < 0x20) : ∃ complete : State,
      writeBytes (selectTarget s first second) [opcode, b1, b2, b3, b4, b5] =
        publishIrq (executeCommand .good complete) ∧
      complete.command.read 0 6 = [opcode, b1, b2, b3, b4, b5] ∧
      OnDisc complete s.image s.imageBytes s.writable := by
  obtain ⟨c0, d0⟩ := selectTarget_collecting free first second
  obtain ⟨c1, d1⟩ := c0.next (fun _ => short) (by decide)
  obtain ⟨c2, d2⟩ := @Collecting.next _ _ c1 b1 (by simp) (by simp)
  obtain ⟨c3, d3⟩ := @Collecting.next _ _ c2 b2 (by simp) (by simp)
  obtain ⟨c4, d4⟩ := @Collecting.next _ _ c3 b3 (by simp) (by simp)
  obtain ⟨c5, d5⟩ := @Collecting.next _ _ c4 b4 (by simp) (by simp)
  obtain ⟨complete, wrote, _, _, length, command, disc⟩ := @writeByte_command _ _ c5 b5 (by simp)
  simp only [List.nil_append, List.cons_append, List.length_cons, List.length_nil] at length command
  rw [if_pos (by omega)] at wrote
  refine ⟨complete, wrote, command, ?_, ?_, ?_⟩
  · rw [disc.image, d5.image, d4.image, d3.image, d2.image, d1.image, d0.image]
  · rw [disc.size, d5.size, d4.size, d3.size, d2.size, d1.size, d0.size]
  · rw [disc.writable, d5.writable, d4.writable, d3.writable, d2.writable, d1.writable, d0.writable]

theorem cdb6_executes {s : State} (free : s.phase = .busFree) (first second : UInt8)
    {opcode : UInt8} (lun control : UInt8) (sector count : Nat) (short : opcode < 0x20) :
    ∃ complete : State,
      writeBytes (selectTarget s first second) (cdb6 opcode lun sector count control) =
        publishIrq (executeCommand .good complete) ∧
      complete.command.read 0 6 = cdb6 opcode lun sector count control ∧
      OnDisc complete s.image s.imageBytes s.writable :=
  command_executes free first second short

end CommandBlock

section Fields

theorem or_shift (high low : Nat) (k : Nat) (small : low < 2 ^ k) :
    high <<< k ||| low = high * 2 ^ k + low := by
  rw [Nat.shiftLeft_eq, Nat.mul_comm, Nat.two_pow_add_eq_or_of_lt small]

/-- The target reads back the sector it was given, whatever LUN bits stand above it. -/
theorem sectorFromCommand_cdb6 {s : State} {opcode lun control : UInt8} {sector count : Nat}
    (stored : s.command.read 0 6 = cdb6 opcode lun sector count control) (small : sector < 2 ^ 21) :
    sectorFromCommand s = sector := by
  simp only [cdb6, Memory.read, List.range_succ, List.range_zero, List.nil_append, List.cons_append,
    List.map_cons, List.map_nil, List.cons.injEq, Nat.zero_add] at stored
  obtain ⟨-, second, third, fourth, -, -, -⟩ := stored
  have high : (s.command 1 &&& 0x1f).toNat = sector / 2 ^ 16 := by
    have masked : (s.command 1 &&& 0x1f).toNat = sector / 2 ^ 16 % 256 % 2 ^ 5 := by
      rw [second, UInt8.toNat_and, UInt8.toNat_or, UInt8.toNat_and, Nat.and_or_distrib_right,
        Nat.and_assoc, ← Nat.and_two_pow_sub_one_eq_mod, ← Nat.shiftRight_eq_div_pow]
      simp
    omega
  have middle : (s.command 2).toNat = sector / 2 ^ 8 % 256 := by
    rw [third, ← Nat.shiftRight_eq_div_pow]
    simp
  have low : (s.command 3).toNat = sector % 256 := by
    rw [fourth]
    simp
  have joined : (sector / 2 ^ 16) <<< 16 ||| (sector / 2 ^ 8 % 256) <<< 8 = (sector / 2 ^ 8) <<< 8 := by
    rw [or_shift _ _ 16 (by rw [Nat.shiftLeft_eq]; omega), Nat.shiftLeft_eq, Nat.shiftLeft_eq]
    omega
  rw [sectorFromCommand, high, middle, low, joined, or_shift _ _ 8 (by omega)]
  omega

theorem blockCount_cdb6 {s : State} {opcode lun control : UInt8} {sector count : Nat}
    (stored : s.command.read 0 6 = cdb6 opcode lun sector count control) (nonempty : 1 ≤ count)
    (most : count ≤ 256) : blockCount s = count := by
  simp only [cdb6, Memory.read, List.range_succ, List.range_zero, List.nil_append, List.cons_append,
    List.map_cons, List.map_nil, List.cons.injEq, Nat.zero_add] at stored
  obtain ⟨-, -, -, -, fifth, -, -⟩ := stored
  have value : (s.command 4).toNat = count % 256 := by
    rw [fifth]
    simp
  rw [blockCount]
  split
  · rename_i given
    have : (s.command 4).toNat ≠ 0 := fun zero => given (UInt8.toNat_inj.mp zero)
    omega
  · rename_i zero
    rw [not_not] at zero
    rw [zero] at value
    have : (0 : UInt8).toNat = 0 := rfl
    omega

end Fields

section Writing

/-- WRITE(6) has taken the bytes `sofar` of the block for `sector`; `blocks` blocks are left,
this one included. -/
structure Receiving (s : State) (sector blocks : Nat) (sofar : List UInt8) : Prop where
  phase : s.phase = .scsiWrite
  opcode : s.command 0 = 0x0a
  count : s.blocks = blocks
  place : s.nextSector = sector
  offset : s.offset = sofar.length
  length : s.length + sofar.length = 256
  nonempty : 1 ≤ s.length
  buffer : s.buffer.read 0 sofar.length = sofar

/-- The command is over with good status. -/
structure Finished (s : State) : Prop where
  phase : s.phase = .status
  status : s.status = 0
  message : s.message = 0

theorem writeByte_data {s : State} {sector blocks : Nat} {sofar : List UInt8}
    (receiving : Receiving s sector blocks sofar) (value : UInt8) : ∃ next : State,
      writeByte s value = publishIrq (if next.length ≠ 0 then next
        else if next.command 0 = 0x0a then
          let (saved, good) := writeSector .good next next.nextSector
          if good then blockDone { saved with nextSector := increment saved.nextSector }
          else failAt saved saved.nextSector
        else blockDone next) ∧
      next.phase = .scsiWrite ∧ next.command 0 = 0x0a ∧ next.blocks = blocks ∧
      next.nextSector = sector ∧ next.offset = sofar.length + 1 ∧
      next.length + (sofar.length + 1) = 256 ∧
      next.buffer.read 0 (sofar ++ [value]).length = sofar ++ [value] ∧
      OnDisc next s.image s.imageBytes s.writable := by
  have length := receiving.length
  have nonempty := receiving.nonempty
  have room : s.offset < bufferSize := by
    rw [receiving.offset]
    simp only [bufferSize]
    omega
  rw [writeByte_eq, writeData_scsiWrite .good value (by exact receiving.phase), dataByte]
  dsimp only
  rw [if_pos room]
  refine ⟨_, rfl, receiving.phase, receiving.opcode, receiving.count, receiving.place, ?_, ?_, ?_,
    ⟨rfl, rfl, rfl⟩⟩
  · change increment s.offset = _
    rw [receiving.offset, increment_of_lt (by omega)]
  · change decrement s.length + _ = 256
    rw [decrement_of_pos nonempty (by omega)]
    omega
  · change (s.buffer.write s.offset [value]).read 0 _ = _
    rw [receiving.offset]
    exact s.buffer.read_write_snoc sofar value receiving.buffer

theorem Receiving.next {s : State} {sector blocks : Nat} {sofar : List UInt8}
    (receiving : Receiving s sector blocks sofar) (value : UInt8) (more : sofar.length < 255) :
    Receiving (writeByte s value) sector blocks (sofar ++ [value]) ∧
      OnDisc (writeByte s value) s.image s.imageBytes s.writable := by
  obtain ⟨next, wrote, phase, opcode, count, place, offset, length, buffer, disc⟩ :=
    writeByte_data receiving value
  have size : (sofar ++ [value]).length = sofar.length + 1 := by simp
  rw [wrote, if_pos (by omega)]
  refine ⟨⟨phase, opcode, count, place, ?_, ?_, ?_, buffer⟩, ⟨disc.image, disc.size, disc.writable⟩⟩
  · rw [size]
    exact offset
  · rw [size]
    exact length
  · change 1 ≤ next.length
    omega

/-- The last byte of a block puts the block on the image. -/
theorem Receiving.last {s : State} {sector blocks : Nat} {sofar : List UInt8}
    (receiving : Receiving s sector blocks sofar) (value : UInt8) (full : sofar.length = 255)
    (writable : s.writable = true) (inside : sector * 256 + 256 ≤ s.imageBytes)
    (near : sector + 1 < 2 ^ 32) (nonempty : 1 ≤ blocks) (few : blocks ≤ 256) :
    OnDisc (writeByte s value) (s.image.write (sector * 256) (sofar ++ [value])) s.imageBytes true ∧
      (blocks = 1 → Finished (writeByte s value)) ∧
      (1 < blocks → Receiving (writeByte s value) (sector + 1) (blocks - 1) []) := by
  obtain ⟨next, wrote, phase, opcode, count, place, offset, length, buffer, disc⟩ :=
    writeByte_data receiving value
  have saved : writeSector .good next next.nextSector =
      ({ next with image := s.image.write (sector * 256) (sofar ++ [value]) }, true) := by
    have size : (sofar ++ [value]).length = bufferSize := by simp [full, bufferSize]
    rw [writeSector, place, disc.size, disc.writable, disc.image]
    dsimp only
    rw [if_neg (by simp [writable, HostFile.good]; omega)]
    have whole : min HostFile.good.count bufferSize = bufferSize := rfl
    rw [whole, ← size, buffer]
    simp [size, HostFile.good]
  rw [if_neg (by omega), if_pos opcode, saved] at wrote
  dsimp only at wrote
  rw [if_pos rfl] at wrote
  have counted : decrement next.blocks = blocks - 1 := by
    rw [count, decrement_of_pos nonempty (by omega)]
  have stepped : increment next.nextSector = sector + 1 := by
    rw [place, increment_of_lt (by omega)]
  by_cases only : blocks = 1
  · rw [blockDone] at wrote
    dsimp only at wrote
    rw [if_pos (by omega)] at wrote
    rw [wrote]
    exact ⟨⟨rfl, disc.size, disc.writable.trans writable⟩, fun _ => ⟨rfl, rfl, rfl⟩, by omega⟩
  · rw [blockDone] at wrote
    dsimp only at wrote
    rw [if_neg (by omega)] at wrote
    rw [wrote]
    exact ⟨⟨rfl, disc.size, disc.writable.trans writable⟩, by omega,
      fun _ => ⟨phase, opcode, counted, stepped, rfl, rfl, (by decide : 1 ≤ 256), rfl⟩⟩

/-- The rest of a block. -/
theorem Receiving.block {s : State} {sector blocks : Nat} {sofar bytes : List UInt8}
    (receiving : Receiving s sector blocks sofar) (nonempty : bytes ≠ [])
    (size : sofar.length + bytes.length = 256) (writable : s.writable = true)
    (inside : sector * 256 + 256 ≤ s.imageBytes) (near : sector + 1 < 2 ^ 32)
    (left : 1 ≤ blocks) (few : blocks ≤ 256) :
    OnDisc (writeBytes s bytes) (s.image.write (sector * 256) (sofar ++ bytes)) s.imageBytes true ∧
      (blocks = 1 → Finished (writeBytes s bytes)) ∧
      (1 < blocks → Receiving (writeBytes s bytes) (sector + 1) (blocks - 1) []) := by
  induction bytes generalizing s sofar with
  | nil => exact absurd rfl nonempty
  | cons value bytes ih =>
    rw [writeBytes_cons]
    simp only [List.length_cons] at size
    by_cases last : bytes = []
    · subst last
      exact receiving.last value (by simpa using size) writable inside near left few
    · have more : sofar.length < 255 := by
        have := List.length_pos_iff.mpr last
        omega
      obtain ⟨next, disc⟩ := receiving.next value more
      have rest := ih next last (by simp only [List.length_append, List.length_singleton]; omega)
        (disc.writable.trans writable) (by rw [disc.size]; exact inside)
      rw [disc.image, disc.size, List.append_assoc, List.singleton_append] at rest
      exact rest

/-- Every block that was asked for. -/
theorem Receiving.all {s : State} {sector blocks : Nat} {data : List UInt8}
    (receiving : Receiving s sector blocks []) (size : data.length = blocks * 256)
    (writable : s.writable = true) (inside : sector * 256 + blocks * 256 ≤ s.imageBytes)
    (near : sector + blocks < 2 ^ 32) (left : 1 ≤ blocks) (few : blocks ≤ 256) :
    Finished (writeBytes s data) ∧
      OnDisc (writeBytes s data) (s.image.write (sector * 256) data) s.imageBytes true := by
  induction blocks generalizing s sector data with
  | zero => omega
  | succ blocks ih =>
    rw [Nat.add_mul, Nat.one_mul] at size inside
    have front : (data.take 256).length = 256 := by
      rw [List.length_take]
      omega
    have nonempty : data.take 256 ≠ [] := List.ne_nil_of_length_pos (by omega)
    have size' : ([] : List UInt8).length + (data.take 256).length = 256 := by
      rw [front, List.length_nil]
    obtain ⟨disc, only, more⟩ := receiving.block nonempty size' writable (by lia) (by omega) left few
    have split : data = data.take 256 ++ data.drop 256 := (List.take_append_drop 256 data).symm
    rw [List.nil_append] at disc
    rw [split, writeBytes_append]
    cases blocks with
    | zero =>
      have nothing : data.drop 256 = [] := List.drop_eq_nil_of_le (by omega)
      rw [nothing, List.append_nil]
      exact ⟨only rfl, disc⟩
    | succ blocks =>
      have size'' : (data.drop 256).length = (blocks + 1) * 256 := by
        rw [List.length_drop, size, Nat.add_sub_cancel]
      have inside' : (sector + 1) * 256 + (blocks + 1) * 256 ≤
          (writeBytes s (data.take 256)).imageBytes := by
        rw [disc.size]
        lia
      have rest := ih (more (by omega)) size'' disc.writable inside' (by omega) (by omega) (by omega)
      have behind : (sector + 1) * 256 = sector * 256 + (data.take 256).length := by
        rw [front, Nat.add_mul, Nat.one_mul]
      rw [disc.image, disc.size, behind, Memory.write_append] at rest
      exact rest

theorem write6_receiving {s : State} {lun control : UInt8} {sector count : Nat}
    (stored : s.command.read 0 6 = cdb6 0x0a lun sector count control) (small : sector < 2 ^ 21)
    (nonempty : 1 ≤ count) (most : count ≤ 256) :
    Receiving (publishIrq (executeCommand .good s)) sector count [] ∧
      OnDisc (publishIrq (executeCommand .good s)) s.image s.imageBytes s.writable := by
  have opcode : s.command 0 = 0x0a := by
    have first := congrArg (fun bytes : List UInt8 => bytes.headD 0) stored
    exact first
  have ran : executeCommand .good s = write6 s sector := by
    rw [executeCommand, sectorFromCommand_cdb6 stored small, opcode]
    rfl
  rw [ran]
  exact ⟨⟨rfl, opcode, blockCount_cdb6 stored nonempty most, rfl, rfl, rfl, (by decide : 1 ≤ 256), rfl⟩,
    ⟨rfl, rfl, rfl⟩⟩

end Writing

section Reading

/-- READ(6) has handed over the first `sent` bytes of the block for `sector`. -/
structure Sending (s : State) (sector blocks sent : Nat) : Prop where
  phase : s.phase = .scsiRead
  count : s.blocks = blocks
  place : s.nextSector = sector + 1
  offset : s.offset = sent
  length : s.length + sent = 256
  nonempty : 1 ≤ s.length
  buffer : s.buffer.read 0 256 = s.image.read (sector * 256) 256

theorem readSector_good {s : State} {sector : Nat} (inside : sector * 256 + 256 ≤ s.imageBytes) :
    ∃ buffer : Memory UInt8, readSector .good s sector = ({ s with buffer }, true) ∧
      buffer.read 0 256 = s.image.read (sector * 256) 256 := by
  have whole : min HostFile.good.count (min bufferSize (s.imageBytes - sector * 256)) = 256 := by
    simp only [HostFile.good, bufferSize]
    omega
  rw [readSector]
  dsimp only
  rw [if_neg (by simp [HostFile.good]; omega), whole]
  exact ⟨_, rfl, Memory.read_write_of_length _ 0 (by simp)⟩

theorem refill_good {s : State} {sector : Nat} (place : s.nextSector = sector)
    (more : decrement s.blocks ≠ 0) (inside : sector * 256 + 256 ≤ s.imageBytes) :
    ∃ buffer : Memory UInt8, refill .good s = setRequest { s with
        blocks := decrement s.blocks, nextSector := increment sector, buffer
        offset := 0, length := 256 } true ∧
      buffer.read 0 256 = s.image.read (sector * 256) 256 := by
  subst place
  obtain ⟨buffer, loaded, holds⟩ := @readSector_good
    { s with blocks := decrement s.blocks, nextSector := increment s.nextSector } s.nextSector inside
  rw [refill]
  dsimp only
  rw [if_neg more, loaded]
  exact ⟨buffer, rfl, holds⟩

/-- The byte handed over, and the state before the end of the block is looked at. -/
theorem readByte_sending {s : State} {sector blocks sent : Nat}
    (sending : Sending s sector blocks sent) :
    readByte s = (publishIrq (if (countByte s).length = 0 then refill .good (countByte s)
      else countByte s), s.image (sector * 256 + sent)) := by
  have length := sending.length
  have nonempty := sending.nonempty
  have value : s.buffer s.offset = s.image (sector * 256 + sent) := by
    have bytes := congrArg (fun bytes : List UInt8 => bytes[sent]?) sending.buffer
    have inside : sent < 256 := by omega
    simpa [Memory.read, inside, sending.offset] using bytes
  rw [readByte_eq, readData_scsiRead .good sending.phase, value]

theorem Sending.next {s : State} {sector blocks sent : Nat} (sending : Sending s sector blocks sent)
    (more : sent < 255) :
    (readByte s).2 = s.image (sector * 256 + sent) ∧
      Sending (readByte s).1 sector blocks (sent + 1) ∧
      OnDisc (readByte s).1 s.image s.imageBytes s.writable := by
  have length := sending.length
  have offset : increment s.offset = sent + 1 := by
    rw [sending.offset, increment_of_lt (by omega)]
  have counted : decrement s.length = s.length - 1 := decrement_of_pos sending.nonempty (by omega)
  rw [readByte_sending sending, if_neg (by change ¬decrement s.length = 0; omega)]
  refine ⟨rfl, ⟨sending.phase, sending.count, sending.place, offset, ?_, ?_, sending.buffer⟩,
    ⟨rfl, rfl, rfl⟩⟩
  · change decrement s.length + _ = 256
    omega
  · change 1 ≤ decrement s.length
    omega

theorem Sending.last {s : State} {sector blocks : Nat} (sending : Sending s sector blocks 255)
    (inside : sector * 256 + blocks * 256 ≤ s.imageBytes) (near : sector + blocks < 2 ^ 32 - 1)
    (nonempty : 1 ≤ blocks) (few : blocks ≤ 256) :
    (readByte s).2 = s.image (sector * 256 + 255) ∧
      OnDisc (readByte s).1 s.image s.imageBytes s.writable ∧
      (blocks = 1 → Finished (readByte s).1) ∧
      (1 < blocks → Sending (readByte s).1 (sector + 1) (blocks - 1) 0) := by
  have length := sending.length
  have counted : decrement s.length = s.length - 1 := decrement_of_pos sending.nonempty (by omega)
  have left : decrement s.blocks = blocks - 1 := by
    rw [sending.count, decrement_of_pos nonempty (by omega)]
  have stepped : increment s.nextSector = sector + 2 := by
    rw [sending.place, increment_of_lt (by omega)]
  rw [readByte_sending sending, if_pos (by change decrement s.length = 0; omega)]
  by_cases only : blocks = 1
  · rw [refill]
    dsimp only
    rw [if_pos (by change decrement s.blocks = 0; omega)]
    exact ⟨rfl, ⟨rfl, rfl, rfl⟩, fun _ => ⟨rfl, rfl, rfl⟩, by omega⟩
  · have next : (sector + 1) * 256 + 256 ≤ s.imageBytes := by lia
    obtain ⟨buffer, filled, holds⟩ := @refill_good (countByte s) (sector + 1) sending.place
      (by change decrement s.blocks ≠ 0; omega) next
    rw [filled]
    refine ⟨rfl, ⟨rfl, rfl, rfl⟩, by omega, fun _ => ?_⟩
    have place : increment (sector + 1) = sector + 1 + 1 := increment_of_lt (by omega)
    exact ⟨sending.phase, left, place, rfl, rfl, (by decide : 1 ≤ 256), holds⟩

/-- The rest of a block. -/
theorem Sending.block {s : State} {sector blocks sent count : Nat}
    (sending : Sending s sector blocks sent) (size : sent + (count + 1) = 256)
    (inside : sector * 256 + blocks * 256 ≤ s.imageBytes) (near : sector + blocks < 2 ^ 32 - 1)
    (nonempty : 1 ≤ blocks) (few : blocks ≤ 256) :
    (readBytes s (count + 1)).2 = s.image.read (sector * 256 + sent) (count + 1) ∧
      OnDisc (readBytes s (count + 1)).1 s.image s.imageBytes s.writable ∧
      (blocks = 1 → Finished (readBytes s (count + 1)).1) ∧
      (1 < blocks → Sending (readBytes s (count + 1)).1 (sector + 1) (blocks - 1) 0) := by
  induction count generalizing s sent with
  | zero =>
    obtain rfl : sent = 255 := by omega
    obtain ⟨value, disc, only, more⟩ := sending.last inside near nonempty few
    exact ⟨congrArg (fun byte => [byte]) value, disc, only, more⟩
  | succ count ih =>
    obtain ⟨value, next, disc⟩ := sending.next (by omega)
    obtain ⟨rest, disc', only, more⟩ := ih next (by omega) (by rw [disc.size]; exact inside)
    rw [disc.image, disc.size, disc.writable] at disc'
    rw [readBytes_succ]
    refine ⟨?_, disc', only, more⟩
    rw [value, rest, disc.image, Memory.read_succ _ _ (count + 1), Nat.add_assoc]

/-- Every block that was asked for. -/
theorem Sending.all {s : State} {sector blocks : Nat} (sending : Sending s sector blocks 0)
    (inside : sector * 256 + blocks * 256 ≤ s.imageBytes) (near : sector + blocks < 2 ^ 32 - 1)
    (nonempty : 1 ≤ blocks) (few : blocks ≤ 256) :
    (readBytes s (blocks * 256)).2 = s.image.read (sector * 256) (blocks * 256) ∧
      Finished (readBytes s (blocks * 256)).1 ∧
      OnDisc (readBytes s (blocks * 256)).1 s.image s.imageBytes s.writable := by
  induction blocks generalizing s sector with
  | zero => omega
  | succ blocks ih =>
    obtain ⟨front, disc, only, more⟩ := @Sending.block s sector _ 0 255 sending rfl inside near nonempty few
    simp only [Nat.reduceAdd, Nat.add_zero] at front disc only more
    cases blocks with
    | zero =>
      rw [Nat.zero_add, Nat.one_mul]
      exact ⟨front, only rfl, disc⟩
    | succ blocks =>
      have inside' : (sector + 1) * 256 + (blocks + 1) * 256 ≤ (readBytes s 256).1.imageBytes := by
        rw [disc.size]
        lia
      obtain ⟨rest, finished, disc'⟩ := ih (more (by omega)) inside' (by omega) (by omega) (by omega)
      rw [disc.image, disc.size, disc.writable] at disc'
      have behind : (sector + 1) * 256 = sector * 256 + 256 := by rw [Nat.add_mul, Nat.one_mul]
      rw [disc.image, behind] at rest
      rw [Nat.add_mul (blocks + 1), Nat.one_mul, Nat.add_comm _ 256, readBytes_add]
      dsimp only
      refine ⟨?_, finished, disc'⟩
      rw [Memory.read_add, rest, front]

theorem read6_sending {s : State} {lun control : UInt8} {sector count : Nat}
    (stored : s.command.read 0 6 = cdb6 0x08 lun sector count control) (small : sector < 2 ^ 21)
    (nonempty : 1 ≤ count) (most : count ≤ 256) (inside : sector * 256 + 256 ≤ s.imageBytes) :
    Sending (publishIrq (executeCommand .good s)) sector count 0 ∧
      OnDisc (publishIrq (executeCommand .good s)) s.image s.imageBytes s.writable := by
  have opcode : s.command 0 = 0x08 := by
    have first := congrArg (fun bytes : List UInt8 => bytes.headD 0) stored
    exact first
  have ran : executeCommand .good s = read6 .good s sector := by
    rw [executeCommand, sectorFromCommand_cdb6 stored small, opcode]
    rfl
  obtain ⟨buffer, loaded, holds⟩ := @readSector_good { s with blocks := blockCount s } sector inside
  rw [ran, read6, loaded]
  exact ⟨⟨rfl, blockCount_cdb6 stored nonempty most, rfl, rfl, rfl, (by decide : 1 ≤ 256), holds⟩,
    ⟨rfl, rfl, rfl⟩⟩

end Reading

/-- Status and message of a finished command, and the bus is free again. -/
theorem Finished.close {s : State} (finished : Finished s) :
    (readBytes s 2).2 = [0, 0] ∧ (readBytes s 2).1.phase = .busFree ∧
      OnDisc (readBytes s 2).1 s.image s.imageBytes s.writable := by
  have first : readData .good s = (setRequest
      (let next := { setRequest s false with phase := ScsiPhase.message }
      { next with bus := { next.bus with messagePhase := true } }) true, s.status) := by
    unfold readData
    rw [finished.phase]
  simp only [readBytes, readByte_eq, first]
  exact ⟨by rw [finished.status]; exact congrArg (fun m => [0, m]) finished.message, rfl, ⟨rfl, rfl, rfl⟩⟩

section RoundTrip

variable {s : State} {sector n : Nat} (free : s.phase = .busFree)
  (nonempty : 1 ≤ n) (most : n ≤ 256) (inside : (sector + n) * 256 ≤ s.imageBytes)
  (addressable : sector + n ≤ 2 ^ 21) (first second lun control : UInt8)

include free nonempty most inside addressable

theorem write_finishes (writable : s.writable = true) {data : List UInt8}
    (size : data.length = n * 256) :
    let wrote := writeBytes (selectTarget s first second) (cdb6 0x0a lun sector n control ++ data)
    Finished wrote ∧ OnDisc wrote (s.image.write (sector * 256) data) s.imageBytes true := by
  obtain ⟨complete, ran, stored, disc⟩ := @cdb6_executes s free first second 0x0a lun control sector n
    (by decide)
  obtain ⟨receiving, disc'⟩ := write6_receiving stored (by omega) nonempty most
  rw [Nat.add_mul] at inside
  have fits : sector * 256 + n * 256 ≤ (publishIrq (executeCommand .good complete)).imageBytes := by
    rw [disc'.size, disc.size]
    exact inside
  have all := receiving.all size (disc'.writable.trans (disc.writable.trans writable)) fits
    (by omega) nonempty most
  rw [disc'.image, disc'.size, disc.image, disc.size, ← ran, ← writeBytes_append] at all
  exact all

theorem read_finishes :
    let asked := writeBytes (selectTarget s first second) (cdb6 0x08 lun sector n control)
    (readBytes asked (n * 256)).2 = s.image.read (sector * 256) (n * 256) ∧
      Finished (readBytes asked (n * 256)).1 ∧
      OnDisc (readBytes asked (n * 256)).1 s.image s.imageBytes s.writable := by
  obtain ⟨complete, ran, stored, disc⟩ := @cdb6_executes s free first second 0x08 lun control sector n
    (by decide)
  rw [Nat.add_mul] at inside
  have front : sector * 256 + 256 ≤ complete.imageBytes := by
    rw [disc.size]
    lia
  obtain ⟨sending, disc'⟩ := read6_sending stored (by omega) nonempty most front
  have fits : sector * 256 + n * 256 ≤ (publishIrq (executeCommand .good complete)).imageBytes := by
    rw [disc'.size, disc.size]
    exact inside
  have all := sending.all fits (by omega) nonempty most
  rw [disc'.image, disc'.size, disc'.writable, disc.image, disc.size, disc.writable, ← ran] at all
  exact all

end RoundTrip

/-- A WRITE(6) and then a READ(6) of the same sectors: both commands end with good status, message
and a free bus, the bytes read are the bytes written, and no other sector has changed. -/
theorem write_read_roundTrip (s : State) (sector n : Nat) (data : List UInt8)
    (first second lun control first' second' lun' control' : UInt8)
    (free : s.phase = .busFree) (writable : s.writable = true) (nonempty : 1 ≤ n) (most : n ≤ 256)
    (inside : (sector + n) * 256 ≤ s.imageBytes) (addressable : sector + n ≤ 2 ^ 21)
    (size : data.length = n * 256) :
    let wrote := writeBytes (selectTarget s first second) (cdb6 0x0a lun sector n control ++ data)
    let ended := readBytes wrote 2
    let asked := writeBytes (selectTarget ended.1 first' second') (cdb6 0x08 lun' sector n control')
    let got := readBytes asked (n * 256)
    let closed := readBytes got.1 2
    (wrote.phase = .status ∧ wrote.status = 0) ∧ (ended.2 = [0, 0] ∧ ended.1.phase = .busFree) ∧
      got.2 = data ∧ (got.1.phase = .status ∧ got.1.status = 0) ∧
      (closed.2 = [0, 0] ∧ closed.1.phase = .busFree) ∧
      ∀ i, i < sector * 256 ∨ (sector + n) * 256 ≤ i →
        ended.1.image i = s.image i ∧ closed.1.image i = s.image i := by
  intro wrote ended asked got closed
  obtain ⟨finished, disc⟩ := write_finishes free nonempty most inside addressable first second lun control
    writable size
  obtain ⟨status, idle, disc'⟩ := finished.close
  have image : ended.1.image = s.image.write (sector * 256) data := disc'.image.trans disc.image
  have inside' : (sector + n) * 256 ≤ ended.1.imageBytes := by
    rw [show ended.1.imageBytes = s.imageBytes from disc'.size.trans disc.size]
    exact inside
  obtain ⟨bytes, finished', disc''⟩ := read_finishes idle nonempty most inside' addressable first' second'
    lun' control'
  obtain ⟨status', idle', final⟩ := finished'.close
  have image' : closed.1.image = s.image.write (sector * 256) data :=
    final.image.trans (disc''.image.trans image)
  have back : got.2 = data := by
    refine bytes.trans ?_
    rw [show (readBytes wrote 2).1.image = _ from image, ← size, Memory.read_write]
  refine ⟨⟨finished.phase, finished.status⟩, ⟨status, idle⟩, back,
    ⟨finished'.phase, finished'.status⟩, ⟨status', idle'⟩, fun i outside => ?_⟩
  have kept : s.image.write (sector * 256) data i = s.image i := by
    apply Memory.write_outside
    rw [size]
    lia
  rw [image, image', kept]
  exact ⟨rfl, rfl⟩

/-- A drive of eight sectors, each filled with its number. -/
def numbered : State := mount (fun i => UInt8.ofNat (i / 256)) 2048 true fun _ => 0

/-- Three sectors in the middle of it. -/
theorem numbered_roundTrip :
    let data : List UInt8 := (List.range 768).map fun i => UInt8.ofNat (i + i / 256)
    let wrote := writeBytes (selectTarget numbered 0 0) (cdb6 0x0a 0 2 3 0 ++ data)
    let asked := writeBytes (selectTarget (readBytes wrote 2).1 0 0) (cdb6 0x08 0 2 3 0)
    wrote.status = 0 ∧ (readBytes asked (3 * 256)).2 = data ∧
      (readBytes wrote 2).1.image 511 = 1 ∧ (readBytes wrote 2).1.image 1280 = 5 := by
  intro data wrote asked
  have size : data.length = 3 * 256 := by
    rw [List.length_map, List.length_range]
  have whole := write_read_roundTrip numbered 2 3 data 0 0 0 0 0 0 0 0 rfl rfl (by decide) (by decide)
    (by decide) (by decide) size
  have kept := whole.2.2.2.2.2
  have one : numbered.image 511 = 1 := by decide
  have five : numbered.image 1280 = 5 := by decide
  have before := (kept 511 (.inl (by decide))).1
  have after := (kept 1280 (.inr (by decide))).1
  refine ⟨whole.1.2, whole.2.2.1, ?_⟩
  dsimp only [wrote]
  exact ⟨before.trans one, after.trans five⟩

end Pi1MHz.BeebScsi
