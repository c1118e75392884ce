import Pi1MHz.Net.Dispatch

/-! Where the commands that move data write: the command block and the range that the command asks
for. A range that does not fit is refused before anything is written, however its fields add up. -/
namespace Pi1MHz.NetDispatch
open Http (Poll recv finishHeader)
open NetFixture (netCmdRecv netCmdUrlRead netCmdCopyPublic)
open Memory (Within Block)

/-- The results of a command that is refused for what it asks. -/
def errors : List UInt8 := [fatResNotReady, fatResParameter, netErrNotOpen, netErrParam]

/-- An error, with JIM as it was. -/
def Refused (jim : Jim) (outcome : Outcome) : Prop := outcome.1 ∈ errors ∧ outcome.2.2 = jim

theorem refused {code : UInt8} (error : code ∈ errors) {backend : Backend} {jim : Jim} :
    Refused jim (code, backend, jim) := ⟨error, rfl⟩

/-- The command block, or the range. -/
def BlockOr (cp start length i : Nat) : Prop := Block cp 224 i ∨ Block start length i

section Widths

/-- The range test of the code, which never adds. -/
theorem outside_iff {size start length : UInt64} :
    (size < start ∨ size - start < length) ↔ size.toNat < start.toNat + length.toNat := by
  rw [UInt64.lt_iff_toNat_lt]
  by_cases before : size.toNat < start.toNat
  · exact iff_of_true (.inl before) (by omega)
  · have difference : (size - start).toNat = size.toNat - start.toNat :=
      UInt64.toNat_sub_of_le _ _ (UInt64.le_iff_toNat_le.mpr (by omega))
    rw [UInt64.lt_iff_toNat_lt, difference]
    omega

theorem sectors_toNat (count : UInt32) : (count.toUInt64 * fatSectorSize).toNat = 512 * count.toNat := by
  have small := count.toNat_lt
  rw [UInt64.toNat_mul, UInt32.toNat_toUInt64]
  simp only [fatSectorSize, UInt64.reduceToNat]
  omega

theorem serviceSize_toNat : serviceSize.toNat = 0x2000000 := by decide

theorem sub_toNat {a b : UInt64} (fits : ¬a < b) : (a - b).toNat = a.toNat - b.toNat :=
  UInt64.toNat_sub_of_le _ _ (UInt64.not_lt.mp fits)

/-- The service memory is the end of JIM. -/
theorem service_toNat {jimSize : UInt64} (large : ¬jimSize < serviceSize) :
    (jimSize - serviceSize).toNat = jimSize.toNat - 0x2000000 ∧
      (jimSize - (jimSize - serviceSize)).toNat = 0x2000000 := by
  have base := sub_toNat large
  rw [UInt64.lt_iff_toNat_lt] at large
  rw [serviceSize_toNat] at base large
  refine ⟨base, ?_⟩
  rw [sub_toNat (by rw [UInt64.lt_iff_toNat_lt]; omega), base]
  omega

end Widths

section Sectors
variable {world : World} {backend : Backend} {command : Command} {jim : Jim} {base : Nat}
  {size : UInt64}

/-- A read of sectors writes into its buffer only. -/
theorem readSectors_within (read : command 0 = fatCmdReadSectors) :
    Within (Block (base + (rd32 command 4).toNat) (512 * (rd32 command 12).toNat)) jim
      (doFatSectors world backend command jim base size).2.2 := by
  simp only [doFatSectors]
  cases backend.sdImage with
  | none => exact .refl _ jim
  | some file =>
    dsimp only
    split
    · exact .refl _ jim
    split
    · exact .refl _ jim
    split
    · exact .refl _ jim
    refine (Memory.within_write jim _ _).mono fun i inside => inside.shorter ?_
    rw [List.length_take, sectors_toNat]
    omega

/-- Sectors that do not fit the service memory or the image are refused. -/
theorem doFatSectors_refused (misfit : ¬((rd32 command 4).toNat + 512 * (rd32 command 12).toNat ≤ size.toNat ∧
      backend.sdImage.isSome = true ∧
      512 * (rd32 command 8).toNat + 512 * (rd32 command 12).toNat ≤ backend.sdImageSize.toNat)) :
    Refused jim (doFatSectors world backend command jim base size) := by
  simp only [doFatSectors]
  cases image : backend.sdImage with
  | none => exact refused (by decide)
  | some file =>
    dsimp only
    split
    case isTrue => exact refused (by decide)
    case isFalse checked =>
      simp only [not_or] at checked
      obtain ⟨-, -, -, inWindow, windowRoom, inImage, imageRoom⟩ := checked
      have window := mt outside_iff.mpr (not_or.mpr ⟨inWindow, windowRoom⟩)
      have disk := mt outside_iff.mpr (not_or.mpr ⟨inImage, imageRoom⟩)
      rw [sectors_toNat, UInt32.toNat_toUInt64] at window
      rw [sectors_toNat, sectors_toNat] at disk
      rw [image] at misfit
      exact absurd ⟨by omega, rfl, by omega⟩ misfit

end Sectors

section Reads
variable {world : World} {h : NetHandle} {command : Command} {size : UInt64}

theorem recv_length {poll : Poll} {limit : Nat} {wire data rest : List UInt8}
    (received : recv poll limit wire = (.bytes data, rest)) : data.length ≤ limit := by
  cases poll with
  | empty => cases received
  | failed => cases received
  | ready more =>
    cases received
    rw [List.length_take]
    omega

theorem readBody_length (poll : Poll) (h : NetHandle) (maximum : UInt32) :
    (readBody poll h maximum).data.length ≤ maximum.toNat := by
  unfold readBody
  split
  · rw [List.length_take]
    omega
  · split
    · exact Nat.zero_le _
    · exact Nat.zero_le _
    next data wire received =>
      split
      · exact Nat.zero_le _
      · exact recv_length received

theorem readFixture_length (h : NetHandle) (maximum : UInt32) :
    (readFixture h maximum).data.length ≤ maximum.toNat := by
  unfold readFixture
  split
  · exact Nat.zero_le _
  · rw [List.length_take]
    omega

/-- A READ stores no more than it was asked for. -/
theorem doRead_length (live : Bool) :
    (doRead world live h command size).data.length ≤ (rd24 command 1).toNat := by
  unfold doRead
  dsimp only
  split
  · exact Nat.zero_le _
  split
  · exact Nat.zero_le _
  split
  · split
    · split
      · exact Nat.zero_le _
      · exact readBody_length _ _ _
    · exact readBody_length _ _ _
  · exact readFixture_length _ _

/-- A block that does not fit the service memory is refused. -/
theorem doRead_refused (live : Bool)
    (misfit : size.toNat < (rd32 command 4).toNat + (rd24 command 1).toNat) :
    ∃ code, codeByte code ∈ errors ∧ doRead world live h command size = ⟨h, code, [], none⟩ := by
  have outside : size ≤ (rd32 command 4).toUInt64 ∨
      size - (rd32 command 4).toUInt64 < (rd24 command 1).toUInt64 := by
    have unfit : size.toNat < (rd32 command 4).toUInt64.toNat + (rd24 command 1).toUInt64.toNat := misfit
    exact (outside_iff.mpr unfit).imp_left UInt64.le_of_lt
  unfold doRead
  dsimp only
  split
  · exact ⟨.notOpen, by decide, rfl⟩
  · exact ⟨.param, by decide, rfl⟩

theorem store_within (m : Moved) (jim : Jim) {cp destination maximum : Nat}
    (short : m.data.length ≤ maximum) :
    Within (BlockOr cp destination maximum) jim (m.store jim cp destination) := by
  have stored : Within (BlockOr cp destination maximum) jim (jim.write destination m.data) :=
    (Memory.within_write jim _ _).mono fun i inside => .inr (inside.shorter short)
  unfold Moved.store
  cases m.length with
  | none => exact stored
  | some length =>
    refine stored.trans ((Memory.within_write _ _ _).mono fun i inside => .inl ?_)
    have lower := inside.1
    have upper : i < cp + 1 + 3 := inside.2
    exact ⟨by omega, by omega⟩

theorem store_nothing (h : NetHandle) (code : Http.Code) (jim : Jim) (cp destination : Nat) :
    Moved.store ⟨h, code, [], none⟩ jim cp destination = jim :=
  funext fun i => Memory.write_outside jim destination [] i (by rw [List.length_nil]; omega)

end Reads

section Copies
variable {backend : Backend} {command : Command} {jim : Jim} {base : Nat} {size : UInt64}

/-- The destination of a copy into the public part of JIM. -/
def publicDestination (command : Command) : UInt64 :=
  (command 2).toUInt64 ||| (command 3).toUInt64 <<< 8

theorem copyPublic_eq :
    copyPublic backend command jim base size =
      if (command 1).toUInt64 = 0 ∨ 240 < (command 1).toUInt64 ∨
          0x10000 < publicDestination command + (command 1).toUInt64 ∨
          size < 0xfff100 + (command 1).toUInt64 then (netErrParam, backend, jim)
      else (ok, backend, jim.write (publicDestination command).toNat
        (jim.read (base + 0xfff100) (command 1).toNat)) := rfl

theorem publicDestination_lt (command : Command) : (publicDestination command).toNat < 0x10000 := by
  have low := (command 2).toNat_lt
  have high := (command 3).toNat_lt
  have shifted : ((command 3).toUInt64 <<< 8).toNat < 2 ^ 16 := by
    rw [UInt64.toNat_shiftLeft, UInt8.toNat_toUInt64, Nat.shiftLeft_eq]
    simp only [UInt64.reduceToNat, Nat.reduceMod, Nat.reducePow]
    omega
  rw [publicDestination, UInt64.toNat_or, UInt8.toNat_toUInt64]
  exact Nat.or_lt_two_pow (n := 16) (by omega) shifted

/-- The end of the destination does not wrap. -/
theorem publicEnd_toNat (command : Command) :
    (publicDestination command + (command 1).toUInt64).toNat =
      (publicDestination command).toNat + (command 1).toNat := by
  have below := publicDestination_lt command
  have count := (command 1).toNat_lt
  rw [UInt64.toNat_add, UInt8.toNat_toUInt64]
  omega

theorem copyPublic_within :
    Within (Block (publicDestination command).toNat (command 1).toNat) jim
      (copyPublic backend command jim base size).2.2 := by
  rw [copyPublic_eq]
  split
  · exact .refl _ jim
  · refine (Memory.within_write jim _ _).mono fun i inside => ?_
    rw [Memory.read_length] at inside
    exact inside

theorem copyPublic_refused
    (misfit : 0x10000 < (publicDestination command).toNat + (command 1).toNat) :
    Refused jim (copyPublic backend command jim base size) := by
  have beyond : 0x10000 < publicDestination command + (command 1).toUInt64 := by
    rw [UInt64.lt_iff_toNat_lt, publicEnd_toNat]
    exact misfit
  rw [copyPublic_eq, if_pos (.inr (.inr (.inl beyond)))]
  exact refused (by decide)

end Copies

section Dispatch
variable (services : Services) (world : World) (selector : UInt8) (commandPointer : UInt32)
  (jimSize : UInt64) (backend : Backend) (jim : Jim)

/-- A command is refused for its pointer, or its block stands at the pointer and the service memory
is the end of JIM. -/
theorem dispatch_cases :
    dispatch services world selector commandPointer jimSize backend jim = (netErrParam, backend, jim) ∨
    ∃ size : UInt64, size.toNat = 0x2000000 ∧ 0x2000000 ≤ jimSize.toNat ∧
      dispatch services world selector commandPointer jimSize backend jim =
        dispatchCommand services world selector commandPointer jimSize backend jim
          (jimSize.toNat - 0x2000000) commandPointer.toNat size := by
  unfold dispatch
  split
  case isTrue => exact .inl rfl
  case isFalse large =>
    obtain ⟨base, window⟩ := service_toNat large
    dsimp only
    split
    case isTrue => exact .inl rfl
    case isFalse placed =>
      rw [not_or] at placed
      have pointer : (jimSize - serviceSize).toNat +
          (commandPointer.toUInt64 - (jimSize - serviceSize)).toNat = commandPointer.toNat := by
        have before := placed.1
        rw [UInt64.lt_iff_toNat_lt, UInt32.toNat_toUInt64] at before
        rw [sub_toNat placed.1, UInt32.toNat_toUInt64]
        omega
      rw [UInt64.lt_iff_toNat_lt, serviceSize_toNat] at large
      refine .inr ⟨_, window, by omega, ?_⟩
      rw [pointer, base]

/-- No command that moves data through a handle is one of the first switches. -/
theorem moving_command {byte : UInt8}
    (moves : byte = netCmdRecv ∨ byte = netCmdUrlRead ∨ byte = netCmdCopyPublic) :
    ¬(byte = fatCmdReadSectors ∨ byte = fatCmdWriteSectors) ∧ byte ≠ elkwifiCmdGuardImage ∧
      byte ≠ elkwifiCmdUefNormalize ∧ byte ∉ elkwifiCommands ∧ ¬(128 ≤ byte ∧ byte ≤ 133) := by
  rcases moves with rfl | rfl | rfl
  all_goals decide

/-- The commands behind the first switches, which need a handle. -/
theorem dispatchCommand_handle {base cp : Nat} {size : UInt64}
    (moves : jim (cp + 0) = netCmdRecv ∨ jim (cp + 0) = netCmdUrlRead ∨
      jim (cp + 0) = netCmdCopyPublic) :
    dispatchCommand services world selector commandPointer jimSize backend jim base cp size =
      if inside : (selector &&& 0x0f).toNat < netMaxHandles then
        if jim (cp + 0) = netCmdRecv ∨ jim (cp + 0) = netCmdUrlRead then
          let moved := doRead world backend.live (backend.handles ⟨(selector &&& 0x0f).toNat, inside⟩)
            (fun i => jim (cp + i)) size
          (codeByte moved.code, { backend with
            handles := Function.update backend.handles ⟨(selector &&& 0x0f).toNat, inside⟩ moved.handle },
            moved.store jim cp (base + (rd32 (fun i => jim (cp + i)) 4).toNat))
        else copyPublic backend (fun i => jim (cp + i)) jim base size
      else (netErrParam, backend, jim) := by
  obtain ⟨fat, guardImage, normalize, elkwifi, ftp⟩ := moving_command moves
  unfold dispatchCommand
  dsimp only
  rw [if_neg fat, if_neg guardImage, if_neg (fun both => normalize both.2), if_neg elkwifi, if_neg ftp]
  split
  case isTrue inside =>
    by_cases read : jim (cp + 0) = netCmdRecv ∨ jim (cp + 0) = netCmdUrlRead
    · rw [if_pos read, if_pos read]
    · have copy : jim (cp + 0) = netCmdCopyPublic := by
        rcases moves with recv | url | copy
        · exact absurd (.inl recv) read
        · exact absurd (.inr url) read
        · exact copy
      rw [if_neg read, if_neg read, if_pos copy]
  case isFalse => rfl

/-- An outcome writes JIM at these places only, and a range that does not fit is refused. -/
def Confined (places : Nat → Prop) (misfit : Prop) (outcome : Outcome) : Prop :=
  Within places jim outcome.2.2 ∧ (misfit → Refused jim outcome)

theorem confined_param (places : Nat → Prop) (misfit : Prop) :
    Confined jim places misfit (netErrParam, backend, jim) :=
  ⟨.refl places jim, fun _ => refused (by decide)⟩

/-- What the command does at its place decides for the dispatcher. -/
theorem dispatch_confined {places : Nat → Prop} {misfit : Prop}
    (command : ∀ size : UInt64, size.toNat = 0x2000000 → Confined jim places misfit
      (dispatchCommand services world selector commandPointer jimSize backend jim
        (jimSize.toNat - 0x2000000) commandPointer.toNat size)) :
    Confined jim places misfit
      (dispatch services world selector commandPointer jimSize backend jim) := by
  rcases dispatch_cases services world selector commandPointer jimSize backend jim with
    pointer | ⟨size, whole, -, placed⟩
  · rw [pointer]
    exact confined_param backend jim places misfit
  · rw [placed]
    exact command size whole

variable (command : Command) (block : command = fun i => jim (commandPointer.toNat + i))
include block

theorem sectors_confined (read : command 0 = fatCmdReadSectors) :
    Confined jim (BlockOr commandPointer.toNat (jimSize.toNat - 0x2000000 + (rd32 command 4).toNat)
        (512 * (rd32 command 12).toNat))
      (¬((rd32 command 4).toNat + 512 * (rd32 command 12).toNat ≤ 0x2000000 ∧
        backend.sdImage.isSome = true ∧
        512 * (rd32 command 8).toNat + 512 * (rd32 command 12).toNat ≤ backend.sdImageSize.toNat))
      (dispatch services world selector commandPointer jimSize backend jim) := by
  apply dispatch_confined
  intro size whole
  subst block
  have sectors : dispatchCommand services world selector commandPointer jimSize backend jim
      (jimSize.toNat - 0x2000000) commandPointer.toNat size =
        doFatSectors world backend (fun i => jim (commandPointer.toNat + i)) jim
          (jimSize.toNat - 0x2000000) size := if_pos (.inl read)
  rw [sectors, ← whole]
  exact ⟨(readSectors_within read).mono fun i inside => .inr inside, doFatSectors_refused⟩

theorem read_confined (read : command 0 = netCmdRecv ∨ command 0 = netCmdUrlRead) :
    Confined jim (BlockOr commandPointer.toNat (jimSize.toNat - 0x2000000 + (rd32 command 4).toNat)
        (rd24 command 1).toNat)
      (0x2000000 < (rd32 command 4).toNat + (rd24 command 1).toNat)
      (dispatch services world selector commandPointer jimSize backend jim) := by
  apply dispatch_confined
  intro size whole
  subst block
  rw [dispatchCommand_handle _ _ _ _ _ _ _ (read.imp_right .inl)]
  split
  case isTrue inside =>
    refine ⟨store_within _ jim (doRead_length _), fun misfit => ?_⟩
    rw [← whole] at misfit
    obtain ⟨code, error, stopped⟩ := @doRead_refused world
      (backend.handles ⟨(selector &&& 0x0f).toNat, inside⟩) _ size backend.live misfit
    rw [stopped]
    dsimp only
    rw [store_nothing]
    exact refused error
  case isFalse => exact confined_param backend jim _ _

theorem copy_confined (copy : command 0 = netCmdCopyPublic) :
    Confined jim (BlockOr commandPointer.toNat (publicDestination command).toNat (command 1).toNat)
      (0x10000 < (publicDestination command).toNat + (command 1).toNat)
      (dispatch services world selector commandPointer jimSize backend jim) := by
  apply dispatch_confined
  intro size _
  subst block
  have other : ¬(jim (commandPointer.toNat + 0) = netCmdRecv ∨
      jim (commandPointer.toNat + 0) = netCmdUrlRead) := by
    rw [show jim (commandPointer.toNat + 0) = netCmdCopyPublic from copy]
    decide
  rw [dispatchCommand_handle _ _ _ _ _ _ _ (.inr (.inr copy))]
  split
  case isTrue => exact ⟨copyPublic_within.mono fun i inside => .inr inside, copyPublic_refused⟩
  case isFalse => exact confined_param backend jim _ _

omit block

/-- The data commands, for every selector, pointer, size of JIM and field of the command: a read of
sectors, a READ of either kind and a copy write inside the command block and the range asked for,
and a range that does not fit is refused. -/
theorem data_commands_confined (services : Services) (world : World) (selector : UInt8)
    (commandPointer : UInt32) (jimSize : UInt64) (backend : Backend) (jim : Jim) :
    let cp := commandPointer.toNat
    let base := jimSize.toNat - serviceSize.toNat
    let command : Command := fun i => jim (cp + i)
    let outcome := dispatch services world selector commandPointer jimSize backend jim
    (command 0 = fatCmdReadSectors →
      Within (BlockOr cp (base + (rd32 command 4).toNat) (512 * (rd32 command 12).toNat)) jim
        outcome.2.2 ∧
      (¬((rd32 command 4).toNat + 512 * (rd32 command 12).toNat ≤ serviceSize.toNat ∧
        backend.sdImage.isSome = true ∧
        512 * (rd32 command 8).toNat + 512 * (rd32 command 12).toNat ≤
          backend.sdImageSize.toNat) → Refused jim outcome)) ∧
    (command 0 = netCmdRecv ∨ command 0 = netCmdUrlRead →
      Within (BlockOr cp (base + (rd32 command 4).toNat) (rd24 command 1).toNat) jim outcome.2.2 ∧
      (serviceSize.toNat < (rd32 command 4).toNat + (rd24 command 1).toNat → Refused jim outcome)) ∧
    (command 0 = netCmdCopyPublic →
      Within (BlockOr cp (publicDestination command).toNat (command 1).toNat) jim outcome.2.2 ∧
      (0x10000 < (publicDestination command).toNat + (command 1).toNat → Refused jim outcome)) := by
  intro cp base command outcome
  rw [serviceSize_toNat]
  exact ⟨sectors_confined services world selector commandPointer jimSize backend jim command rfl,
    read_confined services world selector commandPointer jimSize backend jim command rfl,
    copy_confined services world selector commandPointer jimSize backend jim command rfl⟩

/-- A RECV of 512 bytes to `0xffffff00`, whose end wraps to `0x100`. -/
def wrappingJim : Jim := Memory.write (fun _ => 0) 0x1fff000 [netCmdRecv, 0, 2, 0, 0, 0xff, 0xff, 0xff]

def idleServices : Services :=
  let silent : Service := fun _ _ _ backend jim => (ok, backend, jim)
  ⟨silent, silent, silent, silent, silent⟩

def openBackend : Backend where
  live := true
  sdImage := none
  sdImageSize := 0
  sdImageWritable := false
  handles := fun _ => ⟨⟨true, false, [], 0, false, false, 0, 0⟩, 0, [], 0, [1, 2, 3]⟩

theorem wrapping_read_refused :
    Refused wrappingJim (dispatch idleServices ⟨true, true, 0, .empty, .ready 511⟩ 0xf0 0x1fff000
      0x3000000 openBackend wrappingJim) :=
  ((data_commands_confined idleServices ⟨true, true, 0, .empty, .ready 511⟩ 0xf0 0x1fff000 0x3000000
    openBackend wrappingJim).2.1 (by decide +kernel)).2 (by decide +kernel)

end Dispatch

end Pi1MHz.NetDispatch
