import Mathlib.Logic.Function.Basic
import Pi1MHz.Foundation.RingBuffer

/-! The Tube ULA of the AP5 (`ap5_tube.c`). The parasite processor is whoever makes the parasite
accesses: its own reset and clock are not part of the ULA. -/
namespace Pi1MHz.Ap5Tube

def flowSpace : UInt8 := 0x40
def flowData : UInt8 := 0x80
def flowBoth : UInt8 := 0xc0
def ctrlI : UInt8 := 0x02
def ctrlJ : UInt8 := 0x04
def ctrlM : UInt8 := 0x08
def ctrlV : UInt8 := 0x10
def ctrlP : UInt8 := 0x20
def ctrlT : UInt8 := 0x40
def ctrlS : UInt8 := 0x80
def r1FifoSize : Nat := 24
def parasiteRomSize : Nat := 0x800

/-- One of the mask's bits is set. -/
def flagged (status mask : UInt8) : Bool := status &&& mask != 0

structure TubeUla where
  parasiteToHostR1 : Memory UInt8
  p2hR1Head : Nat
  p2hR1Tail : Nat
  p2hR1Count : Nat
  parasiteToHost : Memory UInt8
  hostToParasite : Memory UInt8
  p2hR3 : Memory UInt8
  h2pR3 : Memory UInt8
  p2hR3Count : Nat
  h2pR3Count : Nat
  hostStatus : Memory UInt8
  parasiteStatus : Memory UInt8
  control : UInt8
  lastHostWrite : UInt8
  lastParasiteWrite : UInt8

/-- The ULA with what surrounds it: the parasite's memory map and the lines to its processor. -/
structure Tube where
  ula : TubeUla
  enabled : Bool
  selected : Bool
  parasiteRam : Memory UInt8
  parasiteRom : Memory UInt8
  parasiteRomMapped : Bool
  parasiteIrq : Bool
  parasiteNmi : Bool
  nmiAsserted : Bool

def updateSignals (t : Tube) : Tube :=
  let irq := (flagged t.ula.control ctrlI && flagged (t.ula.parasiteStatus 0) flowData) ||
    (flagged t.ula.control ctrlJ && flagged (t.ula.parasiteStatus 3) flowData)
  let nmi := flagged t.ula.control ctrlM && flagged (t.ula.parasiteStatus 2) flowData
  { t with
    parasiteIrq := irq
    parasiteNmi := t.parasiteNmi || (nmi && !t.nmiAsserted)
    nmiAsserted := nmi }

/-- A four byte status block. -/
def statusBlock (r1 r2 r3 r4 : UInt8) : Memory UInt8
  | 0 => r1
  | 1 => r2
  | 2 => r3
  | 3 => r4
  | _ => 0

def resetUla : TubeUla where
  parasiteToHostR1 := fun _ => 0
  p2hR1Head := 0
  p2hR1Tail := 0
  p2hR1Count := 0
  parasiteToHost := fun _ => 0
  hostToParasite := fun _ => 0
  p2hR3 := fun _ => 0
  h2pR3 := fun _ => 0
  p2hR3Count := 0
  h2pR3Count := 0
  hostStatus := statusBlock flowSpace flowSpace flowBoth flowSpace
  parasiteStatus := statusBlock flowSpace 0x7f 0x3f 0x7f
  control := 0
  lastHostWrite := 0
  lastParasiteWrite := 0

def resetUlaChannels (t : Tube) : Tube :=
  updateSignals { t with ula := resetUla, nmiAsserted := false }

/-- What `vrEmu6502Reset` does to the processor's pins. -/
def releasePins (t : Tube) : Tube := { t with parasiteIrq := false, parasiteNmi := false }

/-- `ap5_tube_reset`, but for the processor's registers and its clock. -/
def tubeReset (t : Tube) : Tube :=
  if t.enabled then
    updateSignals (releasePins { resetUlaChannels t with parasiteRomMapped := true })
  else t

/-- `status[i] |= mask`. -/
def setFlags (status : Memory UInt8) (i : Nat) (mask : UInt8) : Memory UInt8 :=
  Function.update status i (status i ||| mask)

/-- `status[i] &= ~mask`. -/
def clearFlags (status : Memory UInt8) (i : Nat) (mask : UInt8) : Memory UInt8 :=
  Function.update status i (status i &&& ~~~mask)

/-- The parasite takes the byte that the host left in latch `i`. -/
def parasiteTakes (u : TubeUla) (i : Nat) : TubeUla × UInt8 :=
  ({ u with
      parasiteStatus := clearFlags u.parasiteStatus i flowData
      hostStatus := setFlags u.hostStatus i flowSpace }, u.hostToParasite i)

/-- The host takes the byte that the parasite left in latch `i`. -/
def hostTakes (u : TubeUla) (i : Nat) : TubeUla × UInt8 :=
  ({ u with
      hostStatus := clearFlags u.hostStatus i flowData
      parasiteStatus := setFlags u.parasiteStatus i flowSpace }, u.parasiteToHost i)

def parasitePuts (u : TubeUla) (i : Nat) (value : UInt8) : TubeUla :=
  { u with
    parasiteToHost := Function.update u.parasiteToHost i value
    hostStatus := setFlags u.hostStatus i flowData
    parasiteStatus := clearFlags u.parasiteStatus i flowSpace }

def hostPuts (u : TubeUla) (i : Nat) (value : UInt8) : TubeUla :=
  { u with
    hostToParasite := Function.update u.hostToParasite i value
    parasiteStatus := setFlags u.parasiteStatus i flowData
    hostStatus := clearFlags u.hostStatus i flowSpace }

/-- How many bytes make an R3 transfer: the V bit asks for two. -/
def r3Threshold (u : TubeUla) : Nat := if flagged u.control ctrlV then 2 else 1

def parasiteTakesR3 (u : TubeUla) : TubeUla × UInt8 :=
  if u.h2pR3Count ≠ 0 then
    let taken := { u with
      h2pR3 := Function.update u.h2pR3 0 (u.h2pR3 1), h2pR3Count := u.h2pR3Count - 1 }
    (if taken.h2pR3Count = 0 then { taken with
        parasiteStatus := clearFlags taken.parasiteStatus 2 flowData
        hostStatus := setFlags taken.hostStatus 2 flowBoth }
      else taken, u.h2pR3 0)
  else (u, u.lastHostWrite)

def hostTakesR3 (u : TubeUla) : TubeUla × UInt8 :=
  if u.p2hR3Count ≠ 0 then
    let taken := { u with
      p2hR3 := Function.update u.p2hR3 0 (u.p2hR3 1), p2hR3Count := u.p2hR3Count - 1 }
    (if taken.p2hR3Count = 0 then { taken with
        hostStatus := clearFlags taken.hostStatus 2 flowData
        parasiteStatus := setFlags taken.parasiteStatus 2 flowBoth }
      else taken, u.p2hR3 0)
  else (u, u.lastParasiteWrite)

def parasitePutsR3 (u : TubeUla) (value : UInt8) : TubeUla :=
  if u.p2hR3Count < 2 then
    let stored := { u with
      p2hR3 := u.p2hR3.write u.p2hR3Count [value], p2hR3Count := u.p2hR3Count + 1 }
    if r3Threshold u ≤ stored.p2hR3Count then { stored with
      hostStatus := setFlags stored.hostStatus 2 flowData
      parasiteStatus := clearFlags stored.parasiteStatus 2 flowBoth }
    else stored
  else u

def hostPutsR3 (u : TubeUla) (value : UInt8) : TubeUla :=
  if u.h2pR3Count < 2 then
    let stored := { u with
      h2pR3 := u.h2pR3.write u.h2pR3Count [value], h2pR3Count := u.h2pR3Count + 1 }
    if r3Threshold u ≤ stored.h2pR3Count then { stored with
      parasiteStatus := setFlags stored.parasiteStatus 2 flowData
      hostStatus := clearFlags stored.hostStatus 2 flowSpace }
    else stored
  else u

def hostTakesR1 (u : TubeUla) : TubeUla × UInt8 :=
  if u.p2hR1Count ≠ 0 then
    let taken := { u with
      p2hR1Head := (u.p2hR1Head + 1) % r1FifoSize, p2hR1Count := u.p2hR1Count - 1 }
    let flowed := if taken.p2hR1Count = 0 then
      { taken with hostStatus := clearFlags taken.hostStatus 0 flowData } else taken
    ({ flowed with parasiteStatus := setFlags flowed.parasiteStatus 0 flowSpace },
      u.parasiteToHostR1 u.p2hR1Head)
  else (u, u.lastParasiteWrite)

def parasitePutsR1 (u : TubeUla) (value : UInt8) : TubeUla :=
  if u.p2hR1Count < r1FifoSize then
    let stored := { u with
      parasiteToHostR1 := u.parasiteToHostR1.write u.p2hR1Tail [value]
      p2hR1Tail := (u.p2hR1Tail + 1) % r1FifoSize
      p2hR1Count := u.p2hR1Count + 1
      hostStatus := setFlags u.hostStatus 0 flowData }
    if stored.p2hR1Count = r1FifoSize then
      { stored with parasiteStatus := clearFlags stored.parasiteStatus 0 flowSpace }
    else stored
  else u

/-- The ULA registers as the parasite reads them. -/
def parasiteReadRegister (u : TubeUla) : Nat → TubeUla × UInt8
  | 0 => (u, u.parasiteStatus 0 ||| u.control)
  | 1 => parasiteTakes u 0
  | 2 => (u, u.parasiteStatus 1)
  | 3 => parasiteTakes u 1
  | 4 => (u, u.parasiteStatus 2)
  | 5 => parasiteTakesR3 u
  | 6 => (u, u.parasiteStatus 3)
  | _ => parasiteTakes u 3

def parasiteWriteRegister (u : TubeUla) (register : Nat) (value : UInt8) : TubeUla :=
  let u := { u with lastParasiteWrite := value }
  match register with
  | 1 => parasitePutsR1 u value
  | 3 => parasitePuts u 1 value
  | 5 => parasitePutsR3 u value
  | 7 => parasitePuts u 3 value
  | _ => u

def hostReadRegister (u : TubeUla) : Nat → TubeUla × UInt8
  | 0 => (u, u.hostStatus 0 ||| u.control)
  | 1 => hostTakesR1 u
  | 2 => (u, u.hostStatus 1)
  | 3 => hostTakes u 1
  | 4 => (u, u.hostStatus 2)
  | 5 => hostTakesR3 u
  | 6 => (u, u.hostStatus 3)
  | _ => hostTakes u 3

/-- The control write asks for a reset of the channels. -/
def resets (u : TubeUla) (value : UInt8) : Bool :=
  flagged value ctrlS && flagged value ctrlT && !flagged u.control ctrlT

/-- The control write resets the processor: neither S nor P is set, and P was before. -/
def restarts (u : TubeUla) (value : UInt8) : Bool :=
  !flagged value ctrlS && !flagged value ctrlP && flagged u.control ctrlP

/-- Register 0 written by the host: the S bit says whether the other bits are set or cleared. -/
def hostControl (t : Tube) (value : UInt8) : Tube :=
  let previous := t.ula.control
  let written :=
    if flagged value ctrlS then
      let kept := if resets t.ula value then
        let fresh := resetUlaChannels t
        { fresh with ula := { fresh.ula with control := previous } }
      else t
      { kept with ula := { kept.ula with control := kept.ula.control ||| (value &&& 0x3f) } }
    else
      let cleared := { t with ula := { t.ula with control := t.ula.control &&& ~~~(value &&& 0x3f) } }
      if !flagged value ctrlP && flagged previous ctrlP then
        releasePins { cleared with parasiteRomMapped := true }
      else cleared
  { written with ula := { written.ula with
    hostStatus := Function.update written.ula.hostStatus 0 (written.ula.hostStatus 0 &&& flowBoth) } }

def hostWriteRegister (u : TubeUla) (register : Nat) (value : UInt8) : TubeUla :=
  match register with
  | 1 => hostPuts u 0 value
  | 3 => hostPuts u 1 value
  | 5 => hostPutsR3 u value
  | 7 => hostPuts u 3 value
  | _ => u

def isUlaAddress (address : UInt16) : Bool := address &&& 0xfff8 == 0xfef8

def parasiteRead (t : Tube) (address : UInt16) : Tube × UInt8 :=
  if isUlaAddress address then
    let register := (address &&& 7).toNat
    let (ula, value) := parasiteReadRegister t.ula register
    (updateSignals { t with
      ula, parasiteRomMapped := if register = 0 then false else t.parasiteRomMapped }, value)
  else if t.parasiteRomMapped ∧ 0xf000 ≤ address then
    (t, t.parasiteRom (address.toNat % parasiteRomSize))
  else (t, t.parasiteRam address.toNat)

def parasiteWrite (t : Tube) (address : UInt16) (value : UInt8) : Tube :=
  if isUlaAddress address then
    updateSignals { t with ula := parasiteWriteRegister t.ula (address &&& 7).toNat value }
  else { t with parasiteRam := Function.update t.parasiteRam address.toNat value }

/-- `ap5_tube_host_read`. -/
def hostRead (t : Tube) (address : UInt16) : Tube × UInt8 :=
  if t.selected then
    let (ula, value) := hostReadRegister t.ula (address &&& 7).toNat
    (updateSignals { t with ula }, value)
  else (t, 0xfe)

/-- `ap5_tube_host_write`; register 6 selects the coprocessor. -/
def hostWrite (t : Tube) (address : UInt16) (value : UInt8) : Tube :=
  let register := (address &&& 7).toNat
  if register = 6 then
    let chosen := { t with selected := value == 0 || value == 1 }
    if chosen.selected then tubeReset chosen else resetUlaChannels chosen
  else if t.selected then
    let noted := { t with ula := { t.ula with lastHostWrite := value } }
    updateSignals (if register = 0 then hostControl noted value
      else { noted with ula := hostWriteRegister noted.ula register value })
  else t

section Accesses

variable (t : Tube) (address : UInt16)

theorem hostRead_ula (selected : t.selected = true) :
    (hostRead t address).1.ula = (hostReadRegister t.ula (address &&& 7).toNat).1 ∧
      (hostRead t address).2 = (hostReadRegister t.ula (address &&& 7).toNat).2 := by
  rw [hostRead, if_pos selected]
  exact ⟨rfl, rfl⟩

theorem hostRead_unselected (unselected : ¬t.selected = true) : (hostRead t address).1 = t := by
  rw [hostRead, if_neg unselected]

theorem hostWrite_control (value : UInt8) (selected : t.selected = true)
    (control : (address &&& 7).toNat = 0) :
    (hostWrite t address value).ula =
      (hostControl { t with ula := { t.ula with lastHostWrite := value } } value).ula := by
  rw [hostWrite]
  dsimp only
  rw [if_neg (by omega), if_pos selected, if_pos control]
  rfl

theorem hostWrite_register (value : UInt8) (selected : t.selected = true)
    (select : (address &&& 7).toNat ≠ 6) (control : (address &&& 7).toNat ≠ 0) :
    (hostWrite t address value).ula =
      hostWriteRegister { t.ula with lastHostWrite := value } (address &&& 7).toNat value := by
  rw [hostWrite]
  dsimp only
  rw [if_neg select, if_pos selected, if_neg control]
  rfl

theorem hostWrite_unselected (value : UInt8) (unselected : ¬t.selected = true)
    (select : (address &&& 7).toNat ≠ 6) : hostWrite t address value = t := by
  rw [hostWrite]
  dsimp only
  rw [if_neg select, if_neg unselected]

theorem parasiteRead_ula (mapped : isUlaAddress address = true) :
    (parasiteRead t address).1.ula = (parasiteReadRegister t.ula (address &&& 7).toNat).1 ∧
      (parasiteRead t address).2 = (parasiteReadRegister t.ula (address &&& 7).toNat).2 := by
  rw [parasiteRead, if_pos mapped]
  exact ⟨rfl, rfl⟩

theorem parasiteRead_memory (unmapped : ¬isUlaAddress address = true) :
    (parasiteRead t address).1 = t := by
  rw [parasiteRead, if_neg unmapped]
  split <;> rfl

theorem parasiteWrite_ula (value : UInt8) (mapped : isUlaAddress address = true) :
    (parasiteWrite t address value).ula =
      parasiteWriteRegister t.ula (address &&& 7).toNat value := by
  rw [parasiteWrite, if_pos mapped]
  rfl

theorem parasiteWrite_memory (value : UInt8) (unmapped : ¬isUlaAddress address = true) :
    (parasiteWrite t address value).ula = t.ula := by
  rw [parasiteWrite, if_neg unmapped]

end Accesses

end Pi1MHz.Ap5Tube
