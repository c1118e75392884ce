import Pi1MHz.Tube.Channels
import Pi1MHz.Tube.Cpu

/-! The processor wired to the Tube: its memory map is the parasite's, its pins are the ULA's. -/
namespace Pi1MHz.VrEmu6502
open Ap5Tube

/-- The board that `ap5_tube_init` makes of the Tube for the processor. -/
def tubeBoard : Board Tube where
  read := parasiteRead
  write := parasiteWrite
  intPin := Tube.parasiteIrq
  nmiPin := Tube.parasiteNmi
  clearNmi := fun t => { t with parasiteNmi := false }
  clearPins := releasePins

/-- A processor before its first reset. -/
def poweredOn : Cpu := ⟨0, 0, false, false, 0, 0, 0, 0, 0xff, 0⟩

/-- A Tube whose parasite runs from its RAM. -/
def inMemory : Tube := { bare with parasiteRomMapped := false }

end Pi1MHz.VrEmu6502
