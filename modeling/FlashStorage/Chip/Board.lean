import FlashStorage.Chip.Nor
import FlashStorage.Chip.NorMemory
import FlashStorage.Chip.Simulated

/-!
# The chips of a board

A board carries either a simulated chip or a NOR driver in use as a chip.
-/

namespace FlashStorage

inductive BoardChip where
  | simulated (chip : SimulatedChip)
  | nor (chip : NorChip NorMemory)

/-- What a chip tells about itself. -/
inductive ChipInfo where
  | simulated (initCalls size : Nat)
  | nor (eraseSize : UInt32) (capacity : Nat)
deriving DecidableEq, Repr

namespace BoardChip

def memory : BoardChip → Memory
  | .simulated chip => chip.memory
  | .nor chip => chip.driver.memory

def info : BoardChip → ChipInfo
  | .simulated chip => .simulated chip.initCalls chip.memory.size
  | .nor chip => .nor chip.eraseSize chip.capacity

/-- Take a driver out of its chip and put it into a new one. -/
def rewrap : BoardChip → BoardChip
  | .simulated chip => .simulated chip
  | .nor chip => .nor ⟨chip.driver⟩

/-- Whichever chip it is answers. -/
instance : Chip BoardChip where
  init
    | .simulated chip =>
        let (up, chip) := Chip.init chip
        (up, .simulated chip)
    | .nor chip =>
        let (up, chip) := Chip.init chip
        (up, .nor chip)
  read
    | .simulated chip, address, buffer =>
        let (reply, chip) := Chip.read chip address buffer
        (reply, .simulated chip)
    | .nor chip, address, buffer =>
        let (reply, chip) := Chip.read chip address buffer
        (reply, .nor chip)
  write
    | .simulated chip, address, data =>
        let (result, chip) := Chip.write chip address data
        (result, .simulated chip)
    | .nor chip, address, data =>
        let (result, chip) := Chip.write chip address data
        (result, .nor chip)
  erase
    | .simulated chip, address, length =>
        let (result, chip) := Chip.erase chip address length
        (result, .simulated chip)
    | .nor chip, address, length =>
        let (result, chip) := Chip.erase chip address length
        (result, .nor chip)

end BoardChip

end FlashStorage
