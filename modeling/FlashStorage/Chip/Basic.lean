import FlashStorage.Access
import FlashStorage.Reply

/-!
# Chips

A chip is whatever can be brought up, read, programmed and erased at absolute
addresses.  It answers an access with the count of bytes it got through, or with
a fault.  Nothing ties the count to the range asked for: a smaller one means that
the chip stopped early, and no other one is trusted either.
-/

namespace FlashStorage

/-- The negative status code of a failed access. -/
structure ChipFault where
  code : Int32
deriving DecidableEq, Repr

namespace ChipFault

def generic : ChipFault := ⟨-1⟩

def notAligned : ChipFault := ⟨-2⟩

def outOfBounds : ChipFault := ⟨-3⟩

def message (fault : ChipFault) : String :=
  s!"chip fault {fault.code.toInt}"

end ChipFault

/-- The count of bytes done, or a fault. -/
abbrev ChipResult := Except ChipFault Nat

class Chip (χ : Type) where
  /-- Bring the chip up; false if it does not answer. -/
  init : χ → Bool × χ
  read : χ → (address : UInt64) → (buffer : List UInt8) → Reply ChipResult × χ
  write : χ → (address : UInt64) → (data : List UInt8) → ChipResult × χ
  erase : χ → (address length : UInt64) → ChipResult × χ

variable {χ : Type}

/-- Answer any access whose start is an absolute address. -/
def Chip.perform [Chip χ] (chip : χ) : Access → Reply ChipResult × χ
  | .read address buffer => Chip.read chip address buffer
  | .write address data =>
      let (result, chip) := Chip.write chip address data
      (⟨result, []⟩, chip)
  | .erase address length =>
      let (result, chip) := Chip.erase chip address length
      (⟨result, []⟩, chip)

end FlashStorage
