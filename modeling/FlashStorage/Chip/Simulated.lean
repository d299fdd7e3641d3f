import FlashStorage.Chip.Basic
import FlashStorage.Chip.Memory

/-!
# A simulated chip

Flash cells mapped at a base address.  The chip can be absent, in which case it
never comes up, and it can lose power: with a write budget, programming stops
once that many bytes were taken.
-/

namespace FlashStorage

structure SimulatedChip where
  base : UInt64
  memory : Memory
  present : Bool
  /-- How often the chip was brought up. -/
  initCalls : Nat
  /-- The bytes that can still be programmed; unlimited if absent. -/
  budget : Option Nat
deriving DecidableEq

namespace SimulatedChip

/-- An erased chip mapped at a base address. -/
def mappedAt (base : UInt64) (size : Nat) : SimulatedChip :=
  ⟨base, Memory.erased size, true, 0, none⟩

/-- An erased chip mapped at address zero. -/
def ofSize (size : Nat) : SimulatedChip := mappedAt 0 size

/-- A chip that does not answer. -/
def absent : SimulatedChip := { ofSize 0 with present := false }

/-- Stop programming after this many more bytes. -/
def failAfter (chip : SimulatedChip) (bytes : Nat) : SimulatedChip :=
  { chip with budget := some bytes }

/-- The index of the first cell of a range, if all of it lies on the chip. -/
def span? (chip : SimulatedChip) (address : UInt64) (length : Nat) :
    Option Nat :=
  if chip.base.toNat ≤ address.toNat ∧
      address.toNat - chip.base.toNat + length ≤ chip.memory.size then
    some (address.toNat - chip.base.toNat)
  else none

def init (chip : SimulatedChip) : Bool × SimulatedChip :=
  (chip.present, { chip with initCalls := chip.initCalls + 1 })

def read (chip : SimulatedChip) (address : UInt64) (buffer : List UInt8) :
    Reply ChipResult × SimulatedChip :=
  match chip.span? address buffer.length with
  | none => (⟨.error .outOfBounds, buffer⟩, chip)
  | some start =>
      (⟨.ok buffer.length, chip.memory.read start buffer.length⟩, chip)

/-- How many of the offered bytes the budget lets through. -/
def affordable (chip : SimulatedChip) (bytes : Nat) : Nat :=
  match chip.budget with
  | some budget => min budget bytes
  | none => bytes

def write (chip : SimulatedChip) (address : UInt64) (data : List UInt8) :
    ChipResult × SimulatedChip :=
  match chip.span? address data.length with
  | none => (.error .outOfBounds, chip)
  | some start =>
      let count := chip.affordable data.length
      (.ok count,
        { chip with
          memory := chip.memory.program start (data.take count)
          budget := chip.budget.map (fun budget => budget - count) })

def erase (chip : SimulatedChip) (address length : UInt64) :
    ChipResult × SimulatedChip :=
  match chip.span? address length.toNat with
  | none => (.error .outOfBounds, chip)
  | some start =>
      (.ok length.toNat,
        { chip with memory := chip.memory.erase start length.toNat })

instance : Chip SimulatedChip := ⟨init, read, write, erase⟩

end SimulatedChip

end FlashStorage
