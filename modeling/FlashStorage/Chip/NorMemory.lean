import FlashStorage.Chip.Memory
import FlashStorage.Chip.Nor

/-!
# A NOR driver over plain cells

A driver that reads single bytes, programs words of four and erases blocks of
sixteen.  Both ends of a range are tested against the unit before they are
tested against the capacity, and a broken driver refuses everything.
-/

namespace FlashStorage

structure NorMemory where
  memory : Memory
  broken : Bool
deriving DecidableEq

namespace NorMemory

def readUnit : Nat := 1

def writeUnit : Nat := 4

def eraseUnit : Nat := 16

/-- An erased driver of the given capacity. -/
def ofSize (size : Nat) (broken : Bool) : NorMemory :=
  ⟨Memory.erased size, broken⟩

/-- Whether a range may be accessed in a unit. -/
def accept (driver : NorMemory) (unit start stop : Nat) : Except NorError Unit :=
  if driver.broken then .error .other
  else if start % unit ≠ 0 ∨ stop % unit ≠ 0 then .error .notAligned
  else if stop < start ∨ driver.memory.size < stop then .error .outOfBounds
  else .ok ()

def read (driver : NorMemory) (offset : UInt32) (buffer : List UInt8) :
    Reply (Except NorError Unit) × NorMemory :=
  let start := offset.toNat
  match driver.accept readUnit start (start + buffer.length) with
  | .error error => (⟨.error error, buffer⟩, driver)
  | .ok _ => (⟨.ok (), driver.memory.read start buffer.length⟩, driver)

def write (driver : NorMemory) (offset : UInt32) (data : List UInt8) :
    Except NorError Unit × NorMemory :=
  let start := offset.toNat
  match driver.accept writeUnit start (start + data.length) with
  | .error error => (.error error, driver)
  | .ok _ => (.ok (), { driver with memory := driver.memory.program start data })

def erase (driver : NorMemory) (start stop : UInt32) :
    Except NorError Unit × NorMemory :=
  match driver.accept eraseUnit start.toNat stop.toNat with
  | .error error => (.error error, driver)
  | .ok _ =>
      (.ok (),
        { driver with
          memory := driver.memory.erase start.toNat (stop.toNat - start.toNat) })

instance : NorDriver NorMemory where
  eraseSize _ := UInt32.ofNat eraseUnit
  capacity driver := driver.memory.size
  read := read
  write := write
  erase := erase

end NorMemory

end FlashStorage
