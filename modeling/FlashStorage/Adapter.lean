import FlashStorage.Chip.Basic
import FlashStorage.Device
import FlashStorage.Word

/-!
# Adapters

An adapter drives one device through a chip.  It turns offsets inside the device
into absolute addresses, and lets an access through to the chip only if the chip
is up, the access keeps to the device's units and the range lies in the device.
It never erases on its own, never splits an access and never repeats one.
-/

namespace FlashStorage

/-- Whether an access keeps to the units of a device: words for programming,
blocks for erasing, anything for reading. -/
def Device.isAligned (device : Device) : Access → Bool
  | .read _ _ => true
  | .write start data =>
      device.granularity.isAligned start.toNat &&
        device.granularity.isAligned data.length
  | .erase start length =>
      device.isBlockAligned start && device.isBlockAligned length

structure Adapter (χ : Type) where
  device : Device
  chip : χ
  initialized : Bool

namespace Adapter

variable {χ : Type}

/-- A fresh adapter; its chip has yet to be brought up. -/
def mount (device : Device) (chip : χ) : Adapter χ := ⟨device, chip, false⟩

/-- Why an access does not get through, if it does not. -/
def refusal? (adapter : Adapter χ) (access : Access) : Option DeviceError :=
  if !adapter.initialized then some .notPresent
  else if !adapter.device.isAligned access then some .misaligned
  else if !adapter.device.contains access.start access.length then
    some .outOfRange
  else none

/-- Only the count that was asked for is a success. -/
def settle (requested : Nat) : ChipResult → Outcome DeviceError Unit
  | .ok count =>
      if count = requested then .ok () else .error (.incomplete count)
  | .error _ => .error (.incomplete 0)

variable [Chip χ]

/-- Bring the chip up, unless it is up already. -/
def init (adapter : Adapter χ) : Except DeviceError Unit × Adapter χ :=
  if adapter.initialized then (.ok (), adapter)
  else
    match Chip.init adapter.chip with
    | (true, chip) =>
        (.ok (), { adapter with chip := chip, initialized := true })
    | (false, chip) => (.error .notPresent, { adapter with chip := chip })

/-- Carry out an access whose start counts from the device's first byte.  An
empty access that would get through is done without the chip. -/
def perform (adapter : Adapter χ) (access : Access) :
    Reply (Outcome DeviceError Unit) × Adapter χ :=
  match adapter.refusal? access with
  | some error => (⟨.error error, access.buffer⟩, adapter)
  | none =>
      if access.length = 0 then (⟨.ok (), access.buffer⟩, adapter)
      else
        match Word.add? adapter.device.base access.start with
        | none => (⟨.halt .addOverflow, access.buffer⟩, adapter)
        | some address =>
            let (reply, chip) :=
              Chip.perform adapter.chip (access.moveTo address)
            (⟨settle access.length reply.result, reply.buffer⟩,
              { adapter with chip := chip })

end Adapter

end FlashStorage
