import FlashStorage.Granularity
import FlashStorage.Name
import FlashStorage.Word

/-!
# Devices

A device is one chip, or one stretch of mapped flash, as a board describes it:
where it lies in the address space, how long it is, which blocks are erased
together and in which units it is programmed.  Ranges are tested in exact
arithmetic, so no range that leaves the 64-bit space is ever inside a device.
-/

namespace FlashStorage

inductive DeviceError where
  /-- The chip does not answer, or was never initialized. -/
  | notPresent
  | outOfRange
  | misaligned
  /-- The chip stopped early and counted this many bytes. -/
  | incomplete (completed : Nat)
deriving DecidableEq, Repr

def DeviceError.message : DeviceError → String
  | .notPresent => "flash device not present"
  | .outOfRange => "request out of device range"
  | .misaligned => "request misaligned"
  | .incomplete completed => s!"operation incomplete after {completed} bytes"

structure Device where
  name : Name
  /-- Absolute address of the first byte. -/
  base : UInt64
  length : UInt64
  /-- Bytes that are erased together. -/
  block : UInt32
  granularity : Granularity
deriving DecidableEq, Repr

namespace Device

/-- Describe a device; a long name is cut. -/
def describe (name : String) (base length : UInt64) (block : UInt32)
    (granularity : Granularity) : Device :=
  ⟨Name.truncate name, base, length, block, granularity⟩

/-- Describe a device whose granularity is given in bits. -/
def ofBits (name : String) (base length : UInt64) (block : UInt32)
    (bits : UInt8) : Except ConfigError Device := do
  let granularity ← Granularity.ofBits bits
  .ok (describe name base length block granularity)

/-- The address behind the last byte, at most the largest word. -/
def limit (device : Device) : UInt64 :=
  Word.saturatingAdd device.base device.length

/-- Whether a range lies in the device; its offset counts from the first byte. -/
def contains (device : Device) (offset : UInt64) (length : Nat) : Bool :=
  offset.toNat + length ≤ device.length.toNat

/-- Whether a range of absolute addresses lies in the device. -/
def containsAddress (device : Device) (address : UInt64) (length : Nat) : Bool :=
  device.base ≤ address && device.contains (address - device.base) length

/-- Whether an offset or a length consists of whole erase blocks. -/
def isBlockAligned (device : Device) (value : UInt64) : Bool :=
  device.block.toNat != 0 && value.toNat % device.block.toNat == 0

@[simp] theorem contains_iff (device : Device) (offset : UInt64) (length : Nat) :
    device.contains offset length = true ↔
      offset.toNat + length ≤ device.length.toNat := by
  simp [contains]

theorem containsAddress_iff (device : Device) (address : UInt64)
    (length : Nat) :
    device.containsAddress address length = true ↔
      device.base.toNat ≤ address.toNat ∧
        address.toNat + length ≤ device.base.toNat + device.length.toNat := by
  simp only [containsAddress, Bool.and_eq_true, decide_eq_true_eq, contains_iff,
    UInt64.le_iff_toNat_le]
  constructor
  · rintro ⟨hbase, hrange⟩
    have := UInt64.toNat_sub_of_le address device.base
      (UInt64.le_iff_toNat_le.mpr hbase)
    omega
  · rintro ⟨hbase, hrange⟩
    have := UInt64.toNat_sub_of_le address device.base
      (UInt64.le_iff_toNat_le.mpr hbase)
    omega

theorem isBlockAligned_iff (device : Device) (value : UInt64) :
    device.isBlockAligned value = true ↔
      0 < device.block.toNat ∧ device.block.toNat ∣ value.toNat := by
  simp [isBlockAligned, Nat.dvd_iff_mod_eq_zero, Nat.pos_iff_ne_zero]

end Device

end FlashStorage
