import FlashStorage.Chip.Basic

/-!
# Chips over NOR drivers

Hardware drivers for NOR flash use 32-bit addresses and name errors by kind.
Such a driver becomes a chip by narrowing: an address or an end of a range that
needs more than 32 bits is refused before the driver sees it.  A driver reports
no counts, so what it accepts counts in full.
-/

namespace FlashStorage

inductive NorError where
  | notAligned
  | outOfBounds
  | other
deriving DecidableEq, Repr

def NorError.toFault : NorError → ChipFault
  | .notAligned => .notAligned
  | .outOfBounds => .outOfBounds
  | .other => .generic

class NorDriver (δ : Type) where
  /-- Bytes that the driver erases together. -/
  eraseSize : δ → UInt32
  capacity : δ → Nat
  read : δ → (offset : UInt32) → (buffer : List UInt8) →
    Reply (Except NorError Unit) × δ
  write : δ → (offset : UInt32) → (data : List UInt8) → Except NorError Unit × δ
  /-- Erase from one offset up to another. -/
  erase : δ → (start stop : UInt32) → Except NorError Unit × δ

/-- A driver in use as a chip. -/
structure NorChip (δ : Type) where
  driver : δ
deriving DecidableEq

namespace NorChip

variable {δ : Type}

/-- An address as the driver counts it. -/
def narrow? (address : Nat) : Option UInt32 :=
  if address < UInt32.size then some (UInt32.ofNat address) else none

theorem narrow?_eq_some_iff {address : Nat} {offset : UInt32} :
    narrow? address = some offset ↔ offset.toNat = address := by
  have hword := offset.toNat_lt_size
  unfold narrow?
  split
  next hsmall =>
    rw [Option.some.injEq, ← UInt32.toNat_inj, UInt32.toNat_ofNat_of_lt' hsmall]
    exact eq_comm
  next hlarge =>
    simp only [reduceCtorEq, false_iff]
    omega

theorem narrow?_eq_none_iff {address : Nat} :
    narrow? address = none ↔ UInt32.size ≤ address := by
  unfold narrow?
  split <;> simp <;> omega

/-- What the driver accepted counts in full. -/
def inFull (count : Nat) : Except NorError Unit → ChipResult
  | .ok _ => .ok count
  | .error error => .error error.toFault

variable [NorDriver δ]

def eraseSize (chip : NorChip δ) : UInt32 := NorDriver.eraseSize chip.driver

def capacity (chip : NorChip δ) : Nat := NorDriver.capacity chip.driver

def read (chip : NorChip δ) (address : UInt64) (buffer : List UInt8) :
    Reply ChipResult × NorChip δ :=
  match narrow? address.toNat with
  | none => (⟨.error .outOfBounds, buffer⟩, chip)
  | some offset =>
      let (reply, driver) := NorDriver.read chip.driver offset buffer
      (⟨inFull buffer.length reply.result, reply.buffer⟩, ⟨driver⟩)

def write (chip : NorChip δ) (address : UInt64) (data : List UInt8) :
    ChipResult × NorChip δ :=
  match narrow? address.toNat with
  | none => (.error .outOfBounds, chip)
  | some offset =>
      let (result, driver) := NorDriver.write chip.driver offset data
      (inFull data.length result, ⟨driver⟩)

def erase (chip : NorChip δ) (address length : UInt64) :
    ChipResult × NorChip δ :=
  match narrow? address.toNat, narrow? (address.toNat + length.toNat) with
  | some start, some stop =>
      let (result, driver) := NorDriver.erase chip.driver start stop
      (inFull length.toNat result, ⟨driver⟩)
  | _, _ => (.error .outOfBounds, chip)

/-- A driver is ready from the start. -/
instance : Chip (NorChip δ) := ⟨fun chip => (true, chip), read, write, erase⟩

theorem perform_read (chip : NorChip δ) (address : UInt64)
    (buffer : List UInt8) :
    Chip.perform chip (.read address buffer) = chip.read address buffer := rfl

theorem perform_write (chip : NorChip δ) (address : UInt64)
    (data : List UInt8) :
    Chip.perform chip (.write address data) =
      (⟨(chip.write address data).1, []⟩, (chip.write address data).2) := rfl

theorem perform_erase (chip : NorChip δ) (address length : UInt64) :
    Chip.perform chip (.erase address length) =
      (⟨(chip.erase address length).1, []⟩, (chip.erase address length).2) :=
  rfl

end NorChip

end FlashStorage
