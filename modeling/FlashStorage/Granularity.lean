import FlashStorage.Config.Error

/-!
# Write granularity

Flash is programmed in units of one bit, a byte, a word or a double word.  A
unit of at most a byte leaves offsets and lengths free; a larger one asks both
to be multiples of it.
-/

namespace FlashStorage

inductive Granularity where
  | bits1
  | bits8
  | bits32
  | bits64
deriving DecidableEq, Repr

namespace Granularity

def ofBits (bits : UInt8) : Except ConfigError Granularity :=
  if bits = 1 then .ok .bits1
  else if bits = 8 then .ok .bits8
  else if bits = 32 then .ok .bits32
  else if bits = 64 then .ok .bits64
  else .error (.unsupportedGranularity bits)

def bits : Granularity → UInt8
  | .bits1 => 1
  | .bits8 => 8
  | .bits32 => 32
  | .bits64 => 64

/-- The bytes of one unit; bits are programmed in whole bytes. -/
def alignment : Granularity → Nat
  | .bits1 => 1
  | .bits8 => 1
  | .bits32 => 4
  | .bits64 => 8

/-- A unit takes the bytes that its bits fill, and one byte at least. -/
theorem alignment_eq (granularity : Granularity) :
    granularity.alignment = max 1 (granularity.bits.toNat / 8) := by
  cases granularity <;> rfl

example : [bits1, bits8, bits32, bits64].map alignment = [1, 1, 4, 8] := rfl

/-- Whether an offset or a length consists of whole units. -/
def isAligned (granularity : Granularity) (value : Nat) : Bool :=
  value % granularity.alignment == 0

@[simp] theorem isAligned_iff (granularity : Granularity) (value : Nat) :
    granularity.isAligned value = true ↔ granularity.alignment ∣ value := by
  simp [isAligned, Nat.dvd_iff_mod_eq_zero]

theorem ofBits_bits (granularity : Granularity) :
    ofBits granularity.bits = .ok granularity := by
  cases granularity <;> rfl

theorem bits_of_ofBits {bits : UInt8} {granularity : Granularity}
    (hbits : ofBits bits = .ok granularity) : granularity.bits = bits := by
  unfold ofBits at hbits
  repeat' split at hbits
  all_goals simp_all
  all_goals
    subst hbits
    rfl

end Granularity

end FlashStorage
