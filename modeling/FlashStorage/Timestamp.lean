import FlashStorage.Config.Error
import FlashStorage.LittleEndian
import FlashStorage.Reply

/-!
# Timestamps

The time-series database stores signed timestamps of four or eight bytes, lowest
byte first, in two's complement.  A buffer that is too short is reported before
a value that is too large, and a refused value leaves the buffer alone.
-/

namespace FlashStorage

inductive TimestampWidth where
  | bits32
  | bits64
deriving DecidableEq, Repr

namespace TimestampWidth

def ofBits (bits : UInt8) : Except ConfigError TimestampWidth :=
  if bits = 32 then .ok .bits32
  else if bits = 64 then .ok .bits64
  else .error (.unsupportedTimestampWidth bits)

def bits : TimestampWidth → UInt8
  | .bits32 => 32
  | .bits64 => 64

def bytes : TimestampWidth → Nat
  | .bits32 => 4
  | .bits64 => 8

/-- How many values a width tells apart. -/
def modulus (width : TimestampWidth) : Nat := Nat.pow 256 width.bytes

/-- Whether a timestamp lies in the signed range of a width. -/
def admits (width : TimestampWidth) (timestamp : Int64) : Bool :=
  -(width.modulus / 2 : Int) ≤ timestamp.toInt ∧
    timestamp.toInt < (width.modulus / 2 : Int)

end TimestampWidth

inductive TimestampError where
  | overflow
  | bufferTooSmall
deriving DecidableEq, Repr

def TimestampError.message : TimestampError → String
  | .overflow => "timestamp does not fit the configured width"
  | .bufferTooSmall => "timestamp buffer too small"

namespace Timestamp

/-- The stored form of a timestamp. -/
def toBytes (width : TimestampWidth) (timestamp : Int64) : List UInt8 :=
  LittleEndian.encode width.bytes (timestamp.toInt % width.modulus).toNat

/-- The timestamp that a stored form stands for. -/
def ofBytes (width : TimestampWidth) (stored : List UInt8) : Int64 :=
  Int64.ofInt ((LittleEndian.decode stored : Int).bmod width.modulus)

/-- Write a timestamp to the front of a buffer; the result counts the bytes. -/
def encode (width : TimestampWidth) (timestamp : Int64) (buffer : List UInt8) :
    Reply (Except TimestampError Nat) :=
  if buffer.length < width.bytes then
    ⟨.error .bufferTooSmall, buffer⟩
  else if width.admits timestamp then
    ⟨.ok width.bytes, toBytes width timestamp ++ buffer.drop width.bytes⟩
  else
    ⟨.error .overflow, buffer⟩

/-- Read a timestamp from the front of a buffer. -/
def decode (width : TimestampWidth) (buffer : List UInt8) :
    Except TimestampError Int64 :=
  if buffer.length < width.bytes then .error .bufferTooSmall
  else .ok (ofBytes width (buffer.take width.bytes))

end Timestamp

end FlashStorage
