import FlashStorage.Config.Basic
import FlashStorage.Utf8
import FlashStorage.Varint

/-!
# Stored configurations

Boards that keep their layout in flash store a configuration as a record: three
raw bytes, the two sizes as variable-length numbers, and the two names, each
behind its length in bytes.  Reading ignores what follows the record, and looks
at the version only once the whole record has been read.
-/

namespace FlashStorage.Config

/-- Room enough for every record. -/
def maxRecordBytes : Nat := 64

namespace Record

def encodeName (name : Name) : List UInt8 :=
  Varint.encode name.text.utf8ByteSize ++ Utf8.encode name.text

def encode (config : Config) : List UInt8 :=
  [config.version, config.granularityBits, config.timestampBits] ++
    Varint.encode config.kvSize.toNat ++
    Varint.encode config.tsSize.toNat ++
    encodeName config.kvName ++
    encodeName config.tsName

def decodeByte : List UInt8 → Option (UInt8 × List UInt8)
  | [] => none
  | byte :: rest => some (byte, rest)

/-- The name at the front of some bytes; refused if it is cut off, is not UTF-8
or is too long. -/
def decodeName (bytes : List UInt8) : Option (Name × List UInt8) := do
  let (length, rest) ← Varint.decode bytes
  if rest.length < length.toNat then none
  else
    let text ← Utf8.decode? (rest.take length.toNat)
    let name ← Name.ofString? text
    some (name, rest.drop length.toNat)

/-- The record at the front of some bytes, of whatever version. -/
def decode (bytes : List UInt8) : Option (Config × List UInt8) := do
  let (version, bytes) ← decodeByte bytes
  let (granularityBits, bytes) ← decodeByte bytes
  let (timestampBits, bytes) ← decodeByte bytes
  let (kvSize, bytes) ← Varint.decode bytes
  let (tsSize, bytes) ← Varint.decode bytes
  let (kvName, bytes) ← decodeName bytes
  let (tsName, bytes) ← decodeName bytes
  some (⟨version, granularityBits, timestampBits, kvSize, tsSize, kvName, tsName⟩,
    bytes)

end Record

/-- The record of a configuration, if it fits into `room` bytes. -/
def toRecord (config : Config) (room : Nat) : Except ConfigError (List UInt8) :=
  let record := Record.encode config
  if record.length ≤ room then .ok record else .error .serialize

/-- The configuration stored at the front of some bytes. -/
def ofRecord (bytes : List UInt8) : Except ConfigError Config :=
  match Record.decode bytes with
  | none => .error .deserialize
  | some (config, _) =>
      if config.version = currentVersion then .ok config
      else .error (.versionMismatch config.version)

end FlashStorage.Config
