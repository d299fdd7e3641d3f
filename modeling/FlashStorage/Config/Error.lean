import FlashStorage.Database

/-!
# What can be wrong with a configuration

Every one of these causes is fatal at startup: storage is never brought up with
a configuration that was refused.
-/

namespace FlashStorage

inductive ConfigError where
  /-- A partition size is no multiple of the device's erase block. -/
  | misaligned (database : Database) (size : UInt64) (block : UInt32)
  | unsupportedGranularity (bits : UInt8)
  /-- The device was described with another granularity than configured. -/
  | granularityMismatch (configured device : UInt8)
  | unsupportedTimestampWidth (bits : UInt8)
  /-- Both databases are enabled under one partition name. -/
  | duplicateName
  | nameTooLong
  /-- A stored record was written in another version. -/
  | versionMismatch (found : UInt8)
  /-- A record does not fit the buffer it is written to. -/
  | serialize
  /-- Stored bytes are no record. -/
  | deserialize
deriving DecidableEq, Repr

def ConfigError.message : ConfigError → String
  | .misaligned database size block =>
      s!"{database.label} partition size {size} is not a multiple of the {block} byte erase block"
  | .unsupportedGranularity bits =>
      s!"unsupported write granularity: {bits} bits"
  | .granularityMismatch configured device =>
      s!"device granularity {device} bits differs from configured {configured} bits"
  | .unsupportedTimestampWidth bits =>
      s!"unsupported timestamp width: {bits} bits"
  | .duplicateName => "kv and ts partitions share a name"
  | .nameTooLong => "partition name too long"
  | .versionMismatch found => s!"config record version {found} is not supported"
  | .serialize => "config record does not fit the buffer"
  | .deserialize => "config record is corrupted"

end FlashStorage
