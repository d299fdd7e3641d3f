import FlashStorage.Granularity
import FlashStorage.Name
import FlashStorage.Timestamp
import FlashStorage.Word

/-!
# Storage configurations

A configuration names the write granularity, the timestamp width and one
partition for each database.  It is plain data: nothing is checked when it is
made.  `checkValues` tests what can be tested without a device, `validate` also
tests the partition sizes against a device's erase block.
-/

namespace FlashStorage

structure Config where
  version : UInt8
  granularityBits : UInt8
  timestampBits : UInt8
  /-- Bytes for the key-value database; none disables it. -/
  kvSize : UInt64
  /-- Bytes for the time-series database; none disables it. -/
  tsSize : UInt64
  kvName : Name
  tsName : Name
deriving DecidableEq, Repr

namespace Config

/-- The version that records are written in and read back from. -/
def currentVersion : UInt8 := 1

def defaultKvName : Name := ⟨"fdb_kvdb1", by decide⟩

def defaultTsName : Name := ⟨"fdb_tsdb1", by decide⟩

/-- A configuration of the current version with the default names. -/
def ofValues (granularityBits timestampBits : UInt8) (kvSize tsSize : UInt64) :
    Config where
  version := currentVersion
  granularityBits := granularityBits
  timestampBits := timestampBits
  kvSize := kvSize
  tsSize := tsSize
  kvName := defaultKvName
  tsName := defaultTsName

/-- Half a mebibyte for each database. -/
def standard : Config := ofValues 1 32 524288 524288

/-- Rename both partitions, unless either name is too long. -/
def withPartitionNames (config : Config) (kv ts : String) :
    Except ConfigError Config :=
  match Name.ofString? kv, Name.ofString? ts with
  | some kvName, some tsName =>
      .ok { config with kvName := kvName, tsName := tsName }
  | _, _ => .error .nameTooLong

def granularity (config : Config) : Except ConfigError Granularity :=
  Granularity.ofBits config.granularityBits

def timestampWidth (config : Config) : Except ConfigError TimestampWidth :=
  TimestampWidth.ofBits config.timestampBits

def partitionSize (config : Config) : Database → UInt64
  | .kv => config.kvSize
  | .ts => config.tsSize

def partitionName (config : Config) : Database → Name
  | .kv => config.kvName
  | .ts => config.tsName

/-- A database is enabled if it has any bytes. -/
def isEnabled (config : Config) (database : Database) : Bool :=
  0 < (config.partitionSize database).toNat

/-- The enabled databases in layout order. -/
def databases (config : Config) : List Database :=
  Database.all.filter config.isEnabled

/-- The bytes of both partitions, at most the largest word. -/
def totalSize (config : Config) : UInt64 :=
  Word.saturatingAdd config.kvSize config.tsSize

/-- Whether the names of two enabled databases clash. -/
def namesClash (config : Config) : Bool :=
  config.isEnabled .kv && config.isEnabled .ts && config.kvName == config.tsName

/-- The tests that need no device. -/
def checkValues (config : Config) : Except ConfigError Unit := do
  let _ ← config.granularity
  let _ ← config.timestampWidth
  if config.namesClash then .error .duplicateName else .ok ()

/-- Whether a database's partition consists of whole erase blocks. -/
def isWholeBlocks (config : Config) (block : UInt32) (database : Database) :
    Bool :=
  block.toNat != 0 && (config.partitionSize database).toNat % block.toNat == 0

/-- All tests against a device of the given erase block.  Of two misaligned
partitions the first in layout order is reported. -/
def validate (config : Config) (block : UInt32) : Except ConfigError Unit := do
  config.checkValues
  match config.databases.find? (fun db => !config.isWholeBlocks block db) with
  | some database =>
      .error (.misaligned database (config.partitionSize database) block)
  | none => .ok ()

end Config

end FlashStorage
