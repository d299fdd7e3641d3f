import FlashStorage.Adapter
import FlashStorage.Config.Basic
import FlashStorage.Lock.Basic
import FlashStorage.Table

/-!
# Bindings

After startup the databases share one adapter, the committed partition table and
the configuration, under one lock hook for each database.  A binding holds these
together; it is made only if the adapter is up and every enabled database has a
partition on the adapter's device.
-/

namespace FlashStorage

inductive BindingError where
  | partitionMissing (database : Database)
  | device (error : DeviceError)
  | config (error : ConfigError)
deriving DecidableEq, Repr

def BindingError.message : BindingError → String
  | .partitionMissing database => s!"no partition for {database.label}"
  | .device error => s!"flash error: {error.message}"
  | .config error => s!"invalid storage config: {error.message}"

structure Binding (χ κ : Type) where
  adapter : Adapter χ
  table : Table
  config : Config
  timestampWidth : TimestampWidth
  locks : PerDatabase κ

namespace Binding

variable {χ κ : Type}

/-- Whether a table has a partition of a database on a device. -/
def serves (table : Table) (device : Name) (database : Database) : Bool :=
  (table.forDevice device.text).any (fun partition =>
    partition.database == database)

/-- Bind an adapter to a table. -/
def bind (adapter : Adapter χ) (table : Table) (config : Config)
    (locks : PerDatabase κ) : Except BindingError (Binding χ κ) :=
  if !adapter.initialized then .error (.device .notPresent)
  else
    match config.timestampWidth with
    | .error error => .error (.config error)
    | .ok width =>
        match config.databases.find? (fun database =>
            !serves table adapter.device.name database) with
        | some database => .error (.partitionMissing database)
        | none => .ok ⟨adapter, table, config, width, locks⟩

/-- The partition of a database on the adapter's device. -/
def partition? (binding : Binding χ κ) (database : Database) :
    Option Partition :=
  binding.table.partitions.find? (fun partition =>
    partition.device == binding.adapter.device.name &&
      partition.database == database)

/-- Write the time to the front of a buffer at the configured width. -/
def encodeTimestamp (binding : Binding χ κ) (now : Int64)
    (buffer : List UInt8) : Reply (Except TimestampError Nat) :=
  Timestamp.encode binding.timestampWidth now buffer

end Binding

end FlashStorage
