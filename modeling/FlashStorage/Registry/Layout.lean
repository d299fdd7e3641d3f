import FlashStorage.Config.Basic
import FlashStorage.Device
import FlashStorage.Region
import FlashStorage.Registry.Error
import FlashStorage.Table

/-!
# Laying out partitions

The storage regions of a board are taken in table order.  Each must be free of
the regions before it, lie in a device, be large enough for the configured
partitions and start on an erase block of the device; the configuration must
suit the device.  Then the partitions of the enabled databases follow one
another from the start of the region.
-/

namespace FlashStorage.Registry

/-- The outcome of laying out a table or a part of one. -/
abbrev Layout := Outcome RegistryError

/-- The device that holds a region: the first that contains all of it. -/
def deviceOf? (devices : List Device) (region : Region) : Option Device :=
  devices.find? (fun device =>
    device.containsAddress region.offset region.length.toNat)

/-- The partition of a database that starts at an offset of a device. -/
def partitionAt (config : Config) (device : Device) (offset : UInt64)
    (database : Database) : Partition where
  name := config.partitionName database
  device := device.name
  offset := offset
  length := config.partitionSize database
  database := database

/-- Add a partition under a name that the table does not have yet. -/
def addPartition (table : Table) (partition : Partition) : Layout Table :=
  match table.find? partition.name.text with
  | some existing => .error (.duplicateName existing.name)
  | none =>
      match table.push partition with
      | .ok longer => .ok longer
      | .error rejected => .error (.duplicateName rejected.name)

/-- Add the partitions of some databases, one behind the other. -/
def addPartitions (config : Config) (device : Device) :
    List Database → (cursor : UInt64) → Table → Layout Table
  | [], _, table => .ok table
  | database :: rest, cursor, table => do
      let table ← addPartition table (partitionAt config device cursor database)
      let cursor ← Word.add cursor (config.partitionSize database)
      addPartitions config device rest cursor table

/-- The offset at which a region starts in its device, once the region and the
configuration have passed every test. -/
def regionStart (devices : List Device) (config : Config)
    (earlier : List Region) (region : Region) : Layout (Device × UInt64) := do
  Outcome.require (!earlier.any (fun other => other.overlaps region))
    (.overlap region.name)
  let device ←
    match deviceOf? devices region with
    | some device => .ok device
    | none => .error (.deviceNotFound region.name)
  Outcome.require (config.totalSize ≤ region.length)
    (.insufficientSpace region.name config.totalSize region.length)
  Outcome.lift .config (config.validate device.block)
  let start ← Word.sub region.offset device.base
  Outcome.require (device.isBlockAligned start) (.regionMisaligned region.name)
  .ok (device, start)

/-- Add the partitions that one region gives. -/
def addRegion (devices : List Device) (config : Config)
    (earlier : List Region) (region : Region) (table : Table) :
    Layout Table := do
  let (device, start) ← regionStart devices config earlier region
  addPartitions config device config.databases start table

/-- Add the partitions of some regions, given those that came before them. -/
def addRegions (devices : List Device) (config : Config) :
    (earlier : List Region) → List Region → Table → Layout Table
  | _, [], table => .ok table
  | earlier, region :: rest, table => do
      let table ← addRegion devices config earlier region table
      addRegions devices config (earlier ++ [region]) rest table

/-- The table of all storage regions of a board. -/
def build {σ : Type} [RegionSource σ] (source : σ) (devices : List Device)
    (config : Config) : Layout Table :=
  match RegionSource.find source Region.storageTag with
  | [] => .error .regionNotFound
  | regions => addRegions devices config [] regions Table.empty

end FlashStorage.Registry
