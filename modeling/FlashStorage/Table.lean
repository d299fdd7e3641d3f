import FlashStorage.Database
import FlashStorage.Name
import FlashStorage.Word

/-!
# Partition tables

What the databases see of storage: named byte ranges inside devices, in the order
in which they were laid out.  A table has room for one partition per database.
-/

namespace FlashStorage

structure Partition where
  name : Name
  /-- Name of the device that holds the partition. -/
  device : Name
  /-- Offset of the first byte inside the device. -/
  offset : UInt64
  length : UInt64
  database : Database
deriving DecidableEq, Repr

/-- The offset behind the last byte, at most the largest word. -/
def Partition.limit (partition : Partition) : UInt64 :=
  Word.saturatingAdd partition.offset partition.length

/-- At most two partitions. -/
structure Table where
  partitions : List Partition
  bounded : partitions.length ≤ 2
deriving DecidableEq

namespace Table

@[ext] theorem ext {a b : Table} (hpartitions : a.partitions = b.partitions) :
    a = b := by
  cases a
  cases b
  simp_all

def empty : Table := ⟨[], by simp⟩

def length (table : Table) : Nat := table.partitions.length

/-- Add a partition at the end, or hand it back if the table is full. -/
def push (table : Table) (partition : Partition) : Except Partition Table :=
  if hroom : table.partitions.length < 2 then
    .ok ⟨table.partitions ++ [partition], by
      rw [List.length_append]
      exact hroom⟩
  else .error partition

/-- The first partition of a name. -/
def find? (table : Table) (name : String) : Option Partition :=
  table.partitions.find? (fun partition => partition.name.text == name)

/-- The partitions on the device of a name. -/
def forDevice (table : Table) (device : String) : List Partition :=
  table.partitions.filter (fun partition => partition.device.text == device)

/-- The first partition of a database. -/
def forDatabase? (table : Table) (database : Database) : Option Partition :=
  table.partitions.find? (fun partition => partition.database == database)

theorem push_eq_ok_iff {table longer : Table} {partition : Partition} :
    table.push partition = .ok longer ↔
      longer.partitions = table.partitions ++ [partition] := by
  unfold push
  split
  · rw [Except.ok.injEq, Table.ext_iff]
    exact eq_comm
  · rename_i hfull
    have hbounded := longer.bounded
    constructor
    · intro h
      cases h
    · intro h
      rw [h, List.length_append, List.length_singleton] at hbounded
      omega

theorem find?_eq_none_iff {table : Table} {name : Name} :
    table.find? name.text = none ↔
      ∀ partition ∈ table.partitions, partition.name ≠ name := by
  rw [find?, List.find?_eq_none]
  apply forall₂_congr
  intro partition _
  rw [beq_iff_eq, Ne, Name.ext_iff]

end Table

end FlashStorage
