import FlashStorage.Proofs.Registry.History
import Mathlib.Data.List.Nodup

/-!
# Looking up committed partitions

A table is searched by the name of a partition, by its database and by its device, and
the first partition that fits is the answer.  In a committed table no two partitions
share a name or a database, and all are on one device.  So a search by name or database
finds the one partition there is, and a search by device all of them or none; which
ones there are is up to the configuration of the last call that was answered.
-/

namespace FlashStorage

/-- Among items with different keys a key finds the one item that has it. -/
theorem find?_key_eq_some_iff {α κ : Type} [DecidableEq κ] {key : α → κ}
    {items : List α} (hnodup : (items.map key).Nodup) {sought : κ} {item : α} :
    items.find? (fun other => key other == sought) = some item ↔
      item ∈ items ∧ key item = sought := by
  have hsound : ∀ found,
      items.find? (fun other => key other == sought) = some found →
        found ∈ items ∧ key found = sought := by
    intro found hfound
    have htest := List.find?_some hfound
    exact ⟨List.mem_of_find?_eq_some hfound, beq_iff_eq.mp htest⟩
  constructor
  · exact hsound item
  · rintro ⟨hmem, hkey⟩
    cases hfound : items.find? (fun other => key other == sought) with
    | none =>
        have hfails := List.find?_eq_none.mp hfound item hmem
        exact absurd (beq_iff_eq.mpr hkey) hfails
    | some found =>
        obtain ⟨hfoundMem, hfoundKey⟩ := hsound found hfound
        have hsame : key found = key item := hfoundKey.trans hkey.symm
        rw [List.inj_on_of_nodup_map hnodup hfoundMem hmem hsame]

namespace Table

variable {table : Table} {name device : String} {database : Database}
  {partition : Partition}

theorem find?_eq_some_iff
    (hnodup : (table.partitions.map Partition.name).Nodup) :
    table.find? name = some partition ↔
      partition ∈ table.partitions ∧ partition.name.text = name := by
  have htexts : (table.partitions.map fun other => other.name.text).Nodup := by
    have hmap := hnodup.map (f := Name.text) fun _ _ => Name.ext
    rwa [List.map_map] at hmap
  exact find?_key_eq_some_iff htexts

theorem forDatabase?_eq_some_iff
    (hnodup : (table.partitions.map Partition.database).Nodup) :
    table.forDatabase? database = some partition ↔
      partition ∈ table.partitions ∧ partition.database = database :=
  find?_key_eq_some_iff hnodup

theorem forDatabase?_isSome_iff :
    (table.forDatabase? database).isSome = true ↔
      database ∈ table.partitions.map Partition.database := by
  simp [forDatabase?, List.find?_isSome]

end Table

namespace Registry

variable {σ : Type} [RegionSource σ] {source : σ} {devices : List Device}
  {config : Config} {device : Device} {table : Table}

/-- Every search in a table answers as a configuration says. -/
structure Indexed (config : Config) (table : Table) : Prop where
  find?_name : ∀ partition ∈ table.partitions,
    table.find? partition.name.text = some partition
  find?_other : ∀ name : String,
    (∀ partition ∈ table.partitions, partition.name.text ≠ name) →
      table.find? name = none
  forDatabase?_database : ∀ partition ∈ table.partitions,
    table.forDatabase? partition.database = some partition
  forDatabase?_isSome : ∀ database,
    (table.forDatabase? database).isSome = config.isEnabled database
  forDatabase?_configured : ∀ database partition,
    table.forDatabase? database = some partition →
      partition.name = config.partitionName database ∧
        partition.length = config.partitionSize database
  forDevice_device : ∀ partition ∈ table.partitions,
    table.forDevice partition.device.text = table.partitions
  forDevice_other : ∀ name : String,
    (∀ partition ∈ table.partitions, partition.device.text ≠ name) →
      table.forDevice name = []

theorem indexed_empty (hnone : config.databases = []) :
    Indexed config Table.empty := by
  have hdisabled := Config.databases_eq_nil_iff.mp hnone
  constructor <;>
    simp [Table.empty, Table.find?, Table.forDatabase?, Table.forDevice, hdisabled]

theorem LaidOut.indexed (hlaid : LaidOut config device table.partitions) :
    Indexed config table where
  find?_name := by
    intro partition hmem
    exact (Table.find?_eq_some_iff hlaid.names_nodup).mpr ⟨hmem, rfl⟩
  find?_other := by
    intro name hother
    rw [Table.find?, List.find?_eq_none]
    intro partition hmem
    rw [beq_iff_eq]
    exact hother partition hmem
  forDatabase?_database := by
    intro partition hmem
    exact (Table.forDatabase?_eq_some_iff hlaid.databases_nodup).mpr ⟨hmem, rfl⟩
  forDatabase?_isSome := by
    intro database
    rw [Bool.eq_iff_iff, Table.forDatabase?_isSome_iff, hlaid.databases_eq,
      Config.mem_databases_iff, Config.isEnabled_iff]
  forDatabase?_configured := by
    intro database partition hfound
    obtain ⟨hmem, rfl⟩ :=
      (Table.forDatabase?_eq_some_iff hlaid.databases_nodup).mp hfound
    exact ⟨hlaid.name_eq partition hmem, hlaid.length_eq partition hmem⟩
  forDevice_device := by
    intro partition hmem
    rw [Table.forDevice, List.filter_eq_self]
    intro other hother
    rw [hlaid.device_eq other hother, hlaid.device_eq partition hmem]
    exact beq_self_eq_true _
  forDevice_other := by
    intro name hother
    rw [Table.forDevice, List.filter_eq_nil_iff]
    intro partition hmem
    rw [beq_iff_eq]
    exact hother partition hmem

theorem indexed_of_build (hbuild : build source devices config = .ok table) :
    Indexed config table := by
  rcases build_eq_ok_placed hbuild with ⟨hnone, hempty⟩ |
    ⟨region, device, _, _, hplaced⟩
  · rw [hempty]
    exact indexed_empty hnone
  · exact hplaced.indexed

/-- In every state that calls of a fresh registry lead to, the committed table is
searched as the configuration of the last answered call says, whatever was refused
before or after it.  Before the first answer every search comes back empty. -/
theorem lookups_follow_last_answer (calls : List Call) :
    match empty.lastAnswered? calls with
    | some call => Indexed call.inputs.config (empty.run calls).table
    | none =>
        (∀ name, (empty.run calls).table.find? name = none) ∧
          (∀ database, (empty.run calls).table.forDatabase? database = none) ∧
          ∀ name, (empty.run calls).table.forDevice name = [] := by
  cases hlast : empty.lastAnswered? calls with
  | some call =>
      obtain ⟨table, hbuild, hrun⟩ := run_of_lastAnswered?_eq_some hlast
      rw [hrun]
      exact indexed_of_build hbuild
  | none =>
      rw [run_of_lastAnswered?_eq_none hlast]
      exact ⟨fun _ => rfl, fun _ => rfl, fun _ => rfl⟩

end Registry

end FlashStorage
