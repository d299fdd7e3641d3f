import FlashStorage.Proofs.Config.Validation
import FlashStorage.Registry.Layout
import Mathlib.Data.List.Chain

/-!
# Partitions in a row

Laying out a table threads a table and a cursor through the enabled databases.
Here the loop is replaced by what it computes: the list of partitions that follow
one another from the start of a region.  Everything about offsets is then a fact
about that list, in exact arithmetic.
-/

namespace FlashStorage.Registry

variable {config : Config} {device : Device} {table result : Table}
  {databases : List Database} {cursor : UInt64} {partition : Partition}

/-- The partitions of some databases, each starting where the one before it
ends. -/
def carve (config : Config) (device : Device) :
    List Database → (cursor : UInt64) → List Partition
  | [], _ => []
  | database :: rest, cursor =>
      partitionAt config device cursor database ::
        carve config device rest (cursor + config.partitionSize database)

theorem addPartition_eq_ok_iff :
    addPartition table partition = .ok result ↔
      (∀ existing ∈ table.partitions, existing.name ≠ partition.name) ∧
        result.partitions = table.partitions ++ [partition] := by
  unfold addPartition
  rw [← Table.find?_eq_none_iff, ← Table.push_eq_ok_iff]
  cases table.find? partition.name.text with
  | some existing => simp
  | none =>
      cases table.push partition with
      | error rejected => simp
      | ok longer => simp

/-- The loop over the databases finishes exactly if their names are new and no
cursor leaves the words, and then it has added the partitions in a row. -/
theorem addPartitions_eq_ok_iff :
    addPartitions config device databases cursor table = .ok result ↔
      (databases.map config.partitionName).Nodup ∧
        (∀ existing ∈ table.partitions, ∀ database ∈ databases,
          existing.name ≠ config.partitionName database) ∧
        cursor.toNat + config.extent databases < UInt64.size ∧
        result.partitions =
          table.partitions ++ carve config device databases cursor := by
  induction databases generalizing cursor table with
  | nil =>
      have hcursor := cursor.toNat_lt_size
      simp only [addPartitions, carve, Outcome.ok.injEq, Table.ext_iff,
        Config.extent_nil, List.map_nil, List.nodup_nil, List.append_nil,
        List.not_mem_nil, false_implies, implies_true, true_and]
      constructor
      · intro h
        exact ⟨by omega, h.symm⟩
      · intro h
        exact h.2.symm
  | cons database rest ih =>
      simp only [addPartitions, Outcome.bind_eq_ok_iff, addPartition_eq_ok_iff,
        Word.add_eq_ok_iff, ih, carve, Config.extent_cons, List.map_cons,
        List.nodup_cons, List.mem_cons, forall_eq_or_imp]
      constructor
      · rintro ⟨longer, ⟨hfresh, hlonger⟩, next, hnext, hnodup, hapart, hroom,
          hresult⟩
        have hword := next.toNat_lt_size
        rw [hnext] at hword
        have hcursor : next = cursor + config.partitionSize database := by
          rw [← UInt64.toNat_inj, Word.toNat_add_of_lt hword, hnext]
        subst hcursor
        rw [hlonger] at hapart hresult
        refine ⟨⟨?_, hnodup⟩, ?_, by omega, by simpa using hresult⟩
        · intro hmem
          obtain ⟨other, hother, hname⟩ := List.mem_map.mp hmem
          exact hapart (partitionAt config device cursor database) (by simp)
            other hother hname.symm
        · intro existing hexisting
          exact ⟨hfresh existing hexisting,
            hapart existing (List.mem_append_left _ hexisting)⟩
      · rintro ⟨⟨hnew, hnodup⟩, hapart, hroom, hresult⟩
        have hbounded := result.bounded
        have hnext : (cursor + config.partitionSize database).toNat =
            cursor.toNat + (config.partitionSize database).toNat :=
          Word.toNat_add_of_lt (by omega)
        let first := partitionAt config device cursor database
        refine ⟨⟨table.partitions ++ [first], ?_⟩,
          ⟨fun existing hexisting => (hapart existing hexisting).1, rfl⟩,
          cursor + config.partitionSize database, hnext, hnodup, ?_,
          by omega, by simpa using hresult⟩
        · rw [hresult] at hbounded
          simp only [List.length_append, List.length_cons] at hbounded
          simp only [List.length_append, List.length_singleton]
          omega
        · intro existing hexisting other hother
          rcases List.mem_append.mp hexisting with hold | hfirst
          · exact (hapart existing hold).2 other hother
          · rw [List.mem_singleton.mp hfirst]
            intro hname
            exact hnew (List.mem_map.mpr ⟨other, hother, hname.symm⟩)

/-! ## The partitions of a row -/

theorem map_database_carve :
    (carve config device databases cursor).map Partition.database =
      databases := by
  induction databases generalizing cursor with
  | nil => rfl
  | cons database rest ih => simp [carve, ih, partitionAt]

theorem map_name_carve :
    (carve config device databases cursor).map Partition.name =
      databases.map config.partitionName := by
  induction databases generalizing cursor with
  | nil => rfl
  | cons database rest ih => simp [carve, ih, partitionAt]

theorem eq_partitionAt_of_mem_carve
    (hmem : partition ∈ carve config device databases cursor) :
    partition =
      partitionAt config device partition.offset partition.database := by
  induction databases generalizing cursor with
  | nil => simp [carve] at hmem
  | cons database rest ih =>
      rcases List.mem_cons.mp hmem with hfirst | hrest
      · rw [hfirst]
        rfl
      · exact ih hrest

theorem database_mem_of_mem_carve
    (hmem : partition ∈ carve config device databases cursor) :
    partition.database ∈ databases := by
  have hmap := List.mem_map_of_mem (f := Partition.database) hmem
  rwa [map_database_carve] at hmap

theorem offset_of_mem_head?_carve
    (hhead : partition ∈ (carve config device databases cursor).head?) :
    partition.offset = cursor := by
  cases databases with
  | nil => simp [carve] at hhead
  | cons database rest =>
      simp only [carve, List.head?_cons, Option.mem_some_iff] at hhead
      rw [← hhead]
      rfl

/-! ## Offsets of a row that stays within the words -/

private theorem toNat_advance {database : Database} {rest : List Database}
    (hroom : cursor.toNat + config.extent (database :: rest) < UInt64.size) :
    (cursor + config.partitionSize database).toNat =
      cursor.toNat + (config.partitionSize database).toNat := by
  rw [Config.extent_cons] at hroom
  exact Word.toNat_add_of_lt (by omega)

/-- Each partition lies between the cursor and the end of the row. -/
theorem bounds_of_mem_carve
    (hroom : cursor.toNat + config.extent databases < UInt64.size)
    (hmem : partition ∈ carve config device databases cursor) :
    cursor.toNat ≤ partition.offset.toNat ∧
      partition.offset.toNat + partition.length.toNat ≤
        cursor.toNat + config.extent databases := by
  induction databases generalizing cursor with
  | nil => simp [carve] at hmem
  | cons database rest ih =>
      have hnext := toNat_advance hroom
      rw [Config.extent_cons] at hroom ⊢
      rcases List.mem_cons.mp hmem with hfirst | hrest
      · subst hfirst
        simp only [partitionAt]
        omega
      · have hbounds := ih (by omega) hrest
        omega

/-- Each partition starts exactly where the one before it ends. -/
theorem isChain_carve
    (hroom : cursor.toNat + config.extent databases < UInt64.size) :
    (carve config device databases cursor).IsChain
      (fun before after =>
        after.offset.toNat =
          before.offset.toNat + before.length.toNat) := by
  induction databases generalizing cursor with
  | nil => exact .nil
  | cons database rest ih =>
      have hnext := toNat_advance hroom
      rw [Config.extent_cons] at hroom
      have htail := @ih (cursor + config.partitionSize database) (by omega)
      cases rest with
      | nil => exact .singleton _
      | cons following rest =>
          simp only [carve] at htail ⊢
          exact .cons_cons hnext htail

/-- Partitions of whole blocks that start on a block all start on blocks. -/
theorem dvd_offset_of_mem_carve {block : Nat}
    (hroom : cursor.toNat + config.extent databases < UInt64.size)
    (hcursor : block ∣ cursor.toNat)
    (hwhole : ∀ database ∈ databases,
      block ∣ (config.partitionSize database).toNat)
    (hmem : partition ∈ carve config device databases cursor) :
    block ∣ partition.offset.toNat := by
  induction databases generalizing cursor with
  | nil => simp [carve] at hmem
  | cons database rest ih =>
      have hnext := toNat_advance hroom
      rw [Config.extent_cons] at hroom
      rw [List.forall_mem_cons] at hwhole
      rcases List.mem_cons.mp hmem with hfirst | hrest
      · rw [hfirst]
        exact hcursor
      · refine ih (by omega) ?_ hwhole.2 hrest
        rw [hnext]
        exact Nat.dvd_add hcursor hwhole.1

end FlashStorage.Registry
