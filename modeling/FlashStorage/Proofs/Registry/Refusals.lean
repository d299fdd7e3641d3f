import FlashStorage.Proofs.Registry.Placement

/-!
# Refusals and halts of a layout

A layout that does not end with a table was refused over one of its regions, or
halted at a sum.  Each stage of the loop is inverted here once: which causes it can
give, and when its sums leave the words.  With a database enabled the second region
of a board never gets past the first name, so only the first one matters.
-/

namespace FlashStorage.Registry

variable {σ : Type} [RegionSource σ] {source : σ} {devices : List Device}
  {config : Config} {earlier before more regions : List Region}
  {region : Region} {device : Device} {start cursor : UInt64}
  {databases : List Database} {table result : Table} {error : RegistryError}
  {reason : Halt}

/-! ## The tests of one region -/

/-- How the tests of a region end, and what each end says of the region. -/
inductive Verdict (devices : List Device) (config : Config)
    (earlier : List Region) (region : Region) :
    Layout (Device × UInt64) → Prop where
  | overlap
      (hshared : ∃ other ∈ earlier, other.overlaps region = true) :
      Verdict devices config earlier region (.error (.overlap region.name))
  | deviceNotFound (hnone : deviceOf? devices region = none) :
      Verdict devices config earlier region
        (.error (.deviceNotFound region.name))
  | insufficientSpace {device : Device}
      (hdevice : deviceOf? devices region = some device)
      (hlarge : region.length < config.totalSize) :
      Verdict devices config earlier region
        (.error (.insufficientSpace region.name config.totalSize region.length))
  | config {device : Device} {cause : ConfigError}
      (hdevice : deviceOf? devices region = some device)
      (hcause : config.validate device.block = .error cause) :
      Verdict devices config earlier region (.error (.config cause))
  | regionMisaligned {device : Device} {start : UInt64}
      (hdevice : deviceOf? devices region = some device)
      (hstart : start.toNat + device.base.toNat = region.offset.toNat)
      (hoff : device.isBlockAligned start = false) :
      Verdict devices config earlier region
        (.error (.regionMisaligned region.name))
  | accepted {device : Device} {start : UInt64} :
      Verdict devices config earlier region (.ok (device, start))

theorem exists_sub_eq_ok (hdevice : deviceOf? devices region = some device) :
    ∃ start : UInt64,
      (Word.sub region.offset device.base : Layout UInt64) = .ok start ∧
        start.toNat + device.base.toNat = region.offset.toNat := by
  have hbase := (deviceOf?_eq_some_bounds hdevice).1
  have hsub : (Word.sub region.offset device.base : Layout UInt64) =
      .ok (region.offset - device.base) := if_pos hbase
  exact ⟨_, hsub, Word.sub_eq_ok_iff.mp hsub⟩

theorem regionStart_verdict (devices : List Device) (config : Config)
    (earlier : List Region) (region : Region) :
    Verdict devices config earlier region
      (regionStart devices config earlier region) := by
  unfold regionStart
  cases hshared : earlier.any (fun other => other.overlaps region) with
  | true =>
      rw [List.any_eq_true] at hshared
      exact .overlap hshared
  | false =>
      cases hdevice : deviceOf? devices region with
      | none => exact .deviceNotFound hdevice
      | some device =>
          obtain ⟨start, hsub, hstart⟩ := exists_sub_eq_ok hdevice
          by_cases hfits : config.totalSize ≤ region.length
          · simp only [hfits, decide_true, Bool.not_false, hsub,
              Outcome.require_true, Outcome.ok_bind]
            cases hvalid : config.validate device.block with
            | error cause => exact .config hdevice hvalid
            | ok _ =>
                simp only [Outcome.lift_ok, Outcome.ok_bind]
                cases haligned : device.isBlockAligned start with
                | false => exact .regionMisaligned hdevice hstart haligned
                | true => exact .accepted
          · simp only [hfits, decide_false, Bool.not_false,
              Outcome.require_true, Outcome.ok_bind]
            exact .insufficientSpace hdevice (UInt64.not_le.mp hfits)

theorem regionStart_ne_halt :
    regionStart devices config earlier region ≠ .halt reason := by
  intro hhalt
  have hverdict := regionStart_verdict devices config earlier region
  rw [hhalt] at hverdict
  cases hverdict

theorem regionStart_ne_duplicateName {name : Name} :
    regionStart devices config earlier region ≠
      .error (.duplicateName name) := by
  intro herror
  have hverdict := regionStart_verdict devices config earlier region
  rw [herror] at hverdict
  cases hverdict

theorem validate_of_regionStart_eq_error {cause : ConfigError}
    (herror : regionStart devices config earlier region =
      .error (.config cause)) :
    ∃ device ∈ devices, config.validate device.block = .error cause := by
  have hverdict := regionStart_verdict devices config earlier region
  rw [herror] at hverdict
  cases hverdict with
  | config hdevice hcause =>
      exact ⟨_, List.mem_of_find?_eq_some hdevice, hcause⟩

/-- A region that is free, lies in a device and is too small is refused for its
size, whatever else is wrong with it. -/
theorem regionStart_of_insufficient
    (hapart : ∀ other ∈ earlier, other.overlaps region = false)
    (hdevice : deviceOf? devices region = some device)
    (hlarge : region.length < config.totalSize) :
    regionStart devices config earlier region =
      .error (.insufficientSpace region.name config.totalSize
        region.length) := by
  have hfree : earlier.any (fun other => other.overlaps region) = false := by
    simpa using hapart
  have hfits : ¬ config.totalSize ≤ region.length := UInt64.not_le.mpr hlarge
  simp [regionStart, hfree, hdevice, hfits]

/-- A region that is free, lies in a device and is large enough is next held
against the configuration. -/
theorem regionStart_of_invalid {cause : ConfigError}
    (hapart : ∀ other ∈ earlier, other.overlaps region = false)
    (hdevice : deviceOf? devices region = some device)
    (hfits : config.totalSize ≤ region.length)
    (hcause : config.validate device.block = .error cause) :
    regionStart devices config earlier region = .error (.config cause) := by
  have hfree : earlier.any (fun other => other.overlaps region) = false := by
    simpa using hapart
  simp [regionStart, hfree, hdevice, hfits, hcause]

/-! ## The partitions of one region -/

theorem addPartition_eq_error
    {partition : Partition} (herror : addPartition table partition = .error error) :
    error = .duplicateName partition.name ∧
      ((∃ existing ∈ table.partitions, existing.name = partition.name) ∨
        2 ≤ table.partitions.length) := by
  unfold addPartition at herror
  cases hfound : table.find? partition.name.text with
  | some existing =>
      have hmem := List.mem_of_find?_eq_some hfound
      have hname : existing.name = partition.name := by
        have htext := List.find?_some hfound
        rw [beq_iff_eq] at htext
        exact Name.ext htext
      simp only [hfound, Outcome.error.injEq] at herror
      exact ⟨by rw [← herror, hname], .inl ⟨existing, hmem, hname⟩⟩
  | none =>
      by_cases hroom : table.partitions.length < 2
      · simp [hfound, Table.push, hroom] at herror
      · simp only [hfound, Table.push, hroom, dif_neg, not_false_eq_true,
          Outcome.error.injEq] at herror
        exact ⟨herror.symm, .inr (Nat.le_of_not_lt hroom)⟩

theorem addPartition_ne_halt {partition : Partition} :
    addPartition table partition ≠ .halt reason := by
  unfold addPartition
  cases table.find? partition.name.text with
  | some existing => simp
  | none =>
      cases table.push partition with
      | ok longer => simp
      | error rejected => simp

theorem addPartitions_eq_halt
    (hhalt : addPartitions config device databases cursor table =
      .halt reason) :
    reason = .addOverflow ∧
      UInt64.size ≤ cursor.toNat + config.extent databases := by
  induction databases generalizing cursor table with
  | nil => cases hhalt
  | cons database rest ih =>
      rw [Config.extent_cons]
      simp only [addPartitions, Outcome.bind_eq_halt_iff] at hhalt
      rcases hhalt with hadd | ⟨longer, _, hsum | ⟨next, hnext, hrest⟩⟩
      · exact absurd hadd addPartition_ne_halt
      · obtain ⟨hreason, hword⟩ := Word.add_eq_halt_iff.mp hsum
        exact ⟨hreason, by omega⟩
      · obtain ⟨hreason, hword⟩ := ih hrest
        have hvalue := Word.add_eq_ok_iff.mp hnext
        exact ⟨hreason, by omega⟩

/-- Adding partitions is refused only for a name that is taken or for want of
room. -/
theorem addPartitions_eq_error
    (herror : addPartitions config device databases cursor table =
      .error error) :
    (∃ database ∈ databases,
        error = .duplicateName (config.partitionName database)) ∧
      ¬ ((databases.map config.partitionName).Nodup ∧
        (∀ existing ∈ table.partitions, ∀ database ∈ databases,
          existing.name ≠ config.partitionName database) ∧
        table.partitions.length + databases.length ≤ 2) := by
  induction databases generalizing cursor table with
  | nil => cases herror
  | cons database rest ih =>
      simp only [addPartitions, Outcome.bind_eq_error_iff] at herror
      rcases herror with hadd | ⟨longer, hadd, hsum | ⟨next, _, hrest⟩⟩
      · obtain ⟨hcause, htaken⟩ := addPartition_eq_error hadd
        refine ⟨⟨database, List.mem_cons_self, hcause⟩, ?_⟩
        rintro ⟨_, hfresh, hroom⟩
        rcases htaken with ⟨existing, hmem, hname⟩ | hfull
        · exact hfresh existing hmem database List.mem_cons_self hname
        · rw [List.length_cons] at hroom
          omega
      · unfold Word.add at hsum
        split at hsum <;> cases hsum
      · obtain ⟨⟨other, hmem, hcause⟩, hnot⟩ := ih hrest
        refine ⟨⟨other, List.mem_cons_of_mem _ hmem, hcause⟩, ?_⟩
        rintro ⟨hnodup, hfresh, hroom⟩
        obtain ⟨_, hlonger⟩ := addPartition_eq_ok_iff.mp hadd
        rw [List.map_cons, List.nodup_cons] at hnodup
        apply hnot
        refine ⟨hnodup.2, ?_, ?_⟩
        · intro existing hexisting later hlater
          rw [hlonger, List.mem_append, List.mem_singleton] at hexisting
          rcases hexisting with hold | rfl
          · exact hfresh existing hold later (List.mem_cons_of_mem _ hlater)
          · intro hname
            exact hnodup.1 (List.mem_map.mpr ⟨later, hlater, hname.symm⟩)
        · rw [hlonger, List.length_append, List.length_singleton]
          rw [List.length_cons] at hroom
          omega

/-- A table that has the first name already refuses the row for that name. -/
theorem addPartitions_of_named {database : Database} {rest : List Database}
    {existing : Partition} (hmem : existing ∈ table.partitions)
    (hname : existing.name = config.partitionName database) :
    addPartitions config device (database :: rest) cursor table =
      .error (.duplicateName (config.partitionName database)) := by
  have hadd : addPartition table (partitionAt config device cursor database) =
      .error (.duplicateName (config.partitionName database)) := by
    cases hresult : addPartition table
        (partitionAt config device cursor database) with
    | ok longer =>
        have hfresh := (addPartition_eq_ok_iff.mp hresult).1
        exact absurd hname (hfresh existing hmem)
    | error cause => rw [(addPartition_eq_error hresult).1]; rfl
    | halt reason => exact absurd hresult addPartition_ne_halt
  rw [addPartitions, hadd]
  rfl

/-! ## The first region -/

theorem addPartitions_empty_ne_error
    (hnames : (config.databases.map config.partitionName).Nodup) :
    addPartitions config device config.databases cursor Table.empty ≠
      .error error := by
  intro herror
  have hroom := config.length_databases_le_two
  apply (addPartitions_eq_error herror).2
  refine ⟨hnames, ?_, ?_⟩
  · intro existing hmem
    cases hmem
  · simpa [Table.empty] using hroom

theorem names_nodup_of_regionStart
    (hstart : regionStart devices config earlier region =
      .ok (device, start)) :
    (config.databases.map config.partitionName).Nodup := by
  have hvalid := (regionStart_eq_ok_iff.mp hstart).2.2.2.1
  have hvalues := (Config.validate_eq_ok_iff.mp hvalid).1
  exact Config.names_nodup_of_namesClash_eq_false
    (Config.checkValues_eq_ok_iff.mp hvalues).2.2

/-- The first region gives its row unless the row ends behind the last word. -/
theorem exists_addRegion_eq_ok
    (hstart : regionStart devices config earlier region = .ok (device, start))
    (hroom : start.toNat + config.extent config.databases < UInt64.size) :
    ∃ table,
      addRegion devices config earlier region Table.empty = .ok table ∧
        table.partitions = carve config device config.databases start := by
  have hnames := names_nodup_of_regionStart hstart
  cases hadded : addPartitions config device config.databases start
      Table.empty with
  | ok table =>
      have hrow := (addPartitions_eq_ok_iff.mp hadded).2.2.2
      refine ⟨table, ?_, by simpa [Table.empty] using hrow⟩
      exact addRegion_eq_ok_iff.mpr ⟨device, start, hstart, hadded⟩
  | error cause =>
      exact absurd hadded (addPartitions_empty_ne_error hnames)
  | halt reason =>
      have hword := (addPartitions_eq_halt hadded).2
      omega

theorem addRegion_eq_halt_of_no_word
    (hstart : regionStart devices config earlier region = .ok (device, start))
    (hword : UInt64.size ≤ start.toNat + config.extent config.databases) :
    addRegion devices config earlier region Table.empty =
      .halt .addOverflow := by
  have hnames := names_nodup_of_regionStart hstart
  simp only [addRegion, hstart, Outcome.ok_bind]
  cases hadded : addPartitions config device config.databases start
      Table.empty with
  | ok table =>
      have hroom := (addPartitions_eq_ok_iff.mp hadded).2.2.1
      omega
  | error cause =>
      exact absurd hadded (addPartitions_empty_ne_error hnames)
  | halt reason => rw [(addPartitions_eq_halt hadded).1]

/-! ## Several regions -/

theorem addRegions_append (devices : List Device) (config : Config)
    (earlier before more : List Region) (table : Table) :
    addRegions devices config earlier (before ++ more) table =
      addRegions devices config earlier before table >>= fun next =>
        addRegions devices config (earlier ++ before) more next := by
  induction before generalizing earlier table with
  | nil => simp [addRegions]
  | cons region rest ih =>
      simp only [List.cons_append, addRegions, bind_assoc]
      congr 1
      funext next
      rw [ih, List.append_assoc, List.singleton_append]

theorem addRegions_eq_error
    (herror : addRegions devices config earlier regions table =
      .error error) :
    (∃ before, ∃ region ∈ regions,
        regionStart devices config before region = .error error) ∨
      ∃ database ∈ config.databases,
        error = .duplicateName (config.partitionName database) := by
  induction regions generalizing earlier table with
  | nil => cases herror
  | cons region rest ih =>
      simp only [addRegions, addRegion, Outcome.bind_eq_error_iff] at herror
      rcases herror with (htests | ⟨_, _, hadded⟩) | ⟨next, _, hrest⟩
      · exact .inl ⟨earlier, region, List.mem_cons_self, htests⟩
      · exact .inr (addPartitions_eq_error hadded).1
      · rcases ih hrest with ⟨before, other, hmem, htests⟩ | hname
        · exact .inl ⟨before, other, List.mem_cons_of_mem _ hmem, htests⟩
        · exact .inr hname

theorem validate_of_build_eq_error {cause : ConfigError}
    (herror : build source devices config = .error (.config cause)) :
    ∃ device ∈ devices, config.validate device.block = .error cause := by
  unfold build at herror
  cases hregions : RegionSource.find source Region.storageTag with
  | nil => simp [hregions] at herror
  | cons region rest =>
      simp only [hregions] at herror
      rcases addRegions_eq_error herror with ⟨before, other, _, htests⟩ |
        ⟨database, _, hname⟩
      · exact validate_of_regionStart_eq_error htests
      · cases hname

end FlashStorage.Registry
