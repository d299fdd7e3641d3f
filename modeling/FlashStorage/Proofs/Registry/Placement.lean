import FlashStorage.Proofs.Registry.Carving

/-!
# Where the partitions of a table lie

A table that was laid out is either empty, because no database is enabled, or the
row of partitions at the start of the only storage region.  The second region of
a board would repeat the names of the first, so there is never more than one.
-/

namespace FlashStorage.Registry

variable {σ : Type} [RegionSource σ] {source : σ} {devices : List Device}
  {config : Config} {earlier regions : List Region} {region : Region}
  {device : Device} {start : UInt64} {table result : Table}

/-! ## The tests of one region -/

theorem deviceOf?_eq_some_bounds
    (hdevice : deviceOf? devices region = some device) :
    device.base.toNat ≤ region.offset.toNat ∧
      region.offset.toNat + region.length.toNat ≤
        device.base.toNat + device.length.toNat := by
  have hcontains := List.find?_some hdevice
  exact (device.containsAddress_iff _ _).mp hcontains

theorem regionStart_eq_ok_iff :
    regionStart devices config earlier region = .ok (device, start) ↔
      (∀ other ∈ earlier, other.overlaps region = false) ∧
        deviceOf? devices region = some device ∧
        config.totalSize ≤ region.length ∧
        config.validate device.block = .ok () ∧
        device.isBlockAligned start = true ∧
        start.toNat + device.base.toNat = region.offset.toNat := by
  unfold regionStart
  cases hdevice : deviceOf? devices region with
  | none => simp [Outcome.bind_eq_ok_iff]
  | some found =>
      simp only [Outcome.bind_eq_ok_iff, Outcome.require_eq_ok_iff,
        Outcome.lift_eq_ok_iff, Word.sub_eq_ok_iff, Outcome.ok.injEq,
        Prod.mk.injEq, Option.some.injEq, Bool.not_eq_true',
        List.any_eq_false, Bool.not_eq_true, decide_eq_true_eq]
      constructor
      · rintro ⟨_, hapart, _, rfl, _, hfits, _, hvalid, _, hstart, _, haligned,
          rfl, rfl⟩
        exact ⟨hapart, rfl, hfits, hvalid, haligned, hstart⟩
      · rintro ⟨hapart, rfl, hfits, hvalid, haligned, hstart⟩
        exact ⟨(), hapart, found, rfl, (), hfits, (), hvalid, start, hstart, (),
          haligned, rfl, rfl⟩

/-! ## The tables of one region and of several -/

theorem addRegion_eq_ok_iff :
    addRegion devices config earlier region table = .ok result ↔
      ∃ device start,
        regionStart devices config earlier region = .ok (device, start) ∧
          addPartitions config device config.databases start table =
            .ok result := by
  simp [addRegion, Outcome.bind_eq_ok_iff]

/-- A table that has the partition of an enabled database takes no further
region. -/
theorem addRegion_ne_ok_of_named {partition : Partition} {database : Database}
    (hmem : partition ∈ table.partitions)
    (henabled : database ∈ config.databases)
    (hname : partition.name = config.partitionName database) :
    addRegion devices config earlier region table ≠ .ok result := by
  intro hadded
  obtain ⟨device, start, _, hpartitions⟩ := addRegion_eq_ok_iff.mp hadded
  exact (addPartitions_eq_ok_iff.mp hpartitions).2.1 partition hmem database
    henabled hname

theorem exists_named_of_addRegion {database : Database}
    {later : List Database} (hdatabases : config.databases = database :: later)
    (hadded : addRegion devices config earlier region table = .ok result) :
    ∃ partition ∈ result.partitions,
      partition.name = config.partitionName database := by
  obtain ⟨device, start, _, hpartitions⟩ := addRegion_eq_ok_iff.mp hadded
  have hrow := (addPartitions_eq_ok_iff.mp hpartitions).2.2.2
  rw [hdatabases, carve] at hrow
  refine ⟨partitionAt config device start database, ?_, rfl⟩
  rw [hrow]
  simp

theorem addRegions_eq_of_disabled (hnone : config.databases = [])
    (hadded : addRegions devices config earlier regions table = .ok result) :
    result = table := by
  induction regions generalizing earlier table with
  | nil =>
      simp only [addRegions, Outcome.ok.injEq] at hadded
      exact hadded.symm
  | cons region rest ih =>
      simp only [addRegions, Outcome.bind_eq_ok_iff] at hadded
      obtain ⟨next, hfirst, hrest⟩ := hadded
      obtain ⟨device, start, _, hpartitions⟩ := addRegion_eq_ok_iff.mp hfirst
      simp only [hnone, addPartitions, Outcome.ok.injEq] at hpartitions
      rw [ih hrest, hpartitions]

/-- With a database enabled, a table is laid out from a single region. -/
theorem addRegions_eq_ok_single (hsome : config.databases ≠ [])
    (hadded : addRegions devices config earlier (region :: regions) table =
      .ok result) :
    regions = [] ∧
      addRegion devices config earlier region table = .ok result := by
  simp only [addRegions, Outcome.bind_eq_ok_iff] at hadded
  obtain ⟨next, hfirst, hrest⟩ := hadded
  cases regions with
  | nil =>
      simp only [addRegions, Outcome.ok.injEq] at hrest
      exact ⟨rfl, hrest ▸ hfirst⟩
  | cons second rest =>
      simp only [addRegions, Outcome.bind_eq_ok_iff] at hrest
      obtain ⟨last, hsecond, _⟩ := hrest
      obtain ⟨database, others, hdatabases⟩ :=
        List.exists_cons_of_ne_nil hsome
      obtain ⟨partition, hmem, hname⟩ :=
        exists_named_of_addRegion hdatabases hfirst
      have henabled : database ∈ config.databases := by
        rw [hdatabases]
        exact List.mem_cons_self
      exact (addRegion_ne_ok_of_named hmem henabled hname hsecond).elim

/-- What a build that succeeds has found and made. -/
theorem build_eq_ok_cases (hbuild : build source devices config = .ok table) :
    (config.databases = [] ∧ table = Table.empty) ∨
      ∃ region device start,
        RegionSource.find source Region.storageTag = [region] ∧
          regionStart devices config [] region = .ok (device, start) ∧
          addPartitions config device config.databases start Table.empty =
            .ok table := by
  unfold build at hbuild
  cases hregions : RegionSource.find source Region.storageTag with
  | nil => simp [hregions] at hbuild
  | cons region rest =>
      simp only [hregions] at hbuild
      by_cases hdatabases : config.databases = []
      · exact .inl ⟨hdatabases, addRegions_eq_of_disabled hdatabases hbuild⟩
      · obtain ⟨hsingle, hregion⟩ :=
          addRegions_eq_ok_single hdatabases hbuild
        obtain ⟨device, start, hstart, hpartitions⟩ :=
          addRegion_eq_ok_iff.mp hregion
        subst hsingle
        exact .inr ⟨region, device, start, rfl, hstart, hpartitions⟩

/-! ## The layout of a whole table -/

/-- The offset of a region in a device that contains it. -/
def startIn (device : Device) (region : Region) : Nat :=
  region.offset.toNat - device.base.toNat

/-- The partitions that a configuration asks for, one behind the other inside a
device.  All offsets are exact and count from the device's first byte. -/
structure LaidOut (config : Config) (device : Device)
    (partitions : List Partition) : Prop where
  databases_eq : partitions.map Partition.database = config.databases
  kv_first : (partitions.map Partition.database).Sublist [.kv, .ts]
  databases_nodup : (partitions.map Partition.database).Nodup
  names_nodup : (partitions.map Partition.name).Nodup
  name_eq : ∀ partition ∈ partitions,
    partition.name = config.partitionName partition.database
  device_eq : ∀ partition ∈ partitions, partition.device = device.name
  length_eq : ∀ partition ∈ partitions,
    partition.length = config.partitionSize partition.database
  length_pos : ∀ partition ∈ partitions, 0 < partition.length.toNat
  block_pos : partitions ≠ [] → 0 < device.block.toNat
  offset_dvd : ∀ partition ∈ partitions,
    device.block.toNat ∣ partition.offset.toNat
  length_dvd : ∀ partition ∈ partitions,
    device.block.toNat ∣ partition.length.toNat
  adjacent : partitions.IsChain (fun before after =>
    after.offset.toNat = before.offset.toNat + before.length.toNat)
  end_le : ∀ partition ∈ partitions,
    partition.offset.toNat + partition.length.toNat ≤ device.length.toNat

/-- Partitions that fill the beginning of a region of their device. -/
structure Placed (config : Config) (device : Device) (region : Region)
    (partitions : List Partition) : Prop
    extends LaidOut config device partitions where
  base_le : device.base.toNat ≤ region.offset.toNat
  region_le : startIn device region + region.length.toNat ≤ device.length.toNat
  first_eq : ∀ partition ∈ partitions.head?,
    partition.offset.toNat = startIn device region
  end_le_region : ∀ partition ∈ partitions,
    partition.offset.toNat + partition.length.toNat ≤
      startIn device region + region.length.toNat

theorem laidOut_nil (hnone : config.databases = []) :
    LaidOut config device [] := by
  constructor <;> simp [hnone]

/-- The partitions that one region gives are placed in that region. -/
theorem placed_of_addPartitions
    (hstart : regionStart devices config earlier region = .ok (device, start))
    (hadded : addPartitions config device config.databases start Table.empty =
      .ok table) :
    Placed config device region table.partitions := by
  obtain ⟨_, hdevice, hfits, hvalid, haligned, hoffset⟩ :=
    regionStart_eq_ok_iff.mp hstart
  obtain ⟨hnames, _, hroom, hrow⟩ := addPartitions_eq_ok_iff.mp hadded
  obtain ⟨hbase, hend⟩ := deviceOf?_eq_some_bounds hdevice
  obtain ⟨hblock, hdvd⟩ := (device.isBlockAligned_iff start).mp haligned
  have hrow : table.partitions =
      carve config device config.databases start := by
    simpa [Table.empty] using hrow
  have hstartIn : startIn device region = start.toNat := by
    unfold startIn
    omega
  have htotal : config.extent config.databases ≤ region.length.toNat := by
    rw [← Config.toNat_totalSize_of_lt (by omega)]
    exact UInt64.le_iff_toNat_le.mp hfits
  have hwhole : ∀ database ∈ config.databases,
      device.block.toNat ∣ (config.partitionSize database).toNat := by
    intro database hmem
    have hblocks := (Config.validate_eq_ok_iff.mp hvalid).2 database hmem
    exact (Config.isWholeBlocks_iff.mp hblocks).2
  rw [hrow]
  exact {
    databases_eq := map_database_carve
    kv_first := by
      rw [map_database_carve]
      exact config.databases_sublist
    databases_nodup := by
      rw [map_database_carve]
      exact config.databases_nodup
    names_nodup := by
      rw [map_name_carve]
      exact hnames
    name_eq := by
      intro partition hmem
      rw [eq_partitionAt_of_mem_carve hmem]
      rfl
    device_eq := by
      intro partition hmem
      rw [eq_partitionAt_of_mem_carve hmem]
      rfl
    length_eq := by
      intro partition hmem
      rw [eq_partitionAt_of_mem_carve hmem]
      rfl
    length_pos := by
      intro partition hmem
      rw [eq_partitionAt_of_mem_carve hmem]
      exact Config.mem_databases_iff.mp (database_mem_of_mem_carve hmem)
    block_pos := fun _ => hblock
    offset_dvd := by
      intro partition hmem
      exact dvd_offset_of_mem_carve hroom hdvd hwhole hmem
    length_dvd := by
      intro partition hmem
      rw [eq_partitionAt_of_mem_carve hmem]
      exact hwhole _ (database_mem_of_mem_carve hmem)
    adjacent := isChain_carve hroom
    end_le := by
      intro partition hmem
      have hbounds := bounds_of_mem_carve hroom hmem
      omega
    base_le := hbase
    region_le := by omega
    first_eq := by
      intro partition hhead
      rw [offset_of_mem_head?_carve hhead, hstartIn]
    end_le_region := by
      intro partition hmem
      have hbounds := bounds_of_mem_carve hroom hmem
      omega }

/-- A build that succeeds gives the empty table or places its partitions in the
only storage region, on the first device that contains it. -/
theorem build_eq_ok_placed (hbuild : build source devices config = .ok table) :
    (config.databases = [] ∧ table = Table.empty) ∨
      ∃ region device,
        RegionSource.find source Region.storageTag = [region] ∧
          deviceOf? devices region = some device ∧
          Placed config device region table.partitions := by
  rcases build_eq_ok_cases hbuild with hempty |
    ⟨region, device, start, hregions, hstart, hadded⟩
  · exact .inl hempty
  · exact .inr ⟨region, device, hregions,
      (regionStart_eq_ok_iff.mp hstart).2.1,
      placed_of_addPartitions hstart hadded⟩

end FlashStorage.Registry
