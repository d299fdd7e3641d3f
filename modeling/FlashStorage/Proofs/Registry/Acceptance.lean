import FlashStorage.Proofs.Registry.Capacity

/-!
# Which layouts are accepted

The loop over the regions tests them one after the other, each in six ways.  What it
accepts in the end can be said without the loop.  With a database enabled there must
be a single storage region, and the row of partitions must fit into it; with none
enabled any number of regions will do that keep apart and start on blocks.  A taken
name is the one refusal that only a second region can bring about.
-/

namespace FlashStorage

/-- The address range of a region is part of that of a device. -/
def Device.Covers (device : Device) (region : Region) : Prop :=
  device.base.toNat ≤ region.offset.toNat ∧
    region.offset.toNat + region.length.toNat ≤
      device.base.toNat + device.length.toNat

namespace Registry

/-- A device covers a region, and none before it in the list does. -/
def FirstCover (devices : List Device) (region : Region)
    (device : Device) : Prop :=
  ∃ before after, devices = before ++ device :: after ∧
    device.Covers region ∧ ∀ other ∈ before, ¬ other.Covers region

/-- A region starts on an erase block of a device. -/
def StartsOnBlock (device : Device) (region : Region) : Prop :=
  0 < device.block.toNat ∧ device.block.toNat ∣ startIn device region

variable {σ : Type} [RegionSource σ] {source : σ} {devices : List Device}
  {config : Config} {earlier regions : List Region} {region : Region}
  {device : Device} {start : UInt64} {table result : Table} {name : Name}

/-! ## One region -/

theorem deviceOf?_eq_some_iff :
    deviceOf? devices region = some device ↔
      FirstCover devices region device := by
  have hcovers : ∀ other : Device,
      other.containsAddress region.offset region.length.toNat = true ↔
        other.Covers region :=
    fun other => other.containsAddress_iff _ _
  unfold deviceOf? FirstCover
  rw [List.find?_eq_some_iff_append, hcovers]
  constructor
  · rintro ⟨hdevice, before, after, hlist, hbefore⟩
    refine ⟨before, after, hlist, hdevice, ?_⟩
    intro other hmem hother
    have hfails := hbefore other hmem
    rw [(hcovers other).mpr hother] at hfails
    cases hfails
  · rintro ⟨before, after, hlist, hdevice, hbefore⟩
    refine ⟨hdevice, before, after, hlist, ?_⟩
    intro other hmem
    have hfails := hbefore other hmem
    rw [← hcovers, Bool.not_eq_true] at hfails
    simp [hfails]

theorem toNat_start_eq_startIn
    (hoffset : start.toNat + device.base.toNat = region.offset.toNat) :
    start.toNat = startIn device region := by
  unfold startIn
  omega

/-- A region passes all its tests exactly if it keeps apart from those before it,
its first device takes the configuration, and it starts on a block there. -/
theorem exists_regionStart_eq_ok_iff :
    (∃ start, regionStart devices config earlier region =
        .ok (device, start)) ↔
      (∀ other ∈ earlier, other.overlaps region = false) ∧
        FirstCover devices region device ∧
        config.totalSize ≤ region.length ∧
        config.validate device.block = .ok () ∧
        StartsOnBlock device region := by
  rw [← deviceOf?_eq_some_iff]
  constructor
  · rintro ⟨start, hstart⟩
    obtain ⟨hapart, hdevice, hfits, hvalid, haligned, hoffset⟩ :=
      regionStart_eq_ok_iff.mp hstart
    rw [Device.isBlockAligned_iff, toNat_start_eq_startIn hoffset] at haligned
    exact ⟨hapart, hdevice, hfits, hvalid, haligned⟩
  · rintro ⟨hapart, hdevice, hfits, hvalid, haligned⟩
    obtain ⟨start, _, hoffset⟩ := exists_sub_eq_ok hdevice
    have hblock : device.isBlockAligned start = true := by
      rw [Device.isBlockAligned_iff, toNat_start_eq_startIn hoffset]
      exact haligned
    exact ⟨start, regionStart_eq_ok_iff.mpr
      ⟨hapart, hdevice, hfits, hvalid, hblock, hoffset⟩⟩

theorem exists_addRegion_eq_ok_iff :
    (∃ table, addRegion devices config [] region Table.empty = .ok table) ↔
      ∃ device, FirstCover devices region device ∧
        config.extent config.databases ≤ region.length.toNat ∧
        config.validate device.block = .ok () ∧
        StartsOnBlock device region := by
  constructor
  · rintro ⟨table, hadded⟩
    have hword := extent_lt_of_addRegion hadded
    obtain ⟨device, start, hstart, _⟩ := addRegion_eq_ok_iff.mp hadded
    obtain ⟨_, hcover, hfits, hvalid, haligned⟩ :=
      exists_regionStart_eq_ok_iff.mp ⟨start, hstart⟩
    refine ⟨device, hcover, ?_, hvalid, haligned⟩
    rw [← Config.toNat_totalSize_of_lt hword]
    exact UInt64.le_iff_toNat_le.mp hfits
  · rintro ⟨device, hcover, hexact, hvalid, haligned⟩
    have hdevice := deviceOf?_eq_some_iff.mpr hcover
    obtain ⟨_, hend⟩ := deviceOf?_eq_some_bounds hdevice
    have hdeviceLength := device.length.toNat_lt_size
    have hfits : config.totalSize ≤ region.length := by
      rw [UInt64.le_iff_toNat_le, toNat_totalSize]
      omega
    have hnone : ∀ other ∈ ([] : List Region),
        other.overlaps region = false := by
      intro other hmem
      cases hmem
    obtain ⟨start, hstart⟩ := exists_regionStart_eq_ok_iff.mpr
      ⟨hnone, hcover, hfits, hvalid, haligned⟩
    have hoffset := (regionStart_eq_ok_iff.mp hstart).2.2.2.2.2
    have hroom : start.toNat + config.extent config.databases <
        UInt64.size := by omega
    obtain ⟨table, hadded, _⟩ := exists_addRegion_eq_ok hstart hroom
    exact ⟨table, hadded⟩

/-! ## With a database enabled -/

theorem exists_build_eq_ok_iff_of_enabled (hsome : config.databases ≠ []) :
    (∃ table, build source devices config = .ok table) ↔
      ∃ region device,
        RegionSource.find source Region.storageTag = [region] ∧
          FirstCover devices region device ∧
          config.extent config.databases ≤ region.length.toNat ∧
          config.validate device.block = .ok () ∧
          StartsOnBlock device region := by
  constructor
  · rintro ⟨table, hbuild⟩
    rcases build_eq_ok_cases hbuild with ⟨hnone, _⟩ |
      ⟨region, device, start, hregions, hstart, hadded⟩
    · exact absurd hnone hsome
    · have hregion : addRegion devices config [] region Table.empty =
          .ok table :=
        addRegion_eq_ok_iff.mpr ⟨device, start, hstart, hadded⟩
      obtain ⟨cover, hcover, hrest⟩ :=
        exists_addRegion_eq_ok_iff.mp ⟨table, hregion⟩
      exact ⟨region, cover, hregions, hcover, hrest⟩
  · rintro ⟨region, device, hregions, hrest⟩
    obtain ⟨table, hadded⟩ :=
      exists_addRegion_eq_ok_iff.mpr ⟨device, hrest⟩
    refine ⟨table, ?_⟩
    simp [build, hregions, addRegions, hadded]

theorem databases_of_build (hbuild : build source devices config = .ok table) :
    table.partitions.map Partition.database = config.databases := by
  rcases build_eq_ok_placed hbuild with ⟨hnone, hempty⟩ |
    ⟨region, device, _, _, hplaced⟩
  · rw [hnone, hempty]
    rfl
  · exact hplaced.databases_eq

/-! ## With no database enabled -/

theorem addRegion_of_disabled (hnone : config.databases = []) :
    addRegion devices config earlier region table = .ok result ↔
      (∃ device start, regionStart devices config earlier region =
        .ok (device, start)) ∧ result = table := by
  rw [addRegion_eq_ok_iff]
  simp only [hnone, addPartitions, Outcome.ok.injEq]
  constructor
  · rintro ⟨device, start, hstart, hsame⟩
    exact ⟨⟨device, start, hstart⟩, hsame.symm⟩
  · rintro ⟨⟨device, start, hstart⟩, hsame⟩
    exact ⟨device, start, hstart, hsame.symm⟩

theorem exists_regionStart_iff_of_disabled (hnone : config.databases = []) :
    (∃ device start, regionStart devices config earlier region =
        .ok (device, start)) ↔
      (∀ other ∈ earlier, other.overlaps region = false) ∧
        (∃ device, FirstCover devices region device ∧
          StartsOnBlock device region) ∧
        config.checkValues = .ok () := by
  have hfits : config.totalSize ≤ region.length := by
    rw [UInt64.le_iff_toNat_le, toNat_totalSize, hnone, Config.extent_nil,
      Nat.zero_min]
    exact Nat.zero_le _
  have hvalidate : ∀ block, config.validate block = .ok () ↔
      config.checkValues = .ok () := by
    intro block
    rw [Config.validate_eq_ok_iff, hnone]
    simp
  constructor
  · rintro ⟨device, hstart⟩
    obtain ⟨hapart, hcover, _, hvalid, haligned⟩ :=
      exists_regionStart_eq_ok_iff.mp hstart
    exact ⟨hapart, ⟨device, hcover, haligned⟩, (hvalidate _).mp hvalid⟩
  · rintro ⟨hapart, ⟨device, hcover, haligned⟩, hvalues⟩
    exact ⟨device, exists_regionStart_eq_ok_iff.mpr
      ⟨hapart, hcover, hfits, (hvalidate _).mpr hvalues, haligned⟩⟩

theorem addRegions_eq_ok_iff_of_disabled (hnone : config.databases = []) :
    addRegions devices config earlier regions table = .ok result ↔
      result = table ∧
        (∀ region ∈ regions, ∀ other ∈ earlier,
          other.overlaps region = false) ∧
        regions.Pairwise (fun before after => before.overlaps after = false) ∧
        ∀ region ∈ regions,
          (∃ device, FirstCover devices region device ∧
            StartsOnBlock device region) ∧ config.checkValues = .ok () := by
  induction regions generalizing earlier with
  | nil =>
      constructor
      · intro hadded
        cases hadded
        simp
      · rintro ⟨rfl, _⟩
        rfl
  | cons region rest ih =>
      simp only [addRegions, Outcome.bind_eq_ok_iff,
        addRegion_of_disabled hnone, exists_regionStart_iff_of_disabled hnone,
        List.pairwise_cons, List.forall_mem_cons]
      constructor
      · rintro ⟨next, ⟨⟨hapart, hregion⟩, rfl⟩, hrest⟩
        obtain ⟨hsame, hearlier, hpairwise, hall⟩ := ih.mp hrest
        refine ⟨hsame, ⟨hapart, ?_⟩, ⟨?_, hpairwise⟩, hregion, hall⟩
        · intro later hlater other hother
          exact hearlier later hlater other (List.mem_append_left _ hother)
        · intro later hlater
          apply hearlier later hlater region
          simp
      · rintro ⟨rfl, ⟨hapart, hearlier⟩, ⟨hfirst, hpairwise⟩, hregion, hall⟩
        refine ⟨result, ⟨⟨hapart, hregion⟩, rfl⟩, ih.mpr ⟨rfl, ?_, hpairwise,
          hall⟩⟩
        intro later hlater other hother
        rcases List.mem_append.mp hother with hold | hnew
        · exact hearlier later hlater other hold
        · rw [List.mem_singleton.mp hnew]
          exact hfirst later hlater

theorem build_eq_ok_iff_of_disabled (hnone : config.databases = []) :
    build source devices config = .ok table ↔
      table = Table.empty ∧
        RegionSource.find source Region.storageTag ≠ [] ∧
        (RegionSource.find source Region.storageTag).Pairwise
          (fun before after => before.overlaps after = false) ∧
        (∀ region ∈ RegionSource.find source Region.storageTag,
          ∃ device, FirstCover devices region device ∧
            StartsOnBlock device region) ∧
        config.checkValues = .ok () := by
  unfold build
  cases hregions : RegionSource.find source Region.storageTag with
  | nil => simp
  | cons region rest =>
      simp only [addRegions_eq_ok_iff_of_disabled hnone]
      constructor
      · rintro ⟨hempty, _, hpairwise, hall⟩
        refine ⟨hempty, by simp, hpairwise, ?_, ?_⟩
        · intro other hmem
          exact (hall other hmem).1
        · exact (hall region List.mem_cons_self).2
      · rintro ⟨hempty, _, hpairwise, hall, hvalues⟩
        refine ⟨hempty, ?_, hpairwise, ?_⟩
        · intro other _ before hmem
          cases hmem
        · intro other hmem
          exact ⟨hall other hmem, hvalues⟩

/-! ## Taken names -/

theorem eq_of_duplicateName_of_named {database : Database}
    {later : List Database} {existing : Partition}
    (hdatabases : config.databases = database :: later)
    (hmem : existing ∈ table.partitions)
    (hname : existing.name = config.partitionName database)
    (herror : addRegions devices config earlier (region :: regions) table =
      .error (.duplicateName name)) :
    name = config.partitionName database := by
  simp only [addRegions, Outcome.bind_eq_error_iff] at herror
  rcases herror with hregion | ⟨next, hadded, _⟩
  · simp only [addRegion, Outcome.bind_eq_error_iff] at hregion
    rcases hregion with htests | ⟨⟨device, start⟩, _, hrow⟩
    · exact absurd htests regionStart_ne_duplicateName
    · rw [hdatabases, addPartitions_of_named hmem hname] at hrow
      cases hrow
      rfl
  · have henabled : database ∈ config.databases := by
      rw [hdatabases]
      exact List.mem_cons_self
    exact absurd hadded (addRegion_ne_ok_of_named hmem henabled hname)

theorem addRegion_empty_ne_duplicateName :
    addRegion devices config earlier region Table.empty ≠
      .error (.duplicateName name) := by
  intro herror
  simp only [addRegion, Outcome.bind_eq_error_iff] at herror
  rcases herror with htests | ⟨⟨device, start⟩, hstart, hrow⟩
  · exact regionStart_ne_duplicateName htests
  · have hnames := names_nodup_of_regionStart hstart
    exact addPartitions_empty_ne_error hnames hrow

theorem databases_ne_nil_of_duplicateName
    (herror : addRegions devices config earlier regions table =
      .error (.duplicateName name)) : config.databases ≠ [] := by
  intro hnone
  rcases addRegions_eq_error herror with ⟨before, region, _, htests⟩ |
    ⟨database, hmem, _⟩
  · exact regionStart_ne_duplicateName htests
  · rw [hnone] at hmem
    cases hmem

/-- A name is taken only when a second region is laid out, and then it is the first
one of its row. -/
theorem regions_of_duplicateName
    (herror : build source devices config = .error (.duplicateName name)) :
    2 ≤ (RegionSource.find source Region.storageTag).length ∧
      config.databases.head?.map config.partitionName = some name := by
  unfold build at herror
  cases hregions : RegionSource.find source Region.storageTag with
  | nil => simp [hregions] at herror
  | cons first rest =>
      simp only [hregions] at herror
      obtain ⟨database, later, hdatabases⟩ := List.exists_cons_of_ne_nil
        (databases_ne_nil_of_duplicateName herror)
      rw [addRegions, Outcome.bind_eq_error_iff] at herror
      rcases herror with hfirst | ⟨next, hfirst, hrest⟩
      · exact absurd hfirst addRegion_empty_ne_duplicateName
      · obtain ⟨existing, hmem, hname⟩ :=
          exists_named_of_addRegion hdatabases hfirst
        cases rest with
        | nil => cases hrest
        | cons second others =>
            have htaken :=
              eq_of_duplicateName_of_named hdatabases hmem hname hrest
            rw [hdatabases, htaken]
            exact ⟨by simp, rfl⟩

/-! ## Any layout -/

/-- With a database enabled a layout is accepted exactly if there is one storage
region and, on the first device that covers it, both partitions fit into it, the
configuration is valid and the region starts on a block; the table then has one
partition for each enabled database.  With none enabled the empty table is given
exactly if there are storage regions, none of which overlaps an earlier one, each
starts on a block of the first device that covers it, and both codes of the
configuration are known.  A name is reported as taken only with a database enabled
and two storage regions at least, and it is the first enabled database's. -/
theorem accepts_iff_layout_valid (source : σ) (devices : List Device)
    (config : Config) :
    ((∃ database, config.isEnabled database = true) →
      ((∃ table, build source devices config = .ok table) ↔
        ∃ region device,
          RegionSource.find source Region.storageTag = [region] ∧
            FirstCover devices region device ∧
            config.kvSize.toNat + config.tsSize.toNat ≤
              region.length.toNat ∧
            config.validate device.block = .ok () ∧
            StartsOnBlock device region) ∧
      ∀ table, build source devices config = .ok table →
        table.partitions.map Partition.database = config.databases) ∧
    ((∀ database, config.isEnabled database = false) → ∀ table,
      build source devices config = .ok table ↔
        table = Table.empty ∧
          RegionSource.find source Region.storageTag ≠ [] ∧
          (RegionSource.find source Region.storageTag).Pairwise
            (fun before after => before.overlaps after = false) ∧
          (∀ region ∈ RegionSource.find source Region.storageTag,
            ∃ device, FirstCover devices region device ∧
              StartsOnBlock device region) ∧
          (∃ granularity, config.granularity = .ok granularity) ∧
          ∃ width, config.timestampWidth = .ok width) ∧
    ∀ name, build source devices config = .error (.duplicateName name) →
      2 ≤ (RegionSource.find source Region.storageTag).length ∧
        config.databases.head?.map config.partitionName = some name := by
  refine ⟨?_, ?_, fun name => regions_of_duplicateName⟩
  · rintro ⟨database, henabled⟩
    have hsome : config.databases ≠ [] := by
      intro hnone
      have hdisabled := Config.databases_eq_nil_iff.mp hnone database
      rw [henabled] at hdisabled
      cases hdisabled
    rw [← Config.extent_databases]
    exact ⟨exists_build_eq_ok_iff_of_enabled hsome,
      fun table => databases_of_build⟩
  · intro hdisabled table
    have hnone := Config.databases_eq_nil_iff.mpr hdisabled
    rw [build_eq_ok_iff_of_disabled hnone, Config.checkValues_eq_ok_iff,
      Config.namesClash_eq_false_of_disabled hnone]
    simp only [and_true]

end Registry

namespace SmallBoard

/-- The small device with another sixty-four bytes behind it. -/
def wideDevice : Device := { device with length := 128 }

def secondRegion : Region := { region with offset := 4160 }

def pairSource : RegionList := ⟨[region, secondRegion], by decide⟩

end SmallBoard

/-- A board with one region takes the small configuration.  One with two regions
takes a configuration without databases and refuses the small one over the name of
the key-value partition. -/
theorem accepts_iff_layout_valid_smallBoard :
    (∃ table, Registry.build SmallBoard.source [SmallBoard.wideDevice]
        SmallBoard.config = .ok table ∧
      table.partitions.map Partition.database = [.kv, .ts]) ∧
    Registry.build SmallBoard.pairSource [SmallBoard.wideDevice]
        (.ofValues 8 32 0 0) = .ok Table.empty ∧
    ∃ name, Registry.build SmallBoard.pairSource [SmallBoard.wideDevice]
        SmallBoard.config = .error (.duplicateName name) ∧
      some Config.defaultKvName = some name := by
  have hcovered : ∀ region ∈ [SmallBoard.region, SmallBoard.secondRegion],
      Registry.FirstCover [SmallBoard.wideDevice] region
          SmallBoard.wideDevice ∧
        Registry.StartsOnBlock SmallBoard.wideDevice region := by
    simp only [List.forall_mem_cons, ← Registry.deviceOf?_eq_some_iff,
      Registry.StartsOnBlock]
    refine ⟨⟨rfl, by decide⟩, ⟨rfl, by decide⟩, ?_⟩
    simp
  have hone := Registry.accepts_iff_layout_valid SmallBoard.source
    [SmallBoard.wideDevice] SmallBoard.config
  have htwo := Registry.accepts_iff_layout_valid SmallBoard.pairSource
    [SmallBoard.wideDevice] SmallBoard.config
  have hnone := Registry.accepts_iff_layout_valid SmallBoard.pairSource
    [SmallBoard.wideDevice] (.ofValues 8 32 0 0)
  refine ⟨?_, ?_, ?_⟩
  · obtain ⟨haccepts, hdatabases⟩ := hone.1 ⟨.kv, rfl⟩
    obtain ⟨hcover, hstarts⟩ := hcovered SmallBoard.region (by simp)
    obtain ⟨table, hbuild⟩ := haccepts.mpr ⟨SmallBoard.region,
      SmallBoard.wideDevice, rfl, hcover, by decide, rfl, hstarts⟩
    exact ⟨table, hbuild, hdatabases table hbuild⟩
  · apply (hnone.2.1 (fun database => by cases database <;> rfl)
      Table.empty).mpr
    refine ⟨rfl, by decide, by decide, ?_, ⟨.bits8, rfl⟩, ⟨.bits32, rfl⟩⟩
    intro region hmem
    exact ⟨SmallBoard.wideDevice, hcovered region hmem⟩
  · exact ⟨Config.defaultKvName, rfl, (htwo.2.2 _ rfl).2⟩

end FlashStorage
