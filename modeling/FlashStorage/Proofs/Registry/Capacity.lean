import FlashStorage.Proofs.Registry.Commits
import FlashStorage.Proofs.Registry.Refusals

/-!
# The room that a layout asks for

A region is held against the sum of both partition sizes, and that sum stays at the
largest word.  Where the exact sum is a word the comparison is exact, and then no
cursor of the layout leaves the words either.  The only region that a larger sum gets
past is one of the largest length that there is.  Such a region starts where its
device does, so nothing after the comparison stops the layout before its last cursor,
and there it halts.
-/

namespace FlashStorage.Registry

variable {σ : Type} [RegionSource σ] {source : σ} {devices : List Device}
  {config : Config} {earlier before after regions : List Region}
  {region : Region} {device : Device} {start : UInt64} {table : Table}
  {reason : Halt}

/-! ## The total against the length of a region -/

theorem toNat_totalSize (config : Config) :
    config.totalSize.toNat =
      min (config.extent config.databases) (UInt64.size - 1) := by
  rw [Config.extent_databases, Config.totalSize, Word.toNat_saturatingAdd]

theorem eq_largest_of_toNat_ge {word : UInt64}
    (hword : UInt64.size - 1 ≤ word.toNat) : word = Word.largest := by
  have hlt := word.toNat_lt_size
  rw [← UInt64.toNat_inj, Word.toNat_largest]
  omega

/-- A sum that is too large for a region is seen to be, unless the region has the
largest length. -/
theorem length_lt_totalSize
    (hlarge : region.length.toNat < config.extent config.databases)
    (hlength : region.length ≠ Word.largest) :
    region.length < config.totalSize := by
  have hshort : region.length.toNat < UInt64.size - 1 := by
    by_contra hge
    exact hlength (eq_largest_of_toNat_ge (Nat.le_of_not_lt hge))
  rw [UInt64.lt_iff_toNat_lt, toNat_totalSize]
  omega

/-- A region in which a row ends behind the last word is as long as regions get and
starts where its device does. -/
theorem largest_of_row_no_word
    (hstart : regionStart devices config earlier region = .ok (device, start))
    (hword : UInt64.size ≤ start.toNat + config.extent config.databases) :
    region.length = Word.largest ∧
      UInt64.size ≤ config.extent config.databases := by
  obtain ⟨_, hdevice, hfits, _, _, hoffset⟩ := regionStart_eq_ok_iff.mp hstart
  obtain ⟨_, hend⟩ := deviceOf?_eq_some_bounds hdevice
  have hdeviceLength := device.length.toNat_lt_size
  have htotal : min (config.extent config.databases) (UInt64.size - 1) ≤
      region.length.toNat := by
    rw [← toNat_totalSize]
    exact UInt64.le_iff_toNat_le.mp hfits
  have hextent : UInt64.size ≤ config.extent config.databases := by omega
  exact ⟨eq_largest_of_toNat_ge (by omega), hextent⟩

/-- A region of the largest length passes every test that the configuration does
not fail. -/
theorem regionStart_of_largest (hsome : config.databases ≠ [])
    (hdevice : deviceOf? devices region = some device)
    (hlength : region.length = Word.largest)
    (hvalid : config.validate device.block = .ok ()) :
    regionStart devices config [] region = .ok (device, 0) := by
  obtain ⟨hbase, hend⟩ := deviceOf?_eq_some_bounds hdevice
  have hdeviceLength := device.length.toNat_lt_size
  have hregionLength : region.length.toNat = UInt64.size - 1 := by
    rw [hlength, Word.toNat_largest]
  have hblock : 0 < device.block.toNat := by
    obtain ⟨database, rest, hdatabases⟩ := List.exists_cons_of_ne_nil hsome
    have hmem : database ∈ config.databases := by simp [hdatabases]
    have hwhole := (Config.validate_eq_ok_iff.mp hvalid).2 database hmem
    exact (Config.isWholeBlocks_iff.mp hwhole).1
  rw [regionStart_eq_ok_iff]
  refine ⟨?_, hdevice, ?_, hvalid, ?_, ?_⟩
  · intro other hmem
    cases hmem
  · rw [UInt64.le_iff_toNat_le, toNat_totalSize]
    omega
  · rw [Device.isBlockAligned_iff]
    exact ⟨hblock, by simp⟩
  · -- The device is no longer than the region, so both start at the same byte.
    have hzero : (0 : UInt64).toNat = 0 := rfl
    omega

/-! ## Sums of a whole layout -/

/-- Only sizes that add up to no word make a layout halt. -/
theorem addRegions_eq_halt
    (hhalt : addRegions devices config earlier regions table =
      .halt reason) :
    reason = .addOverflow ∧
      UInt64.size ≤ config.extent config.databases := by
  induction regions generalizing earlier table with
  | nil => cases hhalt
  | cons region rest ih =>
      simp only [addRegions, addRegion, Outcome.bind_eq_halt_iff] at hhalt
      rcases hhalt with (htests | ⟨⟨device, start⟩, hstart, hadded⟩) |
        ⟨next, _, hrest⟩
      · exact absurd htests regionStart_ne_halt
      · obtain ⟨hreason, hword⟩ := addPartitions_eq_halt hadded
        exact ⟨hreason, (largest_of_row_no_word hstart hword).2⟩
      · exact ih hrest

theorem extent_lt_of_addRegion
    (hadded : addRegion devices config earlier region table = .ok result) :
    config.extent config.databases < UInt64.size := by
  obtain ⟨device, start, _, hpartitions⟩ := addRegion_eq_ok_iff.mp hadded
  have hroom := (addPartitions_eq_ok_iff.mp hpartitions).2.2.1
  omega

theorem eq_nil_of_addRegions
    (hword : UInt64.size ≤ config.extent config.databases)
    (hadded : addRegions devices config earlier before table = .ok result) :
    before = [] := by
  cases before with
  | nil => rfl
  | cons first rest =>
      simp only [addRegions, Outcome.bind_eq_ok_iff] at hadded
      obtain ⟨next, hfirst, _⟩ := hadded
      have hlt := extent_lt_of_addRegion hfirst
      omega

theorem databases_ne_nil_of_extent_pos
    (hpos : 0 < config.extent config.databases) : config.databases ≠ [] := by
  intro hnone
  rw [hnone] at hpos
  exact Nat.lt_irrefl 0 hpos

theorem addRegions_of_largest
    (hdevice : deviceOf? devices region = some device)
    (hlength : region.length = Word.largest)
    (hword : UInt64.size ≤ config.extent config.databases)
    (hvalid : config.validate device.block = .ok ()) :
    addRegions devices config [] (region :: after) Table.empty =
      .halt .addOverflow := by
  have hsize : 0 < UInt64.size := by decide
  have hsome : config.databases ≠ [] :=
    databases_ne_nil_of_extent_pos (by omega)
  have hstart := regionStart_of_largest hsome hdevice hlength hvalid
  have hhalt := addRegion_eq_halt_of_no_word hstart (by omega)
  rw [addRegions, hhalt]
  rfl

theorem build_eq_halt_iff :
    build source devices config = .halt reason ↔
      reason = .addOverflow ∧
        ∃ region rest device,
          RegionSource.find source Region.storageTag = region :: rest ∧
            deviceOf? devices region = some device ∧
            region.length = Word.largest ∧
            UInt64.size ≤ config.extent config.databases ∧
            config.validate device.block = .ok () := by
  unfold build
  cases hregions : RegionSource.find source Region.storageTag with
  | nil => simp
  | cons first rest =>
      simp only [List.cons.injEq]
      constructor
      · intro hhalt
        obtain ⟨hreason, hword⟩ := addRegions_eq_halt hhalt
        simp only [addRegions, addRegion, Outcome.bind_eq_halt_iff] at hhalt
        rcases hhalt with (htests | ⟨⟨device, start⟩, hstart, _⟩) |
          ⟨next, hfirst, _⟩
        · exact absurd htests regionStart_ne_halt
        · have hlength := (largest_of_row_no_word hstart (by omega)).1
          obtain ⟨_, hdevice, _, hvalid, _, _⟩ :=
            regionStart_eq_ok_iff.mp hstart
          exact ⟨hreason, first, rest, device, ⟨rfl, rfl⟩, hdevice, hlength,
            hword, hvalid⟩
        · have hlt := extent_lt_of_addRegion hfirst
          omega
      · rintro ⟨rfl, region, others, device, ⟨rfl, rfl⟩, hdevice, hlength,
          hword, hvalid⟩
        exact addRegions_of_largest hdevice hlength hword hvalid

theorem build_of_reached
    (hregions : RegionSource.find source Region.storageTag =
      before ++ region :: after)
    (hreached : addRegions devices config [] before Table.empty = .ok table) :
    build source devices config =
      addRegions devices config before (region :: after) table := by
  have hwhole := addRegions_append devices config [] before (region :: after)
    Table.empty
  rw [hreached, Outcome.ok_bind, List.nil_append] at hwhole
  rw [← hwhole, ← hregions]
  unfold build
  cases hlist : RegionSource.find source Region.storageTag with
  | nil => simp [hlist] at hregions
  | cons first rest => rfl

/-- A layout halts exactly for sizes that add up to no word over a first storage
region of the largest length.  Wherever it reaches a free region of some device that
is too small in exact arithmetic, it is refused for the region's size, except over a
region of the largest length: there it is refused for the configuration alone and
halts at its last sum otherwise. -/
theorem size_check_exact_below_largest :
    (∀ reason, build source devices config = .halt reason ↔
      reason = .addOverflow ∧
        ∃ region rest device,
          RegionSource.find source Region.storageTag = region :: rest ∧
            deviceOf? devices region = some device ∧
            region.length = Word.largest ∧
            UInt64.size ≤ config.kvSize.toNat + config.tsSize.toNat ∧
            config.validate device.block = .ok ()) ∧
    ∀ before region after device table,
      RegionSource.find source Region.storageTag =
          before ++ region :: after →
      addRegions devices config [] before Table.empty = .ok table →
      (∀ other ∈ before, other.overlaps region = false) →
      deviceOf? devices region = some device →
      region.length.toNat < config.kvSize.toNat + config.tsSize.toNat →
      build source devices config =
        if region.length = Word.largest then
          match config.validate device.block with
          | .ok _ => .halt .addOverflow
          | .error cause => .error (.config cause)
        else
          .error (.insufficientSpace region.name config.totalSize
            region.length) := by
  rw [← Config.extent_databases]
  refine ⟨fun reason => build_eq_halt_iff, ?_⟩
  intro before region after device table hregions hreached hapart hdevice
    hlarge
  rw [build_of_reached hregions hreached]
  by_cases hlength : region.length = Word.largest
  · have hword : UInt64.size ≤ config.extent config.databases := by
      rw [hlength, Word.toNat_largest] at hlarge
      omega
    have hfirst : before = [] := eq_nil_of_addRegions hword hreached
    subst hfirst
    cases hreached
    rw [if_pos hlength]
    cases hvalid : config.validate device.block with
    | ok _ => exact addRegions_of_largest hdevice hlength hword hvalid
    | error cause =>
        have hfits : config.totalSize ≤ region.length := by
          rw [hlength, UInt64.le_iff_toNat_le, toNat_totalSize,
            Word.toNat_largest]
          exact Nat.min_le_right _ _
        have htests := regionStart_of_invalid hapart hdevice hfits hvalid
        simp [addRegions, addRegion, htests]
  · have hseen := length_lt_totalSize hlarge hlength
    have htests := regionStart_of_insufficient hapart hdevice hseen
    rw [if_neg hlength]
    simp [addRegions, addRegion, htests]

end FlashStorage.Registry

namespace FlashStorage

/-- Both cases on sizes of half the address space each: the small region is refused
for its size, the one of the largest length lets them through. -/
theorem size_check_exact_below_largest_smallBoard :
    Registry.build SmallBoard.source [SmallBoard.device]
          SmallBoard.hugeInputs.config =
        .error (.insufficientSpace SmallBoard.region.name Word.largest 64) ∧
      SmallBoard.hugeInputs.layout = .halt .addOverflow := by
  have hsmall := @Registry.size_check_exact_below_largest _ _
    SmallBoard.source [SmallBoard.device] SmallBoard.hugeInputs.config
  have hhuge := @Registry.size_check_exact_below_largest _ _
    SmallBoard.hugeInputs.source SmallBoard.hugeInputs.devices
    SmallBoard.hugeInputs.config
  refine ⟨?_, ?_⟩
  · exact hsmall.2 [] SmallBoard.region [] SmallBoard.device Table.empty
      rfl rfl (by simp) rfl (by decide)
  · refine (hhuge.1 .addOverflow).mpr ⟨rfl, ?_⟩
    exact ⟨_, [], _, rfl, rfl, rfl, by decide, rfl⟩

/-- The only storage region is free, lies in its device and is shorter than both
partitions together, and yet the layout does not answer. -/
theorem hugeInputs_layout_halts :
    ∃ region device,
      SmallBoard.hugeInputs.storageRegions = [region] ∧
        Registry.deviceOf? SmallBoard.hugeInputs.devices region =
          some device ∧
        region.length.toNat <
          SmallBoard.hugeInputs.config.kvSize.toNat +
            SmallBoard.hugeInputs.config.tsSize.toNat ∧
        SmallBoard.hugeInputs.layout = .halt .addOverflow := by
  exact ⟨_, _, rfl, rfl, by decide, rfl⟩

end FlashStorage
