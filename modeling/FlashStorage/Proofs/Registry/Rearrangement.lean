import FlashStorage.Proofs.Registry.Acceptance
import Mathlib.Data.List.Pairwise

/-!
# What a layout does not depend on

A layout asks of the devices only which one holds each storage region, and of the board
only its storage regions in their order.  Devices that share no address cannot both hold
a region that has any bytes, so which of them comes first in the list is of no account.
Nor are devices that hold no storage region, or regions with another tag, wherever in
their lists they stand.
-/

namespace FlashStorage

/-! ## Lists with idle items -/

/-- Two lists that are the same but for idle items, each of which is in one of them
only. -/
inductive SameBut {α : Type} (idle : α → Prop) : List α → List α → Prop where
  | nil : SameBut idle [] []
  | keep {one other : List α} (item : α) (hrest : SameBut idle one other) :
      SameBut idle (item :: one) (item :: other)
  | insert {one other : List α} {item : α} (hidle : idle item)
      (hrest : SameBut idle one other) : SameBut idle one (item :: other)
  | remove {one other : List α} {item : α} (hidle : idle item)
      (hrest : SameBut idle one other) : SameBut idle (item :: one) other

namespace SameBut

variable {α : Type} {idle : α → Prop} {one other : List α} {test : α → Bool}

theorem filter_eq (hsame : SameBut idle one other)
    (hfails : ∀ item, idle item → test item = false) :
    one.filter test = other.filter test := by
  induction hsame with
  | nil => rfl
  | keep item _ ih => rw [List.filter_cons, List.filter_cons, ih]
  | insert hidle _ ih => simp [hfails _ hidle, ih]
  | remove hidle _ ih => simp [hfails _ hidle, ih]

theorem find?_eq (hsame : SameBut idle one other)
    (hfails : ∀ item, idle item → test item = false) :
    one.find? test = other.find? test := by
  rw [← List.head?_filter, ← List.head?_filter, hsame.filter_eq hfails]

end SameBut

/-! ## The device of a region -/

namespace Device

variable {device other : Device} {region : Region}

/-- No address belongs to both devices. -/
def Apart (device other : Device) : Prop :=
  ∀ address ∈ device.zone, address ∉ other.zone

theorem Apart.symm (hapart : device.Apart other) : other.Apart device := by
  intro address hother hdevice
  exact hapart address hdevice hother

instance : Std.Symm Apart := ⟨fun _ _ => Apart.symm⟩

theorem Covers.offset_mem_zone (hcovers : device.Covers region)
    (hlength : 0 < region.length.toNat) :
    region.offset.toNat ∈ device.zone := by
  obtain ⟨hbase, hend⟩ := hcovers
  exact ⟨hbase, by omega⟩

end Device

namespace Registry

variable {σ τ : Type} [RegionSource σ] [RegionSource τ] {source : σ}
  {changed : τ} {devices others : List Device} {config : Config}
  {earlier regions : List Region} {region : Region} {device : Device}
  {table : Table}

theorem covers_of_deviceOf?
    (hfound : deviceOf? devices region = some device) :
    device ∈ devices ∧ device.Covers region :=
  ⟨List.mem_of_find?_eq_some hfound, deviceOf?_eq_some_bounds hfound⟩

/-- Among devices that share no address, a region that has any bytes is on the one
device that covers it, wherever that one stands: any other that covers it would have
its first address too. -/
theorem deviceOf?_eq_some_iff_of_apart
    (hapart : devices.Pairwise Device.Apart)
    (hlength : 0 < region.length.toNat) :
    deviceOf? devices region = some device ↔
      device ∈ devices ∧ device.Covers region := by
  constructor
  · exact covers_of_deviceOf?
  · rintro ⟨hmem, hcovers⟩
    cases hfound : deviceOf? devices region with
    | none =>
        have hfails := List.find?_eq_none.mp hfound device hmem
        exact absurd ((device.containsAddress_iff _ _).mpr hcovers) hfails
    | some found =>
        obtain ⟨hfoundMem, hfoundCovers⟩ := covers_of_deviceOf? hfound
        by_cases hsame : found = device
        · rw [hsame]
        · have hfoundApart : found.Apart device :=
            hapart.forall hfoundMem hmem hsame
          have hshared := hfoundCovers.offset_mem_zone hlength
          exact absurd (hcovers.offset_mem_zone hlength) (hfoundApart _ hshared)

theorem deviceOf?_of_perm (hapart : devices.Pairwise Device.Apart)
    (hperm : devices.Perm others) (hlength : 0 < region.length.toNat) :
    deviceOf? devices region = deviceOf? others region := by
  have hothers : others.Pairwise Device.Apart :=
    hperm.pairwise hapart Device.Apart.symm
  apply Option.ext
  intro device
  rw [deviceOf?_eq_some_iff_of_apart hapart hlength,
    deviceOf?_eq_some_iff_of_apart hothers hlength, hperm.mem_iff]

theorem deviceOf?_of_sameBut
    (hsame : SameBut (fun device => ∀ region ∈ regions, ¬ device.Covers region)
      devices others) (hmem : region ∈ regions) :
    deviceOf? devices region = deviceOf? others region := by
  apply hsame.find?_eq
  intro device hidle
  rw [← Bool.not_eq_true, Device.containsAddress_iff]
  exact hidle region hmem

/-! ## Layouts over the same devices for every region -/

theorem addRegions_congr
    (hdevices : ∀ region ∈ regions,
      deviceOf? devices region = deviceOf? others region) :
    addRegions devices config earlier regions table =
      addRegions others config earlier regions table := by
  induction regions generalizing earlier table with
  | nil => rfl
  | cons region rest ih =>
      rw [List.forall_mem_cons] at hdevices
      have hfirst : addRegion devices config earlier region table =
          addRegion others config earlier region table := by
        simp only [addRegion, regionStart, hdevices.1]
      rw [addRegions, addRegions, hfirst]
      congr 1
      funext next
      exact ih hdevices.2

theorem build_congr
    (hregions : RegionSource.find source Region.storageTag =
      RegionSource.find changed Region.storageTag)
    (hdevices : ∀ region ∈ RegionSource.find source Region.storageTag,
      deviceOf? devices region = deviceOf? others region) :
    build source devices config = build changed others config := by
  unfold build
  rw [← hregions]
  cases hlist : RegionSource.find source Region.storageTag with
  | nil => rfl
  | cons region rest =>
      rw [hlist] at hdevices
      exact addRegions_congr hdevices

theorem find_of_sameBut {list changed : RegionList}
    (hsame : SameBut (fun region : Region => region.tag ≠ Region.storageTag)
      list.regions changed.regions) :
    RegionSource.find list Region.storageTag =
      RegionSource.find changed Region.storageTag := by
  apply hsame.filter_eq
  intro region hidle
  exact beq_false_of_ne hidle

/-- Where the storage regions have bytes and the devices share no address, the layout
comes to the same for every order of the devices.  Devices that cover no storage region
may be put in and taken out anywhere, and so may regions of another tag. -/
theorem layout_of_rearranged (source : σ) (devices : List Device)
    (config : Config)
    (hlength : ∀ region ∈ RegionSource.find source Region.storageTag,
      0 < region.length.toNat)
    (hapart : devices.Pairwise Device.Apart) :
    (∀ others, devices.Perm others →
      build source devices config = build source others config) ∧
    (∀ others,
      SameBut (fun device =>
        ∀ region ∈ RegionSource.find source Region.storageTag,
          ¬ device.Covers region) devices others →
      build source devices config = build source others config) ∧
    ∀ list changed : RegionList,
      SameBut (fun region : Region => region.tag ≠ Region.storageTag)
        list.regions changed.regions →
      build list devices config = build changed devices config := by
  refine ⟨?_, ?_, ?_⟩
  · intro others hperm
    apply build_congr rfl
    intro region hmem
    exact deviceOf?_of_perm hapart hperm (hlength region hmem)
  · intro others hsame
    apply build_congr rfl
    intro region hmem
    exact deviceOf?_of_sameBut hsame hmem
  · intro list changed hsame
    apply build_congr (find_of_sameBut hsame)
    intro region _
    rfl

end Registry

namespace SmallBoard

/-- A device of the same kind, behind the small one. -/
def farDevice : Device := { device with name := ⟨"nor1", by decide⟩, base := 8192 }

/-- The small board with a region of another use in front. -/
def sharedSource : RegionList :=
  ⟨[{ region with tag := 1, offset := 0 }, region], by decide⟩

theorem apart_farDevice : [device, farDevice].Pairwise Device.Apart := by
  rw [List.pairwise_pair]
  intro address hdevice hfar
  have hend : address < 4096 + 64 := hdevice.2
  have hstart : 8192 ≤ address := hfar.1
  omega

end SmallBoard

/-- The small table comes out for either order of two devices, without the one that is
not needed, and with a region of another use. -/
theorem layout_of_rearranged_smallBoard :
    Registry.build SmallBoard.source [SmallBoard.farDevice, SmallBoard.device]
        SmallBoard.config = .ok SmallBoard.table ∧
      Registry.build SmallBoard.source [SmallBoard.device] SmallBoard.config =
        .ok SmallBoard.table ∧
      Registry.build SmallBoard.sharedSource
        [SmallBoard.device, SmallBoard.farDevice] SmallBoard.config =
          .ok SmallBoard.table := by
  have hbase : Registry.build SmallBoard.source
      [SmallBoard.device, SmallBoard.farDevice] SmallBoard.config =
        .ok SmallBoard.table := rfl
  obtain ⟨hperm, hdevices, hregions⟩ := Registry.layout_of_rearranged
    SmallBoard.source [SmallBoard.device, SmallBoard.farDevice]
    SmallBoard.config (by decide) SmallBoard.apart_farDevice
  have hswap := hperm [SmallBoard.farDevice, SmallBoard.device] (.swap _ _ [])
  refine ⟨hswap.symm.trans hbase, (hdevices _ ?_).symm.trans hbase,
    (hregions SmallBoard.source _ ?_).symm.trans hbase⟩
  · apply SameBut.keep
    apply SameBut.remove _ .nil
    intro region hmem hcovers
    rw [List.mem_singleton.mp hmem] at hcovers
    have hstart : 8192 ≤ 4096 := hcovers.1
    omega
  · apply SameBut.insert
    · decide
    · exact .keep _ .nil

end FlashStorage
