import FlashStorage.BringUp
import FlashStorage.Proofs.Adapter.Routing
import FlashStorage.Proofs.Registry.History

/-!
# What a successful start leaves behind

Bringing storage up compares the configuration with the device, brings the chip
up and loads the registry.  Together the three steps say that the adapter is up and
that the table holds the partitions of the configuration on the adapter's device.
-/

namespace FlashStorage

section

variable {χ σ : Type} [Chip χ] [RegionSource σ] {config : Config} {source : σ}
  {device : Device} {adapter ready : Adapter χ} {registry committed : Registry}
  {table : Table}

theorem Config.suits_eq_ok_iff :
    config.suits device = .ok () ↔
      config.granularity = .ok device.granularity ∧
        ∃ width, config.timestampWidth = .ok width := by
  unfold Config.suits
  cases config.granularity with
  | error error => simp [bind, Except.bind]
  | ok granularity =>
      by_cases hsame : granularity = device.granularity
      · cases config.timestampWidth with
        | error error => simp [bind, Except.bind, hsame]
        | ok width => simp [bind, Except.bind, hsame]
      · simp [bind, Except.bind, hsame]

/-- Storage comes up exactly if the configuration suits the device, the chip comes
up and the table is loaded. -/
theorem bringUp_eq_ok_iff :
    bringUp config source adapter registry = (.ok table, ready, committed) ↔
      config.suits adapter.device = .ok () ∧
        adapter.init = (.ok (), ready) ∧
        registry.load source [ready.device] config =
          (.ok table, committed) := by
  unfold bringUp
  cases hsuits : config.suits adapter.device with
  | error error => simp
  | ok _ =>
      rcases hinit : adapter.init with ⟨error | _, up⟩
      · simp
      · simp only [Prod.mk.injEq, Outcome.mapError_eq_ok_iff, true_and]
        constructor
        · rintro ⟨hload, rfl, rfl⟩
          exact ⟨rfl, by rw [← hload]⟩
        · rintro ⟨rfl, hload⟩
          rw [hload]
          exact ⟨rfl, rfl, rfl⟩

theorem Registry.deviceOf?_singleton {region : Region} {found : Device}
    (hfound : Registry.deviceOf? [device] region = some found) :
    found = device :=
  List.mem_singleton.mp (List.mem_of_find?_eq_some hfound)

theorem ready_of_bringUp
    (hup : bringUp config source adapter registry =
      (.ok table, ready, committed)) :
    ready.device = adapter.device ∧ ready.initialized = true ∧
      (ready.chip = adapter.chip ∨
        ready.chip = (Chip.init adapter.chip).2) := by
  obtain ⟨_, hinit, _⟩ := bringUp_eq_ok_iff.mp hup
  exact Adapter.init_eq_ok hinit

/-- The table of a successful start holds the partitions of the configuration on
the device of the adapter. -/
theorem laidOut_of_bringUp
    (hup : bringUp config source adapter registry =
      (.ok table, ready, committed)) :
    Registry.LaidOut config adapter.device table.partitions := by
  obtain ⟨_, _, hload⟩ := bringUp_eq_ok_iff.mp hup
  obtain ⟨hdevice, _, _⟩ := ready_of_bringUp hup
  obtain ⟨_, hbuild, _⟩ := Registry.load_eq_ok_iff.mp hload
  rcases Registry.build_eq_ok_placed hbuild with ⟨hnone, hempty⟩ |
    ⟨region, found, _, hfound, hplaced⟩
  · rw [hempty]
    exact Registry.laidOut_nil hnone
  · rw [← hdevice, ← Registry.deviceOf?_singleton hfound]
    exact hplaced.toLaidOut

end

/-! ## The small board -/

namespace SmallBoard

def config : Config := .ofValues 8 32 32 16

def region : Region :=
  ⟨⟨"flashdb", by decide⟩, Region.storageTag, 4096, 64⟩

def source : RegionList := ⟨[region], by decide⟩

def table : Table :=
  ⟨[⟨Config.defaultKvName, device.name, 0, 32, .kv⟩,
    ⟨Config.defaultTsName, device.name, 32, 16, .ts⟩], by decide⟩

theorem bringUp_eq :
    bringUp config source adapter Registry.empty =
      (.ok table, ready, ⟨table, true⟩) := by
  rfl

end SmallBoard

end FlashStorage
