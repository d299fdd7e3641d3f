import FlashStorage.Proofs.Chip.Recording
import FlashStorage.Proofs.Registry.Refusals
import FlashStorage.Proofs.Registry.Commits

/-!
# What a start leaves behind

A start can fail at each of its three stages, and the later ones come after the chip
may have been brought up.  How a start ends tells which stage that was, and with it
what has moved: the chip by its own initialization at most, the adapter by noting that
its chip is up, and the registry only together with an answer.  Flash itself is not
touched in any case.
-/

namespace FlashStorage

/-! ## The stages of a start -/

section

variable {χ σ : Type} [Chip χ] [RegionSource σ] {config : Config} {source : σ}
  {adapter ready : Adapter χ} {registry after : Registry} {table : Table}
  {outcome : Outcome StorageError Table}

/-- How a start ends, and which stage ends it. -/
inductive StartEnd (config : Config) (source : σ) (adapter : Adapter χ)
    (registry : Registry) :
    Outcome StorageError Table × Adapter χ × Registry → Prop where
  | unsuited {cause : ConfigError}
      (hcause : config.suits adapter.device = .error cause) :
      StartEnd config source adapter registry
        (.error (.config cause), adapter, registry)
  | silent (hsuits : config.suits adapter.device = .ok ())
      (hdown : adapter.initialized = false)
      (hanswer : (Chip.init adapter.chip).1 = false) :
      StartEnd config source adapter registry
        (.error (.device .notPresent), { adapter with
          chip := (Chip.init adapter.chip).2 }, registry)
  | loaded {ready : Adapter χ}
      (hsuits : config.suits adapter.device = .ok ())
      (hinit : adapter.init = (.ok (), ready)) :
      StartEnd config source adapter registry
        ((registry.load source [adapter.device] config).1.mapError .registry,
          ready, (registry.load source [adapter.device] config).2)

theorem bringUp_end (config : Config) (source : σ) (adapter : Adapter χ)
    (registry : Registry) :
    StartEnd config source adapter registry
      (bringUp config source adapter registry) := by
  unfold bringUp
  cases hsuits : config.suits adapter.device with
  | error cause => exact .unsuited hsuits
  | ok _ =>
      have hend := adapter.init_end
      cases hinit : adapter.init with
      | mk result ready =>
          rw [hinit] at hend
          cases hend with
          | already _ => exact .loaded hsuits hinit
          | answered _ _ => exact .loaded hsuits hinit
          | silent hdown hanswer => exact .silent hsuits hdown hanswer

section

variable {watched : Adapter (Recorded χ)} {plain : Adapter χ}

/-- A recorder in front of the chip changes nothing about a start. -/
theorem Adapter.Records.bringUp (hrecords : watched.Records plain)
    (config : Config) (source : σ) (registry : Registry) :
    (FlashStorage.bringUp config source watched registry).1 =
        (FlashStorage.bringUp config source plain registry).1 ∧
      (FlashStorage.bringUp config source watched registry).2.1.Records
        (FlashStorage.bringUp config source plain registry).2.1 ∧
      (FlashStorage.bringUp config source watched registry).2.2 =
        (FlashStorage.bringUp config source plain registry).2.2 := by
  obtain ⟨hresult, hinit⟩ := hrecords.init
  unfold FlashStorage.bringUp
  rw [hrecords.device_eq]
  cases config.suits plain.device with
  | error cause => exact ⟨rfl, hrecords, rfl⟩
  | ok _ =>
      cases hplain : plain.init with
      | mk result ready =>
          cases hwatched : watched.init with
          | mk seen up =>
              rw [hplain, hwatched] at hresult hinit
              change seen = result at hresult
              change up.Records ready at hinit
              subst hresult
              cases seen with
              | error cause => exact ⟨rfl, hinit, rfl⟩
              | ok _ =>
                  simp only [hinit.device_eq]
                  exact ⟨trivial, hinit, trivial⟩

/-- What a start asks of a chip. -/
def startCalls (config : Config) (adapter : Adapter χ) : List ChipCall :=
  match config.suits adapter.device with
  | .ok _ => adapter.initCalls
  | .error _ => []

theorem Adapter.Records.calls_bringUp (hrecords : watched.Records plain)
    (config : Config) (source : σ) (registry : Registry) :
    (FlashStorage.bringUp config source watched registry).2.1.chip.calls =
      watched.chip.calls ++ startCalls config plain := by
  have hcalls := hrecords.calls_init
  unfold FlashStorage.bringUp startCalls
  rw [hrecords.device_eq]
  cases config.suits plain.device with
  | error cause => simp
  | ok _ =>
      cases hinit : watched.init with
      | mk result up =>
          rw [hinit] at hcalls
          cases result with
          | error cause => exact hcalls
          | ok _ => exact hcalls

end

/-! ## What a loaded registry is refused for -/

theorem Registry.build_of_load_eq_error {devices : List Device}
    {cause : ConfigError}
    (herror : (registry.load source devices config).1 =
      .error (.config cause)) :
    Registry.build source devices config = .error (.config cause) := by
  unfold Registry.load Registry.rescan at herror
  split at herror
  · cases herror
  · cases hbuild : Registry.build source devices config with
    | ok table => simp [hbuild] at herror
    | error error => simpa [hbuild] using herror
    | halt reason => simp [hbuild] at herror

/-- Once a configuration suits the device, only its sizes and its names are left for
the registry to object to. -/
theorem cause_of_load_eq_error {device : Device} {cause : ConfigError}
    (hsuits : config.suits device = .ok ())
    (herror : (registry.load source [device] config).1 =
      .error (.config cause)) :
    cause = .duplicateName ∨
      ∃ database, cause =
        .misaligned database (config.partitionSize database) device.block := by
  obtain ⟨hgranularity, width, hwidth⟩ := Config.suits_eq_ok_iff.mp hsuits
  obtain ⟨found, hmem, hcause⟩ := Registry.validate_of_build_eq_error
    (Registry.build_of_load_eq_error herror)
  rw [List.mem_singleton.mp hmem] at hcause
  exact Config.cause_of_validate_eq_error hgranularity hwidth hcause

/-! ## The whole start -/

/-- What a start may have done, by the way it ended. -/
structure StartReport (config : Config) (adapter ready : Adapter χ)
    (registry after : Registry) (calls : List ChipCall)
    (outcome : Outcome StorageError Table) : Prop where
  device_eq : ready.device = adapter.device
  /-- Accesses are never asked for, an initialization once at most. -/
  calls_eq :
    calls = [] ∧ (adapter.initialized = true ∨
        ∃ cause, outcome = .error (.config cause)) ∨
      calls = [.init (Chip.init adapter.chip).1] ∧
        config.granularity = .ok adapter.device.granularity ∧
        (∃ width, config.timestampWidth = .ok width) ∧
        adapter.initialized = false
  config_iff : ∀ cause, outcome = .error (.config cause) ↔
    config.suits adapter.device = .error cause
  device_iff : ∀ cause, outcome = .error (.device cause) ↔
    cause = .notPresent ∧ config.suits adapter.device = .ok () ∧
      adapter.initialized = false ∧ (Chip.init adapter.chip).1 = false
  of_config : ∀ cause, outcome = .error (.config cause) →
    calls = [] ∧ ready = adapter ∧ after = registry
  of_device : ∀ cause, outcome = .error (.device cause) →
    cause = .notPresent ∧ calls = [.init false] ∧
      ready = { adapter with chip := (Chip.init adapter.chip).2 } ∧
      after = registry
  of_registry : ∀ cause, outcome = .error (.registry cause) →
    after = registry ∧ ready.initialized = true ∧
      ∀ inner, cause = .config inner →
        inner = .duplicateName ∨
          ∃ database, inner = .misaligned database
            (config.partitionSize database) adapter.device.block
  of_ok : ∀ table, outcome = .ok table →
    registry.loaded = false ∧ after = ⟨table, true⟩ ∧
      ready.initialized = true ∧
      ∀ partition ∈ table.partitions,
        partition.device = adapter.device.name
  of_halt : ∀ reason, outcome = .halt reason →
    after = registry ∧ ready.initialized = true

theorem Registry.device_of_load {device : Device}
    (hload : registry.load source [device] config = (.ok table, after)) :
    ∀ partition ∈ table.partitions, partition.device = device.name := by
  obtain ⟨_, hbuild, _⟩ := Registry.load_eq_ok_iff.mp hload
  rcases Registry.build_eq_ok_placed hbuild with ⟨_, hempty⟩ |
    ⟨region, found, _, hfound, hplaced⟩
  · intro partition hmem
    rw [hempty] at hmem
    cases hmem
  · rw [← Registry.deviceOf?_singleton hfound]
    exact hplaced.device_eq

theorem report_of_unsuited {cause : ConfigError}
    (hcause : config.suits adapter.device = .error cause) :
    StartReport config adapter adapter registry registry
      (startCalls config adapter) (.error (.config cause)) := by
  have hcalls : startCalls config adapter = [] := by
    simp [startCalls, hcause]
  rw [hcalls]
  constructor <;> simp [hcause]

theorem report_of_silent (hsuits : config.suits adapter.device = .ok ())
    (hdown : adapter.initialized = false)
    (hanswer : (Chip.init adapter.chip).1 = false) :
    StartReport config adapter
      { adapter with chip := (Chip.init adapter.chip).2 } registry registry
      (startCalls config adapter) (.error (.device .notPresent)) := by
  obtain ⟨hgranularity, hwidth⟩ := Config.suits_eq_ok_iff.mp hsuits
  have hcalls : startCalls config adapter =
      [.init (Chip.init adapter.chip).1] := by
    simp [startCalls, hsuits, Adapter.initCalls, hdown]
  rw [hcalls]
  constructor
  case device_iff =>
    intro cause
    simp only [hsuits, hdown, hanswer, and_true, Outcome.error.injEq,
      StorageError.device.injEq]
    exact eq_comm
  all_goals simp [hgranularity, hwidth, hdown, hanswer, hsuits]

theorem report_of_loaded (hsuits : config.suits adapter.device = .ok ())
    (hinit : adapter.init = (.ok (), ready)) :
    StartReport config adapter ready registry
      (registry.load source [adapter.device] config).2
      (startCalls config adapter)
      ((registry.load source [adapter.device] config).1.mapError
        .registry) := by
  obtain ⟨hdevice, hup, _⟩ := Adapter.init_eq_ok hinit
  obtain ⟨hgranularity, hwidth⟩ := Config.suits_eq_ok_iff.mp hsuits
  have hkept : (∀ table,
      (registry.load source [adapter.device] config).1 ≠ .ok table) →
        (registry.load source [adapter.device] config).2 = registry :=
    Registry.load_snd_of_ne_ok
  have hstage : ∀ error,
      (registry.load source [adapter.device] config).1.mapError .registry =
          .error error →
        ∃ inner, (registry.load source [adapter.device] config).1 =
          .error inner ∧ StorageError.registry inner = error :=
    fun error => Outcome.mapError_eq_error_iff.mp
  constructor
  case device_eq => exact hdevice
  case calls_eq =>
    cases hdown : adapter.initialized with
    | true => simp [startCalls, hsuits, Adapter.initCalls, hdown]
    | false =>
        right
        refine ⟨?_, hgranularity, hwidth, rfl⟩
        simp [startCalls, hsuits, Adapter.initCalls, hdown]
  case config_iff =>
    intro cause
    constructor
    · intro herror
      obtain ⟨inner, _, hinner⟩ := hstage _ herror
      cases hinner
    · intro hcause
      rw [hsuits] at hcause
      cases hcause
  case device_iff =>
    intro cause
    constructor
    · intro herror
      obtain ⟨inner, _, hinner⟩ := hstage _ herror
      cases hinner
    · rintro ⟨_, _, hdown, hanswer⟩
      rw [Adapter.answer_of_init_eq_ok hinit hdown] at hanswer
      cases hanswer
  case of_config =>
    intro cause herror
    obtain ⟨inner, _, hinner⟩ := hstage _ herror
    cases hinner
  case of_device =>
    intro cause herror
    obtain ⟨inner, _, hinner⟩ := hstage _ herror
    cases hinner
  case of_registry =>
    intro cause herror
    obtain ⟨inner, hload, hinner⟩ := hstage _ herror
    cases hinner
    refine ⟨hkept ?_, hup, ?_⟩
    · intro table hok
      rw [hload] at hok
      cases hok
    · intro code hcode
      rw [hcode] at hload
      exact cause_of_load_eq_error hsuits hload
  case of_ok =>
    intro table hok
    have hload : registry.load source [adapter.device] config =
        (.ok table, (registry.load source [adapter.device] config).2) := by
      rw [← Outcome.mapError_eq_ok_iff.mp hok]
    obtain ⟨hfresh, _, hafter⟩ := Registry.load_eq_ok_iff.mp hload
    exact ⟨hfresh, hafter, hup, Registry.device_of_load hload⟩
  case of_halt =>
    intro reason hhalt
    have hload := Outcome.mapError_eq_halt_iff.mp hhalt
    refine ⟨hkept ?_, hup⟩
    intro table hok
    rw [hload] at hok
    cases hok

/-- However a start ends, it has asked its chip for an initialization at most, and for
that exactly if the configuration suits the device and the chip was down.  It fails
for the configuration exactly if that does not suit the device, and leaves everything
as it was; it fails for the chip exactly if that was asked and does not answer, and
nothing else has changed then.  What the registry refuses leaves the registry as it
was and the adapter up, and is about sizes or names if it is about the configuration.
A table is answered once, committed, and lies on the device of the adapter.  The chip
is watched by a recorder, which changes nothing else. -/
theorem start_atomic {seen : Outcome StorageError Table}
    {watched : Adapter (Recorded χ)} {kept : Registry}
    (hup : bringUp config source adapter registry =
      (outcome, ready, after))
    (hwatched : bringUp config source adapter.recorded registry =
      (seen, watched, kept)) :
    (seen = outcome ∧ watched.Records ready ∧ kept = after) ∧
      StartReport config adapter ready registry after watched.chip.calls
        outcome := by
  have hrecords := adapter.records_recorded
  have hsame := hrecords.bringUp config source registry
  have hcalls := hrecords.calls_bringUp config source registry
  have hend := bringUp_end config source adapter registry
  rw [hup, hwatched] at hsame
  rw [hwatched] at hcalls
  rw [hup] at hend
  have hnoted : watched.chip.calls = startCalls config adapter := hcalls
  rw [hnoted]
  refine ⟨hsame, ?_⟩
  cases hend with
  | unsuited hcause => exact report_of_unsuited hcause
  | silent hsuits hdown hanswer =>
      exact report_of_silent hsuits hdown hanswer
  | loaded hsuits hinit => exact report_of_loaded hsuits hinit

end

namespace SmallBoard

/-- The small board with its chip taken off. -/
def silent : Adapter SimulatedChip := .mount device SimulatedChip.absent

end SmallBoard

/-- Without its chip the small board is asked to come up once and nothing else
happens; with it, the table is committed after the same single call. -/
theorem start_atomic_smallBoard :
    StartReport SmallBoard.config SmallBoard.silent
        { SmallBoard.silent with
          chip := { SimulatedChip.absent with initCalls := 1 } }
        Registry.empty Registry.empty [.init false]
        (.error (.device .notPresent)) ∧
      StartReport SmallBoard.config SmallBoard.adapter SmallBoard.ready
        Registry.empty ⟨SmallBoard.table, true⟩ [.init true]
        (.ok SmallBoard.table) := by
  have hsilent : bringUp SmallBoard.config SmallBoard.source
      SmallBoard.silent Registry.empty =
        (.error (.device .notPresent), _, Registry.empty) := rfl
  exact ⟨(start_atomic hsilent rfl).2,
    (start_atomic SmallBoard.bringUp_eq rfl).2⟩

end FlashStorage
